import Slide.Bulk.Worker

/-!
# What a worker does to its job

A step of a run works on one open item and leaves the settled ones.  `Sound` is what a run keeps by itself;
`Advances` is what a step does to the job and to the chain of saves.
-/

namespace Slide.Bulk

open List

/-! ## Jobs -/

/-- The outcomes of an execution. -/
def ItemState.settled : ItemState → Bool
  | .succeeded | .pendingTakeover | .failed | .cancelled => true
  | _ => false

theorem ItemState.not_settled_of_open {s : ItemState} (isOpen : s.open = true) : s.settled = false := by
  cases s with
  | queued | running => rfl
  | _ => cases isOpen

/-- A preview that found nothing to execute. -/
def ItemState.declined : ItemState → Bool
  | .unsupported | .skipped => true
  | _ => false

/-- On its way from a confirmation to an outcome. -/
def ItemState.processed (s : ItemState) : Bool := s.open || s.settled

theorem ItemState.processed_cases {s : ItemState} (processed : s.processed = true) :
    s ≠ .eligible ∧ s.declined = false := by
  cases s with
  | eligible | unsupported | skipped => cases processed
  | _ => exact ⟨fun same => (nomatch same), rfl⟩

theorem ItemState.settled_of_not {s : ItemState} (eligible : s ≠ .eligible) (still : s.open = false)
    (declined : s.declined = false) : s.settled = true := by
  cases s with
  | eligible => exact absurd rfl eligible
  | queued | running => cases still
  | unsupported | skipped => cases declined
  | _ => rfl

def BulkItem.target (item : BulkItem) : String × Option Nat := (item.resource, item.expectedRevision)

/-- The same request for the same resources. -/
structure Same (a b : BulkJob) : Prop where
  owner : b.owner = a.owner
  key : b.key = a.key
  inputDigest : b.inputDigest = a.inputDigest
  targets : ∀ i : Nat, (b.items[i]?).map BulkItem.target = (a.items[i]?).map BulkItem.target

/-- The later snapshot has the settled items of the earlier one, and declines no other item. -/
structure Keeps (a b : BulkJob) : Prop extends Same a b where
  settled : ∀ (i : Nat) item, a.items[i]? = some item → item.state.settled = true → b.items[i]? = some item
  declined : ∀ (i : Nat) item item', a.items[i]? = some item → b.items[i]? = some item' →
    item'.state.declined = true → item.state.declined = true

theorem Same.refl (a : BulkJob) : Same a a := ⟨rfl, rfl, rfl, fun _ => rfl⟩

theorem Same.symm {a b : BulkJob} (same : Same a b) : Same b a :=
  ⟨same.owner.symm, same.key.symm, same.inputDigest.symm, fun i => (same.targets i).symm⟩

theorem Same.trans {a b c : BulkJob} (first : Same a b) (rest : Same b c) : Same a c :=
  ⟨rest.owner.trans first.owner, rest.key.trans first.key, rest.inputDigest.trans first.inputDigest,
    fun i => (rest.targets i).trans (first.targets i)⟩

theorem Same.item {a b : BulkJob} (same : Same a b) {i : Nat} {item : BulkItem} (found : a.items[i]? = some item) :
    ∃ item', b.items[i]? = some item' ∧ item'.resource = item.resource ∧
      item'.expectedRevision = item.expectedRevision := by
  have targets := same.targets i
  rw [found] at targets
  obtain ⟨item', found', equal⟩ := Option.map_eq_some_iff.mp targets
  exact ⟨item', found', congrArg Prod.fst equal, congrArg Prod.snd equal⟩

theorem keeps_of_items {a b : BulkJob} (owner : b.owner = a.owner) (key : b.key = a.key)
    (inputDigest : b.inputDigest = a.inputDigest) (items : b.items = a.items) : Keeps a b := by
  refine ⟨⟨owner, key, inputDigest, fun i => by rw [items]⟩, fun i item found _ => items ▸ found,
    fun i item item' found found' declined => ?_⟩
  rw [items, found] at found'
  cases found'
  exact declined

instance : Std.Refl Keeps := ⟨fun _ => keeps_of_items rfl rfl rfl rfl⟩

instance : IsTrans BulkJob Keeps where
  trans _ _ _ first rest := by
    refine ⟨first.toSame.trans rest.toSame, fun i item found settled =>
      rest.settled i item (first.settled i item found settled) settled, fun i item item' found found' declined => ?_⟩
    obtain ⟨middle, there, -, -⟩ := first.toSame.item found
    exact first.declined i item middle found there (rest.declined i middle item' there found' declined)

theorem Keeps.not_settled {a b : BulkJob} (keeps : Keeps a b) {i : Nat} {item item' : BulkItem}
    (found : a.items[i]? = some item) (found' : b.items[i]? = some item') (isOpen : item'.state.open = true) :
    item.state.settled = false := by
  refine Bool.eq_false_iff.mpr fun settled => ?_
  obtain rfl := some.inj ((keeps.settled i item found settled).symm.trans found')
  rw [ItemState.not_settled_of_open isOpen] at settled
  cases settled

/-- A job that has been confirmed has no item left to confirm. -/
def BulkJob.NoneEligible (job : BulkJob) : Prop := ∀ item ∈ job.items, item.state ≠ .eligible

def BulkJob.NoneOpen (job : BulkJob) : Prop := ∀ item ∈ job.items, item.state.open = false

/-! ## Runs -/

namespace Run

/-- What holds of a run whatever the other processes do. -/
structure Sound (r : Run) (stopping : Bool) : Prop where
  active : ∀ i, (r.phases i).active = true → ∃ item, r.job.items[i]? = some item ∧ item.state.open = true
  /-- Where an item has come to an end, only a shutdown leaves it open. -/
  through : ∀ i item, r.phases i = .done ∨ r.phases i = .persisting → r.job.items[i]? = some item →
    item.state.open = true → stopping = true
  running : r.closing = false → r.job.state = .running ∧ ∀ s ∈ r.due, s.snapshot.state = .running
  eligible : r.job.NoneEligible ∧ ∀ s ∈ r.due, s.snapshot.NoneEligible
  broken : r.broken = true → r.due = []
  closed : r.closing = true → r.job.items.length ≤ r.cursor ∧ (∀ i, (r.phases i).active = false) ∧ (r.due = [] ∨ r.due = [⟨r.job, none⟩]) ∧
    (r.job.state = .queued ∧ stopping = true ∨
      (r.job.state = .completed ∨ r.job.state = .cancelled) ∧ r.job.NoneOpen)

/-- A step of a run that is not closing. -/
structure Advances (r r' : Run) : Prop where
  id : r'.id = r.id
  keeps : Keeps r.job r'.job
  due : r'.due = r.due ∨ ∃ awaiting, r'.due = r.due ++ [⟨r'.job, awaiting⟩]
  broken : r'.broken = r.broken
  closing : r'.closing = r.closing

theorem Advances.refl (r : Run) : Advances r r := ⟨rfl, refl_of Keeps r.job, .inl rfl, rfl, rfl⟩

section Items

variable {r : Run} {i j : Nat} {f : BulkItem → BulkItem} {p : Phase} {stopping : Bool}

theorem setItem_get : (r.setItem i f).job.items[j]? = if i = j then (r.job.items[i]?).map f else r.job.items[j]? := by
  have read := getElem?_modify f i r.job.items j
  refine read.trans ?_
  split_ifs with same
  · subst same
    cases r.job.items[i]? <;> rfl
  · cases r.job.items[j]? <;> rfl

/-- What a step may do to an item: it stays an item for its resource. -/
structure Fits (f : BulkItem → BulkItem) : Prop where
  target : ∀ item, (f item).target = item.target
  state : ∀ item, (f item).state = item.state ∨ (f item).state.processed = true

theorem setItem_keeps (fits : Fits f)
    (unsettled : ∀ item, r.job.items[i]? = some item → item.state.settled = false) :
    Keeps r.job (r.setItem i f).job := by
  refine ⟨⟨rfl, rfl, rfl, fun j => ?_⟩, fun j item found settled => ?_, fun j item item' found found' declined => ?_⟩
  · rw [setItem_get]
    split_ifs with same
    · subst same
      cases r.job.items[i]? with
      | none => rfl
      | some item => exact congrArg some (fits.target item)
    · rfl
  · rw [setItem_get, if_neg]
    · exact found
    · rintro rfl
      rw [unsettled item found] at settled
      cases settled
  · rw [setItem_get] at found'
    split_ifs at found' with same
    · subst same
      rw [found] at found'
      cases found'
      rcases fits.state item with kept | processed
      · exact kept ▸ declined
      · rw [(ItemState.processed_cases processed).2] at declined
        cases declined
    · obtain rfl := some.inj (found.symm.trans found')
      exact declined

theorem setItem_eligible (fits : Fits f) (none : r.job.NoneEligible) : (r.setItem i f).job.NoneEligible := by
  intro item mem
  obtain ⟨j, found⟩ := mem_iff_getElem?.mp mem
  rw [setItem_get] at found
  split_ifs at found with same
  · obtain ⟨old, there, rfl⟩ := Option.map_eq_some_iff.mp found
    rcases fits.state old with kept | processed
    · exact kept ▸ none old (mem_of_getElem? there)
    · exact (ItemState.processed_cases processed).1
  · exact none item (mem_of_getElem? found)

@[simp] theorem setPhase_phases : (r.setPhase i p).phases j = if j = i then p else r.phases j := by
  simp [setPhase, Function.update_apply]

theorem active_unsettled (sound : Sound r stopping) (active : (r.phases i).active = true) (item : BulkItem)
    (found : r.job.items[i]? = some item) : item.state.settled = false := by
  obtain ⟨item', found', isOpen⟩ := sound.active i active
  obtain rfl := some.inj (found.symm.trans found')
  exact ItemState.not_settled_of_open isOpen

theorem active_not_closing (sound : Sound r stopping) (active : (r.phases i).active = true) : r.closing = false := by
  refine Bool.eq_false_iff.mpr fun closing => ?_
  rw [(sound.closed closing).2.1 i] at active
  cases active

theorem Sound.turn (sound : Sound r stopping) (active : (r.phases i).active = true) (fits : Fits f)
    (isOpen : p.active = true → ∀ item, item.state.open = true → (f item).state.open = true)
    (through : p = .done ∨ p = .persisting → ∀ item, (f item).state.open = true → stopping = true) :
    Sound ((r.setItem i f).setPhase i p) stopping := by
  have unclosed := active_not_closing sound active
  obtain ⟨own, there, open_⟩ := sound.active i active
  refine ⟨fun j at_j => ?_, fun j item at_j found still => ?_, sound.running, ⟨setItem_eligible fits sound.eligible.1,
    sound.eligible.2⟩, sound.broken, fun closing => ?_⟩
  · rw [setPhase_phases] at at_j
    have read := @setItem_get r i j f
    split_ifs at at_j with same
    · subst same
      rw [if_pos rfl, there] at read
      exact ⟨f own, read, isOpen at_j own open_⟩
    · obtain ⟨item, found, still⟩ := sound.active j at_j
      exact ⟨item, read.trans ((if_neg (Ne.symm same)).trans found), still⟩
  · rw [setPhase_phases] at at_j
    have read := (@setItem_get r i j f).symm.trans found
    split_ifs at at_j read with same same' same'
    · obtain ⟨old, -, rfl⟩ := Option.map_eq_some_iff.mp read
      exact through at_j old still
    · exact absurd same.symm same'
    · exact absurd same'.symm same
    · exact sound.through j item at_j read still
  · exact absurd (unclosed.symm.trans closing) Bool.false_ne_true

theorem advances_turn (sound : Sound r stopping) (active : (r.phases i).active = true) (fits : Fits f) :
    Advances r ((r.setItem i f).setPhase i p) :=
  ⟨rfl, setItem_keeps fits (active_unsettled sound active), .inl rfl, rfl, rfl⟩

theorem Sound.persist (sound : Sound r stopping) (active : (r.phases i).active = true) (fits : Fits f)
    (isOpen : p.active = true → ∀ item, item.state.open = true → (f item).state.open = true)
    (through : p = .done ∨ p = .persisting → ∀ item, (f item).state.open = true → stopping = true) :
    Sound ((r.setItem i f).persist i p) stopping := by
  unfold Run.persist
  split_ifs with broken
  · exact sound.turn active fits (fun at_ => nomatch at_) (fun at_ => at_.elim (fun h => nomatch h) fun h => nomatch h)
  · have unclosed := active_not_closing sound active
    have turned := sound.turn active fits isOpen through
    refine ⟨turned.active, turned.through, fun _ => ⟨(sound.running unclosed).1, fun s mem => ?_⟩,
      ⟨turned.eligible.1, fun s mem => ?_⟩, fun now => ?_, fun closing => ?_⟩
    · rcases mem_append.mp mem with before | new
      · exact (sound.running unclosed).2 s before
      · rw [mem_singleton.mp new]
        exact (sound.running unclosed).1
    · rcases mem_append.mp mem with before | new
      · exact sound.eligible.2 s before
      · rw [mem_singleton.mp new]
        exact turned.eligible.1
    · exact absurd now broken
    · exact absurd (unclosed.symm.trans closing) Bool.false_ne_true

theorem advances_persist (sound : Sound r stopping) (active : (r.phases i).active = true) (fits : Fits f) :
    Advances r ((r.setItem i f).persist i p) := by
  have keeps := setItem_keeps fits (active_unsettled sound active)
  unfold Run.persist
  split_ifs with broken
  · exact ⟨rfl, keeps, .inl rfl, rfl, rfl⟩
  · exact ⟨rfl, keeps, .inr ⟨some i, rfl⟩, rfl, rfl⟩

end Items

section Steps

variable {r : Run} {i : Nat} {stopping : Bool}

theorem Sound.setPhase {p : Phase} (sound : Sound r stopping) (active : (r.phases i).active = true)
    (ends : ¬(p = .done ∨ p = .persisting)) : Sound (r.setPhase i p) stopping ∧ Advances r (r.setPhase i p) := by
  have fits : Fits fun item => item := ⟨fun _ => rfl, fun _ => .inl rfl⟩
  have same : r.setItem i (fun item => item) = r :=
    congrArg (fun items => { r with job := { r.job with items } }) (modify_id i r.job.items)
  have turned := sound.turn active fits (fun _ _ still => still) (p := p) fun at_end => absurd at_end ends
  have moved := advances_turn (p := p) sound active fits
  rw [same] at turned moved
  exact ⟨turned, moved⟩

theorem take_sound (sound : Sound r stopping) : Sound r.take stopping ∧ Advances r r.take := by
  unfold take
  cases found : r.job.items[r.cursor]? with
  | none => exact ⟨sound, .refl r⟩
  | some item =>
    have inside : r.cursor < r.job.items.length := (List.getElem?_eq_some_iff.mp found).1
    have unclosed : ¬r.closing = true := fun closing => absurd (sound.closed closing).1 (by omega)
    simp only
    split_ifs with free isOpen
    · refine ⟨⟨fun j at_j => ?_, fun j other at_j there still => ?_, sound.running, sound.eligible, sound.broken,
        fun closing => absurd closing unclosed⟩, ⟨rfl, refl_of Keeps r.job, .inl rfl, rfl, rfl⟩⟩
      · rw [setPhase_phases] at at_j
        split_ifs at at_j with same
        · exact ⟨item, same ▸ found, isOpen⟩
        · exact sound.active j at_j
      · rw [setPhase_phases] at at_j
        split_ifs at at_j with same
        · exact absurd at_j (fun ends => ends.elim (fun h => nomatch h) fun h => nomatch h)
        · exact sound.through j other at_j there still
    · refine ⟨⟨fun j at_j => ?_, fun j other at_j there still => ?_, sound.running, sound.eligible, sound.broken,
        fun closing => absurd closing unclosed⟩, ⟨rfl, refl_of Keeps r.job, .inl rfl, rfl, rfl⟩⟩
      · rw [setPhase_phases] at at_j
        split_ifs at at_j with same
        · cases at_j
        · exact sound.active j at_j
      · rw [setPhase_phases] at at_j
        split_ifs at at_j with same
        · subst same
          obtain rfl := some.inj (found.symm.trans there)
          exact absurd still isOpen
        · exact sound.through j other at_j there still
    · exact ⟨sound, .refl r⟩

theorem fits_revision (revision : Nat) : Fits fun item => { item with revision := some revision } :=
  ⟨fun _ => rfl, fun _ => .inl rfl⟩

theorem reconcile_sound (sound : Sound r stopping) (found : Option Nat) :
    Sound (r.reconcile i found) stopping ∧ Advances r (r.reconcile i found) := by
  unfold reconcile
  split_ifs with at_i
  · have active : (r.phases i).active = true := by rw [at_i]; rfl
    cases found with
    | none => exact sound.setPhase active (fun ends => ends.elim (fun h => nomatch h) fun h => nomatch h)
    | some revision =>
      exact ⟨sound.turn active (fits_revision revision) (fun _ _ still => still)
        (fun ends => ends.elim (fun h => nomatch h) fun h => nomatch h),
        advances_turn sound active (fits_revision revision)⟩
  · exact ⟨sound, .refl r⟩

theorem check_sound (sound : Sound r stopping) : Sound (r.check i) stopping ∧ Advances r (r.check i) := by
  unfold check
  split_ifs with at_i
  · have active : (r.phases i).active = true := by rw [at_i]; rfl
    have fits : Fits fun item => { item with state := .running } := ⟨fun _ => rfl, fun _ => .inr rfl⟩
    exact ⟨sound.persist active fits (fun _ _ _ => rfl)
      (fun ends => ends.elim (fun h => nomatch h) fun h => nomatch h), advances_persist sound active fits⟩
  · exact ⟨sound, .refl r⟩

theorem acknowledge_sound (sound : Sound r stopping) :
    Sound (r.acknowledge i) stopping ∧ Advances r (r.acknowledge i) := by
  unfold acknowledge
  cases at_i : r.phases i with
  | committed revision =>
    have active : (r.phases i).active = true := by rw [at_i]; rfl
    exact ⟨sound.turn active (fits_revision revision) (fun _ _ still => still)
      (fun ends => ends.elim (fun h => nomatch h) fun h => nomatch h),
      advances_turn sound active (fits_revision revision)⟩
  | _ => exact ⟨sound, .refl r⟩

theorem verdict_settled (revision : Option Nat) (s : Status) :
    verdict revision s = .succeeded ∨ verdict revision s = .pendingTakeover := by
  unfold verdict
  split_ifs
  · exact .inl rfl
  · exact .inr rfl

theorem conclude_sound (sound : Sound r stopping) (s : Status) :
    Sound (r.conclude i s) stopping ∧ Advances r (r.conclude i s) := by
  unfold conclude
  split_ifs with at_i
  · have active : (r.phases i).active = true := by rw [at_i]; rfl
    have fits : Fits fun item =>
        { item with status := some s, state := verdict item.revision s, code := none } := by
      refine ⟨fun _ => rfl, fun item => .inr ?_⟩
      rcases verdict_settled item.revision s with h | h
      · rw [h]
        rfl
      · rw [h]
        rfl
    refine ⟨sound.persist active fits (fun h => nomatch h) (fun _ item still => ?_), advances_persist sound active fits⟩
    rcases verdict_settled item.revision s with h | h
    · rw [h] at still
      cases still
    · rw [h] at still
      cases still
  · exact ⟨sound, .refl r⟩

theorem failure_state (code : String) (item : BulkItem) :
    item.revision ≠ none ∧ (failure stopping code item).state = .pendingTakeover ∨
      item.revision = none ∧
        (stopping = true ∧ (failure stopping code item).state = .queued ∨
          stopping = false ∧ ((failure stopping code item).state = .cancelled ∨
            (failure stopping code item).state = .failed)) := by
  unfold failure
  split_ifs with known cancelled stops
  · exact .inl ⟨known, rfl⟩
  · exact .inr ⟨not_not.mp known, .inl ⟨stops, rfl⟩⟩
  · exact .inr ⟨not_not.mp known, .inr ⟨Bool.eq_false_iff.mpr stops, .inl rfl⟩⟩
  · refine .inr ⟨not_not.mp known, .inr ⟨Bool.eq_false_iff.mpr fun stops => cancelled (.inr stops), .inr rfl⟩⟩

theorem failure_fits (code : String) : Fits (failure stopping code) := by
  refine ⟨fun item => ?_, fun item => .inr ?_⟩
  · unfold failure
    split_ifs <;> rfl
  · rcases @failure_state stopping code item with ⟨-, h⟩ | ⟨-, ⟨-, h⟩ | ⟨-, h | h⟩⟩ <;> rw [h] <;> rfl

theorem throws_active {p : Phase} (throws : Phase.throws p = true) : p.active = true := by
  cases p with
  | reconciling | checking | activating | committed | published => rfl
  | _ => cases throws

theorem fail_sound (sound : Sound r stopping) (code : String) :
    Sound (r.fail i stopping code) stopping ∧ Advances r (r.fail i stopping code) := by
  unfold fail
  split_ifs with throws
  · have active := throws_active throws
    have fits := @failure_fits stopping code
    refine ⟨sound.persist active fits (fun h => nomatch h) (fun _ item still => ?_), advances_persist sound active fits⟩
    rcases @failure_state stopping code item with ⟨-, h⟩ | ⟨-, ⟨stops, -⟩ | ⟨-, h | h⟩⟩
    · rw [h] at still
      cases still
    · exact stops
    · rw [h] at still
      cases still
    · rw [h] at still
      cases still
  · exact ⟨sound, .refl r⟩

theorem close_sound (sound : Sound r stopping) (closes : r.closes = true) (cancelled : Bool) :
    Sound (r.close cancelled) stopping ∧ Keeps r.job (r.close cancelled).job ∧
      (r.close cancelled).due = [⟨(r.close cancelled).job, none⟩] := by
  unfold Run.closes at closes
  simp only [Bool.and_eq_true, Bool.not_eq_true', decide_eq_true_eq, List.all_eq_true, List.mem_range,
    List.isEmpty_iff] at closes
  obtain ⟨⟨⟨⟨⟨-, unclosed⟩, intact⟩, none⟩, all⟩, done⟩ := closes
  have inactive : ∀ i, (r.phases i).active = false := by
    intro i
    refine Bool.eq_false_iff.mpr fun active => ?_
    obtain ⟨item, found, -⟩ := sound.active i active
    rw [done i (List.getElem?_eq_some_iff.mp found).1] at active
    cases active
  have due : (r.close cancelled).due = [⟨(r.close cancelled).job, Option.none⟩] := by
    unfold close
    rw [none]
    rfl
  have keeps : Keeps r.job (r.close cancelled).job := keeps_of_items rfl rfl rfl rfl
  refine ⟨⟨sound.active, sound.through, fun h => (nomatch h), ⟨sound.eligible.1, fun s mem => ?_⟩, 
    fun broken => absurd (intact.symm.trans broken) Bool.false_ne_true, fun _ => ⟨all.ge, inactive, .inr due, ?_⟩⟩,
    keeps, due⟩
  · rw [due] at mem
    rw [mem_singleton.mp mem]
    exact sound.eligible.1
  · cases still : r.job.items.any (·.state.open) with
    | true =>
      left
      refine ⟨by simp [close, still], ?_⟩
      obtain ⟨item, mem, open_⟩ := any_eq_true.mp still
      obtain ⟨i, found⟩ := List.mem_iff_getElem?.mp mem
      exact sound.through i item (.inl (done i (List.getElem?_eq_some_iff.mp found).1)) found open_
    | false =>
      right
      refine ⟨?_, fun item mem => ?_⟩
      · unfold close
        simp only [still]
        cases cancelled with
        | true => exact .inr rfl
        | false => exact .inl rfl
      · exact Bool.eq_false_iff.mpr (any_eq_false.mp still item mem)

theorem saved_sound {s : Save} {rest : List Save} (sound : Sound r stopping) (due : r.due = s :: rest) :
    Sound (r.saved rest s.awaiting) stopping ∧ (r.saved rest s.awaiting).id = r.id ∧
      (r.saved rest s.awaiting).job = r.job ∧ (r.saved rest s.awaiting).due = rest ∧
      (r.saved rest s.awaiting).broken = r.broken ∧ (r.saved rest s.awaiting).closing = r.closing := by
  have intact : r.broken = false := by
    refine Bool.eq_false_iff.mpr fun broken => ?_
    rw [sound.broken broken] at due
    cases due
  have within : ∀ e ∈ rest, e ∈ r.due := fun e mem => due ▸ mem_cons_of_mem s mem
  have last : r.closing = true → rest = [] := by
    intro closing
    rcases (sound.closed closing).2.2.1 with none | one
    · rw [none] at due
      cases due
    · rw [one] at due
      exact (List.cons.inj due).2.symm
  -- whichever phase the save resumes, what is due and the job are as they were
  have phases : ∀ r', r'.id = r.id → r'.job = r.job → r'.due = rest → r'.broken = r.broken → r'.closing = r.closing →
      r'.cursor = r.cursor →
      (∀ j, (r'.phases j).active = (r.phases j).active ∧
        (r'.phases j = .done ∨ r'.phases j = .persisting → r.phases j = .done ∨ r.phases j = .persisting)) →
      Sound r' stopping ∧ r'.id = r.id ∧ r'.job = r.job ∧ r'.due = rest ∧ r'.broken = r.broken ∧
        r'.closing = r.closing := by
    intro r' id job due' broken closing cursor same
    refine ⟨⟨?_, ?_, ?_, ?_, ?_, ?_⟩, id, job, due', broken, closing⟩
    · intro j at_j
      rw [job]
      exact sound.active j ((same j).1.symm.trans at_j)
    · intro j item at_j found
      rw [job] at found
      exact sound.through j item ((same j).2 at_j) found
    · intro unclosed
      rw [job, due']
      obtain ⟨running, each⟩ := sound.running (closing.symm.trans unclosed)
      exact ⟨running, fun e mem => each e (within e mem)⟩
    · rw [job, due']
      exact ⟨sound.eligible.1, fun e mem => sound.eligible.2 e (within e mem)⟩
    · intro now
      exact absurd (intact.symm.trans (broken.symm.trans now)) Bool.false_ne_true
    · intro closed
      obtain ⟨all, inactive, -, state⟩ := sound.closed (closing.symm.trans closed)
      rw [job, due', cursor, last (closing.symm.trans closed)]
      exact ⟨all, fun j => (same j).1.trans (inactive j), .inl rfl, state⟩
  unfold saved
  cases s.awaiting with
  | none => exact phases _ rfl rfl rfl rfl rfl rfl fun _ => ⟨rfl, fun h => h⟩
  | some i =>
    simp only
    cases at_i : r.phases i with
    | starting =>
      refine phases _ rfl rfl rfl rfl rfl rfl fun j => ?_
      simp only [setPhase_phases]
      split_ifs with same
      · subst same
        rw [at_i]
        exact ⟨rfl, fun ends => ends.elim (fun h => nomatch h) fun h => nomatch h⟩
      · exact ⟨rfl, fun h => h⟩
    | persisting =>
      refine phases _ rfl rfl rfl rfl rfl rfl fun j => ?_
      simp only [setPhase_phases]
      split_ifs with same
      · subst same
        rw [at_i]
        exact ⟨rfl, fun _ => .inr rfl⟩
      · exact ⟨rfl, fun h => h⟩
    | _ => exact phases _ rfl rfl rfl rfl rfl rfl fun _ => ⟨rfl, fun h => h⟩

theorem saveFailed_phase {p : Phase} (i : Nat) (at_i : r.saveFailed.phases i = p) (kept : p ≠ .rejected) :
    r.phases i = p := by
  unfold saveFailed at at_i
  simp only at at_i
  cases was : r.phases i with
  | starting | persisting =>
    rw [was] at at_i
    exact absurd at_i.symm kept
  | _ =>
    rw [was] at at_i
    exact at_i

theorem saveFailed_sound (sound : Sound r stopping) : Sound r.saveFailed stopping := by
  refine ⟨fun j at_j => ?_, fun j item at_j found still => ?_, fun unclosed => ?_, ⟨sound.eligible.1, ?_⟩,
    fun _ => rfl, fun closing => ?_⟩
  · have was := saveFailed_phase j rfl (fun rejected => by rw [rejected] at at_j; cases at_j)
    exact sound.active j (was ▸ at_j)
  · have was := saveFailed_phase j rfl (fun rejected => by
      rw [rejected] at at_j
      exact at_j.elim (fun h => nomatch h) fun h => nomatch h)
    exact sound.through j item (was ▸ at_j) found still
  · exact ⟨(sound.running unclosed).1, fun s mem => (nomatch mem)⟩
  · intro s mem
    cases mem
  · obtain ⟨all, inactive, -, state⟩ := sound.closed closing
    refine ⟨all, fun j => ?_, .inl rfl, state⟩
    refine Bool.eq_false_iff.mpr fun active => ?_
    have was := saveFailed_phase j rfl (fun rejected => by rw [rejected] at active; cases active)
    rw [← was, inactive j] at active
    cases active

theorem start_sound {id : String} {job : BulkJob} (none : job.NoneEligible) : Sound (start id job) stopping := by
  refine ⟨fun _ at_j => (nomatch at_j), fun _ _ at_j => at_j.elim (fun h => (nomatch h)) fun h => (nomatch h),
    fun _ => ⟨rfl, fun s mem => ?_⟩, ⟨none, fun s mem => ?_⟩, fun broken => (nomatch broken),
    fun closing => (nomatch closing)⟩
  · rw [mem_singleton.mp mem]
  · rw [mem_singleton.mp mem]
    exact none

theorem Sound.stop (sound : Sound r stopping) : Sound r true := by
  refine ⟨sound.active, fun _ _ _ _ _ => rfl, sound.running, sound.eligible, sound.broken, fun closing => ?_⟩
  obtain ⟨all, inactive, due, state⟩ := sound.closed closing
  exact ⟨all, inactive, due, state.imp (fun queued => ⟨queued.1, rfl⟩) fun past => past⟩

end Steps

end Run

end Slide.Bulk
