import Slide.Library.Log
import Slide.Migrations.Runner

/-!
# Every statement once and in order

What the ledger and the log of all runs have in common, whatever the runs, their failures and their ends.
A migration with an unsettled row stops every later run until its row is acknowledged, and an acknowledged
row counts as completed although its statements have not all succeeded.
-/

namespace Slide.Migrations

open List

variable {host : Host} {directory : Directory}

/-! ## The ledger -/

namespace Ledger

variable {ledger ledger' : Ledger} {id j : String} {row : LedgerEntry} {f : LedgerEntry → LedgerEntry}

@[simp] theorem get_update :
    (ledger.update id f).get j = if j = id then (ledger.get id).map f else ledger.get j := by
  simp [update, Table.get_updateWhere]

theorem insert_eq_some : ledger.insert id row = some ledger' ↔ ledger.get id = none ∧ ledger' = ledger.put id row := by
  unfold insert
  cases ledger.get id <;> simp [eq_comm]

/-- A row that lets `runLocked` continue. -/
def Settled (ledger : Ledger) (id : String) : Prop := ∃ row, ledger.get id = some row ∧ row.settled = true

/-- No row is lost, and a settled one stays settled. -/
def Grows (ledger ledger' : Ledger) : Prop :=
  ∀ id row, ledger.get id = some row → ∃ row', ledger'.get id = some row' ∧ (row.settled = true → row'.settled = true)

theorem Grows.refl (ledger : Ledger) : ledger.Grows ledger := fun _ row found => ⟨row, found, fun settled => settled⟩

theorem Grows.settled (grows : ledger.Grows ledger') (settled : ledger.Settled id) : ledger'.Settled id := by
  obtain ⟨row, found, settled⟩ := settled
  obtain ⟨row', found', kept⟩ := grows id row found
  exact ⟨row', found', kept settled⟩

theorem Grows.isSome (grows : ledger.Grows ledger') (some_row : (ledger.get id).isSome = true) :
    (ledger'.get id).isSome = true := by
  obtain ⟨row, found⟩ := Option.isSome_iff_exists.mp some_row
  obtain ⟨row', found', -⟩ := grows id row found
  exact Option.isSome_iff_exists.mpr ⟨row', found'⟩

theorem grows_put (new : ledger.get id = none) : ledger.Grows (ledger.put id row) := by
  intro j old found
  refine ⟨old, ?_, fun settled => settled⟩
  rw [Table.get_put_ne, found]
  rintro rfl
  rw [new] at found
  cases found

theorem get_of_put (unsettled : row.settled = false) {old : LedgerEntry} (found : (ledger.put id row).get j = some old)
    (settled : old.settled = true) : ledger.get j = some old := by
  by_cases same : j = id
  · subst same
    rw [Table.get_put_self, Option.some.injEq] at found
    rw [← found, unsettled] at settled
    cases settled
  · rwa [Table.get_put_ne same] at found

theorem grows_update (found : ledger.get id = some row) (kept : row.settled = true → (f row).settled = true) :
    ledger.Grows (ledger.update id f) := by
  intro j old found'
  by_cases same : j = id
  · subst same
    obtain rfl := some.inj (found.symm.trans found')
    exact ⟨f row, by simp [found], kept⟩
  · exact ⟨old, by simp [same, found'], fun settled => settled⟩

end Ledger

/-! ## What the log says -/

namespace Entry

def about : Entry → Option String
  | .begun id => some id
  | .executed id _ _ => some id
  | .ended id => some id
  | .acknowledged id => some id
  | .uncovered => none

/-- The statement that an entry is about. -/
def statement? : Entry → Option (String × Nat)
  | .executed id index _ => some (id, index)
  | _ => none

end Entry

def Succeeded (host : Host) (log : List Entry) (m : SqlMigration) : Prop :=
  ∀ index < (host.statements m).length, .executed m.id index .ok ∈ log

/-- What lets the migrations after this one run. -/
def Passed (host : Host) (log : List Entry) (m : SqlMigration) : Prop :=
  coveredBySnapshot m.id = true ∨ Succeeded host log m ∨ .acknowledged m.id ∈ log

/-- A migration has failed, or a run has ended inside it. -/
def Broken (log : List Entry) (id : String) : Prop :=
  .ended id ∈ log ∨ ∃ index answer, .executed id index answer ∈ log ∧ answer ≠ .ok

/-- The coverage has been lost: its run has ended before, or the snapshot has only been acknowledged. -/
def Exposed (log : List Entry) : Prop := .uncovered ∈ log ∨ .acknowledged snapshotId ∈ log

/-- What holds before a statement of `m` is executed. -/
structure InOrder (host : Host) (directory : Directory) (before : List Entry) (m : SqlMigration) (index : Nat) :
    Prop where
  bound : index < (host.statements m).length
  earlier : ∃ done rest, directory.loadMigrations = done ++ m :: rest ∧ ∀ e ∈ done, Passed host before e
  own : ∀ j answer, .executed m.id j answer ∈ before ↔ j < index ∧ answer = .ok
  repaired : ∀ id, Broken before id → id ≠ m.id ∧ .acknowledged id ∈ before
  uncovered : coveredBySnapshot m.id = true → (∃ s ∈ directory.loadMigrations, s.id = snapshotId) → Exposed before

/-- Every statement is in order when it is executed. -/
def Lawful (host : Host) (directory : Directory) (before : List Entry) : Entry → Prop
  | .executed id index _ => ∃ m, m.id = id ∧ InOrder host directory before m index
  | _ => True

section Growth

variable {log log' : List Entry} {m : SqlMigration} {id : String}

theorem Succeeded.mono (succeeded : Succeeded host log m) (grows : log ⊆ log') : Succeeded host log' m :=
  fun index bound => grows (succeeded index bound)

theorem Exposed.mono (exposed : Exposed log) (grows : log ⊆ log') : Exposed log' :=
  exposed.imp (@grows _) (@grows _)

theorem Broken.about (broken : Broken log id) : ∃ e ∈ log, e.about = some id := by
  rcases broken with ended | ⟨index, answer, executed, -⟩
  · exact ⟨_, ended, rfl⟩
  · exact ⟨_, executed, rfl⟩

theorem broken_snoc {e : Entry} :
    Broken (log ++ [e]) id ↔
      Broken log id ∨ e = .ended id ∨ ∃ index answer, e = .executed id index answer ∧ answer ≠ .ok := by
  unfold Broken
  constructor
  · rintro (ended | ⟨index, answer, executed, failed⟩)
    · rcases mem_append.mp ended with old | new
      · exact .inl (.inl old)
      · exact .inr (.inl (mem_singleton.mp new).symm)
    · rcases mem_append.mp executed with old | new
      · exact .inl (.inr ⟨index, answer, old, failed⟩)
      · exact .inr (.inr ⟨index, answer, (mem_singleton.mp new).symm, failed⟩)
  · rintro ((ended | ⟨index, answer, executed, failed⟩) | rfl | ⟨index, answer, rfl, failed⟩)
    · exact .inl (mem_append_left _ ended)
    · exact .inr ⟨index, answer, mem_append_left _ executed, failed⟩
    · exact .inl mem_concat_self
    · exact .inr ⟨index, answer, mem_concat_self, failed⟩

end Growth

/-! ## The ledger and the log -/

/-- What the ledger and the log have in common, wherever the process that holds the lock stands. -/
structure Facts (host : Host) (directory : Directory) (ledger : Ledger) (log : List Entry) : Prop where
  rowed : ∀ e ∈ log, ∀ id, e.about = some id → (ledger.get id).isSome = true
  begun : ∀ id, .begun id ∈ log → ∃ done m rest, directory.loadMigrations = done ++ m :: rest ∧ m.id = id ∧
    ∀ e ∈ done, ledger.Settled e.id
  completed : ∀ m ∈ directory.loadMigrations, ∀ row, ledger.get m.id = some row → row.status = .completed →
    Succeeded host log m ∨ .acknowledged m.id ∈ log
  baselined : ∀ id row, ledger.get id = some row → row.status = .baselined → coveredBySnapshot id = true
  broken : ∀ id, Broken log id → .begun id ∈ log ∧ (.acknowledged id ∈ log ∨ ¬ ledger.Settled id)
  lawful : Log.Justified (Lawful host directory) log

/-- A migration whose row has been inserted and is not settled. -/
structure Open (ledger : Ledger) (log : List Entry) (id : String) : Prop where
  begun : .begun id ∈ log
  row : ∃ row, ledger.get id = some row ∧ row.settled = false

/-- Everything before `rest` is settled. -/
def Cleared (directory : Directory) (ledger : Ledger) (rest : List SqlMigration) : Prop :=
  ∃ done, directory.loadMigrations = done ++ rest ∧ ∀ e ∈ done, ledger.Settled e.id

section Facts

variable {ledger ledger' : Ledger} {log : List Entry} {m : SqlMigration} {id : String} {row : LedgerEntry}
  {rest : List SqlMigration} {index : Nat}

theorem Open.unsettled (opened : Open ledger log id) : ¬ ledger.Settled id := by
  rintro ⟨row', found', settled⟩
  obtain ⟨row, found, unsettled⟩ := opened.row
  rw [found, Option.some.injEq] at found'
  rw [found', settled] at unsettled
  cases unsettled

theorem Open.isSome (opened : Open ledger log id) : (ledger.get id).isSome = true := by
  obtain ⟨row, found, -⟩ := opened.row
  rw [found]
  rfl

theorem Cleared.mono (cleared : Cleared directory ledger rest) (grows : ledger.Grows ledger') :
    Cleared directory ledger' rest := by
  obtain ⟨done, all, settled⟩ := cleared
  exact ⟨done, all, fun e mem => grows.settled (settled e mem)⟩

theorem Cleared.snoc (cleared : Cleared directory ledger (m :: rest)) (settled : ledger.Settled m.id) :
    Cleared directory ledger rest := by
  obtain ⟨done, all, each⟩ := cleared
  refine ⟨done ++ [m], by simp [all], fun e mem => ?_⟩
  rcases mem_append.mp mem with old | new
  · exact each e old
  · rwa [mem_singleton.mp new]

theorem Cleared.mem (cleared : Cleared directory ledger (m :: rest)) : m ∈ directory.loadMigrations := by
  obtain ⟨done, all, -⟩ := cleared
  rw [all]
  exact mem_append_right done mem_cons_self

namespace Facts

theorem note (facts : Facts host directory ledger log) {e : Entry}
    (about : ∀ id, e.about = some id → (ledger.get id).isSome = true)
    (begun : ∀ id, e = .begun id → ∃ done m rest, directory.loadMigrations = done ++ m :: rest ∧ m.id = id ∧
      ∀ e ∈ done, ledger.Settled e.id)
    (broken : ∀ id, Broken (log ++ [e]) id → Broken log id ∨ .begun id ∈ log ∧ ¬ ledger.Settled id)
    (lawful : Lawful host directory log e) : Facts host directory ledger (log ++ [e]) where
  rowed d mem id of_d := by
    rcases mem_append.mp mem with old | new
    · exact facts.rowed d old id of_d
    · rw [mem_singleton.mp new] at of_d
      exact about id of_d
  begun id mem := by
    rcases mem_append.mp mem with old | new
    · exact facts.begun id old
    · exact begun id (mem_singleton.mp new).symm
  completed m mem row found done := by
    have grows : log ⊆ log ++ [e] := subset_append_left log [e]
    exact (facts.completed m mem row found done).imp (·.mono grows) (@grows _)
  baselined := facts.baselined
  broken id now := by
    have grows : log ⊆ log ++ [e] := subset_append_left log [e]
    rcases broken id now with old | ⟨begun, unsettled⟩
    · obtain ⟨begun, excuse⟩ := facts.broken id old
      exact ⟨grows begun, excuse.imp_left (@grows _)⟩
    · exact ⟨grows begun, .inr unsettled⟩
  lawful := facts.lawful.snoc lawful

theorem move (facts : Facts host directory ledger log) (grows : ledger.Grows ledger')
    (completed : ∀ m ∈ directory.loadMigrations, ∀ row, ledger'.get m.id = some row → row.status = .completed →
      ledger.get m.id = some row ∨ Succeeded host log m ∨ .acknowledged m.id ∈ log)
    (baselined : ∀ id row, ledger'.get id = some row → row.status = .baselined →
      ledger.get id = some row ∨ coveredBySnapshot id = true)
    (broken : ∀ id, Broken log id → ¬ ledger.Settled id → .acknowledged id ∈ log ∨ ¬ ledger'.Settled id) :
    Facts host directory ledger' log where
  rowed e mem id of_e := grows.isSome (facts.rowed e mem id of_e)
  begun id mem := by
    obtain ⟨done, m, rest, all, same, settled⟩ := facts.begun id mem
    exact ⟨done, m, rest, all, same, fun e inside => grows.settled (settled e inside)⟩
  completed m mem row found done := by
    rcases completed m mem row found done with old | excuse
    · exact facts.completed m mem row old done
    · exact excuse
  baselined id row found done := by
    rcases baselined id row found done with old | excuse
    · exact facts.baselined id row old done
    · exact excuse
  broken id now := by
    obtain ⟨begun, acknowledged | unsettled⟩ := facts.broken id now
    · exact ⟨begun, .inl acknowledged⟩
    · exact ⟨begun, broken id now unsettled⟩
  lawful := facts.lawful

theorem put (facts : Facts host directory ledger log) (new : ledger.get id = none) (unsettled : row.settled = false) :
    Facts host directory (ledger.put id row) log := by
  refine facts.move (Ledger.grows_put new) (fun d _ old found done => ?_) (fun j old found done => ?_)
    (fun j _ before => ?_)
  · exact .inl (Ledger.get_of_put unsettled found (by simp [LedgerEntry.settled, done]))
  · exact .inl (Ledger.get_of_put unsettled found (by simp [LedgerEntry.settled, done]))
  · exact .inr fun ⟨old, found, settled⟩ => before ⟨old, Ledger.get_of_put unsettled found settled, settled⟩

theorem update (facts : Facts host directory ledger log) {f : LedgerEntry → LedgerEntry}
    (found : ledger.get id = some row) (kept : row.settled = true → (f row).settled = true)
    (completed : (f row).status = .completed → ∀ m ∈ directory.loadMigrations, m.id = id →
      Succeeded host log m ∨ .acknowledged m.id ∈ log)
    (baselined : (f row).status = .baselined → coveredBySnapshot id = true)
    (broken : Broken log id → .acknowledged id ∈ log ∨ (f row).settled = false) :
    Facts host directory (ledger.update id f) log := by
  have rewritten : ∀ j r, (ledger.update id f).get j = some r → j = id ∧ r = f row ∨ ledger.get j = some r := by
    intro j r now
    rw [Ledger.get_update] at now
    split_ifs at now with same
    · rw [found] at now
      exact .inl ⟨same, (some.inj now).symm⟩
    · exact .inr now
  refine facts.move (Ledger.grows_update found kept) (fun d mem r now done => ?_) (fun j r now done => ?_)
    (fun j now before => ?_)
  · rcases rewritten d.id r now with ⟨same, rfl⟩ | old
    · exact .inr (completed done d mem same)
    · exact .inl old
  · rcases rewritten j r now with ⟨rfl, rfl⟩ | old
    · exact .inr (baselined done)
    · exact .inl old
  · by_cases same : j = id
    · subst same
      refine (broken now).imp_right fun unsettled => ?_
      rintro ⟨r, again, settled⟩
      rcases rewritten j r again with ⟨-, rfl⟩ | old
      · rw [unsettled] at settled
        cases settled
      · exact before ⟨r, old, settled⟩
    · refine .inr ?_
      rintro ⟨r, again, settled⟩
      rcases rewritten j r again with ⟨other, -⟩ | old
      · exact same other
      · exact before ⟨r, old, settled⟩

theorem passed (facts : Facts host directory ledger log) (mem : m ∈ directory.loadMigrations)
    (settled : ledger.Settled m.id) : Passed host log m := by
  obtain ⟨row, found, settled⟩ := settled
  rw [LedgerEntry.settled, Bool.or_eq_true, decide_eq_true_eq, decide_eq_true_eq] at settled
  rcases settled with completed | baselined
  · exact .inr (facts.completed m mem row found completed)
  · exact .inl (facts.baselined m.id row found baselined)

theorem not_broken_of_none (facts : Facts host directory ledger log) (new : ledger.get id = none) :
    ¬ Broken log id := by
  intro broken
  obtain ⟨e, mem, about⟩ := broken.about
  have row := facts.rowed e mem id about
  rw [new] at row
  cases row

theorem repaired (facts : Facts host directory ledger log) (cleared : Cleared directory ledger (m :: rest))
    (opened : Open ledger log m.id) (intact : ¬ Broken log m.id) (broken : Broken log id) :
    id ≠ m.id ∧ .acknowledged id ∈ log := by
  have differs : id ≠ m.id := by
    rintro rfl
    exact intact broken
  refine ⟨differs, ?_⟩
  obtain ⟨begun, acknowledged | unsettled⟩ := facts.broken id broken
  · exact acknowledged
  · obtain ⟨done', m', rest', all', rfl, settled'⟩ := facts.begun id begun
    obtain ⟨done, all, settled⟩ := cleared
    -- one of the two comes first, and is settled although it is open
    rcases append_eq_append_iff.mp (all.symm.trans all') with ⟨between, rfl, tail⟩ | ⟨between, rfl, tail⟩
    · cases between with
      | nil =>
        obtain ⟨rfl, -⟩ := cons.inj tail
        exact absurd rfl differs
      | cons d between =>
        obtain ⟨rfl, -⟩ := cons.inj tail
        exact absurd (settled' m (mem_append_right done mem_cons_self)) opened.unsettled
    · cases between with
      | nil =>
        obtain ⟨rfl, -⟩ := cons.inj tail
        exact absurd rfl differs
      | cons d between =>
        obtain ⟨rfl, -⟩ := cons.inj tail
        exact absurd (settled m' (mem_append_right done' mem_cons_self)) unsettled

end Facts

end Facts

/-! ## Where a process stands -/

def SnapshotLoaded (directory : Directory) : Prop := ∃ s ∈ directory.loadMigrations, s.id = snapshotId

/-- The migration `m` is being applied and the statement `index` is next. -/
structure Applying (host : Host) (directory : Directory) (ledger : Ledger) (log : List Entry) (m : SqlMigration)
    (index : Nat) : Prop where
  opened : Open ledger log m.id
  bound : index ≤ (host.statements m).length
  own : ∀ j answer, .executed m.id j answer ∈ log ↔ j < index ∧ answer = .ok
  unended : .ended m.id ∉ log
  uncovered : coveredBySnapshot m.id = true → SnapshotLoaded directory → Exposed log

/-- What holds in each phase. -/
def Standing (host : Host) (directory : Directory) (ledger : Ledger) (log : List Entry) : Phase → Prop
  | .counting => True
  | .scanning rest => Cleared directory ledger rest
  | .inserting m rest => Cleared directory ledger (m :: rest)
  | .applying m index rest => Cleared directory ledger (m :: rest) ∧ Applying host directory ledger log m index
  | .failing m _ => Open ledger log m.id
  | .covering left rest => Cleared directory ledger rest ∧ left ⊆ World.coverage directory

def pending : Option Phase → List SqlMigration
  | some (.covering left _) => left
  | _ => []

/-- After its snapshot, a covered migration has a row or is about to be given one. -/
def Recorded (directory : Directory) (ledger : Ledger) (log : List Entry) (left : List SqlMigration) : Prop :=
  ledger.Settled snapshotId → Exposed log ∨
    ∀ c ∈ World.coverage directory, (ledger.get c.id).isSome = true ∨ c ∈ left

structure Sound (host : Host) (directory : Directory) (w : World) : Prop where
  facts : Facts host directory w.ledger w.log
  standing : ∀ phase, w.holder = some phase → Standing host directory w.ledger w.log phase
  recorded : Recorded directory w.ledger w.log (pending w.holder)

theorem Applying.intact {ledger : Ledger} {log : List Entry} {m : SqlMigration} {index : Nat}
    (applying : Applying host directory ledger log m index) : ¬ Broken log m.id := by
  rintro (ended | ⟨j, answer, executed, failed⟩)
  · exact applying.unended ended
  · exact failed ((applying.own j answer).mp executed).2

theorem mem_coverage {c : SqlMigration} :
    c ∈ World.coverage directory ↔ c ∈ directory.loadMigrations ∧ coveredBySnapshot c.id = true := by
  simp [World.coverage]

theorem not_covered_snapshot : coveredBySnapshot snapshotId = false := by
  simp [coveredBySnapshot, before]

theorem snapshot_earlier {done rest : List SqlMigration} {m : SqlMigration}
    (all : directory.loadMigrations = done ++ m :: rest) (covered : coveredBySnapshot m.id = true)
    (loaded : SnapshotLoaded directory) : ∃ s ∈ done, s.id = snapshotId := by
  obtain ⟨s, mem, is_snapshot⟩ := loaded
  have first : JsString.le snapshotId m.id ∧ snapshotId ≠ m.id := by
    have less : before snapshotId m.id = true := by
      rw [coveredBySnapshot, Bool.and_eq_true] at covered
      exact covered.1
    simpa [before] using less
  have sorted : (done ++ m :: rest).Pairwise fun a b => JsString.le a.id b.id := by
    rw [← all]
    have total : Std.Total fun a b : SqlMigration => JsString.le a.id b.id :=
      ⟨fun a b => total_of JsString.le a.id b.id⟩
    have transitive : IsTrans SqlMigration fun a b => JsString.le a.id b.id :=
      ⟨fun _ _ _ => trans_of JsString.le⟩
    exact pairwise_insertionSort _ _
  rw [all] at mem
  rcases mem_append.mp mem with earlier | later
  · exact ⟨s, earlier, is_snapshot⟩
  · exfalso
    rcases mem_cons.mp later with rfl | later
    · exact first.2 is_snapshot.symm
    · have after := (pairwise_cons.mp (pairwise_append.mp sorted).2.1).1 s later
      rw [is_snapshot] at after
      exact first.2 (antisymm_of JsString.le first.1 after)

/-! ## One query -/

section Steps

variable {w : World} {m c : SqlMigration} {rest left : List SqlMigration} {index : Nat} {answer : Answer}
  {phase : Phase} {ledger ledger' : Ledger} {log log' : List Entry}

theorem Recorded.mono (recorded : Recorded directory ledger log left) (grows : ledger.Grows ledger')
    (logged : log ⊆ log') (back : ledger'.Settled snapshotId → ledger.Settled snapshotId) :
    Recorded directory ledger' log' left := by
  intro settled
  rcases recorded (back settled) with exposed | rows
  · exact .inl (exposed.mono logged)
  · exact .inr fun c mem => (rows c mem).imp_left grows.isSome

theorem Recorded.note (recorded : Recorded directory ledger log left) (e : Entry) :
    Recorded directory ledger (log ++ [e]) left :=
  recorded.mono (Ledger.Grows.refl ledger) (subset_append_left log [e]) fun settled => settled

namespace Sound

theorem leave (sound : Sound host directory w) (nothing : pending w.holder = []) : Sound host directory w.leave where
  facts := sound.facts
  standing _ held := nomatch held
  recorded := by
    have recorded := sound.recorded
    rwa [nothing] at recorded

theorem goto (facts : Facts host directory w.ledger w.log) (standing : Standing host directory w.ledger w.log phase)
    (recorded : Recorded directory w.ledger w.log (pending (some phase))) : Sound host directory (w.goto phase) where
  facts := facts
  standing _ held := by
    cases held
    exact standing
  recorded := recorded

theorem ended (sound : Sound host directory w) (opened : Open w.ledger w.log m.id)
    (nothing : pending w.holder = []) : Sound host directory (w.leave.note (.ended m.id)) where
  facts := by
    refine sound.facts.note ?_ (fun _ same => nomatch same) (fun id broken => ?_) trivial
    · rintro id ⟨⟩
      exact opened.isSome
    · rcases broken_snoc.mp broken with old | same | ⟨index, answer, same, -⟩
      · exact .inl old
      · cases same
        exact .inr ⟨opened.begun, opened.unsettled⟩
      · cases same
  standing _ held := nomatch held
  recorded := (sound.leave nothing).recorded.note _

theorem quit (sound : Sound host directory w) (holds : w.holder = some phase) :
    Sound host directory (w.quit phase) := by
  have standing := sound.standing phase holds
  cases phase with
  | counting => exact sound.leave (by rw [holds]; rfl)
  | scanning rest => exact sound.leave (by rw [holds]; rfl)
  | inserting m rest => exact sound.leave (by rw [holds]; rfl)
  | applying m index rest => exact sound.ended standing.2.opened (by rw [holds]; rfl)
  | failing m index => exact sound.ended standing (by rw [holds]; rfl)
  | covering left rest =>
    cases left with
    | nil => exact sound.leave (by rw [holds]; rfl)
    | cons c left =>
      refine ⟨?_, fun _ held => (nomatch held), fun _ => .inl (.inl mem_concat_self)⟩
      refine sound.facts.note (fun _ same => nomatch same) (fun _ same => nomatch same) (fun id broken => ?_) trivial
      rcases broken_snoc.mp broken with old | same | ⟨index, answer, same, -⟩
      · exact .inl old
      · cases same
      · cases same

theorem settle (sound : Sound host directory (w.goto phase)) : Sound host directory (w.settle answer phase) := by
  unfold World.settle
  split
  · exact sound.quit rfl
  · exact sound

theorem scan (sound : Sound host directory w) (holds : w.holder = some (.scanning (m :: rest))) :
    Sound host directory (w.scan m rest) := by
  have cleared : Cleared directory w.ledger (m :: rest) := sound.standing _ holds
  have nothing : pending w.holder = [] := by rw [holds]; rfl
  have recorded := sound.recorded
  rw [nothing] at recorded
  unfold World.scan
  split
  · exact goto sound.facts cleared recorded
  · rename_i row found
    split_ifs with refused settled
    · exact sound.leave nothing
    · exact goto sound.facts (cleared.snoc ⟨row, found, settled⟩) recorded
    · exact sound.leave nothing

theorem begin_ (sound : Sound host directory w) (holds : w.holder = some (.inserting m rest)) :
    Sound host directory (w.begin_ m rest answer) := by
  have cleared : Cleared directory w.ledger (m :: rest) := sound.standing _ holds
  have nothing : pending w.holder = [] := by rw [holds]; rfl
  have recorded := sound.recorded
  rw [nothing] at recorded
  unfold World.begin_
  split
  · exact sound.leave nothing
  · rename_i ledger inserted
    obtain ⟨new, rfl⟩ := Ledger.insert_eq_some.mp inserted
    split_ifs
    · exact sound.leave nothing
    · have grows : w.ledger.Grows (w.ledger.put m.id ⟨m.checksum, .running, none, none⟩) := Ledger.grows_put new
      have untouched : ∀ e ∈ w.log, e.about ≠ some m.id := by
        intro e mem about
        have row := sound.facts.rowed e mem m.id about
        rw [new] at row
        cases row
      refine settle (goto ?_ ⟨cleared.mono grows, ?_⟩ ?_)
      · obtain ⟨done, all, settled⟩ := cleared.mono grows
        refine (sound.facts.put new rfl).note ?_ ?_ (fun id broken => ?_) trivial
        · rintro id ⟨⟩
          simp
        · rintro id ⟨⟩
          exact ⟨done, m, rest, all, rfl, settled⟩
        · rcases broken_snoc.mp broken with old | same | ⟨index, answer, same, -⟩
          · exact .inl old
          · cases same
          · cases same
      · refine ⟨⟨mem_concat_self, _, Table.get_put_self, rfl⟩, Nat.zero_le _, fun j answer => ?_, ?_, ?_⟩
        · refine ⟨fun mem => ?_, fun own => absurd own.1 (Nat.not_lt_zero j)⟩
          rcases mem_append.mp mem with old | same
          · exact absurd rfl (untouched _ old)
          · cases mem_singleton.mp same
        · intro mem
          rcases mem_append.mp mem with old | same
          · exact untouched _ old rfl
          · cases mem_singleton.mp same
        · intro covered loaded
          obtain ⟨done, all, settled⟩ := cleared
          obtain ⟨s, earlier, is_snapshot⟩ := snapshot_earlier all covered loaded
          rcases recorded (is_snapshot ▸ settled s earlier) with exposed | rows
          · exact exposed.mono (subset_append_left _ _)
          · rcases rows m (mem_coverage.mpr ⟨Cleared.mem ⟨done, all, settled⟩, covered⟩) with some_row | waiting
            · rw [new] at some_row
              cases some_row
            · cases waiting
      · refine recorded.mono grows (subset_append_left _ _) ?_
        rintro ⟨row, found, settled⟩
        exact ⟨row, Ledger.get_of_put rfl found settled, settled⟩

theorem execute (sound : Sound host directory w) (holds : w.holder = some (.applying m index rest))
    (bound : index < (host.statements m).length) : Sound host directory (w.execute m index rest answer) := by
  obtain ⟨cleared, applying⟩ : Cleared directory w.ledger (m :: rest) ∧
    Applying host directory w.ledger w.log m index := sound.standing _ holds
  have recorded := sound.recorded
  rw [show pending w.holder = [] by rw [holds]; rfl] at recorded
  have inOrder : InOrder host directory w.log m index := by
    refine ⟨bound, ?_, applying.own, fun id broken => sound.facts.repaired cleared applying.opened applying.intact broken,
      applying.uncovered⟩
    obtain ⟨done, all, settled⟩ := cleared
    refine ⟨done, rest, all, fun e mem => sound.facts.passed ?_ (settled e mem)⟩
    rw [all]
    exact mem_append_left _ mem
  have facts : Facts host directory w.ledger (w.log ++ [.executed m.id index answer]) := by
    refine sound.facts.note ?_ (fun _ same => nomatch same) (fun id broken => ?_) ⟨m, rfl, inOrder⟩
    · rintro id ⟨⟩
      exact applying.opened.isSome
    · rcases broken_snoc.mp broken with old | same | ⟨j, answer, same, -⟩
      · exact .inl old
      · cases same
      · cases same
        exact .inr ⟨applying.opened.begun, applying.opened.unsettled⟩
  have opened : Open w.ledger (w.log ++ [.executed m.id index answer]) m.id :=
    ⟨mem_append_left _ applying.opened.begun, applying.opened.row⟩
  -- after anything but success, the migration is broken and its process can only end
  have failing : Sound host directory ((w.note (.executed m.id index answer)).goto (.failing m index)) :=
    goto facts opened (recorded.note _)
  cases answer with
  | error => exact failing
  | gone => exact failing.quit rfl
  | ok =>
    refine goto facts ⟨cleared, opened, bound, fun j answer => ?_, ?_, fun covered loaded => ?_⟩ (recorded.note _)
    · rw [World.note, mem_append, applying.own, mem_singleton, Entry.executed.injEq]
      constructor
      · rintro (⟨less, rfl⟩ | ⟨-, rfl, rfl⟩)
        · exact ⟨Nat.lt_succ_of_lt less, rfl⟩
        · exact ⟨Nat.lt_succ_self j, rfl⟩
      · rintro ⟨less, rfl⟩
        rcases Nat.lt_succ_iff_lt_or_eq.mp less with less | rfl
        · exact .inl ⟨less, rfl⟩
        · exact .inr ⟨rfl, rfl, rfl⟩
    · intro mem
      rcases mem_append.mp mem with old | same
      · exact applying.unended old
      · cases mem_singleton.mp same
    · exact (applying.uncovered covered loaded).mono (subset_append_left _ _)

theorem complete (sound : Sound host directory w) (holds : w.holder = some (.applying m index rest))
    (all : (host.statements m).length ≤ index) : Sound host directory (w.complete directory m index rest answer) := by
  obtain ⟨cleared, applying⟩ : Cleared directory w.ledger (m :: rest) ∧
    Applying host directory w.ledger w.log m index := sound.standing _ holds
  have recorded := sound.recorded
  rw [show pending w.holder = [] by rw [holds]; rfl] at recorded
  have succeeded : Succeeded host w.log m := fun j less => (applying.own j .ok).mpr ⟨by omega, rfl⟩
  obtain ⟨row, found, unsettled⟩ := applying.opened.row
  unfold World.complete
  split_ifs
  · exact goto sound.facts applying.opened recorded
  · have grows : w.ledger.Grows (w.ledger.update m.id (·.complete)) := Ledger.grows_update found fun _ => rfl
    have facts : Facts host directory (w.ledger.update m.id (·.complete)) w.log := by
      refine sound.facts.update found (fun _ => rfl) (fun _ d mem same => .inl ?_)
        (fun impossible => by cases impossible) fun broken => absurd broken applying.intact
      rwa [directory.eq_of_id mem cleared.mem same]
    have settled : (w.ledger.update m.id (·.complete)).Settled m.id := ⟨row.complete, by simp [found], rfl⟩
    have standing := (cleared.mono grows).snoc settled
    refine settle (goto facts ?_ ?_)
    · unfold World.next
      split_ifs
      · exact ⟨standing, Subset.refl _⟩
      · exact standing
    · unfold World.next
      split_ifs with snapshot
      · exact fun _ => .inr fun c mem => .inr mem
      · refine recorded.mono grows (Subset.refl _) ?_
        rintro ⟨r, again, done⟩
        refine ⟨r, ?_, done⟩
        rwa [Ledger.get_update, if_neg (Ne.symm snapshot)] at again

theorem fail (sound : Sound host directory w) (holds : w.holder = some (.failing m index)) :
    Sound host directory (w.fail host m index answer) := by
  have opened : Open w.ledger w.log m.id := sound.standing _ holds
  have recorded := sound.recorded
  rw [show pending w.holder = [] by rw [holds]; rfl] at recorded
  obtain ⟨row, found, unsettled⟩ := opened.row
  unfold World.fail
  split_ifs
  · exact sound.quit holds
  · have kept : row.settled = true → (row.fail index (host.message m index)).settled = true := by
      rw [unsettled]
      exact fun impossible => by cases impossible
    have standing : Standing host directory (w.ledger.update m.id (.fail index (host.message m index))) w.log
        (.failing m index) := ⟨opened.begun, row.fail index (host.message m index), by simp [found], rfl⟩
    have sound' : Sound host directory
        ({ w with ledger := w.ledger.update m.id (.fail index (host.message m index)) }.goto (.failing m index)) := by
      refine goto ?_ standing ?_
      · exact sound.facts.update found kept (fun impossible => by cases impossible)
          (fun impossible => by cases impossible) fun _ => .inr rfl
      · refine recorded.mono (Ledger.grows_update found kept) (Subset.refl _) ?_
        rintro ⟨r, again, done⟩
        rw [Ledger.get_update] at again
        split_ifs at again with same
        · rw [found] at again
          cases again
          cases done
        · exact ⟨r, again, done⟩
    exact sound'.quit rfl

theorem cover (sound : Sound host directory w) (holds : w.holder = some (.covering (c :: left) rest)) :
    Sound host directory (w.cover c left rest answer) := by
  obtain ⟨cleared, within⟩ : Cleared directory w.ledger rest ∧ c :: left ⊆ World.coverage directory :=
    sound.standing _ holds
  obtain ⟨inside, within⟩ := cons_subset.mp within
  have covered := (mem_coverage.mp inside).2
  have recorded := sound.recorded
  rw [show pending w.holder = c :: left by rw [holds]; rfl] at recorded
  unfold World.cover
  split
  · exact sound.quit holds
  · rename_i ledger inserted
    obtain ⟨new, rfl⟩ := Ledger.insert_eq_some.mp inserted
    split_ifs
    · exact sound.quit holds
    · have grows : w.ledger.Grows (w.ledger.put c.id
          ⟨c.checksum, .baselined, none, some "covered by 000_schema_baseline.sql"⟩) := Ledger.grows_put new
      have back : ∀ id r, (w.ledger.put c.id
          ⟨c.checksum, .baselined, none, some "covered by 000_schema_baseline.sql"⟩).get id = some r →
          id = c.id ∧ r.status = .baselined ∨ w.ledger.get id = some r := by
        intro id r found
        rw [Table.get_put] at found
        split_ifs at found with same
        · cases found
          exact .inl ⟨same, rfl⟩
        · exact .inr found
      refine settle (goto ?_ ⟨cleared.mono grows, within⟩ ?_)
      · refine sound.facts.move grows (fun d _ r found done => ?_) (fun id r found _ => ?_) (fun id broken _ => ?_)
        · rcases back d.id r found with ⟨-, baselined⟩ | old
          · rw [baselined] at done
            cases done
          · exact .inl old
        · rcases back id r found with ⟨rfl, -⟩ | old
          · exact .inr covered
          · exact .inl old
        · right
          rintro ⟨r, found, settled⟩
          rcases back id r found with ⟨rfl, -⟩ | old
          · exact sound.facts.not_broken_of_none new broken
          · exact ‹¬ w.ledger.Settled id› ⟨r, old, settled⟩
      · rintro ⟨r, found, settled⟩
        rcases back snapshotId r found with ⟨same, -⟩ | old
        · rw [← same, not_covered_snapshot] at covered
          cases covered
        · refine (recorded ⟨r, old, settled⟩).imp_right fun rows d mem => ?_
          rcases rows d mem with some_row | waiting
          · exact .inl (grows.isSome some_row)
          · rcases mem_cons.mp waiting with rfl | waiting
            · exact .inl (by simp)
            · exact .inr waiting

theorem advance (sound : Sound host directory w) (holds : w.holder = some phase) (users : Bool) :
    Sound host directory (w.advance host directory phase users answer) := by
  cases phase with
  | counting =>
    have nothing : pending w.holder = [] := by rw [holds]; rfl
    have recorded := sound.recorded
    rw [nothing] at recorded
    simp only [World.advance]
    split_ifs
    · exact sound.leave nothing
    · have cleared : Cleared directory w.ledger directory.loadMigrations := ⟨[], rfl, fun _ none => (nomatch none)⟩
      exact goto sound.facts cleared recorded
  | scanning rest =>
    have nothing : pending w.holder = [] := by rw [holds]; rfl
    cases rest with
    | nil => exact sound.leave nothing
    | cons m rest =>
      simp only [World.advance]
      split_ifs
      · exact sound.scan holds
      · exact sound.leave nothing
  | inserting m rest => exact sound.begin_ holds
  | applying m index rest =>
    simp only [World.advance]
    split_ifs with more
    · exact sound.execute holds more
    · exact sound.complete holds (Nat.not_lt.mp more)
  | failing m index => exact sound.fail holds
  | covering left rest =>
    cases left with
    | cons c left => exact sound.cover holds
    | nil =>
      have recorded := sound.recorded
      rw [holds] at recorded
      obtain ⟨cleared, -⟩ : Cleared directory w.ledger rest ∧ ([] : List SqlMigration) ⊆ World.coverage directory :=
        sound.standing _ holds
      exact goto sound.facts cleared recorded

theorem acknowledge (sound : Sound host directory w) (free : w.holder = none) (audit : String)
    (verified : String → Bool) : Sound host directory (w.acknowledge m audit verified) := by
  unfold World.acknowledge
  split
  · exact sound
  · rename_i row found
    split_ifs with accepted
    · have grows : w.log ⊆ w.log ++ [.acknowledged m.id] := subset_append_left _ _
      have noted : Facts host directory w.ledger (w.log ++ [.acknowledged m.id]) := by
        refine sound.facts.note ?_ (fun _ same => nomatch same) (fun id broken => ?_) trivial
        · rintro id ⟨⟩
          rw [found]
          rfl
        · rcases broken_snoc.mp broken with old | same | ⟨index, answer, same, -⟩
          · exact .inl old
          · cases same
          · cases same
      refine ⟨noted.update found (fun _ => rfl) (fun _ d _ same => .inr (same ▸ mem_concat_self))
        (fun impossible => nomatch impossible) fun _ => .inl mem_concat_self, fun phase holds => ?_, ?_⟩
      · rw [World.note, free] at holds
        cases holds
      · by_cases snapshot : m.id = snapshotId
        · exact fun _ => .inl (.inr (snapshot ▸ mem_concat_self))
        · refine sound.recorded.mono (Ledger.grows_update found fun _ => rfl) grows fun ⟨r, again, done⟩ => ⟨r, ?_, done⟩
          rwa [Ledger.get_update, if_neg (Ne.symm snapshot)] at again
    · exact sound

theorem step (sound : Sound host directory w) (event : Event) :
    Sound host directory (w.step host directory event) := by
  cases event with
  | start =>
    simp only [World.step]
    split
    · rename_i free
      have recorded := sound.recorded
      rw [free] at recorded
      exact goto sound.facts trivial recorded
    · exact sound
  | query users answer =>
    simp only [World.step]
    split
    · exact sound
    · exact sound.advance ‹_› users
  | stop =>
    simp only [World.step]
    split
    · exact sound
    · exact sound.quit ‹_›
  | acknowledge id audit verified =>
    simp only [World.step]
    split
    · exact sound.acknowledge ‹_› audit verified
    · exact sound

end Sound

end Steps

/-! ## Any runs -/

theorem sound_reached (events : List Event) : Sound host directory (reached host directory events) := by
  unfold reached
  induction events using reverseRecOn with
  | nil =>
    refine ⟨⟨?_, ?_, ?_, ?_, ?_, Log.justified_nil⟩, fun _ held => (nomatch held), ?_⟩
    · exact fun _ none => nomatch none
    · exact fun _ none => nomatch none
    · exact fun _ _ _ none => nomatch none
    · exact fun _ _ none => nomatch none
    · rintro id (none | ⟨_, _, none, -⟩) <;> cases none
    · rintro ⟨row, none, -⟩
      cases none
  | append_singleton events event ih =>
    rw [foldl_append]
    exact ih.step event

/-- Over any runs: no statement is executed twice; each is executed in order, after no failed or interrupted
migration that is not acknowledged; a completed row stands for statements that have all succeeded, or for an
acknowledged repair; a migration that the snapshot covers is executed only where its coverage has been lost. -/
theorem statements_in_order (events : List Event) :
    ((reached host directory events).log.filterMap Entry.statement?).Nodup ∧
    Log.Justified (Lawful host directory) (reached host directory events).log ∧
    (∀ m ∈ directory.loadMigrations, ∀ row, (reached host directory events).ledger.get m.id = some row →
      row.status = .completed → Succeeded host (reached host directory events).log m ∨
        .acknowledged m.id ∈ (reached host directory events).log) ∧
    (∀ m ∈ directory.loadMigrations, coveredBySnapshot m.id = true → SnapshotLoaded directory →
      ∀ index answer, .executed m.id index answer ∈ (reached host directory events).log →
        Exposed (reached host directory events).log) := by
  have sound : Sound host directory (reached host directory events) := sound_reached events
  have facts := sound.facts
  refine ⟨Log.Justified.nodup_filterMap ?_, facts.lawful, facts.completed, ?_⟩
  · refine facts.lawful.mono fun before e lawful => ?_
    rintro ⟨id, index⟩ same d mem again
    cases e with
    | executed id' index' answer =>
      cases same
      cases d with
      | executed id'' index'' answer' =>
        cases again
        obtain ⟨m, rfl, inOrder⟩ := lawful
        exact absurd ((inOrder.own index answer').mp mem).1 (Nat.lt_irrefl index)
      | _ => cases again
    | _ => cases same
  · intro m mem covered loaded index answer executed
    obtain ⟨before, within, m', same, inOrder⟩ := facts.lawful.exists_of_mem executed
    rw [← same] at covered
    exact (inOrder.uncovered covered loaded).mono within

/-! ## An acknowledged repair -/

/-- A snapshot whose only statement fails, and a migration after it. -/
private def twoFiles : Directory :=
  ⟨[⟨"000_schema_baseline.sql", "CREATE TABLE users (id INT)", "c0"⟩, ⟨"019_servers.sql", "CREATE TABLE servers (id INT)", "c1"⟩],
    by decide⟩

private def oneStatement : Host := ⟨fun m => [m.sql], fun _ _ => "access denied"⟩

/-- The failed snapshot is acknowledged, and the next run executes the second migration. -/
private def acknowledgedRun : List Event :=
  [.start, .query false .ok, .query false .ok, .query false .ok, .query false .error, .query false .ok,
    .acknowledge "000_schema_baseline.sql" "repaired" (fun _ => true),
    .start, .query true .ok, .query true .ok, .query true .ok, .query true .ok, .query true .ok]

/-- A row can be completed, and a later statement executed, although no statement of it has succeeded. -/
theorem acknowledged_without_statements :
    ¬ ∀ (host : Host) (directory : Directory) (events : List Event),
      (∀ m ∈ directory.loadMigrations, ∀ row, (reached host directory events).ledger.get m.id = some row →
        row.status = .completed → Succeeded host (reached host directory events).log m) ∧
      Log.Justified (fun before e => ∀ id index answer, e = .executed id index answer →
        ∃ done m rest, directory.loadMigrations = done ++ m :: rest ∧ m.id = id ∧
          ∀ d ∈ done, coveredBySnapshot d.id = true ∨ Succeeded host before d)
        (reached host directory events).log := by
  intro claim
  have completed := (claim oneStatement twoFiles acknowledgedRun).1
    ⟨"000_schema_baseline.sql", "CREATE TABLE users (id INT)", "c0"⟩ (by decide)
    ⟨"c0", .completed, some 0, some "repaired"⟩ (by rfl) rfl
  have succeeded := completed 0 (by decide)
  exact absurd succeeded (by decide)

end Slide.Migrations
