import Slide.Library.Fallible
import Slide.Relations.Transactions

/-!
# Confirmed relations exclude each other

* `Committed`: what holds of the committed rows.
* `Phase.Inv`: what a transaction knows where it is; `Ready` and `Cover` carry a confirmation.
* `confirmed_relations_exclusive`: `Committed` after any steps, and what a conflicting confirmation leaves.

A confirmation reads the heads around its source and writes later.  The row of the source is locked all
the while, and other transactions without that lock only take confirmations back, so no head that it has
to conflict with appears in between.
-/

namespace Slide.Relations

open Slide.Resources Transition List
open Versioned (NumberedEach versionsOf)

variable {legacy : Legacy} {revisions : List StoredRelation} {validated : List (StoredRelation × Int)}
  {locks : List (TxId × ResourceRef)} {t t' : TxId} {own : List StoredRelation}
  {r h cur base : StoredRelation} {s s' : State}

/-! ## Rows and heads -/

/-- Everything a head can be: the legacy rows and the committed revisions. -/
def known (legacy : Legacy) (revisions : List StoredRelation) : List StoredRelation :=
  legacy.rows.map (·.relation) ++ revisions

def IsHead (revisions : List StoredRelation) (h : StoredRelation) : Prop :=
  Versioned.head (·.relationId) (·.version) revisions h.relationId = some h

def count (revisions : List StoredRelation) (id : Nat) : Nat :=
  (versionsOf (·.relationId) revisions id).length

theorem mem_known_of_mem (inside : r ∈ revisions) : r ∈ known legacy revisions :=
  mem_append_right _ inside

variable {more : List StoredRelation}

theorem known_mono (inside : r ∈ known legacy revisions) :
    r ∈ known legacy (revisions ++ more) := by
  unfold known at *
  rw [← append_assoc]
  exact mem_append_left _ inside

theorem head_known {id : Nat} (found : head legacy revisions id = some r) :
    r ∈ known legacy revisions ∧ r.relationId = id := by
  unfold head at found
  split at found
  next value latest =>
    obtain rfl := some.inj found
    obtain ⟨inside, same⟩ := Versioned.mem_of_head latest
    exact ⟨mem_known_of_mem inside, same⟩
  next =>
    obtain ⟨row, listed, rfl⟩ := Option.map_eq_some_iff.mp found
    have passes := find?_some listed
    exact ⟨mem_append_left _ (mem_map_of_mem (mem_of_find?_eq_some listed)),
      of_decide_eq_true passes⟩

theorem IsHead.head (legacy : Legacy) (is : IsHead revisions h) : head legacy revisions h.relationId = some h := by
  unfold Relations.head
  rw [show Versioned.head _ _ revisions h.relationId = some h from is]

theorem IsHead.mem (is : IsHead revisions h) : h ∈ revisions := (Versioned.mem_of_head is).1

theorem exists_head {id : Nat} (inside : r ∈ known legacy revisions) (same : r.relationId = id) :
    ∃ h, head legacy revisions id = some h := by
  unfold head
  split
  next value _ => exact ⟨value, rfl⟩
  next none_ =>
    rcases mem_append.mp inside with old | new
    · obtain ⟨row, listed, rfl⟩ := mem_map.mp old
      cases found : legacy.rows.find? (·.id = id) with
      | some row' => exact ⟨row'.relation, rfl⟩
      | none => exact absurd (decide_eq_true same) (find?_eq_none.mp found row listed)
    · have listed : r ∈ versionsOf (·.relationId) revisions id := Versioned.mem_versionsOf.mpr ⟨new, same⟩
      rw [Versioned.head_eq_none.mp none_] at listed
      cases listed

theorem overlaps_source (overlap : overlaps cur h = true) : h.source = cur.source := by
  unfold overlaps at overlap
  simp only [Bool.and_eq_true, decide_eq_true_eq] at overlap
  exact (ResourceRef.key_injective overlap.1.1.1.1).symm

variable {a b : StoredRelation}

theorem overlaps_congr {a' b' : StoredRelation} (ends : a.ends = a'.ends) (content : a.content = a'.content)
    (ends' : b.ends = b'.ends) (content' : b.content = b'.content) : overlaps a b = overlaps a' b' := by
  simp only [StoredRelation.ends, Prod.mk.injEq] at ends ends'
  unfold overlaps
  rw [ends.1, ends.2.1, ends.2.2, ends'.1, ends'.2.1, ends'.2.2, content, content']

theorem overlaps_comm : overlaps a b = overlaps b a := by
  unfold overlaps
  rw [Bool.eq_iff_iff]
  simp only [Bool.and_eq_true, decide_eq_true_eq]
  constructor <;> rintro ⟨⟨⟨⟨one, two⟩, three⟩, four⟩, five⟩ <;>
    exact ⟨⟨⟨⟨one.symm, two.symm⟩, three.symm⟩, five⟩, four⟩

/-! ## What holds -/

/-- A suggestion that a confirmation may take. -/
structure Confirmable (p : StoredRelation) (now : Int) : Prop where
  suggested : p.state = .suggested
  evidence : p.content.evidence ≠ []
  window : inWindow p now = true
  unexpired : ∀ e ∈ p.content.evidence, now < e.validUntil

structure Committed (legacy : Legacy) (revisions : List StoredRelation)
    (validated : List (StoredRelation × Int)) : Prop where
  numbered : NumberedEach (·.relationId) (·.version) revisions
  /-- The endpoints and the type of a relation never change. -/
  ends : ∀ a ∈ known legacy revisions, ∀ b ∈ known legacy revisions,
    a.relationId = b.relationId → a.ends = b.ends
  exclusive : ∀ a b, IsHead revisions a → IsHead revisions b → a.relationId ≠ b.relationId →
    a.state = .confirmed → b.state = .confirmed → overlaps a b = false
  /-- A confirmed revision follows a suggestion that was confirmable and found valid. -/
  confirmed : ∀ r ∈ revisions, r.state = .confirmed → ∃ p ∈ revisions, ∃ actorId now,
    r = p.confirm [] actorId now ∧ Confirmable p now ∧ (p, now) ∈ validated

/-- Every confirmed head that overlaps a relation is covered. -/
def Cover (revisions : List StoredRelation) (cur : StoredRelation) (covered : Nat → Prop) : Prop :=
  ∀ h, IsHead revisions h → h.relationId ≠ cur.relationId → h.state = .confirmed →
    overlaps cur h = true → covered h.relationId

/-- A transaction that is confirming a suggestion, and holds the row of its source. -/
structure Ready (revisions : List StoredRelation) (locks : List (TxId × ResourceRef))
    (validated : List (StoredRelation × Int)) (t : TxId) (cur : StoredRelation) (now : Int) : Prop where
  inside : cur ∈ revisions
  holds : (t, cur.source) ∈ locks
  confirmable : Confirmable cur now
  valid : (cur, now) ∈ validated

/-- A row that is the next version of something known. -/
structure Follows (legacy : Legacy) (revisions : List StoredRelation) (base next : StoredRelation) : Prop where
  inside : base ∈ known legacy revisions
  version : next.version = base.version + 1
  id : next.relationId = base.relationId
  ends : next.ends = base.ends

/-- What the plan of a transaction rests on. -/
def Plan.Inv (legacy : Legacy) (revisions : List StoredRelation) (locks : List (TxId × ResourceRef))
    (validated : List (StoredRelation × Int)) (t : TxId) : Plan → Prop
  | .suggest value => value.version = 1 ∧ 2 ^ 50 ≤ value.relationId ∧ value.state ≠ .confirmed
  | .append base next => Follows legacy revisions base next ∧ next.state ≠ .confirmed
  | .confirm cur conflicts _ now => Ready revisions locks validated t cur now ∧
    (∀ c ∈ conflicts, c ∈ known legacy revisions) ∧
    Cover revisions cur fun id => ∃ c ∈ conflicts, c.relationId = id

/-- What a transaction that has inserted the rows `own` knows where it is. -/
def Phase.Inv (legacy : Legacy) (revisions : List StoredRelation) (locks : List (TxId × ResourceRef))
    (validated : List (StoredRelation × Int)) (t : TxId) (own : List StoredRelation) : Phase → Prop
  | .idle => own = []
  | .suggesting _ id => own = [] ∧ 2 ^ 50 ≤ id
  | .opened request initial => own = [] ∧ initial ∈ known legacy revisions ∧
    initial.relationId = request.id
  | .locked request => own = [] ∧ ∃ k ∈ known legacy revisions, k.relationId = request.id ∧
    (t, k.source) ∈ locks
  | .confirming request cur => own = [] ∧ cur.relationId = request.id ∧
    Ready revisions locks validated t cur request.now
  | .scanning request cur left found => own = [] ∧ cur.relationId = request.id ∧
    Ready revisions locks validated t cur request.now ∧
    (∀ id ∈ left, ∃ k ∈ known legacy revisions, k.relationId = id) ∧
    (∀ f ∈ found, f ∈ known legacy revisions) ∧
    (left.length + found.length = 101 ∨ Cover revisions cur fun id => id ∈ left ∨
      ∃ f ∈ found, f.relationId = id ∧ f.state = .confirmed ∧ overlaps cur f = true)
  | .writing plan rest => own ++ rest = plan.rows ∧ plan.Inv legacy revisions locks validated t
  | .reading _ => ∀ r ∈ own, r.state ≠ .confirmed
  | .expiring _ _ _ => ∀ r ∈ own, r.state ≠ .confirmed
  | .expelling _ base next => (∀ r ∈ own, r.state ≠ .confirmed) ∧
    Follows legacy revisions base next ∧ next.state ≠ .confirmed

structure State.Inv (legacy : Legacy) (s : State) : Prop where
  committed : Committed legacy s.revisions s.validated
  /-- A row that is not committed is the next of its relation, and the only one. -/
  next : ∀ p ∈ s.pending, p.2.version = count s.revisions p.2.relationId + 1
  distinct : (s.pending.map (·.2.relationId)).Nodup
  ends : ∀ p ∈ s.pending, ∀ k ∈ known legacy s.revisions, k.relationId = p.2.relationId → k.ends = p.2.ends
  lock : ∀ a ∈ s.locks, ∀ b ∈ s.locks, a.2 = b.2 → a.1 = b.1
  phase : ∀ t, (s.phase t).Inv legacy s.revisions s.locks s.validated t (s.own t)

/-! ## Transactions that wait -/

variable {now : Int}

theorem Ready.mono {locks' : List (TxId × ResourceRef)} {validated' : List (StoredRelation × Int)}
    (ready : Ready revisions locks validated t cur now) (moreLocks : ∀ ref, (t, ref) ∈ locks → (t, ref) ∈ locks')
    (more : validated ⊆ validated') : Ready revisions locks' validated' t cur now :=
  ⟨ready.inside, moreLocks _ ready.holds, ready.confirmable, more ready.valid⟩

variable {phase : Phase}

theorem Phase.Inv.mono {locks' : List (TxId × ResourceRef)}
    {validated' : List (StoredRelation × Int)} (inv : phase.Inv legacy revisions locks validated t own)
    (moreLocks : ∀ ref, (t, ref) ∈ locks → (t, ref) ∈ locks') (more : validated ⊆ validated') :
    phase.Inv legacy revisions locks' validated' t own := by
  cases phase with
  | idle => exact inv
  | suggesting suggestion id => exact inv
  | opened request initial => exact inv
  | locked request =>
    obtain ⟨none_, k, inside, same, holds⟩ := inv
    exact ⟨none_, k, inside, same, moreLocks _ holds⟩
  | confirming request cur =>
    obtain ⟨none_, same, ready⟩ := inv
    exact ⟨none_, same, ready.mono moreLocks more⟩
  | scanning request cur left found =>
    obtain ⟨none_, same, ready, rest⟩ := inv
    exact ⟨none_, same, ready.mono moreLocks more, rest⟩
  | writing plan rest =>
    obtain ⟨rows, stands⟩ := inv
    refine ⟨rows, ?_⟩
    cases plan with
    | suggest value => exact stands
    | append base next => exact stands
    | confirm cur conflicts actorId now => exact ⟨stands.1.mono moreLocks more, stands.2⟩
  | reading seen => exact inv
  | expiring seen value expired => exact inv
  | expelling seen base next => exact inv

theorem Cover.mono {revisions' : List StoredRelation} {covered : Nat → Prop}
    (cover : Cover revisions cur covered)
    (fewer : ∀ h, IsHead revisions' h → h.state = .confirmed → overlaps cur h = true → IsHead revisions h) :
    Cover revisions' cur covered :=
  fun h is other confirmed overlap => cover h (fewer h is confirmed overlap) other confirmed overlap

theorem Follows.append {next : StoredRelation}
    (follows : Follows legacy revisions base next) : Follows legacy (revisions ++ more) base next :=
  { follows with inside := known_mono follows.inside }

theorem Ready.append (ready : Ready revisions locks validated t cur now) :
    Ready (revisions ++ more) locks validated t cur now :=
  { ready with inside := mem_append_left _ ready.inside }

theorem Phase.Inv.append (inv : phase.Inv legacy revisions locks validated t own)
    (fewer : ∀ cur, (t, cur.source) ∈ locks → ∀ h, IsHead (revisions ++ more) h → h.state = .confirmed →
      overlaps cur h = true → IsHead revisions h) :
    phase.Inv legacy (revisions ++ more) locks validated t own := by
  cases phase with
  | idle => exact inv
  | suggesting suggestion id => exact inv
  | opened request initial => exact ⟨inv.1, known_mono inv.2.1, inv.2.2⟩
  | locked request =>
    obtain ⟨none_, k, inside, same, holds⟩ := inv
    exact ⟨none_, k, known_mono inside, same, holds⟩
  | confirming request cur =>
    obtain ⟨none_, same, ready⟩ := inv
    exact ⟨none_, same, ready.append⟩
  | scanning request cur left found =>
    obtain ⟨none_, same, ready, listed, read, full | cover⟩ := inv
    all_goals refine ⟨none_, same, ready.append, fun id mem => ?_, fun f mem => known_mono (read f mem), ?_⟩
    · obtain ⟨k, inside, same⟩ := listed id mem
      exact ⟨k, known_mono inside, same⟩
    · exact .inl full
    · obtain ⟨k, inside, same⟩ := listed id mem
      exact ⟨k, known_mono inside, same⟩
    · exact .inr (cover.mono (fewer cur ready.holds))
  | writing plan rest =>
    obtain ⟨rows, stands⟩ := inv
    refine ⟨rows, ?_⟩
    cases plan with
    | suggest value => exact stands
    | append base next => exact ⟨stands.1.append, stands.2⟩
    | confirm cur conflicts actorId now =>
      obtain ⟨ready, read, cover⟩ := stands
      exact ⟨ready.append, fun c mem => known_mono (read c mem), cover.mono (fewer cur ready.holds)⟩
  | reading seen => exact inv
  | expiring seen value expired => exact inv
  | expelling seen base next => exact ⟨inv.1, inv.2.1.append, inv.2.2⟩

/-! ## One transaction moves -/

variable {row : StoredRelation}

theorem State.own_insert_self :
    State.own { s.goto t phase with pending := s.pending ++ [(t, row)] } t = s.own t ++ [row] := by
  simp [State.own]

theorem State.own_insert_of_ne (other : t' ≠ t) :
    State.own { s.goto t phase with pending := s.pending ++ [(t, row)] } t' = s.own t' := by
  simp [State.own, Ne.symm other]

theorem State.own_finish_self : (s.finish t revisions).own t = [] := by
  simp [State.own, State.finish, filter_filter]

theorem State.own_finish_of_ne (other : t' ≠ t) : (s.finish t revisions).own t' = s.own t' := by
  unfold State.own State.finish
  dsimp only
  rw [filter_filter]
  congr 1
  refine filter_congr fun p _ => ?_
  by_cases here : p.1 = t'
  · simp [here, other]
  · simp [here]

theorem State.mem_own : r ∈ s.own t ↔ (t, r) ∈ s.pending := by
  unfold State.own
  constructor
  · intro mem
    obtain ⟨⟨t', r'⟩, listed, rfl⟩ := mem_map.mp mem
    obtain ⟨listed, here⟩ := mem_filter.mp listed
    rwa [← of_decide_eq_true here]
  · intro mem
    exact mem_map.mpr ⟨(t, r), mem_filter.mpr ⟨mem, decide_eq_true rfl⟩, rfl⟩

theorem State.Inv.goto (inv : s.Inv legacy)
    (knows : phase.Inv legacy s.revisions s.locks s.validated t (s.own t)) : (s.goto t phase).Inv legacy := by
  obtain ⟨committed, next, distinct, ends, lock, phases⟩ := inv
  exact ⟨committed, next, distinct, ends, lock, (Function.forall_update_iff s.phase
    (p := fun t phase => phase.Inv legacy s.revisions s.locks s.validated t (s.own t))).mpr
      ⟨knows, fun other _ => phases other⟩⟩

theorem State.Inv.validate {check : StoredRelation × Int} (inv : s.Inv legacy)
    (knows : phase.Inv legacy s.revisions s.locks (check :: s.validated) t (s.own t)) :
    State.Inv legacy { s.goto t phase with validated := check :: s.validated } := by
  have more : s.validated ⊆ check :: s.validated := subset_cons_self _ _
  obtain ⟨⟨numbered, ends', exclusive, confirmed⟩, next, distinct, ends, lock, phases⟩ := inv
  refine ⟨⟨numbered, ends', exclusive, fun r inside state => ?_⟩, next, distinct, ends, lock,
    (Function.forall_update_iff s.phase (p := fun t phase =>
      phase.Inv legacy s.revisions s.locks (check :: s.validated) t (s.own t))).mpr
        ⟨knows, fun other _ => (phases other).mono (fun _ => id) more⟩⟩
  obtain ⟨p, before, actorId, now, eq, confirmable, valid⟩ := confirmed r inside state
  exact ⟨p, before, actorId, now, eq, confirmable, more valid⟩

theorem State.Inv.lock_ {refs : List ResourceRef} (inv : s.Inv legacy)
    (ok : s.lock t refs phase = some s')
    (knows : phase.Inv legacy s.revisions (s.locks ++ refs.map (t, ·)) s.validated t (s.own t)) :
    s'.Inv legacy := by
  obtain ⟨committed, next, distinct, ends, lock, phases⟩ := inv
  unfold State.lock at ok
  split at ok
  next => cases ok
  next free =>
    obtain rfl := some.inj ok
    have mine (ref : ResourceRef) (mem : ref ∈ refs) (held : TxId × ResourceRef) (listed : held ∈ s.locks)
        (same : held.2 = ref) : held.1 = t := by
      by_contra other
      refine free (any_eq_true.mpr ⟨held, listed, ?_⟩)
      simp [other, same, mem]
    refine ⟨committed, next, distinct, ends, fun a left b right same => ?_,
      (Function.forall_update_iff s.phase (p := fun t' phase => phase.Inv legacy s.revisions
        (s.locks ++ refs.map (t, ·)) s.validated t' (s.own t'))).mpr ⟨knows, fun other _ =>
          (phases other).mono (fun _ mem => mem_append_left _ mem) (Subset.refl _)⟩⟩
    rcases mem_append.mp left with left | left <;> rcases mem_append.mp right with right | right
    · exact lock a left b right same
    · obtain ⟨ref, mem, rfl⟩ := mem_map.mp right
      exact mine ref mem a left same
    · obtain ⟨ref, mem, rfl⟩ := mem_map.mp left
      exact (mine ref mem b right same.symm).symm
    · obtain ⟨ref, -, rfl⟩ := mem_map.mp left
      obtain ⟨ref', -, rfl⟩ := mem_map.mp right
      rfl

theorem State.Inv.finish_phase (inv : s.Inv legacy) (t : TxId) (more : List StoredRelation)
    (fewer : ∀ other, other ≠ t → ∀ cur, (other, cur.source) ∈ s.locks →
      ∀ h, IsHead (s.revisions ++ more) h → h.state = .confirmed → overlaps cur h = true →
        IsHead s.revisions h) :
    ∀ other, ((s.finish t (s.revisions ++ more)).phase other).Inv legacy (s.revisions ++ more)
      (s.finish t (s.revisions ++ more)).locks s.validated other
      ((s.finish t (s.revisions ++ more)).own other) := by
  refine (Function.forall_update_iff s.phase (p := fun other phase =>
    phase.Inv legacy (s.revisions ++ more) (s.finish t (s.revisions ++ more)).locks s.validated other
      ((s.finish t (s.revisions ++ more)).own other))).mpr ⟨State.own_finish_self, fun other ne => ?_⟩
  rw [State.own_finish_of_ne ne]
  exact ((inv.phase other).append (fewer other ne)).mono
    (fun _ mem => mem_filter.mpr ⟨mem, decide_eq_true ne⟩) (Subset.refl _)

theorem State.Inv.abort_ (inv : s.Inv legacy) (t : TxId) : (s.abort t).Inv legacy := by
  have phases := inv.finish_phase t [] fun _ _ _ _ h is _ _ => by
    rwa [append_nil] at is
  rw [append_nil] at phases
  obtain ⟨committed, next, distinct, ends, lock, -⟩ := inv
  exact ⟨committed, fun p mem => next p (mem_filter.mp mem).1,
    distinct.sublist (filter_sublist.map _), fun p mem => ends p (mem_filter.mp mem).1,
    fun a left b right => lock a (mem_filter.mp left).1 b (mem_filter.mp right).1, phases⟩

/-- What a transaction inserts: a next version, or the first of a new relation. -/
def Insertable (legacy : Legacy) (revisions : List StoredRelation) (row : StoredRelation) : Prop :=
  (∃ base, Follows legacy revisions base row) ∨ row.version = 1 ∧ 2 ^ 50 ≤ row.relationId

theorem known_version_le (numbered : NumberedEach (·.relationId) (·.version) revisions)
    (inside : r ∈ known legacy revisions) : r.version ≤ count revisions r.relationId := by
  rcases mem_append.mp inside with old | new
  · obtain ⟨row, -, rfl⟩ := mem_map.mp old
    exact Nat.zero_le _
  · exact ((numbered r.relationId).mem (Versioned.mem_versionsOf.mpr ⟨new, rfl⟩)).2

theorem Insertable.next (insertable : Insertable legacy revisions row)
    (committed : Committed legacy revisions validated) (free : ∀ r ∈ revisions, ¬ State.sameKey r row = true) :
    row.version = count revisions row.relationId + 1 ∧
      ∀ k ∈ known legacy revisions, k.relationId = row.relationId → k.ends = row.ends := by
  have absent (n : Nat) (version : row.version = n + 1) : ∀ r ∈ revisions,
      ¬ (r.relationId = row.relationId ∧ r.version = n + 1) := fun r inside same =>
    free r inside (by simp [State.sameKey, same.1, same.2, version])
  rcases insertable with ⟨base, inside, version, id, ends⟩ | ⟨version, id⟩
  · have reached := known_version_le committed.numbered inside
    rw [← id] at reached
    have next : base.version = count revisions row.relationId :=
      committed.numbered.next_of_absent reached (absent _ version)
    refine ⟨by rw [version, next], fun k mem same => ?_⟩
    rw [ends]
    exact committed.ends k mem base inside (same.trans id)
  · have next : 0 = count revisions row.relationId :=
      committed.numbered.next_of_absent (Nat.zero_le _) (absent 0 version)
    refine ⟨by rw [version, ← next], fun k mem same => ?_⟩
    rcases mem_append.mp mem with old | new
    · obtain ⟨legacyRow, listed, rfl⟩ := mem_map.mp old
      have small := legacy.below legacyRow listed
      have same : legacyRow.id = row.relationId := same
      omega
    · have reached := known_version_le committed.numbered mem
      have positive := ((committed.numbered k.relationId).mem (Versioned.mem_versionsOf.mpr ⟨new, rfl⟩)).1
      rw [same] at reached
      omega

theorem State.Inv.insert_ (inv : s.Inv legacy)
    (insertable : Insertable legacy s.revisions row) (ok : s.insert t row phase = some s')
    (knows : phase.Inv legacy s.revisions s.locks s.validated t (s.own t ++ [row])) : s'.Inv legacy := by
  unfold State.insert at ok
  split at ok
  next => cases ok
  next unblocked =>
    split at ok
    next =>
      obtain rfl := some.inj ok
      exact inv.abort_ t
    next free =>
      obtain rfl := some.inj ok
      have free_ (r : StoredRelation) (mem : r ∈ s.visible t) : ¬ State.sameKey r row = true :=
        fun same => free (any_eq_true.mpr ⟨r, mem, same⟩)
      obtain ⟨next, ends⟩ := insertable.next inv.committed fun r mem =>
        free_ r (mem_append_left _ mem)
      have new : row.relationId ∉ s.pending.map (·.2.relationId) := by
        intro mem
        obtain ⟨p, listed, same⟩ := mem_map.mp mem
        have version := inv.next p listed
        rw [same, ← next] at version
        have key : State.sameKey p.2 row = true := by simp [State.sameKey, same, version]
        by_cases here : p.1 = t
        · exact free_ p.2 (mem_append_right _ (State.mem_own.mpr (here ▸ listed))) key
        · exact unblocked (any_eq_true.mpr ⟨p, listed, by simp [here, key]⟩)
      refine ⟨inv.committed, fun p mem => ?_, ?_, fun p mem => ?_, inv.lock, ?_⟩
      · rcases mem_append.mp mem with old | last
        · exact inv.next p old
        · rw [mem_singleton.mp last]
          exact next
      · change ((s.pending ++ [(t, row)]).map (·.2.relationId)).Nodup
        rw [map_append, map_singleton]
        refine nodup_append'.mpr ⟨inv.distinct, nodup_singleton _, fun id mem last => ?_⟩
        rw [mem_singleton.mp last] at mem
        exact new mem
      · rcases mem_append.mp mem with old | last
        · exact inv.ends p old
        · rw [mem_singleton.mp last]
          exact ends
      · refine (Function.forall_update_iff s.phase (p := fun other phase =>
          phase.Inv legacy s.revisions s.locks s.validated other
            (State.own { s.goto t phase with pending := s.pending ++ [(t, row)] } other))).mpr
            ⟨?_, fun other ne => ?_⟩
        · rw [State.own_insert_self]
          exact knows
        · rw [State.own_insert_of_ne ne]
          exact inv.phase other

/-! ## Commits -/

/-- Where a transaction may commit. -/
def Phase.done : Phase → Prop
  | .writing _ rest => rest = []
  | .reading _ => True
  | _ => False

theorem Phase.Inv.confirms (inv : phase.Inv legacy revisions locks validated t own)
    (done : phase.done) : (∀ w ∈ own, w.state ≠ .confirmed) ∨ ∃ cur actorId now,
      Ready revisions locks validated t cur now ∧ Cover revisions cur (fun _ => False) ∧
      ∀ w ∈ own, w.state = .confirmed → w = cur.confirm [] actorId now := by
  cases phase with
  | reading seen => exact .inl inv
  | writing plan rest =>
    obtain ⟨rows, stands⟩ := inv
    rw [show rest = [] from done, append_nil] at rows
    subst rows
    cases plan with
    | suggest value =>
      refine .inl fun w mem => ?_
      rw [mem_singleton.mp mem]
      exact stands.2.2
    | append base next =>
      refine .inl fun w mem => ?_
      rw [mem_singleton.mp mem]
      exact stands.2
    | confirm cur conflicts actorId now =>
      obtain ⟨ready, -, cover⟩ := stands
      cases conflicts with
      | nil =>
        refine .inr ⟨cur, actorId, now, ready, fun h is other confirmed overlap => ?_, fun w mem _ => ?_⟩
        · obtain ⟨c, listed, -⟩ := cover h is other confirmed overlap
          cases listed
        · exact mem_singleton.mp mem
      | cons c conflicts =>
        refine .inl fun w mem => ?_
        rcases mem_append.mp mem with one | last
        · obtain ⟨d, -, rfl⟩ := mem_map.mp one
          exact nofun
        · rw [mem_singleton.mp last]
          simp [StoredRelation.confirm]
  | _ => exact (show False from done).elim

theorem State.Inv.own_distinct (inv : s.Inv legacy) (t : TxId) : ((s.own t).map (·.relationId)).Nodup := by
  unfold State.own
  rw [map_map]
  exact inv.distinct.sublist (filter_sublist.map _)

theorem State.Inv.heads (inv : s.Inv legacy) (t : TxId) :
    NumberedEach (·.relationId) (·.version) (s.revisions ++ s.own t) ∧
    (∀ w ∈ s.own t, IsHead (s.revisions ++ s.own t) w) ∧
    ∀ h, IsHead (s.revisions ++ s.own t) h →
      h ∈ s.own t ∨ IsHead s.revisions h ∧ h.relationId ∉ (s.own t).map (·.relationId) := by
  obtain ⟨numbered, new, old⟩ := inv.committed.numbered.append (inv.own_distinct t) fun w mem =>
    inv.next _ (State.mem_own.mp mem)
  refine ⟨numbered, new, fun h is => ?_⟩
  by_cases mine : h.relationId ∈ (s.own t).map (·.relationId)
  · obtain ⟨w, mem, same⟩ := mem_map.mp mine
    have head := new w mem
    rw [same] at head
    rw [some.inj (is.symm.trans head)]
    exact .inl mem
  · refine .inr ⟨?_, mine⟩
    unfold IsHead at is
    rwa [old _ mine] at is

theorem count_append_of_absent {id : Nat}
    (absent : id ∉ more.map (·.relationId)) : count (revisions ++ more) id = count revisions id := by
  have none_ : more.filter (·.relationId = id) = [] := filter_eq_nil_iff.mpr fun w mem same =>
    absent (mem_map.mpr ⟨w, mem, of_decide_eq_true same⟩)
  unfold count versionsOf
  rw [filter_append, none_, append_nil]

theorem mem_known_append :
    r ∈ known legacy (revisions ++ more) ↔ r ∈ known legacy revisions ∨ r ∈ more := by
  unfold known
  rw [← append_assoc, mem_append]

theorem State.Inv.fewer (inv : s.Inv legacy) (done : (s.phase t).done) {other : TxId} (ne : other ≠ t)
    (holds : (other, cur.source) ∈ s.locks) (is : IsHead (s.revisions ++ s.own t) h)
    (confirmed : h.state = .confirmed) (overlap : overlaps cur h = true) : IsHead s.revisions h := by
  rcases (inv.heads t).2.2 h is with mem | ⟨old, -⟩
  · rcases (inv.phase t).confirms done with nothing | ⟨mine, actorId, now, ready, -, only⟩
    · exact absurd confirmed (nothing h mem)
    · have source : h.source = mine.source := by
        rw [only h mem confirmed]
        rfl
      have same := overlaps_source overlap
      rw [source] at same
      exact absurd (inv.lock _ holds _ ready.holds same.symm) ne
  · exact old

theorem State.Inv.exclusive (inv : s.Inv legacy) (done : (s.phase t).done)
    (left : IsHead (s.revisions ++ s.own t) a) (right : IsHead (s.revisions ++ s.own t) b)
    (differ : a.relationId ≠ b.relationId) (confirmed : a.state = .confirmed)
    (confirmed' : b.state = .confirmed) : overlaps a b = false := by
  -- One of the two is new: it is the confirmation of `cur`, which overlaps no confirmed head.
  have excludes {a b : StoredRelation} (mem : a ∈ s.own t) (confirmed : a.state = .confirmed)
      (right : IsHead (s.revisions ++ s.own t) b) (confirmed' : b.state = .confirmed)
      (differ : a.relationId ≠ b.relationId) : overlaps a b = false := by
    rcases (inv.phase t).confirms done with nothing | ⟨cur, actorId, now, ready, cover, only⟩
    · exact absurd confirmed (nothing a mem)
    · rcases (inv.heads t).2.2 b right with mem' | ⟨old, -⟩
      · rw [only a mem confirmed, only b mem' confirmed'] at differ
        exact absurd rfl differ
      · have eq := only a mem confirmed
        have same : overlaps a b = overlaps cur b := by
          rw [eq]
          exact overlaps_congr rfl rfl rfl rfl
        rw [same]
        by_contra overlap
        rw [Bool.not_eq_false] at overlap
        refine cover b old (fun equal => differ ?_) confirmed' overlap
        rw [eq]
        exact equal.symm
  rcases (inv.heads t).2.2 a left with mem | ⟨old, -⟩
  · exact excludes mem confirmed right confirmed' differ
  · rcases (inv.heads t).2.2 b right with mem' | ⟨old', -⟩
    · rw [overlaps_comm]
      exact excludes mem' confirmed' left confirmed differ.symm
    · exact inv.committed.exclusive a b old old' differ confirmed confirmed'

theorem State.Inv.commit_ (inv : s.Inv legacy) (done : (s.phase t).done) : (s.commit t).Inv legacy := by
  have absent {p : TxId × StoredRelation} (mem : p ∈ s.pending) (ne : p.1 ≠ t) :
      p.2.relationId ∉ (s.own t).map (·.relationId) := by
    intro inside
    obtain ⟨w, mine, same⟩ := mem_map.mp inside
    have equal := inj_on_of_nodup_map inv.distinct (State.mem_own.mp mine) mem same
    exact ne (congrArg Prod.fst equal).symm
  have others {p : TxId × StoredRelation} (mem : p ∈ s.pending.filter (·.1 ≠ t)) :
      p ∈ s.pending ∧ p.1 ≠ t := ⟨(mem_filter.mp mem).1, of_decide_eq_true (mem_filter.mp mem).2⟩
  refine ⟨⟨(inv.heads t).1, fun a left b right same => ?_,
    fun a b left right differ confirmed confirmed' => inv.exclusive done left right differ confirmed confirmed',
    fun r inside confirmed => ?_⟩, fun p mem => ?_, inv.distinct.sublist (filter_sublist.map _),
    fun p mem k inside same => ?_,
    fun a left b right => inv.lock a (mem_filter.mp left).1 b (mem_filter.mp right).1,
    inv.finish_phase t _ fun other ne cur holds h is confirmed overlap =>
      inv.fewer done ne holds is confirmed overlap⟩
  · rcases mem_known_append.mp left with left | left <;> rcases mem_known_append.mp right with right | right
    · exact inv.committed.ends a left b right same
    · exact inv.ends _ (State.mem_own.mp right) a left same
    · exact (inv.ends _ (State.mem_own.mp left) b right same.symm).symm
    · rw [inj_on_of_nodup_map (inv.own_distinct t) left right same]
  · rcases mem_append.mp inside with old | mem
    · obtain ⟨p, before, rest⟩ := inv.committed.confirmed r old confirmed
      exact ⟨p, mem_append_left _ before, rest⟩
    · rcases (inv.phase t).confirms done with nothing | ⟨cur, actorId, now, ready, -, only⟩
      · exact absurd confirmed (nothing r mem)
      · exact ⟨cur, mem_append_left _ ready.inside, actorId, now, only r mem confirmed,
          ready.confirmable, ready.valid⟩
  · obtain ⟨mem, ne⟩ := others mem
    change p.2.version = count (s.revisions ++ s.own t) p.2.relationId + 1
    rw [count_append_of_absent (absent mem ne)]
    exact inv.next p mem
  · obtain ⟨mem, ne⟩ := others mem
    rcases mem_known_append.mp inside with old | mine
    · exact inv.ends p mem k old same
    · exact absurd (same ▸ mem_map_of_mem mine) (absent mem ne)

theorem State.Inv.conflicts {conflicts : List StoredRelation} {actorId : Nat}
    (inv : s.Inv legacy) (here : s.phase t = .writing (.confirm cur conflicts actorId now) [])
    (is : IsHead s.revisions h) (differ : h.relationId ≠ cur.relationId)
    (confirmed : h.state = .confirmed) (overlap : overlaps cur h = true) :
    (∃ c, IsHead (s.commit t).revisions c ∧ c.relationId = h.relationId ∧ c.state = .conflicted ∧
      c.version = h.version + 1) ∧
    ∃ c, IsHead (s.commit t).revisions c ∧ c.relationId = cur.relationId ∧ c.state = .conflicted := by
  have knows := inv.phase t
  rw [here] at knows
  obtain ⟨rows, -, -, cover⟩ := knows
  rw [append_nil] at rows
  obtain ⟨c, listed, same⟩ := cover h is differ confirmed overlap
  have heads := (inv.heads t).2.1
  have mine : c.conflict ∈ s.own t := rows ▸ mem_append_left _ (mem_map_of_mem listed)
  refine ⟨⟨c.conflict, heads _ mine, same, rfl, ?_⟩, ⟨cur.confirm conflicts actorId now, heads _ ?_, rfl, ?_⟩⟩
  · have next : c.conflict.version = count s.revisions h.relationId + 1 :=
      same ▸ inv.next _ (State.mem_own.mp mine)
    rw [next]
    exact congrArg (· + 1) (inv.committed.numbered.head_version is).symm
  · rw [rows]
    exact mem_append_right _ (mem_singleton.mpr rfl)
  · cases conflicts with
    | nil => cases listed
    | cons d rest => simp [StoredRelation.confirm]

/-! ## Reads -/

theorem adjacentIds_cases (legacy : Legacy) (numbered : NumberedEach (·.relationId) (·.version) revisions) (ref : ResourceRef)
    (limit : Nat) : (adjacentIds legacy revisions ref limit).length = limit ∨
      ∀ h, IsHead revisions h → h.touches ref = true → h.relationId ∈ adjacentIds legacy revisions ref limit := by
  unfold adjacentIds
  dsimp only
  rw [length_take]
  by_cases full : limit ≤ (insertionSort (· ≤ ·) ((revisions.filter fun r =>
      r.touches ref && !revisions.any fun n => n.relationId = r.relationId && r.version < n.version).map
        (·.relationId) ++ (legacy.rows.filter fun row =>
      row.relation.touches ref && !revisions.any (·.relationId = row.id)).map (·.id))).length
  · exact .inl (min_eq_left full)
  · refine .inr fun h is touches => ?_
    rw [take_of_length_le (not_le.mp full).le, (perm_insertionSort _ _).mem_iff]
    refine mem_append_left _ (mem_map_of_mem (mem_filter.mpr ⟨is.mem, ?_⟩))
    rw [touches, Bool.true_and, Bool.not_eq_true', any_eq_false]
    intro n mem newer
    simp only [Bool.and_eq_true, decide_eq_true_eq] at newer
    have bound := ((numbered h.relationId).mem (Versioned.mem_versionsOf.mpr ⟨mem, newer.1⟩)).2
    have latest := numbered.head_version is
    omega

theorem adjacentIds_known {ref : ResourceRef} {limit id : Nat}
    (mem : id ∈ adjacentIds legacy revisions ref limit) : ∃ k ∈ known legacy revisions, k.relationId = id := by
  have listed := mem_of_mem_take mem
  rw [(perm_insertionSort _ _).mem_iff] at listed
  rcases mem_append.mp listed with new | old
  · obtain ⟨r, inside, same⟩ := mem_map.mp new
    exact ⟨r, mem_known_of_mem (mem_filter.mp inside).1, same⟩
  · obtain ⟨row, inside, same⟩ := mem_map.mp old
    exact ⟨row.relation, mem_append_left _ (mem_map_of_mem (mem_filter.mp inside).1), same⟩

variable {evidence : EvidenceCheck}

theorem confirmable_ok (ok : confirmable legacy cur now evidence = .ok ()) :
    Confirmable cur now ∧ evidence = .valid := by
  unfold confirmable at ok
  split at ok
  next => cases ok
  next checked =>
    simp only [not_or, not_not, Bool.not_eq_true, Bool.not_eq_false] at checked
    obtain ⟨suggested, evidence_, window, unexpired⟩ := checked
    refine ⟨⟨suggested, evidence_, window, fun e mem => ?_⟩, ?_⟩
    · have live := any_eq_false.mp unexpired e mem
      rwa [decide_eq_true_eq, not_le] at live
    · cases evidence with
      | valid => rfl
      | withdrawn | unavailable => cases ok

theorem Request.decide_ok {request : Request} {decision : Option StoredRelation}
    (ok : request.decide legacy cur evidence = .ok decision) :
    (∃ next, decision = some next ∧ next.version = cur.version + 1 ∧ next.relationId = cur.relationId ∧
      next.ends = cur.ends ∧ next.state ≠ .confirmed) ∨
    decision = none ∧ Confirmable cur request.now ∧ evidence = .valid := by
  unfold Request.decide at ok
  split at ok
  next => cases ok
  next =>
    split at ok
    next content author _ =>
      split at ok
      · obtain rfl := Except.ok.inj ok
        exact .inl ⟨_, rfl, rfl, rfl, rfl, nofun⟩
      · cases ok
    next => cases ok
    next reason _ =>
      obtain rfl := Except.ok.inj ok
      exact .inl ⟨_, rfl, rfl, rfl, rfl, nofun⟩
    next actor _ =>
      split at ok
      · cases ok
      · obtain ⟨_, checked, rfl⟩ := Except.map_eq_ok.mp ok
        exact .inr ⟨rfl, confirmable_ok checked⟩
    next reason _ =>
      split at ok
      · cases ok
      · obtain rfl := Except.ok.inj ok
        refine .inl ⟨_, rfl, rfl, rfl, rfl, ?_⟩
        unfold StoredRelation.invalidate
        dsimp only
        split <;> exact nofun

theorem StoredRelation.expireTo_state (r : StoredRelation) (expired : Bool) :
    (r.expireTo expired).state ≠ .confirmed := by
  cases expired <;> exact nofun

/-! ## Steps -/

theorem State.Inv.at_ (inv : s.Inv legacy) (here : s.phase t = phase) :
    phase.Inv legacy s.revisions s.locks s.validated t (s.own t) := here ▸ inv.phase t

theorem State.Inv.lockStep (inv : s.Inv legacy) (step : after legacy s (.lock t) = some s') : s'.Inv legacy := by
  cases here : s.phase t with
  | suggesting suggestion id =>
    simp only [after, here] at step
    obtain ⟨none_, fresh⟩ := inv.at_ here
    refine inv.lock_ step ⟨?_, rfl, fresh, nofun⟩
    rw [none_]
    rfl
  | opened request initial =>
    simp only [after, here] at step
    obtain ⟨none_, inside, same⟩ := inv.at_ here
    refine inv.lock_ step ⟨none_, initial, inside, same, mem_append_right _ ?_⟩
    exact mem_map_of_mem mem_cons_self
  | _ => simp [after, here] at step

theorem State.Inv.readStep (inv : s.Inv legacy)
    (step : after legacy s (.read t evidence) = some s') : s'.Inv legacy := by
  cases here : s.phase t with
  | locked request =>
    simp only [after, here] at step
    obtain ⟨none_, k, inside, same, holds⟩ := inv.at_ here
    split at step
    next => cases step
    next current found =>
      obtain ⟨known_, id⟩ := head_known found
      split at step
      next =>
        obtain rfl := some.inj step
        exact inv.abort_ t
      next next decided =>
        obtain rfl := some.inj step
        obtain ⟨next', eq, version, id', ends, state⟩ | ⟨absurd, -⟩ := Request.decide_ok decided
        · obtain rfl := some.inj eq
          refine inv.goto ⟨?_, ⟨known_, version, id', ends⟩, state⟩
          rw [none_]
          rfl
        · cases absurd
      next decided =>
        obtain rfl := some.inj step
        obtain ⟨next', eq, -⟩ | ⟨-, confirmable, -⟩ := Request.decide_ok decided
        · cases eq
        · refine inv.validate ⟨none_, id, ?_, ?_, confirmable, mem_cons_self⟩
          · rcases mem_append.mp known_ with old | new
            · obtain ⟨row, -, rfl⟩ := mem_map.mp old
              exact absurd rfl confirmable.evidence
            · exact new
          · have ends := inv.committed.ends k inside current known_ (same.trans id.symm)
            have source : k.source = current.source := congrArg Prod.fst ends
            rwa [← source]
  | _ => simp [after, here] at step

theorem State.Inv.listStep (inv : s.Inv legacy) (step : after legacy s (.list t) = some s') : s'.Inv legacy := by
  cases here : s.phase t with
  | confirming request cur =>
    simp only [after, here, Option.some.injEq] at step
    subst step
    obtain ⟨none_, id, ready⟩ := inv.at_ here
    refine inv.goto ⟨none_, id, ready, fun id mem => adjacentIds_known mem, fun f mem => (nomatch mem), ?_⟩
    rcases adjacentIds_cases legacy inv.committed.numbered cur.source 101 with full | all
    · exact .inl (by rw [full]; rfl)
    · refine .inr fun h is _ _ overlap => .inl (all h is ?_)
      rw [StoredRelation.touches, overlaps_source overlap]
      simp
  | _ => simp [after, here] at step

theorem State.Inv.scanStep (inv : s.Inv legacy) (step : after legacy s (.scan t) = some s') : s'.Inv legacy := by
  cases here : s.phase t with
  | scanning request cur left found =>
    cases left with
    | nil => simp [after, here] at step
    | cons id left =>
      simp only [after, here, Option.some.injEq] at step
      subst step
      obtain ⟨none_, same, ready, listed, read, cover⟩ := inv.at_ here
      obtain ⟨k, inside, id_⟩ := listed id mem_cons_self
      obtain ⟨value, head_⟩ := exists_head inside id_
      rw [head_, Option.toList_some]
      refine inv.goto ⟨none_, same, ready, fun i mem => listed i (mem_cons_of_mem _ mem),
        fun f mem => ?_, cover.imp (fun full => ?_) fun cover h is differ confirmed overlap => ?_⟩
      · rcases mem_append.mp mem with old | last
        · exact read f old
        · rw [mem_singleton.mp last]
          exact (head_known head_).1
      · rw [length_append, length_singleton]
        rw [length_cons] at full
        omega
      · rcases cover h is differ confirmed overlap with mem | ⟨f, mem, rest⟩
        · rcases mem_cons.mp mem with rfl | mem
          · have eq := is.head legacy
            rw [head_] at eq
            obtain rfl := some.inj eq
            exact .inr ⟨value, mem_append_right _ (mem_singleton.mpr rfl), rfl, confirmed, overlap⟩
          · exact .inl mem
        · exact .inr ⟨f, mem_append_left _ mem, rest⟩
  | _ => simp [after, here] at step

theorem State.Inv.decideStep (inv : s.Inv legacy) (step : after legacy s (.decide t) = some s') :
    s'.Inv legacy := by
  cases here : s.phase t with
  | scanning request cur left found =>
    cases left with
    | cons id left => simp [after, here] at step
    | nil =>
      simp only [after, here] at step
      obtain ⟨none_, same, ready, -, read, cover⟩ := inv.at_ here
      split at step
      next actor _ =>
        split at step
        next =>
          obtain rfl := some.inj step
          exact inv.abort_ t
        next few =>
          obtain rfl := some.inj step
          refine inv.goto ⟨by rw [none_]; rfl, ready, fun c mem => read c (mem_filter.mp mem).1, ?_⟩
          rcases cover with full | cover
          · rw [length_nil] at full
            omega
          · intro h is differ confirmed overlap
            rcases cover h is differ confirmed overlap with mem | ⟨f, mem, id, state, overlap'⟩
            · cases mem
            · refine ⟨f, mem_filter.mpr ⟨mem, ?_⟩, id⟩
              rw [← id, same] at differ
              simp [differ, state, overlap']
      next => cases step
  | _ => simp [after, here] at step

theorem Plan.insertable {plan : Plan}
    (stands : plan.Inv legacy revisions locks validated t) (mem : row ∈ plan.rows) :
    Insertable legacy revisions row := by
  cases plan with
  | suggest value =>
    rw [mem_singleton.mp mem]
    exact .inr ⟨stands.1, stands.2.1⟩
  | append base next =>
    rw [mem_singleton.mp mem]
    exact .inl ⟨base, stands.1⟩
  | confirm cur conflicts actorId now =>
    obtain ⟨ready, read, -⟩ := stands
    rcases mem_append.mp mem with one | last
    · obtain ⟨c, listed, rfl⟩ := mem_map.mp one
      exact .inl ⟨c, read c listed, rfl, rfl, rfl⟩
    · rw [mem_singleton.mp last]
      exact .inl ⟨cur, mem_known_of_mem ready.inside, rfl, rfl, rfl⟩

theorem State.Inv.insertStep (inv : s.Inv legacy) (step : after legacy s (.insert t) = some s') :
    s'.Inv legacy := by
  cases here : s.phase t with
  | writing plan rest =>
    cases rest with
    | nil => simp [after, here] at step
    | cons row rest =>
      simp only [after, here] at step
      obtain ⟨rows, stands⟩ := inv.at_ here
      have mem : row ∈ plan.rows := rows ▸ mem_append_right _ mem_cons_self
      refine inv.insert_ (Plan.insertable stands mem) step ⟨?_, stands⟩
      rw [← rows, append_assoc]
      rfl
  | expelling seen base next =>
    simp only [after, here] at step
    obtain ⟨quiet, follows, state⟩ := inv.at_ here
    refine inv.insert_ (.inl ⟨base, follows⟩) step fun r mem => ?_
    rcases mem_append.mp mem with old | last
    · exact quiet r old
    · rw [mem_singleton.mp last]
      exact state
  | _ => simp [after, here] at step

theorem State.Inv.rereadStep (inv : s.Inv legacy) (step : after legacy s (.reread t) = some s') :
    s'.Inv legacy := by
  cases here : s.phase t with
  | expiring seen value expired =>
    simp only [after, here] at step
    have quiet := inv.at_ here
    split at step
    next =>
      obtain rfl := some.inj step
      exact inv.goto quiet
    next current found =>
      split at step
      next =>
        obtain rfl := some.inj step
        exact inv.goto quiet
      next same =>
        obtain rfl := some.inj step
        rw [not_or, not_not, not_not] at same
        have inside : current ∈ known legacy s.revisions := by
          rcases mem_known_append.mp (head_known found).1 with old | mine
          · exact old
          · exact absurd same.2 (quiet current mine)
        exact inv.goto ⟨quiet, ⟨inside, rfl, rfl, rfl⟩, current.expireTo_state expired⟩
  | _ => simp [after, here] at step

theorem State.Inv.after (inv : s.Inv legacy) {event : Event} (step : after legacy s event = some s') :
    s'.Inv legacy := by
  cases event with
  | suggest t suggestion random now =>
    cases here : s.phase t with
    | idle =>
      simp only [Relations.after, here, Option.ite_none_right_eq_some, Option.some.injEq] at step
      obtain ⟨-, rfl⟩ := step
      exact inv.goto ⟨inv.at_ here, Nat.le_add_right _ _⟩
    | _ => simp [Relations.after, here] at step
  | open_ t request =>
    cases here : s.phase t with
    | idle =>
      simp only [Relations.after, here] at step
      split at step
      next => cases step
      next initial found =>
        obtain rfl := some.inj step
        exact inv.goto ⟨inv.at_ here, head_known found⟩
    | _ => simp [Relations.after, here] at step
  | lock t => exact inv.lockStep step
  | read t evidence => exact inv.readStep step
  | list t => exact inv.listStep step
  | scan t => exact inv.scanStep step
  | decide t => exact inv.decideStep step
  | insert t => exact inv.insertStep step
  | commit t =>
    cases here : s.phase t with
    | writing plan rest =>
      cases rest with
      | nil =>
        simp only [Relations.after, here, Option.some.injEq] at step
        subst step
        exact inv.commit_ (by rw [here]; exact rfl)
      | cons row rest => simp [Relations.after, here] at step
    | reading seen =>
      simp only [Relations.after, here, Option.some.injEq] at step
      subst step
      exact inv.commit_ (by rw [here]; trivial)
    | _ => simp [Relations.after, here] at step
  | abort t =>
    obtain rfl := some.inj step
    exact inv.abort_ t
  | graph t =>
    cases here : s.phase t with
    | idle =>
      simp only [Relations.after, here, Option.some.injEq] at step
      subst step
      refine inv.goto fun r mem => ?_
      rw [show s.own t = [] from inv.at_ here] at mem
      cases mem
    | _ => simp [Relations.after, here] at step
  | look t id =>
    cases here : s.phase t with
    | reading seen =>
      simp only [Relations.after, here, Option.some.injEq] at step
      subst step
      have quiet := inv.at_ here
      exact inv.goto quiet
    | _ => simp [Relations.after, here] at step
  | expire t value expired =>
    cases here : s.phase t with
    | reading seen =>
      simp only [Relations.after, here, Option.ite_none_right_eq_some, Option.some.injEq] at step
      obtain ⟨-, rfl⟩ := step
      have quiet := inv.at_ here
      exact inv.goto quiet
    | _ => simp [Relations.after, here] at step
  | reread t => exact inv.rereadStep step

theorem State.lock_revisions {refs : List ResourceRef} (ok : s.lock t refs phase = some s') :
    s.revisions <+: s'.revisions := by
  unfold State.lock at ok
  split at ok
  · cases ok
  · obtain rfl := some.inj ok
    exact prefix_refl _

theorem State.insert_revisions (ok : s.insert t row phase = some s') :
    s.revisions <+: s'.revisions := by
  unfold State.insert at ok
  split at ok
  · cases ok
  · split at ok
    · obtain rfl := some.inj ok
      exact prefix_refl _
    · obtain rfl := some.inj ok
      exact prefix_refl _

theorem after_revisions {event : Event} (step : after legacy s event = some s') :
    s.revisions <+: s'.revisions := by
  cases event <;> dsimp only [after] at step <;> (repeat' split at step) <;>
    first
    | cases step; done
    | exact State.lock_revisions step
    | exact State.insert_revisions step
    | obtain rfl := some.inj step; exact prefix_refl _
    | obtain rfl := some.inj step; exact prefix_append _ _

theorem Committed.start : Committed legacy [] validated where
  numbered := .nil
  ends a left b right same := by
    unfold known at left right
    rw [append_nil] at left right
    obtain ⟨row, listed, rfl⟩ := mem_map.mp left
    obtain ⟨row', listed', rfl⟩ := mem_map.mp right
    rw [inj_on_of_nodup_map legacy.distinct listed listed' same]
  exclusive a b is := by cases is.mem
  confirmed r mem := by cases mem

/-- Confirmed relations exclude each other in every committed state; a commit of a confirmation that
meets an overlapping confirmed head leaves both in conflict. -/
theorem confirmed_relations_exclusive (legacy : Legacy) (events : List Event) (s : State)
    (run : Run (fun s event s' => after legacy s event = some s') .initial events s) :
    Committed legacy s.revisions s.validated ∧
    (∀ event s', after legacy s event = some s' → s.revisions <+: s'.revisions) ∧
    ∀ t cur conflicts actorId now h s', s.phase t = .writing (.confirm cur conflicts actorId now) [] →
      IsHead s.revisions h → h.relationId ≠ cur.relationId → h.state = .confirmed →
      overlaps cur h = true → after legacy s (.commit t) = some s' →
      (∃ c, IsHead s'.revisions c ∧ c.relationId = h.relationId ∧ c.state = .conflicted ∧
        c.version = h.version + 1) ∧
      ∃ c, IsHead s'.revisions c ∧ c.relationId = cur.relationId ∧ c.state = .conflicted := by
  have start : State.initial.Inv legacy :=
    ⟨.start, fun p mem => (nomatch mem), nodup_nil, fun p mem => (nomatch mem),
      fun a mem => (nomatch mem), fun t => rfl⟩
  have inv : s.Inv legacy := run.invariant start fun _ _ _ inv step => inv.after step
  refine ⟨inv.committed, fun event s' step => after_revisions step, ?_⟩
  intro t cur conflicts actorId now h s' here is differ confirmed overlap step
  simp only [after, here, Option.some.injEq] at step
  subst step
  exact inv.conflicts here is differ confirmed overlap

private def noLegacy : Legacy := ⟨[], nodup_nil, no_rows_below⟩

private def replica : Suggestion where
  source := ⟨.databaseInstance, 1⟩
  target := ⟨.databaseInstance, 2⟩
  relationType := .replicates_to
  content := ⟨[⟨"proof", 1, "hash", 100⟩], 0, 0, none, .manual⟩
  author := ⟨false, 7⟩

private def suggested (random : Nat) : List Event :=
  [.suggest 0 replica random 1, .lock 0, .insert 0, .commit 0]

private def confirmation (random scanned : Nat) : List Event :=
  [.open_ 0 ⟨newRelationId random, 1, 2, .confirm ⟨false, 8⟩⟩, .lock 0, .read 0 .valid, .list 0] ++
    replicate scanned (.scan 0) ++ [.decide 0]

private def twice : List Event :=
  suggested 0 ++ suggested 1 ++ confirmation 0 2 ++ ([.insert 0, .commit 0] : List Event) ++
    confirmation 1 2 ++ ([.insert 0, .insert 0, .commit 0] : List Event)

/-- The second confirmation of one replica meets the first. -/
theorem confirmed_relations_conflict :
    ∃ s, Run (fun s event s' => after noLegacy s event = some s') .initial twice s ∧
      s.revisions.map (fun r => (r.relationId - 2 ^ 50, r.version, r.state)) =
        [(0, 1, .suggested), (1, 1, .suggested), (0, 2, .confirmed), (0, 3, .conflicted),
          (1, 2, .conflicted)] ∧
      Committed noLegacy s.revisions s.validated := by
  have played : (twice.foldlM (after noLegacy) .initial).any
        (fun s => s.revisions.map (fun r => (r.relationId - 2 ^ 50, r.version, r.state)) =
          [(0, 1, .suggested), (1, 1, .suggested), (0, 2, .confirmed), (0, 3, .conflicted),
            (1, 2, .conflicted)]) = true := by
    decide +kernel
  obtain ⟨s, run, rows⟩ := Run.of_any played
  exact ⟨s, run, of_decide_eq_true rows, (confirmed_relations_exclusive noLegacy _ s run).1⟩

end Slide.Relations
