import Slide.Library.Guarded
import Slide.Metrics.DerivedRun

/-!
# The formal latest value

`rollout/control.ts` for one series: its row of `metric_rollout`.  A call that throws, the refusal of a
lock or a fence included, is rolled back and leaves the series as it was.  `stored` and `legacyWrite` are
what `storage.write` and the legacy writer answer; neither touches the row.

`Series.published` keeps what the current generation published; no call reads it.
-/

namespace Slide.Metrics.Rollout

structure Pin where
  (id version digest : String)
deriving DecidableEq

inductive ReadMode
  | legacy | semantic
deriving DecidableEq

structure Target where
  source : String
  read : ReadMode
  package : Pin
  revision : Nat
deriving DecidableEq

structure Ticket where
  source : String
  (generation revision : Nat)

/-- A row of `metric_rollout`. -/
structure Control extends Target where
  generation : Nat
  applied : Option Nat
  latest : Option Observation
deriving DecidableEq

structure Series where
  control : Option Control
  published : List Observation
deriving DecidableEq

def isHex (c : Char) : Bool := c.isDigit || ('a' ≤ c && c ≤ 'f')

/-- `targetSchema`. -/
def Target.Valid (t : Target) : Prop :=
  t.source ≠ "" ∧ jsLength t.source ≤ 128 ∧ t.package.id ≠ "" ∧ t.package.version ≠ "" ∧
    startsWith t.package.digest "sha256:" ∧ (t.package.digest.toList.drop 7).length = 64 ∧
    (t.package.digest.toList.drop 7).all isHex ∧ 0 < t.revision ∧ t.revision ≤ 2147483647

instance : DecidablePred Target.Valid := fun _ =>
  inferInstanceAs (Decidable (_ ∧ _ ∧ _ ∧ _ ∧ _ ∧ _ ∧ _ ∧ _ ∧ _))

inductive Call
  | initializes (input : Target)
  | switch (expected : Nat) (input : Target)
  | applied (ticket : Ticket)
  | publish (observation : Observation) (definition : MetricDefinition) (ticket : Ticket)
    (stored : Except String PUnit) (legacyWrite : Option (Except String PUnit))

def Series.row (s : Series) : Except String Control :=
  s.control.elim (.error "ROLLOUT_NOT_REGISTERED") .ok

def assertTicket (r : Control) (t : Ticket) (applied : Bool) : Except String PUnit := do
  requireRule (r.source = t.source ∧ r.generation = t.generation ∧ r.revision = t.revision)
    "ROLLOUT_STALE_SOURCE"
  requireRule (applied → r.applied = some r.revision) "ROLLOUT_NOT_APPLIED"

variable (digest : IdentityPreimage → String)

/-- `initialize`, `switch`, `applied` and `publish`. -/
def Series.call (s : Series) : Call → Except String Series
  | .initializes input => do
    requireRule input.Valid "ZodError"
    requireRule (s.control = none) "ER_DUP_ENTRY"
    pure ⟨some { input with generation := 1, applied := none, latest := none }, []⟩
  | .switch expected input => do
    requireRule input.Valid "ZodError"
    let old ← s.row
    requireRule (old.generation = expected) "ROLLOUT_CAS_CONFLICT"
    requireRule (old.revision < input.revision) "ROLLOUT_REVISION_MUST_INCREASE"
    pure ⟨some { input with generation := old.generation + 1, applied := none, latest := old.latest }, []⟩
  | .applied ticket => do
    let r ← s.row
    assertTicket r ticket false
    pure { s with control := some { r with applied := some r.revision } }
  | .publish o d ticket stored legacyWrite => do
    validateObservation digest o d
    requireRule (o.stage = .normalized) "ROLLOUT_NORMALIZED_REQUIRED"
    let r ← s.row
    assertTicket r ticket true
    requireRule (o.versions.configRevision = ticket.revision) "ROLLOUT_OBSERVATION_REVISION"
    requireRule (o.versions.packageId = r.package.id ∧
      o.versions.packageVersion.text = r.package.version) "ROLLOUT_PACKAGE_MISMATCH"
    stored
    -- A delayed value is evidence, not the latest formal value.
    if ∃ last ∈ r.latest, o.observedAt.ms ≤ last.observedAt.ms then
      pure ⟨some r, s.published ++ [o]⟩
    else
      if r.read = .legacy then legacyWrite.getD (.error "ROLLOUT_LEGACY_WRITER_REQUIRED") else pure ()
      pure ⟨some { r with latest := some o }, s.published ++ [o]⟩

/-- A call as a transaction. -/
def Series.step (s : Series) (c : Call) : Series := (s.call digest c).toOption.getD s

/-- `latest`: what the legacy reader answers, or the formal value. -/
def Series.latest {α : Type} (s : Series) (legacyRead : Except String α) :
    Except String (α ⊕ Option Observation) := do
  let r ← s.row
  if r.read = .legacy then Sum.inl <$> legacyRead
  else if r.applied = some r.revision then
    pure (.inr (r.latest.filter fun o => o.versions.configRevision = r.revision))
  else pure (.inr none)

/-- The newest of the published observations, if there is one. -/
def Newest (published : List Observation) : Option Observation → Prop
  | none => published = []
  | some o => o ∈ published ∧ ∀ p ∈ published, p.observedAt.ms ≤ o.observedAt.ms

/-- The stored latest value is of no later revision, and the newest of its generation if it is of the
current one. -/
structure Series.Sound (s : Series) (r : Control) : Prop where
  past : ∀ o ∈ r.latest, o.versions.configRevision ≤ r.revision
  newest : Newest s.published (r.latest.filter fun o => o.versions.configRevision = r.revision)

/-- A publication that finds a latest value of an earlier revision is newer than it. -/
def PastIsOlder (s : Series) : Call → Prop
  | .publish o _ _ _ _ => ∀ r ∈ s.control, ∀ old ∈ r.latest,
    old.versions.configRevision ≠ r.revision → old.observedAt.ms < o.observedAt.ms
  | _ => True

instance (s : Series) : DecidablePred (PastIsOlder s)
  | .publish _ _ _ _ _ => inferInstanceAs (Decidable (∀ r ∈ s.control, ∀ old ∈ r.latest, _ → _))
  | .initializes _ | .switch _ _ | .applied _ => .isTrue trivial

variable {digest} {s t : Series}

theorem row_bind {β : Type} {rest : Control → Except String β} {b : β} :
    (s.row >>= rest) = .ok b ↔ ∃ r, s.control = some r ∧ rest r = .ok b := by
  unfold Series.row
  cases s.control with
  | none => simp [bind, Except.bind]
  | some r => simp [bind, Except.bind]

theorem assertTicket_bind {β : Type} {r : Control} {ticket : Ticket} {applied : Bool}
    {rest : PUnit → Except String β} {b : β} :
    (assertTicket r ticket applied >>= rest) = .ok b ↔
      r.revision = ticket.revision ∧ r.source = ticket.source ∧ r.generation = ticket.generation ∧
        (applied → r.applied = some r.revision) ∧ rest () = .ok b := by
  unfold assertTicket
  rw [bind_assoc, requireRule_bind, requireRule_bind]
  tauto

variable {published : List Observation} {o : Observation}

theorem Newest.push {last : Observation} (newest : Newest published (some last))
    (late : o.observedAt.ms ≤ last.observedAt.ms) : Newest (published ++ [o]) (some last) := by
  refine ⟨List.mem_append_left _ newest.1, fun p mem => ?_⟩
  rcases List.mem_append.mp mem with before | new
  · exact newest.2 p before
  · rwa [List.mem_singleton.mp new]

theorem Newest.replace {last : Option Observation} (newest : Newest published last) (newer : ∀ p ∈ last, p.observedAt.ms < o.observedAt.ms) :
    Newest (published ++ [o]) (some o) := by
  refine ⟨List.mem_append_right _ (List.mem_singleton_self o), fun p mem => ?_⟩
  rcases List.mem_append.mp mem with before | new
  · cases last with
    | none => simp [show published = [] from newest] at before
    | some last => exact (newest.2 p before).trans (newer last rfl).le
  · rw [List.mem_singleton.mp new]

theorem sound_call (c : Call) (sound : ∀ r, s.control = some r → s.Sound r)
    (older : PastIsOlder s c) (ran : s.call digest c = .ok t) :
    ∀ r, t.control = some r → t.Sound r := by
  intro after found
  cases c with
  | initializes input =>
    simp only [Series.call, requireRule_bind] at ran
    obtain ⟨-, -, ran⟩ := ran
    obtain rfl := Except.ok.inj ran
    obtain rfl := some.inj found
    refine ⟨?_, ?_⟩
    · intro o held
      exact absurd held (Option.not_mem_none o)
    · exact rfl
  | switch expected input =>
    simp only [Series.call, requireRule_bind, row_bind] at ran
    obtain ⟨-, old, stored, -, more, ran⟩ := ran
    obtain rfl := Except.ok.inj ran
    obtain rfl := some.inj found
    have past : ∀ o ∈ old.latest, o.versions.configRevision < input.revision := fun o held =>
      ((sound old stored).past o held).trans_lt more
    refine ⟨fun o held => (past o held).le, ?_⟩
    have none_left : (old.latest.filter fun o => o.versions.configRevision = input.revision) = none := by
      apply Option.filter_eq_none_iff.mpr
      intro o held
      simpa using (past o held).ne
    simp only [none_left]
    rfl
  | applied ticket =>
    simp only [Series.call, row_bind, assertTicket_bind] at ran
    obtain ⟨r, stored, -, -, -, -, ran⟩ := ran
    obtain rfl := Except.ok.inj ran
    obtain rfl := some.inj found
    exact ⟨(sound r stored).past, (sound r stored).newest⟩
  | publish o d ticket stored legacyWrite =>
    obtain ⟨-, -, ran⟩ := bind_eq_ok.mp ran
    simp only [requireRule_bind, row_bind, assertTicket_bind] at ran
    obtain ⟨-, r, held, revision, -, -, -, fits, -, ran⟩ := ran
    obtain ⟨-, -, ran⟩ := bind_eq_ok.mp ran
    have current : o.versions.configRevision = r.revision := fits.trans revision.symm
    obtain ⟨past, newest⟩ := sound r held
    have of_newer : (∀ last ∈ r.latest, last.observedAt.ms < o.observedAt.ms) →
        Series.Sound ⟨some { r with latest := some o }, s.published ++ [o]⟩
          { r with latest := some o } := by
      intro newer
      refine ⟨fun p same => ?_, ?_⟩
      · cases same
        exact current.le
      · have kept : ((some o).filter fun o => o.versions.configRevision = r.revision) = some o := by
          simp [current]
        simp only [kept]
        exact newest.replace fun last mem => newer last (Option.mem_filter_iff.mp mem).1
    split at ran
    next delayed =>
      obtain rfl := Except.ok.inj ran
      obtain rfl := some.inj found
      obtain ⟨last, known, late⟩ := delayed
      have same : last.versions.configRevision = r.revision := by
        by_contra earlier
        exact absurd (older r held last known earlier) (Int.not_lt.mpr late)
      have kept : (r.latest.filter fun o => o.versions.configRevision = r.revision) = some last := by
        rw [known]
        simp [same]
      rw [kept] at newest
      exact ⟨past, by simpa only [kept] using newest.push late⟩
    next newer =>
      have newer : ∀ last ∈ r.latest, last.observedAt.ms < o.observedAt.ms := fun last known =>
        Int.not_le.mp fun late => newer ⟨last, known, late⟩
      have wrote : t = ⟨some { r with latest := some o }, s.published ++ [o]⟩ := by
        split at ran
        · obtain ⟨-, -, ran⟩ := bind_eq_ok.mp ran
          exact (Except.ok.inj ran).symm
        · exact (Except.ok.inj ran).symm
      rw [wrote] at found ⊢
      obtain rfl := some.inj found
      exact of_newer newer

theorem sound_step (c : Call) (sound : ∀ r, s.control = some r → s.Sound r)
    (older : PastIsOlder s c) : ∀ r, (s.step digest c).control = some r → (s.step digest c).Sound r := by
  unfold Series.step
  cases ran : s.call digest c with
  | error => exact sound
  | ok => exact sound_call c sound older ran

/-- In every run whose publications are newer than a latest value of an earlier revision, the formal
latest value is the newest one of the current generation. -/
theorem latest_is_newest {calls : List Call} {r : Control} {α : Type} (legacyRead : Except String α)
    (older : Guarded.Observes (Series.step digest) PastIsOlder ⟨none, []⟩ calls)
    (found : (calls.foldl (Series.step digest) ⟨none, []⟩).control = some r)
    (semantic : r.read = .semantic) (applied : r.applied = some r.revision) :
    ∃ latest, (calls.foldl (Series.step digest) ⟨none, []⟩).latest legacyRead = .ok (.inr latest) ∧
      Newest (calls.foldl (Series.step digest) ⟨none, []⟩).published latest := by
  have empty : ∀ r, (⟨none, []⟩ : Series).control = some r → Series.Sound ⟨none, []⟩ r := by
    intro r held
    cases held
  have sound := older.invariant (P := fun s => ∀ r, s.control = some r → s.Sound r) empty
    (fun s c sound older => sound_step c sound older) r found
  refine ⟨_, ?_, sound.newest⟩
  apply row_bind.mpr
  refine ⟨r, found, ?_⟩
  rw [if_neg (by rw [semantic]; decide), if_pos applied]
  rfl

def usedAt (second : Nat) (revision : Nat) : Observation :=
  { (bytesNow "used" 30).observation with
    id := "host.filesystem.used@" ++ toString (1000 * second)
    observedAt := .ofMs (1000 * second)
    collectedAt := .ofMs (1000 * second)
    versions := ⟨⟨1, 0, 0⟩, "linux", ⟨1, 0, 0⟩, ⟨1, 0, 0⟩, revision⟩ }

def linuxTarget (revision : Nat) : Target :=
  ⟨"semantic", .semantic, ⟨"linux", "1.0.0", "sha256:".append (.ofList (.replicate 64 'a'))⟩, revision⟩

/-- A value five seconds after the epoch, and a switch to a second revision. -/
def switched : List Call :=
  [.initializes (linuxTarget 1), .applied ⟨"semantic", 1, 1⟩,
    .publish (usedAt 5 1) (bytesGauge "used") ⟨"semantic", 1, 1⟩ (.ok ()) none,
    .switch 1 (linuxTarget 2), .applied ⟨"semantic", 2, 2⟩]

def publishAt (second : Nat) : Call :=
  .publish (usedAt second 2) (bytesGauge "used") ⟨"semantic", 2, 2⟩ (.ok ()) none

def afterSwitch (second : Nat) : Series :=
  (switched ++ [publishAt second]).foldl (Series.step metricDigest) ⟨none, []⟩

/-- The first value after a switch is older than the latest one before it. -/
theorem latest_misses_first : (afterSwitch 3).published = [usedAt 3 2] ∧
    (afterSwitch 3).control.map (fun r => (r.read, r.applied, r.revision)) =
      some (.semantic, some 2, 2) ∧
    (afterSwitch 3).latest (.ok ()) = .ok (.inr none) := by
  exact ⟨rfl, rfl, rfl⟩

theorem switched_older : Guarded.Observes (Series.step metricDigest) PastIsOlder ⟨none, []⟩
    (switched ++ [publishAt 7]) := by
  have opened : Guarded.Observes (Series.step metricDigest) PastIsOlder ⟨none, []⟩
      (switched.take 2) := by
    refine Guarded.observes_nil.append fun e mem t => ?_
    rcases List.mem_pair.mp mem with rfl | rfl <;> trivial
  have switched_again : Guarded.Observes (Series.step metricDigest) PastIsOlder ⟨none, []⟩
      switched := by
    refine (opened.snoc (by decide)).append fun e mem t => ?_
    rcases List.mem_pair.mp mem with rfl | rfl <;> trivial
  exact switched_again.snoc (by decide)

theorem latest_is_newest_switched : ∃ latest, (afterSwitch 7).latest (.ok ()) = .ok (.inr latest) ∧
    Newest (afterSwitch 7).published latest :=
  latest_is_newest (.ok ()) switched_older rfl rfl rfl

end Slide.Metrics.Rollout
