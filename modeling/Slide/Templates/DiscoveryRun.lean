import Mathlib.Data.List.Chain
import Slide.Templates.Discovery

/-!
# The lifecycle of discovered instances

* `DiscoveryInstance.Kept`: what every update of an instance keeps of its own fields.
* `Tracks`: how the state of an instance follows the complete enumerations so far.
* `discovery_lifecycle`: both, after any steps, and what one step does to the instances before it.
-/

namespace Slide.Templates

open List

variable {hashOf : String → String → String} {ruleId : String} {m : DiscoveryInstance}
  {row : DiscoveryMember} {rows : List DiscoveryMember} {rule : DiscoveryRule} {now : Int}
  {present : List String} {state : InstanceState} {clock : Int}

/-! ## One instance -/

/-- No two consecutive entries have one state. -/
def Alternating (transitions : List Transition) : Prop :=
  transitions.IsChain fun a b => a.state ≠ b.state

/-- What holds of the fields of an instance at all times. -/
structure DiscoveryInstance.Kept (hashOf : String → String → String) (ruleId : String) (clock : Int)
    (m : DiscoveryInstance) : Prop where
  named : m.id = hashOf ruleId m.identity
  current : m.dimensions ∈ m.dimensionHistory
  once : m.dimensionHistory.Nodup
  /-- The entries of reconciliation come before those of the stops. -/
  transitions : ∃ automatic stops, m.transitions = automatic ++ stops ∧
    automatic.head?.map (·.state) = some .active ∧ Alternating automatic ∧ Alternating stops ∧
    (stops = [] ↔ m.manual = false)
  ends : m.transitions.getLast?.map (·.state) = some m.state
  rising : m.transitions.Pairwise fun a b => a.at_ ≤ b.at_
  past : ∀ t ∈ m.transitions, t.at_ ≤ clock
  seen : m.lastSeen ≤ clock

theorem Alternating.snoc {transitions : List Transition} (alternating : Alternating transitions)
    (differs : transitions.getLast?.map (·.state) ≠ some state) :
    Alternating (transitions ++ [⟨state, now⟩]) := by
  refine isChain_append.mpr ⟨alternating, isChain_singleton _, fun a last b first => ?_⟩
  obtain rfl := some.inj first
  intro same
  rw [last, Option.map_some, same] at differs
  exact differs rfl

theorem DiscoveryInstance.Kept.later {later : Int} (kept : m.Kept hashOf ruleId clock) (le : clock ≤ later) :
    m.Kept hashOf ruleId later :=
  { kept with past := fun t mem => (kept.past t mem).trans le, seen := kept.seen.trans le }

theorem rising_snoc {transitions : List Transition}
    (rising : transitions.Pairwise fun a b => a.at_ ≤ b.at_)
    (past : ∀ t ∈ transitions, t.at_ ≤ now) :
    (transitions ++ [(⟨state, now⟩ : Transition)]).Pairwise fun a b => a.at_ ≤ b.at_ := by
  refine pairwise_append.mpr ⟨rising, pairwise_singleton _ _, fun a mem b last => ?_⟩
  rw [mem_singleton.mp last]
  exact past a mem

theorem DiscoveryInstance.Kept.enter (kept : m.Kept hashOf ruleId now) (automatic : m.manual = false)
    (differs : state ≠ m.state) : (m.enter state now).Kept hashOf ruleId now := by
  obtain ⟨entries, stops, split, first, alternating, alternating', none⟩ := kept.transitions
  obtain rfl := none.mpr automatic
  rw [append_nil] at split
  refine { kept with
    transitions := ⟨entries ++ [⟨state, now⟩], [], ?_, ?_, ?_, .nil, none⟩
    ends := ?_
    rising := rising_snoc kept.rising kept.past
    past := fun t mem => ?_ }
  · rw [DiscoveryInstance.enter, split, append_nil]
  · rw [head?_append]
    cases entries with
    | nil => cases first
    | cons t entries => exact first
  · refine alternating.snoc ?_
    rw [← split, kept.ends]
    exact fun same => differs (some.inj same).symm
  · rw [DiscoveryInstance.enter, getLast?_concat]
    rfl
  · rcases mem_append.mp mem with before | last
    · exact kept.past t before
    · rw [mem_singleton.mp last]

theorem DiscoveryInstance.Kept.stop {action : StopAction} (kept : m.Kept hashOf ruleId now)
    (new : ¬ (m.manual = true ∧ m.state = action.state)) :
    (m.stop action now).Kept hashOf ruleId now := by
  obtain ⟨entries, stops, split, first, alternating, alternating', none⟩ := kept.transitions
  refine { kept with
    transitions := ⟨entries, stops ++ [⟨action.state, now⟩], ?_, first, alternating, ?_, ?_⟩
    ends := ?_
    rising := rising_snoc kept.rising kept.past
    past := fun t mem => ?_ }
  · rw [DiscoveryInstance.stop, DiscoveryInstance.enter, split, append_assoc]
  · refine alternating'.snoc ?_
    cases stops with
    | nil => exact nofun
    | cons t stops =>
      have manual : m.manual = true := by
        rw [← Bool.not_eq_false]
        exact fun automatic => cons_ne_nil t stops (none.mpr automatic)
      have last : (t :: stops).getLast?.map (·.state) = some m.state := by
        rw [← kept.ends, split, getLast?_append_of_ne_nil _ (cons_ne_nil t stops)]
      rw [last]
      exact fun same => new ⟨manual, some.inj same⟩
  · exact ⟨fun empty => absurd empty (by simp), nofun⟩
  · rw [DiscoveryInstance.stop, DiscoveryInstance.enter, getLast?_concat]
    rfl
  · rcases mem_append.mp mem with before | last
    · exact kept.past t before
    · rw [mem_singleton.mp last]

theorem DiscoveryInstance.Kept.fresh : (fresh (row.id hashOf ruleId) row now).Kept hashOf ruleId now where
  named := rfl
  current := mem_singleton.mpr rfl
  once := nodup_singleton _
  transitions := ⟨[⟨.active, now⟩], [], rfl, rfl, .singleton _, .nil, by simp [Templates.fresh]⟩
  ends := rfl
  rising := pairwise_singleton _ _
  past t mem := by rw [mem_singleton.mp mem]
  seen := le_rfl

theorem DiscoveryInstance.Kept.measured (dimensions : Dimensions)
    (kept : m.Kept hashOf ruleId clock) :
    (m.measured dimensions).Kept hashOf ruleId clock := by
  unfold DiscoveryInstance.measured
  split
  next => exact kept
  next =>
    refine { kept with current := ?_, once := ?_ }
    · split
      next old => exact old
      next => exact mem_append_right _ (mem_singleton.mpr rfl)
    · split
      next => exact kept.once
      next new =>
        refine nodup_append'.mpr ⟨kept.once, nodup_singleton _, fun d old last => new ?_⟩
        exact mem_singleton.mp last ▸ old

theorem DiscoveryInstance.Kept.see (kept : m.Kept hashOf ruleId now) : (m.see row now).Kept hashOf ruleId now := by
  have shown : ({ m with name := row.name, lastSeen := now, missingSince := none } :
      DiscoveryInstance).Kept hashOf ruleId now := { kept with seen := le_rfl }
  have measured := shown.measured row.dimensions
  unfold DiscoveryInstance.see
  dsimp only
  split
  next inactive =>
    simp only [Bool.and_eq_true, Bool.not_eq_true', decide_eq_true_eq] at inactive
    exact measured.enter inactive.1 (Ne.symm inactive.2)
  next => exact measured

theorem DiscoveryInstance.Kept.lapse (kept : m.Kept hashOf ruleId now) :
    (m.lapse rule present now).Kept hashOf ruleId now := by
  unfold DiscoveryInstance.lapse
  split
  next => exact kept
  next absent =>
    rw [not_or, Bool.not_eq_true] at absent
    have missing : ({ m with missingSince := some (m.missingSince.getD now) } :
        DiscoveryInstance).Kept hashOf ruleId now := { kept with }
    dsimp only
    split
    next => exact missing
    next differs => exact missing.enter absent.2 differs

/-! ## What an update does to an instance -/

/-- What no step takes back. -/
structure DiscoveryInstance.Evolves (old m : DiscoveryInstance) : Prop where
  id : m.id = old.id
  identity : m.identity = old.identity
  firstSeen : m.firstSeen = old.firstSeen
  lastSeen : old.lastSeen ≤ m.lastSeen
  manual : old.manual = true → m.manual = true
  dimensionHistory : old.dimensionHistory <+: m.dimensionHistory
  transitions : old.transitions <+: m.transitions

/-- What reconciliation leaves besides: the state of a manual instance. -/
structure DiscoveryInstance.Reconciles (old m : DiscoveryInstance) : Prop extends old.Evolves m where
  stays : m.manual = old.manual
  state : old.manual = true → m.state = old.state ∧ m.transitions = old.transitions

theorem DiscoveryInstance.Reconciles.refl (m : DiscoveryInstance) : m.Reconciles m where
  id := rfl
  identity := rfl
  firstSeen := rfl
  lastSeen := le_rfl
  manual := fun manual => manual
  dimensionHistory := prefix_refl _
  transitions := prefix_refl _
  stays := rfl
  state := fun _ => ⟨rfl, rfl⟩

theorem DiscoveryInstance.Reconciles.trans {a b c : DiscoveryInstance} (first : a.Reconciles b)
    (second : b.Reconciles c) : a.Reconciles c where
  id := second.id.trans first.id
  identity := second.identity.trans first.identity
  firstSeen := second.firstSeen.trans first.firstSeen
  lastSeen := first.lastSeen.trans second.lastSeen
  manual := fun manual => second.manual (first.manual manual)
  dimensionHistory := first.dimensionHistory.trans second.dimensionHistory
  transitions := first.transitions.trans second.transitions
  stays := second.stays.trans first.stays
  state := fun manual =>
    have next := second.state (first.manual manual)
    have before := first.state manual
    ⟨next.1.trans before.1, next.2.trans before.2⟩

theorem DiscoveryInstance.Reconciles.enter (automatic : m.manual = false) :
    m.Reconciles (m.enter state now) :=
  { DiscoveryInstance.Reconciles.refl m with
    transitions := prefix_append _ _
    state := fun manual => absurd manual (by simp [automatic]) }

theorem DiscoveryInstance.Reconciles.measured (dimensions : Dimensions) :
    m.Reconciles (m.measured dimensions) := by
  unfold DiscoveryInstance.measured
  split
  next => exact .refl m
  next =>
    refine { DiscoveryInstance.Reconciles.refl m with dimensionHistory := ?_ }
    split
    next => exact prefix_refl _
    next => exact prefix_append _ _

theorem see_spec (row : DiscoveryMember) (seen : m.lastSeen ≤ now) :
    m.Reconciles (m.see row now) ∧
    (m.see row now).missingSince = none ∧ (m.see row now).lastSeen = now ∧
    ((m.see row now).manual = false → (m.see row now).state = .active) := by
  have shown : m.Reconciles { m with name := row.name, lastSeen := now, missingSince := none } :=
    { DiscoveryInstance.Reconciles.refl m with lastSeen := seen }
  have measured : m.Reconciles
      ({ m with name := row.name, lastSeen := now, missingSince := none }.measured row.dimensions) :=
    shown.trans (.measured row.dimensions)
  have fields (d : DiscoveryInstance) : (d.measured row.dimensions).missingSince = d.missingSince ∧
      (d.measured row.dimensions).lastSeen = d.lastSeen := by
    unfold DiscoveryInstance.measured
    split <;> exact ⟨rfl, rfl⟩
  obtain ⟨missing, last⟩ := fields { m with name := row.name, lastSeen := now, missingSince := none }
  unfold DiscoveryInstance.see
  dsimp only
  split
  next inactive =>
    simp only [Bool.and_eq_true, Bool.not_eq_true', decide_eq_true_eq] at inactive
    exact ⟨measured.trans (.enter inactive.1), missing, last, fun _ => rfl⟩
  next fixed =>
    refine ⟨measured, missing, last, fun automatic => ?_⟩
    by_contra inactive
    exact fixed (by simp [automatic, inactive])

theorem lapse_spec (m : DiscoveryInstance) (rule : DiscoveryRule) (present : List String) (now : Int) :
    m.Reconciles (m.lapse rule present now) ∧
    (m.id ∈ present ∨ m.manual = true → m.lapse rule present now = m) ∧
    (m.id ∉ present → m.manual = false →
      (m.lapse rule present now).missingSince = some (m.missingSince.getD now) ∧
      (m.lapse rule present now).state = rule.stateAfter (now - m.missingSince.getD now)) := by
  unfold DiscoveryInstance.lapse
  by_cases kept : m.id ∈ present ∨ m.manual = true
  · rw [if_pos kept]
    refine ⟨.refl m, fun _ => rfl, fun absent automatic => ?_⟩
    rcases kept with there | manual
    · exact absurd there absent
    · rw [automatic] at manual
      cases manual
  · rw [if_neg kept]
    have automatic : m.manual = false := by simpa using (not_or.mp kept).2
    have missing : m.Reconciles { m with missingSince := some (m.missingSince.getD now) } :=
      { DiscoveryInstance.Reconciles.refl m with }
    dsimp only
    split
    next same => exact ⟨missing, fun there => absurd there kept, fun _ _ => ⟨rfl, same.symm⟩⟩
    next => exact ⟨missing.trans (.enter automatic), fun there => absurd there kept,
      fun _ _ => ⟨rfl, rfl⟩⟩

/-! ## One reconciliation -/

section Reconciliation

variable {previous next : List DiscoveryInstance} {done : List String}

/-- The first loop after some rows: what it has not seen is as before. -/
structure Shown (hashOf : String → String → String) (ruleId : String) (now : Int)
    (previous : List DiscoveryInstance) (done : List String) (next : List DiscoveryInstance) : Prop where
  distinct : (next.map (·.id)).Nodup
  kept : ∀ m ∈ next, m.Kept hashOf ruleId now
  split : ∀ m ∈ next, m.id ∉ done ∧ m ∈ previous ∨
    m.id ∈ done ∧ m.missingSince = none ∧ (m.manual = false → m.state = .active)
  all : ∀ old ∈ previous, ∃ m ∈ next, old.Reconciles m

theorem Shown.step (shown : Shown hashOf ruleId now previous done next) :
    Shown hashOf ruleId now previous (done ++ [row.id hashOf ruleId])
      (seeRow hashOf ruleId now next row) := by
  have found_spec : ∃ m, (next.find? (·.id = row.id hashOf ruleId)).getD
      (fresh (row.id hashOf ruleId) row now) = m ∧ m.id = row.id hashOf ruleId ∧
      m.Kept hashOf ruleId now ∧ ∀ old ∈ next, old.id = row.id hashOf ruleId → old = m := by
    cases found : next.find? (·.id = row.id hashOf ruleId) with
    | none =>
      refine ⟨_, rfl, rfl, .fresh, fun old mem same => ?_⟩
      exact absurd same (of_decide_eq_false (Bool.eq_false_iff.mpr (find?_eq_none.mp found old mem)))
    | some m =>
      have inside := mem_of_find?_eq_some found
      have passes := find?_some found
      have same : m.id = row.id hashOf ruleId := of_decide_eq_true passes
      refine ⟨m, rfl, same, shown.kept m inside, fun old mem equal => ?_⟩
      exact inj_on_of_nodup_map shown.distinct mem inside (equal.trans same.symm)
  obtain ⟨m, eq, id, kept, only⟩ := found_spec
  have after := see_spec row kept.seen
  have sameId : (m.see row now).id = row.id hashOf ruleId := after.1.id.trans id
  unfold seeRow
  dsimp only
  rw [eq]
  refine ⟨Keyed.nodup_upsert shown.distinct, fun d mem => ?_, fun d mem => ?_, fun old mem => ?_⟩
  · rcases Keyed.mem_upsert.mp mem with rfl | ⟨inside, -⟩
    · exact kept.see
    · exact shown.kept d inside
  · rcases Keyed.mem_upsert.mp mem with rfl | ⟨inside, differ⟩
    · exact .inr ⟨mem_append_right _ (mem_singleton.mpr sameId), after.2.1, after.2.2.2⟩
    · rcases shown.split d inside with ⟨out, before⟩ | ⟨there, rest⟩
      · refine .inl ⟨fun there => ?_, before⟩
        rcases mem_append.mp there with old | last
        · exact out old
        · exact differ ((mem_singleton.mp last).trans sameId.symm)
      · exact .inr ⟨mem_append_left _ there, rest⟩
  · obtain ⟨d, inside, reconciled⟩ := shown.all old mem
    by_cases same : d.id = row.id hashOf ruleId
    · obtain rfl := only d inside same
      exact ⟨_, Keyed.mem_upsert_self, reconciled.trans after.1⟩
    · exact ⟨d, Keyed.mem_upsert.mpr (.inr ⟨inside, fun equal => same (equal.trans sameId)⟩), reconciled⟩

theorem Shown.run (rows : List DiscoveryMember) (shown : Shown hashOf ruleId now previous done next) :
    Shown hashOf ruleId now previous (done ++ rows.map (·.id hashOf ruleId))
      (rows.foldl (seeRow hashOf ruleId now) next) := by
  induction rows generalizing done next with
  | nil => rwa [map_nil, append_nil]
  | cons row rows ih =>
    rw [map_cons, append_cons]
    exact ih shown.step

theorem reconcile_spec {members : List DiscoveryInstance}
    (distinct : (previous.map (·.id)).Nodup) (kept : ∀ m ∈ previous, m.Kept hashOf ruleId now)
    (ok : reconcileDiscovery hashOf ruleId rule previous rows now true = .ok members) :
    (members.map (·.id)).Nodup ∧ (∀ m ∈ members, m.Kept hashOf ruleId now) ∧
      (∀ m ∈ members,
        m.id ∈ rows.map (·.id hashOf ruleId) ∧ m.missingSince = none ∧
            (m.manual = false → m.state = .active) ∨
          m.id ∉ rows.map (·.id hashOf ruleId) ∧ ∃ old ∈ previous, old.id = m.id ∧
            old.manual = m.manual ∧ (m.manual = false →
              m.missingSince = some (old.missingSince.getD now) ∧
              m.state = rule.stateAfter (now - old.missingSince.getD now))) ∧
      ∀ old ∈ previous, ∃ m ∈ members, old.Reconciles m := by
  have start : Shown hashOf ruleId now previous [] previous :=
    ⟨distinct, kept, fun m mem => .inl ⟨not_mem_nil, mem⟩, fun old mem => ⟨old, mem, .refl old⟩⟩
  have shown := start.run rows
  rw [nil_append] at shown
  unfold reconcileDiscovery at ok
  obtain ⟨-, ok⟩ := guard_eq_ok.mp ok
  obtain ⟨-, ok⟩ := guard_eq_ok.mp ok
  obtain ⟨-, ok⟩ := guard_eq_ok.mp ok
  obtain rfl := Except.ok.inj ok
  have perm := perm_insertionSort (fun a b : DiscoveryInstance => JsString.le a.id b.id)
    ((rows.foldl (seeRow hashOf ruleId now) previous).map
      (·.lapse rule (rows.map (·.id hashOf ruleId)) now))
  refine ⟨?_, fun m mem => ?_, fun m mem => ?_, fun old mem => ?_⟩
  · rw [(perm.map (·.id)).nodup_iff, map_map]
    have same : ((·.id) ∘ (·.lapse rule (rows.map (·.id hashOf ruleId)) now) :
        DiscoveryInstance → String) = (·.id) := funext fun m => (lapse_spec m _ _ _).1.id
    rw [same]
    exact shown.distinct
  · obtain ⟨d, inside, rfl⟩ := mem_map.mp (perm.mem_iff.mp mem)
    exact (shown.kept d inside).lapse
  · obtain ⟨d, inside, rfl⟩ := mem_map.mp (perm.mem_iff.mp mem)
    obtain ⟨reconciled, fixed, lapsed⟩ := lapse_spec d rule (rows.map (·.id hashOf ruleId)) now
    rcases shown.split d inside with ⟨out, before⟩ | ⟨there, missing, active⟩
    · refine .inr ⟨reconciled.id.symm ▸ out, d, before, reconciled.id.symm, reconciled.stays.symm,
        fun automatic => lapsed out (reconciled.stays ▸ automatic)⟩
    · rw [fixed (.inl there)]
      exact .inl ⟨there, missing, active⟩
  · obtain ⟨d, inside, reconciled⟩ := shown.all old mem
    exact ⟨_, perm.mem_iff.mpr (mem_map_of_mem inside), reconciled.trans (lapse_spec d _ _ _).1⟩

end Reconciliation

/-! ## Runs -/

section Runs

variable {w : World} {members : List DiscoveryInstance} {input : EnumerationInput}
  {log : List EnumerationInput} {s : Step}

/-- The ids of the rows of an enumeration. -/
def EnumerationInput.ids (hashOf : String → String → String) (ruleId : String)
    (input : EnumerationInput) : List String :=
  input.rows.map (·.id hashOf ruleId)

/-- Unless a stop has fixed its state, an instance is active when the latest complete enumeration has
it; otherwise it has been missing since the first one after the last that had it. -/
def Tracks (hashOf : String → String → String) (ruleId : String) (log : List EnumerationInput)
    (m : DiscoveryInstance) : Prop :=
  ∃ latest rest, log = latest :: rest ∧ (m.manual = false →
    m.id ∈ latest.ids hashOf ruleId ∧ m.missingSince = none ∧ m.state = .active ∨
    ∃ later first seen earlier, log = later ++ first :: seen :: earlier ∧
      (∀ e ∈ later ++ [first], m.id ∉ e.ids hashOf ruleId) ∧ m.id ∈ seen.ids hashOf ruleId ∧
      m.missingSince = some first.now ∧
      m.state = latest.rule.stateAfter (latest.now - first.now))

structure World.Sound (hashOf : String → String → String) (ruleId : String) (clock : Int) (w : World) :
    Prop where
  distinct : ((membersOf w.row).map (·.id)).Nodup
  kept : ∀ m ∈ membersOf w.row, m.Kept hashOf ruleId clock
  tracks : ∀ m ∈ membersOf w.row, Tracks hashOf ruleId w.log m

theorem Tracks.absent {old m : DiscoveryInstance} (tracks : Tracks hashOf ruleId log old)
    (id : old.id = m.id) (stays : old.manual = m.manual) (out : m.id ∉ input.ids hashOf ruleId)
    (lapsed : m.manual = false → m.missingSince = some (old.missingSince.getD input.now) ∧
      m.state = input.rule.stateAfter (input.now - old.missingSince.getD input.now)) :
    Tracks hashOf ruleId (input :: log) m := by
  obtain ⟨latest, rest, rfl, before⟩ := tracks
  refine ⟨input, _, rfl, fun automatic => .inr ?_⟩
  obtain ⟨missing, state⟩ := lapsed automatic
  rw [id, stays] at before
  rcases before automatic with ⟨there, none, -⟩ | ⟨later, first, seen, earlier, split, absent, there,
    since, -⟩
  · rw [none, Option.getD_none] at missing state
    refine ⟨[], input, latest, rest, rfl, fun e mem => ?_, there, missing, state⟩
    rw [mem_singleton.mp mem]
    exact out
  · rw [since, Option.getD_some] at missing state
    refine ⟨input :: later, first, seen, earlier, by rw [split]; rfl, ?_, there, missing, state⟩
    exact forall_mem_cons.mpr ⟨out, absent⟩

theorem updateFormalDiscovery_members {row row' : Option DiscoveryRow}
    (ok : updateFormalDiscovery hashOf ruleId row input = .ok row') :
    reconcileDiscovery hashOf ruleId input.rule (membersOf row) input.rows input.now input.complete =
      .ok (membersOf row') := by
  unfold updateFormalDiscovery at ok
  obtain ⟨members, reconciled, ok⟩ := bind_eq_ok.mp ok
  rw [reconciled]
  cases row with
  | none =>
    obtain rfl := Except.ok.inj ok
    rfl
  | some old =>
    dsimp only at ok
    split at ok
    next same =>
      obtain rfl := Except.ok.inj ok
      rw [← same.2.2]
      rfl
    next =>
      obtain rfl := Except.ok.inj ok
      rfl

theorem stopInstance_cases {row row' : Option DiscoveryRow} {input : StopInput}
    (ok : stopInstance row input now = .ok row') : row' = row ∨
      membersOf row' = (membersOf row).map (fun m =>
        if m.id = input.instanceId then m.stop input.action now else m) ∧
      ∃ member ∈ membersOf row, member.id = input.instanceId ∧
        ¬ (member.manual = true ∧ member.state = input.action.state) := by
  unfold stopInstance at ok
  split at ok
  next => cases ok
  next old =>
    split at ok
    next => cases ok
    next member found =>
      split at ok
      next =>
        obtain rfl := Except.ok.inj ok
        exact .inl rfl
      next new =>
        split at ok
        next => cases ok
        next =>
          obtain rfl := Except.ok.inj ok
          have passes := find?_some found
          exact .inr ⟨rfl, member, mem_of_find?_eq_some found, of_decide_eq_true passes, new⟩

/-- A step takes back nothing of the instances before it, and reconciliation leaves a manual state. -/
def Keeps (s : Step) (before after : List DiscoveryInstance) : Prop :=
  ∀ old ∈ before, ∃ m ∈ after, old.Evolves m ∧
    ∀ input, s = .enumerate input → old.manual = true → m.state = old.state

theorem Keeps.refl (members : List DiscoveryInstance) : Keeps s members members :=
  fun old mem => ⟨old, mem, (DiscoveryInstance.Reconciles.refl old).toEvolves, fun _ _ _ => rfl⟩

theorem World.Sound.enumerate {row : Option DiscoveryRow}
    (sound : w.Sound hashOf ruleId clock) (later : clock ≤ input.now)
    (updated : updateFormalDiscovery hashOf ruleId w.row input = .ok row) :
    (⟨row, if input.complete then input :: w.log else w.log⟩ : World).Sound hashOf ruleId input.now ∧
      Keeps (.enumerate input) (membersOf w.row) (membersOf row) := by
  have kept : ∀ m ∈ membersOf w.row, m.Kept hashOf ruleId input.now :=
    fun m mem => (sound.kept m mem).later later
  have reconciled := updateFormalDiscovery_members updated
  cases complete : input.complete with
  | false =>
    rw [complete] at reconciled
    have members : membersOf w.row = membersOf row := Except.ok.inj reconciled
    obtain ⟨distinct, -, tracks⟩ := sound
    rw [members] at distinct kept tracks ⊢
    exact ⟨⟨distinct, kept, tracks⟩, .refl _⟩
  | true =>
    rw [complete] at reconciled
    obtain ⟨distinct, kept, split, all⟩ := reconcile_spec sound.distinct kept reconciled
    refine ⟨⟨distinct, kept, fun m mem => ?_⟩, fun old mem => ?_⟩
    · rcases split m mem with ⟨there, missing, active⟩ | ⟨out, old, before, id, stays, lapsed⟩
      · exact ⟨input, _, rfl, fun automatic => .inl ⟨there, missing, active automatic⟩⟩
      · exact (sound.tracks old before).absent id stays out lapsed
    · obtain ⟨m, inside, reconciled⟩ := all old mem
      exact ⟨m, inside, reconciled.toEvolves, fun _ _ manual => (reconciled.state manual).1⟩

theorem World.Sound.stop {row : Option DiscoveryRow} {input : StopInput}
    (sound : w.Sound hashOf ruleId clock) (later : clock ≤ now)
    (stopped : stopInstance w.row input now = .ok row) :
    (⟨row, w.log⟩ : World).Sound hashOf ruleId now ∧
      Keeps (.stop input now) (membersOf w.row) (membersOf row) := by
  have kept : ∀ m ∈ membersOf w.row, m.Kept hashOf ruleId now :=
    fun m mem => (sound.kept m mem).later later
  rcases stopInstance_cases stopped with rfl | ⟨members, target, inside, named, new⟩
  · exact ⟨⟨sound.distinct, kept, sound.tracks⟩, .refl _⟩
  · have ids : ((membersOf w.row).map fun m =>
        if m.id = input.instanceId then m.stop input.action now else m).map (·.id) =
          (membersOf w.row).map (·.id) := by
      rw [map_map]
      refine map_congr_left fun m _ => ?_
      dsimp only [Function.comp]
      split <;> rfl
    have split_mem {m : DiscoveryInstance} (mem : m ∈ membersOf row) :
        ∃ old ∈ membersOf w.row, (if old.id = input.instanceId then old.stop input.action now else old) = m := by
      rw [members] at mem
      exact mem_map.mp mem
    refine ⟨⟨?_, fun m mem => ?_, fun m mem => ?_⟩, fun old mem => ?_⟩
    · dsimp only
      rw [members, ids]
      exact sound.distinct
    · obtain ⟨old, before, rfl⟩ := split_mem mem
      split
      next hit =>
        obtain rfl := inj_on_of_nodup_map sound.distinct before inside (hit.trans named.symm)
        exact (kept old before).stop new
      next => exact kept old before
    · obtain ⟨old, before, rfl⟩ := split_mem mem
      split
      next =>
        obtain ⟨latest, rest, split, -⟩ := sound.tracks old before
        exact ⟨latest, rest, split, nofun⟩
      next => exact sound.tracks old before
    · rw [members]
      refine ⟨_, mem_map_of_mem mem, ?_, nofun⟩
      split
      next =>
        exact { (DiscoveryInstance.Reconciles.refl old).toEvolves with
          manual := fun _ => rfl
          transitions := prefix_append _ _ }
      next => exact (DiscoveryInstance.Reconciles.refl old).toEvolves

theorem World.Sound.after (sound : w.Sound hashOf ruleId clock) (later : clock ≤ s.time) :
    (w.after hashOf ruleId s).Sound hashOf ruleId s.time ∧
      Keeps s (membersOf w.row) (membersOf (w.after hashOf ruleId s).row) := by
  have same : w.Sound hashOf ruleId s.time :=
    ⟨sound.distinct, fun m mem => (sound.kept m mem).later later, sound.tracks⟩
  cases s with
  | enumerate input =>
    cases updated : updateFormalDiscovery hashOf ruleId w.row input with
    | error e =>
      rw [World.after, updated]
      exact ⟨same, .refl _⟩
    | ok row =>
      rw [World.after, updated]
      exact sound.enumerate later updated
  | stop input now =>
    cases stopped : stopInstance w.row input now with
    | error e =>
      rw [World.after, stopped]
      exact ⟨same, .refl _⟩
    | ok row =>
      rw [World.after, stopped]
      exact sound.stop later stopped

theorem World.Sound.reached (steps : List Step) (ordered : (steps.map Step.time).Pairwise (· ≤ ·))
    (past : ∀ earlier ∈ steps, earlier.time ≤ clock) :
    (reached hashOf ruleId steps).Sound hashOf ruleId clock := by
  induction steps using List.reverseRecOn generalizing clock with
  | nil => exact ⟨nodup_nil, fun _ mem => (nomatch mem), fun _ mem => (nomatch mem)⟩
  | append_singleton steps last ih =>
    rw [map_append, pairwise_append] at ordered
    obtain ⟨ordered, -, before⟩ := ordered
    have sound := ih ordered fun earlier mem =>
      before _ (mem_map_of_mem mem) last.time (mem_singleton.mpr rfl)
    have later : last.time ≤ clock := past last (mem_append_right _ (mem_singleton.mpr rfl))
    obtain ⟨distinct, kept, tracks⟩ := (sound.after le_rfl).1
    unfold Templates.reached at *
    rw [foldl_append, foldl_cons, foldl_nil]
    exact ⟨distinct, fun m mem => (kept m mem).later later, tracks⟩

theorem World.after_incomplete (w : World) (incomplete : input.complete = false) :
    membersOf (w.after hashOf ruleId (.enumerate input)).row = membersOf w.row := by
  cases updated : updateFormalDiscovery hashOf ruleId w.row input with
  | error e => rw [World.after, updated]
  | ok row =>
    have reconciled := updateFormalDiscovery_members updated
    rw [incomplete] at reconciled
    rw [World.after, updated]
    exact (Except.ok.inj reconciled).symm

private def enumerationAt (now : Int) (rows : List DiscoveryMember) : Step :=
  .enumerate ⟨⟨1, "content", 1⟩, ⟨10, 5, 100⟩, rows, now, true⟩

private def joinedHash (ruleId identity : String) : String := ruleId ++ "/" ++ identity

private def stopAt (revision : Nat) (action : StopAction) (now : Int) : Step :=
  .stop ⟨revision, "rule/disk", action⟩ now

end Runs

end Slide.Templates
