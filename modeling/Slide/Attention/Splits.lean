import Mathlib.Data.List.Pairwise
import Slide.Attention.Identities

/-!
# Human splits

`human_split_kept`: from an accepted override to the next one every stored snapshot carries it and is
grouped by its partitions, whatever the relations, signatures, baselines and events are.
-/

namespace Slide.Attention

open List

variable {hash : HashInput → String} {chain : Chain} {value old : AttentionSnapshot}
  {parts : List Part} {baseline : Baseline} {partitions : List (List String)}
  {previous : List AttentionGroup} {allowNew : Bool}

/-- The groups are those of a human split: events of different partitions are apart, those of one
partition are together, and an event that no partition names is alone. -/
structure AttentionSnapshot.Follows (partitions : List (List String)) (value : AttentionSnapshot) :
    Prop where
  apart : ∀ g ∈ value.groups, ∀ a ∈ g.eventIds, ∀ b ∈ g.eventIds, ∀ P ∈ partitions,
    a ∈ P → b ∈ partitions.flatten → b ∈ P
  together : ∀ P ∈ partitions, ∀ a ∈ P, ∀ b ∈ P, a ∈ value.events.map (·.id) →
    b ∈ value.events.map (·.id) → ∃ g ∈ value.groups, a ∈ g.eventIds ∧ b ∈ g.eventIds
  alone : ∀ g ∈ value.groups, ∀ a ∈ g.eventIds, a ∉ partitions.flatten → g.eventIds = [a]
  held : ∀ a ∈ value.events.map (·.id), ∃ g ∈ value.groups, a ∈ g.eventIds

theorem OfPartition.eventIds_iff {events : List AttentionEvent} {partition : List String} {p : Part}
    (of : OfPartition chain events previous partition p) {id : String} :
    id ∈ p.eventIds ↔ id ∈ partition ∧ id ∈ events.map (·.id) := by
  unfold Part.eventIds
  rw [(perm_insertionSort _ _).mem_iff, of.members]
  simp only [mem_map, mem_filter, decide_eq_true_eq]
  constructor
  · rintro ⟨e, ⟨mem, inside⟩, rfl⟩
    exact ⟨inside, e, mem, rfl⟩
  · rintro ⟨inside, e, mem, rfl⟩
    exact ⟨e, ⟨mem, inside⟩, rfl⟩

theorem follows_of_parts (once : (value.events.map (·.id)).Nodup)
    (named : partitions.flatten.Nodup)
    (of : partitionedParts chain value.events partitions previous allowNew = .ok parts)
    (built : buildGroups hash baseline parts = .ok value.groups) : value.Follows partitions := by
  obtain ⟨state, loop, -, rfl⟩ := partitionedParts_cases of
  have assigned : Assigned chain value.events previous partitions state := Assigned.nil.run once loop
  have disjoint := (nodup_flatten.mp named).2
  -- what a part names: events of one partition, or a single late event
  have kind {g : AttentionGroup} (mem : g ∈ value.groups) :
      (∃ P ∈ partitions, ∀ id, id ∈ g.eventIds ↔ id ∈ P ∧ id ∈ value.events.map (·.id)) ∨
        ∃ e ∈ value.events, e.id ∉ state.1 ∧ g.eventIds = [e.id] := by
    obtain ⟨p, member, -, eventIds⟩ := mem_eventIds_of_group built mem
    rw [eventIds]
    rcases mem_append.mp member with before | last
    · obtain ⟨P, inside, of⟩ := assigned.part before
      exact .inl ⟨P, inside, fun id => of.eventIds_iff⟩
    · obtain ⟨e, inside, late, rfl⟩ := mem_lateParts last
      exact .inr ⟨e, inside, late, rfl⟩
  have one {P Q : List String} {a : String} (inP : P ∈ partitions) (inQ : Q ∈ partitions)
      (left : a ∈ P) (right : a ∈ Q) : P = Q := by
    by_contra differ
    have : Std.Symm (List.Disjoint : List String → List String → Prop) :=
      ⟨fun _ _ => List.Disjoint.symm⟩
    exact disjoint.forall inP inQ differ left right
  -- an event that a partition names is assigned
  have covered {P : List String} (inP : P ∈ partitions) {e : AttentionEvent} (mem : e ∈ value.events)
      (inside : e.id ∈ P) : ∃ g ∈ value.groups,
        ∀ id, id ∈ g.eventIds ↔ id ∈ P ∧ id ∈ value.events.map (·.id) := by
    obtain ⟨p, member, of⟩ := assigned.complete P inP e mem inside
    obtain ⟨g, group, -, eventIds⟩ := group_of_mem built (mem_append_left _ member)
    exact ⟨g, group, fun id => eventIds ▸ of.eventIds_iff⟩
  have unassigned {e : AttentionEvent} (mem : e ∈ value.events) (late : e.id ∉ state.1)
      {P : List String} (inP : P ∈ partitions) : e.id ∉ P := by
    intro inside
    obtain ⟨p, member, of⟩ := assigned.complete P inP e mem inside
    refine late (assigned.ids ▸ mem_map_of_mem (mem_flatMap.mpr ⟨p, member, ?_⟩))
    rw [of.members]
    exact mem_filter.mpr ⟨mem, decide_eq_true inside⟩
  refine ⟨fun g mem a left b right P inP inside flat => ?_, fun P inP a left b right ha hb => ?_,
    fun g mem a left free => ?_, fun a ha => ?_⟩
  · rcases kind mem with ⟨Q, inQ, ids⟩ | ⟨e, member, late, single⟩
    · obtain rfl := one inP inQ inside ((ids a).mp left).1
      exact ((ids b).mp right).1
    · rw [single] at left
      obtain rfl := mem_singleton.mp left
      exact absurd inside (unassigned member late inP)
  · obtain ⟨e, mem, rfl⟩ := mem_map.mp ha
    obtain ⟨g, group, ids⟩ := covered inP mem left
    exact ⟨g, group, (ids _).mpr ⟨left, ha⟩, (ids _).mpr ⟨right, hb⟩⟩
  · rcases kind mem with ⟨Q, inQ, ids⟩ | ⟨e, member, late, single⟩
    · exact absurd (mem_flatten.mpr ⟨Q, inQ, ((ids a).mp left).1⟩) free
    · rw [single] at left ⊢
      rw [mem_singleton.mp left]
  · obtain ⟨e, mem, rfl⟩ := mem_map.mp ha
    by_cases late : e.id ∈ state.1
    · rw [← assigned.ids] at late
      obtain ⟨e', inside, same⟩ := mem_map.mp late
      obtain ⟨p, member, inside⟩ := mem_flatMap.mp inside
      obtain ⟨g, group, -, eventIds⟩ := group_of_mem built (mem_append_left _ member)
      refine ⟨g, group, ?_⟩
      rw [eventIds]
      unfold Part.eventIds
      rw [(perm_insertionSort _ _).mem_iff, ← same]
      exact mem_map_of_mem inside
    · have part : latePart chain e ∈ (value.events.filter (·.id ∉ state.1)).map (latePart chain) :=
        mem_map_of_mem (mem_filter.mpr ⟨mem, decide_eq_true late⟩)
      obtain ⟨g, group, -, eventIds⟩ := group_of_mem built (mem_append_right _ part)
      exact ⟨g, group, eventIds ▸ mem_singleton.mpr rfl⟩

/-! ## Steps -/

theorem override_follows {previous : Option AttentionSnapshot} {input : OverrideInput}
    (formed : ∀ old, previous = some old → old.Formed)
    (ok : Attention.override hash chain previous input = .ok value) :
    value.override = some ⟨input.expectedVersion, input.reason, input.actorId, input.partitions⟩ ∧
      value.Follows input.partitions := by
  obtain ⟨old, rfl, current, named, same, -, record, parts, of, built⟩ := override_cases ok
  rw [← same] at of
  have once : (value.events.map (·.id)).Nodup := same ▸ (formed old rfl).once
  exact ⟨current ▸ record, follows_of_parts once named of built⟩

theorem compute_follows {previous : AttentionSnapshot} {input : ComputeInput} {record : Override}
    (formed : previous.Formed) (carried : previous.override = some record)
    (ok : compute hash chain (some previous) input = .ok value) :
    value.override = some record ∧ value.Follows record.partitions := by
  obtain ⟨same, kept, once, -, parts, of, built⟩ := compute_cases ok
  rw [Option.bind_some, carried] at kept
  unfold computeParts at of
  rw [Option.bind_some, carried] at of
  rw [← same] at of
  exact ⟨kept, follows_of_parts once (formed.named record carried) of built⟩

/-! ## Runs -/

/-- From an accepted override on, until the next one is accepted, every stored snapshot carries its
record and is grouped by its partitions. -/
theorem human_split_kept (before later : List Step) (input : OverrideInput)
    (accepted : AttentionSnapshot)
    (ok : (Step.override input).append hash chain (stored hash chain before).head? = .ok accepted)
    (last : ∀ pre next post, later = pre ++ .override next :: post → ∀ value,
      (Step.override next).append hash chain
        (stored hash chain (before ++ .override input :: pre)).head? ≠ .ok value) :
    ∃ newer, stored hash chain (before ++ .override input :: later) =
        newer ++ accepted :: stored hash chain before ∧
      ∀ value ∈ newer ++ [accepted],
        value.override = some ⟨input.expectedVersion, input.reason, input.actorId, input.partitions⟩ ∧
          value.Follows input.partitions := by
  induction later using List.reverseRecOn with
  | nil =>
    refine ⟨[], ?_, fun value mem => ?_⟩
    · rw [stored_snoc, store, ok]
      rfl
    · rw [nil_append, mem_singleton] at mem
      subst mem
      exact override_follows (fun old head => stored_formed before old (mem_of_head? head)) ok
  | append_singleton later step ih =>
    obtain ⟨newer, chained, all⟩ := ih fun pre next post split =>
      last pre next (post ++ [step]) (by rw [split, append_assoc, cons_append])
    have snoc : before ++ Step.override input :: (later ++ [step]) =
        (before ++ .override input :: later) ++ [step] := by simp
    rw [snoc, stored_snoc, store]
    -- the newest snapshot is the accepted one or one after it
    obtain ⟨head, rest, first⟩ : ∃ head rest, newer ++ [accepted] = head :: rest := by
      cases newer with
      | nil => exact ⟨_, _, rfl⟩
      | cons head rest => exact ⟨_, _, rfl⟩
    have newest : (stored hash chain (before ++ .override input :: later)).head? = some head := by
      rw [chained, append_cons, first]
      rfl
    cases appended : step.append hash chain
        (stored hash chain (before ++ .override input :: later)).head? with
    | error e => exact ⟨newer, chained, all⟩
    | ok value =>
      refine ⟨value :: newer, by rw [chained]; rfl, forall_mem_cons.mpr ⟨?_, all⟩⟩
      have formed : head.Formed := stored_formed _ head (mem_of_head? newest)
      have carried := (all head (first ▸ mem_cons_self)).1
      cases step with
      | compute next =>
        rw [newest] at appended
        exact compute_follows formed carried appended
      | override next => exact absurd appended (last later next [] rfl value)

/-- One event of a server apart from another one. -/
def splitInput : OverrideInput where
  expectedVersion := 1
  reason := "unrelated"
  actorId := 7
  service := false
  partitions := [["a"], ["b"]]
  currentEvents := [eventOn "a" 1 30000, eventOn "b" 1 60000]
  facts := ⟨[], fun _ => none, false⟩

theorem human_split_kept_late :
    ∃ newer accepted, stored plainHash ⟨"chain", 0⟩
        ([recompute [eventOn "a" 1 30000, eventOn "b" 1 60000] []] ++ .override splitInput ::
          [recompute [eventOn "a" 1 30000, eventOn "b" 1 60000, eventOn "c" 1 45000] []]) =
        newer ++ accepted :: stored plainHash ⟨"chain", 0⟩
          [recompute [eventOn "a" 1 30000, eventOn "b" 1 60000] []] ∧
      ∀ value ∈ newer ++ [accepted],
        value.override = some ⟨1, "unrelated", 7, [["a"], ["b"]]⟩ ∧
          value.Follows [["a"], ["b"]] := by
  have accepts : ((Step.override splitInput).append plainHash ⟨"chain", 0⟩
      (stored plainHash ⟨"chain", 0⟩
        [recompute [eventOn "a" 1 30000, eventOn "b" 1 60000] []]).head?).toOption.isSome = true := by
    decide +kernel
  obtain ⟨newer, kept⟩ := human_split_kept [recompute [eventOn "a" 1 30000, eventOn "b" 1 60000] []]
    [recompute [eventOn "a" 1 30000, eventOn "b" 1 60000, eventOn "c" 1 45000] []] splitInput _
    (Except.eq_ok_get accepts) (by
      rintro (_ | ⟨first, pre⟩) next post split
      · cases split
      · simp at split)
  exact ⟨newer, _, kept⟩

end Slide.Attention
