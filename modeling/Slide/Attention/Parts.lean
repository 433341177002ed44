import Slide.Attention.Store

/-!
# The parts of the groups of a snapshot

`Parts.Tidy` is what the parts of every step have in common: they are made of all events, each of
them once, no two take the id of one previous group, and no two are named alike.  Then only one thing
can give two groups one id, a `Clash`: a part without a previous group whose own name is the id that
another part takes over.
-/

namespace Slide.Attention

open List

variable {hash : HashInput → String} {chain : Chain} {events : List AttentionEvent}
  {parts : List Part} {p q : Part} {previous : List AttentionGroup} {g : AttentionGroup}

/-- The ids of the members, as a group lists them. -/
def Part.eventIds (part : Part) : List String := (part.members.map (·.id)).insertionSort JsString.le

/-- A part that takes no previous id has the id that another part takes for its own. -/
def Clash (hash : HashInput → String) (parts : List Part) : Prop :=
  ∃ p ∈ parts, p.heir = none ∧ ∃ q ∈ parts, ∃ g, q.heir = some g ∧ g.id = hash p.own

/-- Two parts take different previous ids and have different names of their own. -/
def Part.Apart (p q : Part) : Prop :=
  (∀ g h, p.heir = some g → q.heir = some h → g.id ≠ h.id) ∧ p.own ≠ q.own

structure Tidy (events : List AttentionEvent) (parts : List Part) : Prop where
  perm : (parts.flatMap (·.members)).Perm events
  filled : ∀ p ∈ parts, p.members ≠ []
  apart : parts.Pairwise Part.Apart

theorem Part.id_of_heir (taken : p.heir = some g) : p.id hash = g.id := by
  unfold Part.id
  rw [taken]
  rfl

theorem Part.id_of_none (new : p.heir = none) : p.id hash = hash p.own := by
  unfold Part.id
  rw [new]
  rfl

theorem Tidy.nodup_iff (injective : Function.Injective hash) (tidy : Tidy events parts) :
    (parts.map (·.id hash)).Nodup ↔ ¬ Clash hash parts := by
  constructor
  · rintro nodup ⟨p, mem, new, q, mem', g, taken, same⟩
    have equal : p = q := by
      refine inj_on_of_nodup_map nodup mem mem' ?_
      rw [Part.id_of_none new, Part.id_of_heir taken, same]
    rw [equal, taken] at new
    cases new
  · intro free
    refine pairwise_map.mpr (tidy.apart.imp_of_mem fun {p q} mem mem' apart same => ?_)
    cases taken : p.heir with
    | some g =>
      cases taken' : q.heir with
      | some h =>
        rw [Part.id_of_heir taken, Part.id_of_heir taken'] at same
        exact apart.1 g h taken taken' same
      | none =>
        rw [Part.id_of_heir taken, Part.id_of_none taken'] at same
        exact free ⟨q, mem', taken', p, mem, g, taken, same⟩
    | none =>
      cases taken' : q.heir with
      | some h =>
        rw [Part.id_of_none taken, Part.id_of_heir taken'] at same
        exact free ⟨p, mem, taken, q, mem', h, taken', same.symm⟩
      | none =>
        rw [Part.id_of_none taken, Part.id_of_none taken'] at same
        exact apart.2 (injective same)

/-! ## The parts of `correlate` -/

section Correlated

variable {edges : List AttentionEdge} {start : Int} {reasons : List CorrelationReason}
  {used : List String} {sets : List (List AttentionEvent)}

theorem components_perm (edges : List AttentionEdge) (sorted : List AttentionEvent) :
    ((components edges sorted).1.flatten).Perm sorted := by
  have flat (groups : List (Nat × List (AttentionEvent × Nat))) :
      (groups.map fun set => set.2.map Prod.fst).flatten = (groups.flatMap Prod.snd).map Prod.fst := by
    rw [map_flatMap, flatMap_def]
  have whole : sorted.zipIdx.map Prod.fst = sorted := zipIdx_map_fst 0 sorted
  unfold components
  rw [flat]
  refine ((GroupBy.groupBy_perm _ _).map Prod.fst).trans ?_
  rw [whole]

theorem components_filled {set : List AttentionEvent} (mem : set ∈ (components edges events).1) :
    set ≠ [] := by
  unfold components at mem
  obtain ⟨⟨root, members⟩, inside, rfl⟩ := mem_map.mp mem
  exact fun empty => (GroupBy.mem_groupBy.mp inside).2 (map_eq_nil_iff.mp empty)

theorem takeOver_members :
    (takeOver hash start previous reasons used sets).map (·.members) = sets := by
  induction sets generalizing used with
  | nil => rfl
  | cons members rest ih => exact congrArg (members :: ·) ih

theorem takeOver_heir (mem : p ∈ takeOver hash start previous reasons used sets)
    (taken : p.heir = some g) : g.id ∉ used := by
  induction sets generalizing used with
  | nil => cases mem
  | cons members rest ih =>
    rcases mem_cons.mp mem with rfl | later
    · have passes := find?_some taken
      simp only [Bool.and_eq_true, decide_eq_true_eq] at passes
      exact passes.1
    · exact fun old => ih later (mem_cons_of_mem _ old)

theorem takeOver_own (mem : p ∈ takeOver hash start previous reasons used sets) :
    p.members ∈ sets ∧ p.own = .anchor start ((p.members.head?.map (·.id)).getD "") := by
  induction sets generalizing used with
  | nil => cases mem
  | cons members rest ih =>
    rcases mem_cons.mp mem with rfl | later
    · exact ⟨mem_cons_self, rfl⟩
    · exact ⟨mem_cons_of_mem _ (ih later).1, (ih later).2⟩

theorem takeOver_apart (filled : ∀ set ∈ sets, set ≠ []) (nodup : (sets.flatten.map (·.id)).Nodup) :
    (takeOver hash start previous reasons used sets).Pairwise Part.Apart := by
  induction sets generalizing used with
  | nil => exact .nil
  | cons members rest ih =>
    obtain ⟨first, others⟩ := forall_mem_cons.mp filled
    rw [flatten_cons, map_append, nodup_append'] at nodup
    obtain ⟨-, nodup, disjoint⟩ := nodup
    refine pairwise_cons.mpr ⟨fun q mem => ⟨fun g h taken taken' same => ?_, ?_⟩, ih others nodup⟩
    · refine takeOver_heir mem taken' (mem_cons.mpr (.inl ?_))
      rw [← same, Part.id_of_heir taken]
    · obtain ⟨inside, own⟩ := takeOver_own mem
      obtain ⟨a, as, rfl⟩ := exists_cons_of_ne_nil first
      obtain ⟨b, bs, split⟩ := exists_cons_of_ne_nil (others _ inside)
      have later : b.id ∈ rest.flatten.map (·.id) := by
        refine mem_map_of_mem (mem_flatten.mpr ⟨_, inside, ?_⟩)
        rw [split]
        exact mem_cons_self
      intro same
      rw [own, split] at same
      have equal : a.id = b.id := (HashInput.anchor.inj same).2
      exact disjoint (mem_cons.mpr (.inl equal.symm)) later

theorem correlatedParts_tidy (nodup : (events.map (·.id)).Nodup) :
    Tidy events (correlatedParts hash events edges start previous) := by
  have perm : ((components edges (sortEvents events)).1.flatten).Perm events :=
    (components_perm edges _).trans (perm_insertionSort _ events)
  unfold correlatedParts
  refine ⟨?_, fun p mem => ?_, takeOver_apart (fun set mem => components_filled mem) ?_⟩
  · rw [flatMap_def, takeOver_members]
    exact perm
  · exact components_filled (takeOver_own mem).1
  · exact ((perm.map (·.id)).nodup_iff).mpr nodup

end Correlated

/-! ## The parts of `applyPartitions` -/

section Partitioned

variable {partitions : List (List String)} {state state' : List String × List Part}
  {partition : List String} {allowNew : Bool}

/-- A part of a partition, with the previous group it is the heir of. -/
structure OfPartition (chain : Chain) (events : List AttentionEvent)
    (previous : List AttentionGroup) (partition : List String) (p : Part) : Prop where
  members : p.members = events.filter (·.id ∈ partition)
  filled : p.members ≠ []
  own : p.own = .partition chain.id p.eventIds
  heir : ∀ g, p.heir = some g → g ∈ previous ∧ g.eventIds.length = p.members.length ∧
    ∀ id ∈ g.eventIds, id ∈ partition

theorem OfPartition.mem_eventIds (of : OfPartition chain events previous partition p) {id : String}
    (mem : id ∈ p.eventIds) : id ∈ partition := by
  have inside : id ∈ p.members.map (·.id) := (perm_insertionSort _ _).mem_iff.mp mem
  rw [of.members] at inside
  obtain ⟨e, passes, rfl⟩ := mem_map.mp inside
  exact of_decide_eq_true (mem_filter.mp passes).2

theorem OfPartition.apart {other : List String} (distinct : (previous.map (·.id)).Nodup)
    (of : OfPartition chain events previous partition p)
    (of' : OfPartition chain events previous other q) (disjoint : partition.Disjoint other) :
    p.Apart q := by
  constructor
  · intro g h taken taken' same
    obtain ⟨mem, length, within⟩ := of.heir g taken
    obtain ⟨mem', -, within'⟩ := of'.heir h taken'
    obtain rfl := inj_on_of_nodup_map distinct mem mem' same
    have filled : g.eventIds ≠ [] := by
      rw [← length_pos_iff, length]
      exact length_pos_iff.mpr of.filled
    obtain ⟨id, ids, split⟩ := exists_cons_of_ne_nil filled
    have first : id ∈ g.eventIds := split ▸ mem_cons_self
    exact disjoint (within id first) (within' id first)
  · intro same
    rw [of.own, of'.own] at same
    obtain ⟨e, es, split⟩ := exists_cons_of_ne_nil of.filled
    have first : e.id ∈ p.eventIds := by
      refine (perm_insertionSort _ _).mem_iff.mpr (mem_map_of_mem ?_)
      rw [split]
      exact mem_cons_self
    have first' : e.id ∈ q.eventIds := (HashInput.partition.inj same).2 ▸ first
    exact disjoint (of.mem_eventIds first) (of'.mem_eventIds first')

/-- What the loop over the partitions keeps: it has a part for each partition that has events. -/
structure Assigned (chain : Chain) (events : List AttentionEvent) (previous : List AttentionGroup)
    (done : List (List String)) (state : List String × List Part) : Prop where
  ids : (state.2.flatMap (·.members)).map (·.id) = state.1
  nodup : state.1.Nodup
  named : ∃ taken, taken.Sublist done ∧
    Forall₂ (OfPartition chain events previous) taken state.2
  complete : ∀ partition ∈ done, ∀ e ∈ events, e.id ∈ partition →
    ∃ p ∈ state.2, OfPartition chain events previous partition p

theorem Assigned.nil : Assigned chain events previous [] ([], []) where
  ids := rfl
  nodup := .nil
  named := ⟨[], .slnil, .nil⟩
  complete _ mem := by cases mem

section Done

variable {done : List (List String)}

theorem Assigned.part (assigned : Assigned chain events previous done state) (mem : p ∈ state.2) :
    ∃ partition ∈ done, OfPartition chain events previous partition p := by
  obtain ⟨taken, sub, each⟩ := assigned.named
  obtain ⟨partition, inside, of⟩ := Except.exists_of_forall₂ each mem
  exact ⟨partition, sub.subset inside, of⟩

theorem Assigned.known (assigned : Assigned chain events previous done state) {e : AttentionEvent}
    (mem : e ∈ state.2.flatMap (·.members)) : e ∈ events := by
  obtain ⟨p, part, inside⟩ := mem_flatMap.mp mem
  obtain ⟨_, -, of⟩ := assigned.part part
  rw [of.members] at inside
  exact (mem_filter.mp inside).1

theorem Assigned.apart (assigned : Assigned chain events previous done state)
    (distinct : (previous.map (·.id)).Nodup) (disjoint : done.Pairwise Disjoint) :
    state.2.Pairwise Part.Apart := by
  obtain ⟨taken, sub, each⟩ := assigned.named
  replace disjoint := disjoint.sublist sub
  clear sub
  generalize state.2 = parts at each ⊢
  induction each with
  | nil => exact .nil
  | cons of rest ih =>
    obtain ⟨first, disjoint⟩ := pairwise_cons.mp disjoint
    refine pairwise_cons.mpr ⟨fun q mem => ?_, ih disjoint⟩
    obtain ⟨partition, inside, of'⟩ := Except.exists_of_forall₂ rest mem
    exact of.apart distinct of' (first partition inside)

theorem Assigned.step (nodup : (events.map (·.id)).Nodup)
    (assigned : Assigned chain events previous done state)
    (ok : assign chain events previous state partition = .ok state') :
    Assigned chain events previous (done ++ [partition]) state' := by
  unfold assign at ok
  dsimp only at ok
  obtain ⟨taken, sub, each⟩ := assigned.named
  split at ok
  next empty =>
    obtain rfl := Except.ok.inj ok
    refine { assigned with
      named := ⟨taken, sub.trans (sublist_append_left _ _), each⟩
      complete := fun P inside e mem holds => ?_ }
    rcases mem_append.mp inside with before | last
    · exact assigned.complete P before e mem holds
    · rw [mem_singleton.mp last] at holds
      have member : e ∈ events.filter (·.id ∈ partition) :=
        mem_filter.mpr ⟨mem, decide_eq_true holds⟩
      rw [empty] at member
      cases member
  next filled =>
    split at ok
    next => cases ok
    next fresh =>
      obtain rfl := Except.ok.inj ok
      have of : OfPartition chain events previous partition {
          members := events.filter (·.id ∈ partition)
          heir := previous.find? fun g =>
            g.eventIds.length = (events.filter (·.id ∈ partition)).length &&
              g.eventIds.all (· ∈ partition)
          own := .partition chain.id
            (((events.filter (·.id ∈ partition)).map (·.id)).insertionSort JsString.le)
          reasons := [⟨.manual, ((events.filter (·.id ∈ partition)).map (·.id)).insertionSort JsString.le,
            [], none⟩] } := by
        refine ⟨rfl, filled, rfl, fun g taken => ?_⟩
        have passes := find?_some taken
        simp only [Bool.and_eq_true, decide_eq_true_eq, all_eq_true] at passes
        exact ⟨mem_of_find?_eq_some taken, passes.1, passes.2⟩
      have part : ((events.filter (·.id ∈ partition)).map (·.id)).Nodup :=
        nodup.sublist (filter_sublist.map _)
      refine ⟨?_, ?_, ⟨taken ++ [partition], sub.append (Sublist.refl _),
        rel_append each (.cons of .nil)⟩, fun P inside e mem holds => ?_⟩
      · rw [flatMap_append, map_append, assigned.ids, flatMap_singleton]
      · refine nodup_append'.mpr ⟨assigned.nodup, part, fun id old last => ?_⟩
        obtain ⟨e, mem, rfl⟩ := mem_map.mp last
        exact fresh (any_eq_true.mpr ⟨e, mem, decide_eq_true old⟩)
      · rcases mem_append.mp inside with before | last
        · obtain ⟨p, member, of'⟩ := assigned.complete P before e mem holds
          exact ⟨p, mem_append_left _ member, of'⟩
        · rw [mem_singleton.mp last]
          exact ⟨_, mem_append_right _ (mem_singleton.mpr rfl), of⟩

theorem Assigned.run (nodup : (events.map (·.id)).Nodup)
    (assigned : Assigned chain events previous done state)
    (ok : partitions.foldlM (assign chain events previous) state = .ok state') :
    Assigned chain events previous (done ++ partitions) state' := by
  induction partitions generalizing done state with
  | nil =>
    obtain rfl := Except.ok.inj ok
    rwa [append_nil]
  | cons partition rest ih =>
    rw [foldlM_cons] at ok
    obtain ⟨middle, first, ok⟩ := bind_eq_ok.mp ok
    rw [append_cons]
    exact ih (assigned.step nodup first) ok

end Done

theorem partitionedParts_cases
    (ok : partitionedParts chain events partitions previous allowNew = .ok parts) :
    ∃ state, partitions.foldlM (assign chain events previous) ([], []) = .ok state ∧
      (allowNew = false → state.1.length = events.length) ∧
      parts = state.2 ++ (events.filter (·.id ∉ state.1)).map (latePart chain) := by
  unfold partitionedParts at ok
  obtain ⟨state, loop, ok⟩ := bind_eq_ok.mp ok
  obtain ⟨exact_, ok⟩ := guard_eq_ok.mp ok
  refine ⟨state, loop, ?_, (Except.ok.inj ok).symm⟩
  rintro rfl
  simp only [Bool.not_false, Bool.true_and, Bool.or_eq_true, decide_eq_true_eq, not_or, not_not]
    at exact_
  exact exact_.1

theorem mem_lateParts {ids : List String}
    (mem : p ∈ (events.filter (·.id ∉ ids)).map (latePart chain)) :
    ∃ e ∈ events, e.id ∉ ids ∧ p = latePart chain e := by
  obtain ⟨e, late, rfl⟩ := mem_map.mp mem
  obtain ⟨inside, out⟩ := mem_filter.mp late
  exact ⟨e, inside, of_decide_eq_true out, rfl⟩

theorem partitionedParts_tidy (nodup : (events.map (·.id)).Nodup)
    (distinct : (previous.map (·.id)).Nodup) (apart : partitions.Pairwise Disjoint)
    (ok : partitionedParts chain events partitions previous allowNew = .ok parts) :
    Tidy events parts := by
  obtain ⟨state, loop, -, rfl⟩ := partitionedParts_cases ok
  have assigned : Assigned chain events previous partitions state :=
    Assigned.nil.run nodup loop
  have late : ((events.filter (·.id ∉ state.1)).map (latePart chain)).flatMap (·.members) =
      events.filter (·.id ∉ state.1) := by
    rw [flatMap_map]
    exact flatMap_singleton' _
  refine ⟨?_, fun p mem => ?_, ?_⟩
  · rw [flatMap_append, late]
    -- the assigned events are those whose ids are assigned
    have named : (state.2.flatMap (·.members)).Perm (events.filter (·.id ∈ state.1)) := by
      have members : (state.2.flatMap (·.members)).Nodup := by
        refine Nodup.of_map (·.id) ?_
        rw [assigned.ids]
        exact assigned.nodup
      refine (perm_ext_iff_of_nodup members (nodup.of_map.filter _)).mpr fun e => ?_
      rw [mem_filter, decide_eq_true_eq]
      constructor
      · exact fun mem => ⟨assigned.known mem, assigned.ids ▸ mem_map_of_mem mem⟩
      · rintro ⟨inside, named⟩
        rw [← assigned.ids] at named
        obtain ⟨e', mem, same⟩ := mem_map.mp named
        rwa [inj_on_of_nodup_map nodup inside (assigned.known mem) same.symm]
    refine (named.append_right _).trans ?_
    have split := filter_append_perm (fun e : AttentionEvent => decide (e.id ∈ state.1)) events
    simpa only [decide_not] using split
  · rcases mem_append.mp mem with before | last
    · obtain ⟨_, -, of⟩ := assigned.part before
      exact of.filled
    · obtain ⟨e, -, -, rfl⟩ := mem_lateParts last
      exact cons_ne_nil e []
  · refine pairwise_append.mpr ⟨assigned.apart distinct apart, ?_, ?_⟩
    · refine pairwise_map.mpr ((nodup.of_map.filter _).imp_of_mem fun {d e} mem mem' differ => ?_)
      refine ⟨fun _ _ taken => (nomatch taken), fun same => differ ?_⟩
      exact inj_on_of_nodup_map nodup (mem_filter.mp mem).1 (mem_filter.mp mem').1
        (HashInput.event.inj same).2
    · intro p before q last
      obtain ⟨_, -, of⟩ := assigned.part before
      obtain ⟨e, -, -, rfl⟩ := mem_lateParts last
      refine ⟨fun _ _ _ taken => (nomatch taken), fun same => ?_⟩
      rw [of.own] at same
      cases same

end Partitioned

end Slide.Attention
