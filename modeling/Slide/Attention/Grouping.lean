import Mathlib.Data.List.GetD
import Slide.Library.Forest
import Slide.Library.Sorting
import Slide.Attention.Identities
import Slide.Attention.Neighbours

/-!
# Attention groups are connected components

`Joining` is what the two loops of `correlate` keep: the reasons found so far are a spanning forest of
the classes of the roots, and two events whose turn has come share a root or are no neighbours.
-/

namespace Slide.Attention

open List

/-- An event and its place in the sorted list. -/
abbrev Placed := AttentionEvent × Nat

/-- `root(i)` of a placed event. -/
def rootOf (roots : List Nat) (v : Placed) : Nat := roots.getD v.2 v.2

variable {edges : List AttentionEdge} {events sorted : List AttentionEvent} {vertices : List Placed}
  {state : List Nat × List CorrelationReason} {joined done : List (Placed × Placed)}
  {pair : Placed × Placed} {v w : Placed}

/-! ## The loops -/

structure Joining (edges : List AttentionEdge) (vertices : List Placed) (done : List (Placed × Placed))
    (state : List Nat × List CorrelationReason) (joined : List (Placed × Placed)) : Prop where
  rooted : ∀ v ∈ vertices, v.2 < state.1.length
  spans : Forest.Spans vertices (rootOf state.1) joined
  explained : Forall₂ (fun pair reason => reason.Explains edges pair.1.1 pair.2.1) joined state.2
  settled : ∀ pair ∈ done, pair.1 ∈ vertices ∧ pair.2 ∈ vertices ∧
    (rootOf state.1 pair.1 = rootOf state.1 pair.2 ∨
      ¬ Neighbours KnownSignature edges pair.1.1 pair.2.1)

theorem rootOf_map (f : Nat → Nat) {roots : List Nat} (inside : v.2 < roots.length) :
    rootOf (roots.map f) v = f (rootOf roots v) := by
  unfold rootOf
  rw [getD_eq_getElem _ _ (by rwa [length_map]), getD_eq_getElem _ _ inside,
    getElem_map]

theorem connect_joining (inv : Joining edges vertices done state joined) (first : pair.1 ∈ vertices)
    (second : pair.2 ∈ vertices) :
    ∃ joined', Joining edges vertices (done ++ [pair])
      (connect (boundedEdges edges) state pair) joined' := by
  have unchanged (now : rootOf state.1 pair.1 = rootOf state.1 pair.2 ∨
      ¬ Neighbours KnownSignature edges pair.1.1 pair.2.1) :
      Joining edges vertices (done ++ [pair]) state joined :=
    { inv with
      settled := by
        intro other mem
        rcases mem_append.mp mem with old | new
        · exact inv.settled other old
        · obtain rfl := mem_singleton.mp new
          exact ⟨first, second, now⟩ }
  unfold connect
  dsimp only
  split
  next same => exact ⟨joined, unchanged (.inl same)⟩
  next apart =>
    split
    next alone =>
      exact ⟨joined, unchanged (.inr fun near => reasonFor_of_neighbours near alone)⟩
    next reason found =>
      have merged (v : Placed) (mem : v ∈ vertices) :
          Forest.merge (rootOf state.1) (rootOf state.1 pair.1) (rootOf state.1 pair.2) v =
            rootOf (state.1.map fun r => if r = rootOf state.1 pair.2 then rootOf state.1 pair.1 else r)
              v := by
        rw [rootOf_map _ (inv.rooted v mem)]
        rfl
      refine ⟨joined ++ [pair], ⟨fun v mem => ?_, (inv.spans.merge first second apart).congr merged,
        rel_append inv.explained (.cons (reasonFor_explains found) .nil), fun other mem => ?_⟩⟩
      · rw [length_map]
        exact inv.rooted v mem
      · rcases mem_append.mp mem with old | new
        · obtain ⟨left, right, now⟩ := inv.settled other old
          refine ⟨left, right, now.imp_left fun same => ?_⟩
          exact (merged _ left).symm.trans ((Forest.merge_congr same).trans (merged _ right))
        · obtain rfl := mem_singleton.mp new
          refine ⟨first, second, .inl ?_⟩
          exact (merged _ first).symm.trans
            (((Forest.merge_of_ne apart).trans (Forest.merge_of_eq rfl).symm).trans (merged _ second))

theorem foldl_joining {rest : List (Placed × Placed)} (inv : Joining edges vertices done state joined)
    (inside : ∀ pair ∈ rest, pair.1 ∈ vertices ∧ pair.2 ∈ vertices) :
    ∃ joined', Joining edges vertices (done ++ rest)
      (rest.foldl (connect (boundedEdges edges)) state) joined' := by
  induction rest generalizing done state joined with
  | nil =>
    rw [append_nil]
    exact ⟨joined, inv⟩
  | cons pair rest ih =>
    obtain ⟨⟨first, second⟩, others⟩ := forall_mem_cons.mp inside
    obtain ⟨joined', next⟩ := connect_joining inv first second
    obtain ⟨joined'', last⟩ := ih next others
    rw [append_assoc] at last
    exact ⟨joined'', last⟩

theorem mem_of_pairs {α : Type} {l : List α} {p : α × α} (mem : p ∈ pairs l) : p.1 ∈ l ∧ p.2 ∈ l := by
  induction l with
  | nil => cases mem
  | cons a rest ih =>
    rcases mem_append.mp mem with here | later
    · obtain ⟨b, inside, rfl⟩ := mem_map.mp here
      exact ⟨mem_cons_self, mem_cons_of_mem _ inside⟩
    · obtain ⟨left, right⟩ := ih later
      exact ⟨mem_cons_of_mem _ left, mem_cons_of_mem _ right⟩

theorem pairs_of_mem {α : Type} {l : List α} {a b : α} (mem : a ∈ l) (mem' : b ∈ l) (apart : a ≠ b) :
    (a, b) ∈ pairs l ∨ (b, a) ∈ pairs l := by
  induction l with
  | nil => cases mem
  | cons c rest ih =>
    rcases mem_cons.mp mem with rfl | left
    · rcases mem_cons.mp mem' with rfl | right
      · exact (apart rfl).elim
      · exact .inl (mem_append_left _ (mem_map_of_mem right))
    · rcases mem_cons.mp mem' with rfl | right
      · exact .inr (mem_append_left _ (mem_map_of_mem left))
      · exact (ih left right).imp (mem_append_right _) (mem_append_right _)

/-- The state after the loops. -/
def joinedState (edges : List AttentionEdge) (sorted : List AttentionEvent) :
    List Nat × List CorrelationReason :=
  (pairs sorted.zipIdx).foldl (connect (boundedEdges edges)) (range sorted.length, [])

theorem joinedState_joining (edges : List AttentionEdge) (sorted : List AttentionEvent) :
    ∃ joined, Joining edges sorted.zipIdx (pairs sorted.zipIdx) (joinedState edges sorted) joined := by
  have place (v : Placed) (mem : v ∈ sorted.zipIdx) : v.2 < sorted.length := by
    obtain ⟨-, within, -⟩ := mem_zipIdx mem
    simpa using within
  have own (v : Placed) (mem : v ∈ sorted.zipIdx) : rootOf (range sorted.length) v = v.2 := by
    unfold rootOf
    rw [getD_eq_getElem _ _ (by simpa using place v mem), getElem_range]
  have nodup : (sorted.zipIdx.map (rootOf (range sorted.length))).Nodup := by
    rw [map_congr_left own, zipIdx_map_snd]
    exact nodup_range'
  have start : Joining edges sorted.zipIdx [] (range sorted.length, []) [] := by
    refine ⟨fun v mem => ?_, .of_nodup nodup, .nil, fun pair mem => ?_⟩
    · rw [length_range]
      exact place v mem
    · cases mem
  exact foldl_joining start fun pair mem => mem_of_pairs mem

/-! ## Classes -/

/-- Two events of the list that are neighbours. -/
def Linked (known : Option String → Prop) (edges : List AttentionEdge) (events : List AttentionEvent)
    (a b : AttentionEvent) : Prop :=
  a ∈ events ∧ b ∈ events ∧ Neighbours known edges a b

theorem fst_mem_of_placed (mem : v ∈ sorted.zipIdx) : v.1 ∈ sorted := by
  have inside := mem_map_of_mem (f := Prod.fst) mem
  rwa [zipIdx_map_fst] at inside

theorem exists_placed {a : AttentionEvent} (mem : a ∈ sorted) : ∃ v ∈ sorted.zipIdx, v.1 = a := by
  rw [← zipIdx_map_fst 0 sorted] at mem
  exact mem_map.mp mem

theorem placed_eq_of_id (distinct : (sorted.map (·.id)).Nodup) (mem : v ∈ sorted.zipIdx)
    (mem' : w ∈ sorted.zipIdx) (same : v.1.id = w.1.id) : v = w := by
  have nodup : (sorted.zipIdx.map fun v => v.1.id).Nodup := by
    rw [← zipIdx_map_fst 0 sorted, map_map] at distinct
    exact distinct
  exact inj_on_of_nodup_map nodup mem mem' same

theorem Joining.linked (inv : Joining edges sorted.zipIdx done state joined)
    (step : Forest.Adjacent joined v w) : Linked KnownSignature edges sorted v.1 w.1 := by
  have near (pair : Placed × Placed) (mem : pair ∈ joined) :
      Linked KnownSignature edges sorted pair.1.1 pair.2.1 := by
    obtain ⟨first, second, -⟩ := inv.spans.inside pair mem
    obtain ⟨reason, -, explains⟩ := Sorting.exists_of_mem_left inv.explained mem
    exact ⟨fst_mem_of_placed first, fst_mem_of_placed second, explains.neighbours⟩
  rcases step with forth | back
  · exact near _ forth
  · obtain ⟨first, second, near⟩ := near _ back
    exact ⟨second, first, near.symm⟩

theorem Joining.root_iff (inv : Joining edges sorted.zipIdx (pairs sorted.zipIdx) state joined)
    (distinct : (sorted.map (·.id)).Nodup) (first : v ∈ sorted.zipIdx) (second : w ∈ sorted.zipIdx) :
    rootOf state.1 v = rootOf state.1 w ↔
      Relation.ReflTransGen (Linked KnownSignature edges sorted) v.1 w.1 := by
  constructor
  · intro same
    exact (inv.spans.chained v first w second same).lift Prod.fst fun _ _ step => inv.linked step
  · intro chain
    generalize last : w.1 = b at chain
    induction chain generalizing w with
    | refl => rw [placed_eq_of_id distinct first second (congrArg (·.id) last.symm)]
    | tail _ step ih =>
      obtain ⟨inside, -, near⟩ := step
      obtain ⟨u, placed, rfl⟩ := exists_placed inside
      rw [ih placed rfl]
      rw [← last] at near
      by_cases equal : u = w
      · rw [equal]
      · -- the turn of the two has come, in one order or the other
        rcases pairs_of_mem placed second equal with turn | turn
        · exact (inv.settled _ turn).2.2.resolve_right fun away => away near
        · exact ((inv.settled _ turn).2.2.resolve_right fun away => away near.symm).symm

/-- The events of a root. -/
def classOf (roots : List Nat) (sorted : List AttentionEvent) (root : Nat) : List AttentionEvent :=
  (sorted.zipIdx.filter fun v => rootOf roots v = root).map Prod.fst

theorem mem_components {members : List AttentionEvent} :
    members ∈ (components edges sorted).1 ↔
      ∃ v ∈ sorted.zipIdx, members = classOf (joinedState edges sorted).1 sorted
        (rootOf (joinedState edges sorted).1 v) := by
  change members ∈ (GroupBy.groupBy (rootOf (joinedState edges sorted).1) sorted.zipIdx).map
    (fun set => set.2.map Prod.fst) ↔ _
  simp only [mem_map, Prod.exists, GroupBy.mem_groupBy]
  constructor
  · rintro ⟨root, group, ⟨rfl, filled⟩, rfl⟩
    obtain ⟨v, mem⟩ := exists_mem_of_ne_nil _ filled
    obtain ⟨placed, same⟩ := mem_filter.mp mem
    refine ⟨v.1, v.2, placed, ?_⟩
    unfold classOf
    rw [of_decide_eq_true same]
  · rintro ⟨a, i, placed, rfl⟩
    exact ⟨_, _, ⟨rfl, ne_nil_of_mem (mem_filter.mpr ⟨placed, decide_eq_true rfl⟩)⟩, rfl⟩

theorem id_mem_classOf {roots : List Nat} {root : Nat} (distinct : (sorted.map (·.id)).Nodup)
    (placed : v ∈ sorted.zipIdx) :
    v.1.id ∈ (classOf roots sorted root).map (·.id) ↔ rootOf roots v = root := by
  unfold classOf
  simp only [map_map, mem_map, mem_filter, decide_eq_true_eq, Function.comp_apply]
  constructor
  · rintro ⟨w, ⟨placed', same⟩, id⟩
    rw [placed_eq_of_id distinct placed placed' id.symm]
    exact same
  · exact fun same => ⟨v, ⟨placed, same⟩, rfl⟩

theorem exists_of_id_mem_classOf {roots : List Nat} {root : Nat} {id : String}
    (mem : id ∈ (classOf roots sorted root).map (·.id)) :
    ∃ v ∈ sorted.zipIdx, v.1.id = id ∧ rootOf roots v = root := by
  unfold classOf at mem
  simp only [map_map, mem_map, mem_filter, decide_eq_true_eq,
    Function.comp_apply] at mem
  obtain ⟨v, ⟨placed, same⟩, id⟩ := mem
  exact ⟨v, placed, id, same⟩

/-! ## Spanning trees -/

/-- The reasons are a spanning tree of the ids: one less than the ids, each of two of their events, and
a chain of them between any two. -/
structure Spanning (edges : List AttentionEdge) (events : List AttentionEvent) (ids : List String)
    (reasons : List CorrelationReason) : Prop where
  one_less : reasons.length + 1 = ids.length
  explains : ∀ reason ∈ reasons, ∃ a ∈ events, ∃ b ∈ events, a.id ∈ ids ∧ b.id ∈ ids ∧
    reason.Explains edges a b
  connected : ∀ i ∈ ids, ∀ j ∈ ids, Relation.ReflTransGen
    (fun i j => ∃ reason ∈ reasons, reason.eventIds = [i, j] ∨ reason.eventIds = [j, i]) i j

theorem countP_of_forall₂ {α β : Type*} {R : α → β → Prop} {l : List α} {m : List β} {p : α → Bool}
    {q : β → Bool} (related : Forall₂ R l m) (same : ∀ a ∈ l, ∀ b, R a b → p a = q b) :
    l.countP p = m.countP q := by
  induction related with
  | nil => rfl
  | cons first _ ih =>
    obtain ⟨here, later⟩ := forall_mem_cons.mp same
    rw [countP_cons, countP_cons, here _ first, ih later]

theorem Joining.spanning {ids : List String} (inv : Joining edges sorted.zipIdx done state joined)
    (distinct : (sorted.map (·.id)).Nodup) (placed : v ∈ sorted.zipIdx)
    (listed : ids.Perm ((classOf state.1 sorted (rootOf state.1 v)).map (·.id))) :
    Spanning edges sorted ids (state.2.filter fun reason => reason.eventIds.all
      (· ∈ (classOf state.1 sorted (rootOf state.1 v)).map (·.id))) := by
  have within (pair : Placed × Placed) (mem : pair ∈ joined) (reason : CorrelationReason)
      (explains : reason.Explains edges pair.1.1 pair.2.1) :
      decide (rootOf state.1 pair.1 = rootOf state.1 v) = reason.eventIds.all
        (· ∈ (classOf state.1 sorted (rootOf state.1 v)).map (·.id)) := by
    obtain ⟨first, second, same⟩ := inv.spans.inside pair mem
    rw [explains.events, Bool.eq_iff_iff, all_eq_true]
    simp only [mem_cons, not_mem_nil, or_false, forall_eq_or_imp, forall_eq,
      decide_eq_true_eq, id_mem_classOf distinct first, id_mem_classOf distinct second, same, and_self]
  refine ⟨?_, fun reason mem => ?_, fun i memI j memJ => ?_⟩
  · rw [← countP_eq_length_filter, ← countP_of_forall₂ inv.explained within, listed.length_eq,
      inv.spans.count v placed, length_map, classOf, length_map,
      ← countP_eq_length_filter]
  · obtain ⟨found, inside⟩ := mem_filter.mp mem
    obtain ⟨pair, joins, explains⟩ := Sorting.exists_of_mem_left inv.explained.flip found
    obtain ⟨first, second, -⟩ := inv.spans.inside pair joins
    rw [explains.events, all_eq_true] at inside
    have here (id : String) (mem : id ∈ [pair.1.1.id, pair.2.1.id]) : id ∈ ids :=
      listed.mem_iff.mpr (of_decide_eq_true (inside id mem))
    exact ⟨pair.1.1, fst_mem_of_placed first, pair.2.1, fst_mem_of_placed second,
      here _ mem_cons_self, here _ (mem_cons_of_mem _ mem_cons_self), explains⟩
  · obtain ⟨x, placedX, rfl, rootX⟩ := exists_of_id_mem_classOf (listed.mem_iff.mp memI)
    obtain ⟨y, placedY, rfl, rootY⟩ := exists_of_id_mem_classOf (listed.mem_iff.mp memJ)
    have chain := inv.spans.chained x placedX y placedY (rootX.trans rootY.symm)
    clear rootY placedY memJ
    -- a chain that starts in the class stays in it
    suffices both : rootOf state.1 y = rootOf state.1 v ∧ Relation.ReflTransGen _ x.1.id y.1.id from both.2
    induction chain with
    | refl => exact ⟨rootX, .refl⟩
    | @tail b c _ step ih =>
      obtain ⟨rootB, chain⟩ := ih
      rcases step with mem | mem
      · obtain ⟨-, -, same⟩ := inv.spans.inside _ mem
        obtain ⟨reason, found, explains⟩ := Sorting.exists_of_mem_left inv.explained mem
        refine ⟨same.symm.trans rootB, chain.tail ⟨reason, mem_filter.mpr ⟨found, ?_⟩,
          .inl explains.events⟩⟩
        exact (within _ mem reason explains).symm.trans (decide_eq_true rootB)
      · obtain ⟨-, -, same⟩ := inv.spans.inside _ mem
        obtain ⟨reason, found, explains⟩ := Sorting.exists_of_mem_left inv.explained mem
        refine ⟨same.trans rootB, chain.tail ⟨reason, mem_filter.mpr ⟨found, ?_⟩,
          .inr explains.events⟩⟩
        exact (within _ mem reason explains).symm.trans (decide_eq_true (same.trans rootB))

/-! ## Groups -/

/-- The groups hold each event once, two events share a group exactly if a chain of neighbours joins
them, and the reasons of a group are a spanning tree of it. -/
structure Grouped (known : Option String → Prop) (edges : List AttentionEdge)
    (events : List AttentionEvent) (groups : List AttentionGroup) : Prop where
  partition : (groups.flatMap (·.eventIds)).Perm (events.map (·.id))
  classes : ∀ a ∈ events, ∀ b ∈ events, (∃ g ∈ groups, a.id ∈ g.eventIds ∧ b.id ∈ g.eventIds) ↔
    Relation.ReflTransGen (Linked known edges events) a b
  spanned : ∀ g ∈ groups, Spanning edges events g.eventIds g.reasons

variable {hash : HashInput → String} {start : Int} {previous groups : List AttentionGroup}
  {parts : List Part} {p : Part} {baseline : Baseline} {members : List AttentionEvent}
  {reasons : List CorrelationReason} {g : AttentionGroup}

theorem buildGroup_reasons {id : String} (ok : buildGroup id members reasons baseline = .ok g) :
    g.reasons = reasons := by
  unfold buildGroup at ok
  split at ok
  next => cases ok
  next first rest sorted =>
    obtain ⟨score, -, ok⟩ := bind_eq_ok.mp ok
    obtain rfl := Except.ok.inj ok
    rfl

theorem buildGroups_parts (ok : buildGroups hash baseline parts = .ok groups) :
    ∃ built, groups.Perm built ∧
      Forall₂ (fun p g => g.eventIds = p.eventIds ∧ g.reasons = p.reasons) parts built := by
  unfold buildGroups at ok
  obtain ⟨built, each, ok⟩ := bind_eq_ok.mp ok
  obtain rfl := Except.ok.inj ok
  refine ⟨built, perm_insertionSort _ built, (Except.mapM_eq_ok.mp each).imp fun p g ok => ?_⟩
  exact ⟨(buildGroup_spec ok).2, buildGroup_reasons ok⟩

theorem takeOver_reasons {used : List String} {sets : List (List AttentionEvent)}
    (mem : p ∈ takeOver hash start previous reasons used sets) :
    p.reasons = reasons.filter fun r => r.eventIds.all (· ∈ p.members.map (·.id)) := by
  induction sets generalizing used with
  | nil => cases mem
  | cons members rest ih =>
    rcases mem_cons.mp mem with rfl | later
    · rfl
    · exact ih later

theorem mem_correlatedParts (mem : p ∈ correlatedParts hash events edges start previous) :
    ∃ v ∈ (sortEvents events).zipIdx,
      p.members = classOf (joinedState edges (sortEvents events)).1 (sortEvents events)
        (rootOf (joinedState edges (sortEvents events)).1 v) ∧
      p.reasons = (joinedState edges (sortEvents events)).2.filter fun r => r.eventIds.all
        (· ∈ p.members.map (·.id)) := by
  obtain ⟨v, placed, members⟩ := mem_components.mp (takeOver_own mem).1
  exact ⟨v, placed, members, takeOver_reasons mem⟩

theorem exists_part (placed : v ∈ (sortEvents events).zipIdx) :
    ∃ p ∈ correlatedParts hash events edges start previous,
      p.members = classOf (joinedState edges (sortEvents events)).1 (sortEvents events)
        (rootOf (joinedState edges (sortEvents events)).1 v) := by
  have inside := (@mem_components edges (sortEvents events) _).mpr ⟨v, placed, rfl⟩
  have members : (correlatedParts hash events edges start previous).map (·.members) =
      (components edges (sortEvents events)).1 := takeOver_members
  rw [← members] at inside
  exact mem_map.mp inside

theorem Linked.congr {known : Option String → Prop} {a b : AttentionEvent}
    (same : ∀ e, e ∈ sorted ↔ e ∈ events) (link : Linked known edges sorted a b) :
    Linked known edges events a b :=
  ⟨(same a).mp link.1, (same b).mp link.2.1, link.2.2⟩

theorem grouped_of_ok (distinct : (events.map (·.id)).Nodup)
    (ok : buildGroups hash baseline (correlatedParts hash events edges start previous) = .ok groups) :
    Grouped KnownSignature edges events groups := by
  have perm : (sortEvents events).Perm events := perm_insertionSort _ events
  have same (e : AttentionEvent) : e ∈ sortEvents events ↔ e ∈ events := perm.mem_iff
  have distinct' : ((sortEvents events).map (·.id)).Nodup := ((perm.map _).nodup_iff).mpr distinct
  obtain ⟨joined, inv⟩ := joinedState_joining edges (sortEvents events)
  obtain ⟨built, sorted, each⟩ := buildGroups_parts ok
  have ids (p : Part) : p.eventIds.Perm (p.members.map (·.id)) := perm_insertionSort _ _
  refine ⟨buildGroups_events (correlatedParts_tidy distinct) ok, fun a memA b memB => ?_,
    fun g mem => ?_⟩
  · obtain ⟨v, placedV, rfl⟩ := exists_placed ((same a).mpr memA)
    obtain ⟨w, placedW, rfl⟩ := exists_placed ((same b).mpr memB)
    have chains : Relation.ReflTransGen (Linked KnownSignature edges events) v.1 w.1 ↔
        rootOf (joinedState edges (sortEvents events)).1 v =
          rootOf (joinedState edges (sortEvents events)).1 w := by
      rw [inv.root_iff distinct' placedV placedW]
      exact ⟨fun chain => chain.lift id fun _ _ link => link.congr fun e => (same e).symm,
        fun chain => chain.lift id fun _ _ link => link.congr same⟩
    rw [chains]
    constructor
    · rintro ⟨g, mem, first, second⟩
      obtain ⟨p, part, listed, -⟩ := Sorting.exists_of_mem_left each.flip (sorted.mem_iff.mp mem)
      obtain ⟨u, placed, members, -⟩ := mem_correlatedParts part
      rw [listed, (ids p).mem_iff, members] at first second
      exact ((id_mem_classOf distinct' placedV).mp first).trans
        ((id_mem_classOf distinct' placedW).mp second).symm
    · intro roots
      obtain ⟨p, part, members⟩ := exists_part placedV
      obtain ⟨g, mem, listed, -⟩ := Sorting.exists_of_mem_left each part
      refine ⟨g, sorted.mem_iff.mpr mem, ?_, ?_⟩
      · rw [listed, (ids p).mem_iff, members]
        exact (id_mem_classOf distinct' placedV).mpr rfl
      · rw [listed, (ids p).mem_iff, members]
        exact (id_mem_classOf distinct' placedW).mpr roots.symm
  · obtain ⟨p, part, listed, kept⟩ := Sorting.exists_of_mem_left each.flip (sorted.mem_iff.mp mem)
    obtain ⟨v, placed, members, filtered⟩ := mem_correlatedParts part
    have ids' : g.eventIds.Perm (p.members.map (·.id)) := listed ▸ ids p
    rw [members] at ids'
    have tree := inv.spanning distinct' placed ids'
    rw [kept, filtered, members]
    exact ⟨tree.one_less, fun reason mem => by
      obtain ⟨a, memA, b, memB, rest⟩ := tree.explains reason mem
      exact ⟨a, (same a).mp memA, b, (same b).mp memB, rest⟩, tree.connected⟩

/-! ## Every list of events is grouped -/

instance : Std.Total AttentionEvent.le where
  total a b := by
    rcases lt_trichotomy a.occurredAt b.occurredAt with before | same | after
    · exact .inl (.inl before)
    · exact (Std.Total.total (r := JsString.le) a.id b.id).imp (fun le => .inr ⟨same, le⟩)
        fun le => .inr ⟨same.symm, le⟩
    · exact .inr (.inl after)

instance : IsTrans AttentionEvent AttentionEvent.le where
  trans a b c := by
    rintro (before | ⟨same, le⟩) (before' | ⟨same', le'⟩)
    · exact .inl (before.trans before')
    · exact .inl (same' ▸ before)
    · exact .inl (same ▸ before')
    · exact .inr ⟨same.trans same', IsTrans.trans _ _ _ le le'⟩

theorem sortEvents_eq_of_perm {events' : List AttentionEvent} (permuted : events.Perm events')
    (distinct : (events.map (·.id)).Nodup) : sortEvents events = sortEvents events' := by
  refine Sorting.sort_eq_of_perm Std.Total.total IsTrans.trans (fun a memA b memB => ?_) permuted
  rintro (before | ⟨same, le⟩) (before' | ⟨same', le'⟩)
  · omega
  · omega
  · omega
  · exact inj_on_of_nodup_map distinct memA memB (Std.Antisymm.antisymm _ _ le le')

theorem boundedEdges_eq_of_perm {edges' : List AttentionEdge} (permuted : edges.Perm edges')
    (distinct : (edges.map (·.id)).Nodup) : boundedEdges edges = boundedEdges edges' := by
  have whole (l : List AttentionEdge) (nodup : (l.map (·.id)).Nodup) : lastValues (·.id) l = l := by
    unfold lastValues
    rw [GroupBy.groupBy_of_nodup nodup, filterMap_map]
    exact filterMap_some
  unfold boundedEdges
  rw [whole edges distinct, whole edges' (((permuted.map _).nodup_iff).mp distinct)]
  refine congrArg (take 100) (Sorting.sort_eq_of_perm (fun a b => Std.Total.total a.id b.id)
    (fun a b c => IsTrans.trans a.id b.id c.id) (fun a memA b memB le le' => ?_) permuted)
  exact inj_on_of_nodup_map distinct memA memB (Std.Antisymm.antisymm _ _ le le')

/-- A share of the score. -/
def UnitInterval (value : Option ℚ) : Prop := ∀ q, value = some q → 0 ≤ q ∧ q ≤ 1

theorem component_ok {value : Option ℚ} (weight : ℚ) (unit : UnitInterval value) :
    ∃ rounded, component value weight = .ok rounded := by
  cases value with
  | none => exact ⟨none, rfl⟩
  | some q =>
    obtain ⟨low, high⟩ := unit q rfl
    refine ⟨_, if_neg ?_⟩
    rintro (below | above)
    · exact absurd low (not_le.mpr below)
    · exact absurd high (not_le.mpr above)

theorem scoreAttention_ok {input : ScoreInputs} (impact : UnitInterval input.impact)
    (persistence : UnitInterval input.persistence) (baseline : UnitInterval input.baseline) :
    ∃ score, scoreAttention input = .ok score := by
  obtain ⟨first, ran⟩ := component_ok 20 impact
  obtain ⟨second, ran'⟩ := component_ok 15 persistence
  obtain ⟨third, ran''⟩ := component_ok 15 baseline
  unfold scoreAttention
  rw [ran, ran', ran'']
  exact ⟨_, rfl⟩

theorem span_unit {first last : Int} (start : Int) (low : start ≤ first) (order : first ≤ last)
    (high : last < start + windowMs) : UnitInterval (some (((last : ℚ) - first) / windowMs)) := by
  intro q same
  obtain rfl := some.inj same
  have positive : (0 : ℚ) < windowMs := by
    norm_num [windowMs]
  have ordered : (first : ℚ) ≤ last := Int.cast_le.mpr order
  have within : (last : ℚ) - first ≤ windowMs := by
    have := Int.cast_le (R := ℚ).mpr (show last - first ≤ windowMs by omega)
    push_cast at this
    exact this
  exact ⟨div_nonneg (by linarith) positive.le, (div_le_one positive).mpr within⟩

theorem buildGroup_ok {id : String} (filled : members ≠ [])
    (within : ∀ e ∈ members, start ≤ e.occurredAt ∧ e.occurredAt < start + windowMs)
    (units : ∀ r, UnitInterval (baseline r)) :
    ∃ g, buildGroup id members reasons baseline = .ok g := by
  have perm : (sortEvents members).Perm members := perm_insertionSort _ members
  unfold buildGroup
  cases sorted : sortEvents members with
  | nil =>
    rw [sorted] at perm
    exact (filled perm.nil_eq.symm).elim
  | cons first rest =>
    have inside (e : AttentionEvent) (mem : e ∈ first :: rest) := within e (perm.mem_iff.mp (sorted ▸ mem))
    have last : rest.getLast?.getD first ∈ first :: rest := by
      cases final : rest.getLast? with
      | none => exact mem_cons_self
      | some e => exact mem_cons_of_mem _ (mem_of_getLast? final)
    have ordered : first.occurredAt ≤ (rest.getLast?.getD first).occurredAt := by
      have lower := pairwise_insertionSort AttentionEvent.le members
      rw [show members.insertionSort AttentionEvent.le = first :: rest from sorted] at lower
      rcases mem_cons.mp last with same | later
      · rw [same]
      · rcases (pairwise_cons.mp lower).1 _ later with before | ⟨same, -⟩
        · exact before.le
        · exact same.le
    refine (scoreAttention_ok ?_ ?_ ?_).elim fun score ran => ⟨_, bind_eq_ok.mpr ⟨score, ran, rfl⟩⟩
    · intro q absent
      cases absent
    · dsimp only
      split
      next => exact span_unit start (inside _ mem_cons_self).1 ordered (inside _ last).2
      next =>
        intro q absent
        cases absent
    · dsimp only
      split
      next =>
        intro q found
        obtain ⟨value, mem, same⟩ := mem_filterMap.mp (max?_mem found)
        obtain ⟨r, -, known⟩ := mem_map.mp mem
        exact units r q (known.trans same)
      next =>
        intro q absent
        cases absent

/-- Events of one window are grouped into the connected components of the neighbours, whatever order
the events come in, and the edges if no id occurs twice. -/
theorem correlate_components (hash : HashInput → String) (events : List AttentionEvent)
    (edges : List AttentionEdge) (start : Int) (baseline : Baseline) (previous : List AttentionGroup)
    (aligned : start % windowMs = 0) (few : events.length ≤ 1000)
    (distinct : (events.map (·.id)).Nodup)
    (within : ∀ e ∈ events, start ≤ e.occurredAt ∧ e.occurredAt < start + windowMs) :
    (∀ result, correlate hash events edges start baseline previous = .ok result →
      Grouped KnownSignature edges events result.groups) ∧
    ((∀ r, UnitInterval (baseline r)) →
      ∃ result, correlate hash events edges start baseline previous = .ok result) ∧
    (∀ events', events.Perm events' → correlate hash events' edges start baseline previous =
      correlate hash events edges start baseline previous) ∧
    ∀ edges', edges.Perm edges' → (edges.map (·.id)).Nodup →
      correlate hash events edges' start baseline previous =
        correlate hash events edges start baseline previous := by
  have accepted : ¬ (start % windowMs ≠ 0 ∨ 1000 < events.length) := by omega
  have clean : ¬ (¬ (events.map (·.id)).Nodup ∨
      ∃ e ∈ events, e.occurredAt < start ∨ start + windowMs ≤ e.occurredAt) := by
    rintro (twice | ⟨e, mem, outside⟩)
    · exact twice distinct
    · have := within e mem
      omega
  refine ⟨fun result ok => ?_, fun units => ?_, fun events' permuted => ?_,
    fun edges' permuted nodup => ?_⟩
  · unfold correlate at ok
    obtain ⟨-, ok⟩ := guard_eq_ok.mp ok
    obtain ⟨-, ok⟩ := guard_eq_ok.mp ok
    obtain ⟨groups, built, ok⟩ := bind_eq_ok.mp ok
    obtain rfl := Except.ok.inj ok
    exact grouped_of_ok distinct built
  · have each (p : Part) (mem : p ∈ correlatedParts hash events edges start previous) :
        ∃ g, buildGroup (p.id hash) p.members p.reasons baseline = .ok g := by
      have tidy := @correlatedParts_tidy hash events previous edges start distinct
      refine buildGroup_ok (tidy.filled p mem) (fun e inside => within e ?_) units
      exact tidy.perm.mem_iff.mp (mem_flatMap.mpr ⟨p, mem, inside⟩)
    obtain ⟨built, ran⟩ := Except.mapM_ok_of_each each
    unfold correlate
    refine ⟨_, guard_eq_ok.mpr ⟨accepted, guard_eq_ok.mpr ⟨clean,
      bind_eq_ok.mpr ⟨sortGroups built, ?_, rfl⟩⟩⟩⟩
    exact bind_eq_ok.mpr ⟨built, ran, rfl⟩
  · have clean' : ¬ (¬ (events'.map (·.id)).Nodup ∨
        ∃ e ∈ events', e.occurredAt < start ∨ start + windowMs ≤ e.occurredAt) := by
      simpa only [← permuted.mem_iff, ← (permuted.map (·.id)).nodup_iff] using clean
    unfold correlate correlatedParts
    rw [if_neg clean, if_neg clean', ← permuted.length_eq, sortEvents_eq_of_perm permuted distinct]
  · unfold correlate correlatedParts components
    rw [boundedEdges_eq_of_perm permuted nodup, permuted.length_eq]

/-- Two events of one resource, observed a minute apart. -/
def twoEvents (second : Resources.ResourceRef) (signature : Option String) : List AttentionEvent :=
  [⟨"a", ⟨.server, 1⟩, none, 0, .error, signature⟩, ⟨"b", second, none, 60000, .warning, signature⟩]

theorem correlate_components_pair :
    ∃ result, correlate (fun _ => "g") (twoEvents ⟨.server, 1⟩ none) [] 0 (fun _ => none) [] = .ok result ∧
      Grouped KnownSignature [] (twoEvents ⟨.server, 1⟩ none) result.groups := by
  obtain ⟨grouped, total, -⟩ := correlate_components (fun _ => "g") (twoEvents ⟨.server, 1⟩ none) [] 0
    (fun _ => none) [] (by decide) (by decide) (by decide) (by decide)
  obtain ⟨result, ran⟩ := total fun _ _ absent => by cases absent
  exact ⟨result, ran, grouped result ran⟩

/-- The empty signature joins nothing. -/
theorem correlate_empty_signature :
    ∃ result, correlate (fun _ => "g") (twoEvents ⟨.server, 2⟩ (some "")) [] 0 (fun _ => none) [] =
        .ok result ∧
      ¬ Grouped (· ≠ none) [] (twoEvents ⟨.server, 2⟩ (some "")) result.groups := by
  have listed : (correlate (fun _ => "g") (twoEvents ⟨.server, 2⟩ (some "")) [] 0 (fun _ => none) []).map
      (fun result => result.groups.map (·.eventIds)) = .ok [["a"], ["b"]] := by
    decide +kernel
  obtain ⟨result, ran, groups⟩ := Except.map_eq_ok.mp listed
  refine ⟨result, ran, fun grouped => ?_⟩
  have chain : Relation.ReflTransGen
      (Linked (· ≠ none) [] (twoEvents ⟨.server, 2⟩ (some "")))
      ⟨"a", ⟨.server, 1⟩, none, 0, .error, some ""⟩ ⟨"b", ⟨.server, 2⟩, none, 60000, .warning, some ""⟩ :=
    .single ⟨mem_cons_self, mem_cons_of_mem _ mem_cons_self,
      .inr (.inr ⟨rfl, Option.some_ne_none _⟩)⟩
  obtain ⟨g, mem, first, second⟩ := (grouped.classes _ mem_cons_self _
    (mem_cons_of_mem _ mem_cons_self)).mpr chain
  have inside : g.eventIds ∈ [["a"], ["b"]] := groups ▸ mem_map_of_mem mem
  rcases mem_cons.mp inside with only | later
  · rw [only] at second
    revert second
    decide
  · rw [mem_singleton.mp later] at first
    revert first
    decide

end Slide.Attention
