import Mathlib.Data.List.Perm.Subperm
import Slide.Relations.GraphComplete

/-!
# What the flag of the graph says

* `graph_honest`: whatever the tables, the graph is returned, its edges are valid confirmed relations
  within so many steps of the root over its own edges, and no more than asked for; and a graph that is
  not flagged lists every head around the resources it has come to, exactly if no stop is overlooked.
* `graph_overlooks`: a graph of one edge that overlooks the next one.
-/

namespace Slide.Relations

open Slide.Resources List

variable {tables : Tables} {env : Environment} {options : GraphOptions} {root : ResourceRef}
  {result : GraphResult}

/-- The walk of a graph. -/
def walked (tables : Tables) (env : Environment) (options : GraphOptions) (root : ResourceRef) : Walk :=
  rounds tables.legacy env options (options.maxEdges + 1) (.start tables.revisions root)

/-- The walk ends: more turns than edges may be counted leave no stop. -/
theorem walk_finishes (tables : Tables) (env : Environment) (options : GraphOptions) (root : ResourceRef)
    (more : Nat) : (rounds tables.legacy env options (options.maxEdges + 1 + more)
      (.start tables.revisions root)).queue = [] :=
  rounds_finished (Nat.add_comm 1 _ ▸ Nat.le_add_right ..)

/-- The edges of the walk that pass the second check. -/
def Walk.visible (tables : Tables) (env : Environment) (w : Walk) : List VisibleEdge :=
  w.edges.zipIdx.filterMap (verdict tables env)

/-- The edges that may still be sent. -/
def Walk.validVisible (tables : Tables) (env : Environment) (w : Walk) : List RelationProjection :=
  ((w.visible tables env).filter (·.current env.responseAt)).map (·.edge)

theorem walked_sound : (walked tables env options root).Sound tables env options :=
  (Walk.Sound.start tables env options root).rounds

theorem walked_ids_nodup : ((walked tables env options root).edges.map (·.relationId)).Nodup :=
  walked_sound.listed.nodup walked_sound.nodup

theorem graph_eq (valid : options.valid = true) (readable : env.readable root = true) :
    ∃ revisions, graph tables env root options = .ok (respond env options root
      ⟨revisions, (walked tables env options root).visible tables env,
        (walked tables env options root).incomplete ||
          (walked tables env options root).edges.zipIdx.any fun entry =>
            (verdict tables env entry).isNone⟩) := by
  have ids : ((walked tables env options root).edges.zipIdx.map (·.1.relationId)).Nodup := by
    have nodup := @walked_ids_nodup tables env options root
    rwa [← zipIdx_map_fst 0 (walked tables env options root).edges, map_map] at nodup
  have inside (entry : RelationProjection × Nat)
      (mem : entry ∈ (walked tables env options root).edges.zipIdx) :
      entry.1 ∈ (walked tables env options root).edges := by
    have first := mem_map_of_mem (f := Prod.fst) mem
    rwa [zipIdx_map_fst] at first
  obtain ⟨revisions, checked⟩ := @foldlM_recheck tables env options
    (walked tables env options root).edges.zipIdx
    ⟨(walked tables env options root).revisions, [], (walked tables env options root).incomplete⟩
    (fun entry mem => walked_sound.heads _ (.inr (mem_map_of_mem (inside entry mem))))
    (fun entry mem => walked_sound.edges _ (inside entry mem)) ids
  refine ⟨revisions, ?_⟩
  unfold graph
  rw [valid, readable]
  refine bind_eq_ok.mpr ⟨_, checked, rfl⟩

/-! ## What is returned -/

/-- The edges are what they are said to be, whether or not the graph is flagged. -/
structure GraphResult.Sound (tables : Tables) (env : Environment) (options : GraphOptions)
    (root : ResourceRef) (result : GraphResult) : Prop where
  facts : options.factsOnly = true → ∀ edge ∈ result.edges, ∃ value ref place,
    head tables.legacy tables.revisions edge.relationId = some value ∧ edge = projection value ref ∧
      Fact tables.legacy env place value
  reached : ∀ edge ∈ result.edges, ∃ k < options.hops, ∃ x, Within result.edges root k x ∧
    edge.touches x = true
  bounded : result.edges.length ≤ options.maxEdges
  distinct : (result.edges.map (·.relationId)).Nodup

/-- Every head at a resource that the graph has come to is among the edges. -/
def GraphResult.Whole (tables : Tables) (root : ResourceRef) (result : GraphResult) : Prop :=
  ∀ k x, Within result.edges root k x → ∀ id value,
    head tables.legacy tables.revisions id = some value → value.touches x = true →
      id ∈ result.edges.map (·.relationId)

theorem verdict_edge {entry : RelationProjection × Nat} {v : VisibleEdge}
    (passed : verdict tables env entry = some v) : v.edge = entry.1 := by
  unfold verdict at passed
  obtain ⟨value, -, passed⟩ := Option.bind_eq_some_iff.mp passed
  split at passed
  next => cases passed
  next =>
    obtain ⟨until_, -, rfl⟩ := Option.map_eq_some_iff.mp passed
    rfl

theorem visible_sublist (w : Walk) : ((w.visible tables env).map (·.edge)).Sublist w.edges := by
  have each (entries : List (RelationProjection × Nat)) :
      ((entries.filterMap (verdict tables env)).map (·.edge)).Sublist (entries.map Prod.fst) := by
    induction entries with
    | nil => exact .slnil
    | cons entry rest ih =>
      rw [filterMap_cons]
      cases passed : verdict tables env entry with
      | none => exact ih.cons _
      | some v =>
        rw [map_cons, map_cons, verdict_edge passed]
        exact ih.cons_cons _
  have all := each w.edges.zipIdx
  rwa [zipIdx_map_fst] at all

theorem validVisible_sublist (w : Walk) : (w.validVisible tables env).Sublist w.edges :=
  (filter_sublist.map _).trans (visible_sublist w)

/-- The retained ids of the response to a walk. -/
def Walk.retained (tables : Tables) (env : Environment) (options : GraphOptions) (root : ResourceRef)
    (w : Walk) : List Nat :=
  (spread (w.validVisible tables env) options.hops ⟨[root], [], [root]⟩).retained

theorem mem_validVisible {w : Walk} {edge : RelationProjection} :
    edge ∈ w.validVisible tables env ↔
      ∃ k, w.edges[k]? = some edge ∧ Sent tables env (edge, k) := by
  unfold Walk.validVisible Walk.visible
  simp only [mem_map, mem_filter, mem_filterMap, Prod.exists, mem_zipIdx_iff_getElem?]
  constructor
  · rintro ⟨v, ⟨⟨entry, k, at_, passed⟩, current⟩, rfl⟩
    rw [verdict_edge passed]
    exact ⟨k, at_, v, passed, current⟩
  · rintro ⟨k, at_, v, passed, current⟩
    exact ⟨v, ⟨⟨edge, k, at_, passed⟩, current⟩, verdict_edge passed⟩

theorem respond_sound {w : Walk} (sound : w.Sound tables env options)
    (same : result.edges = (w.validVisible tables env).filter
      (·.relationId ∈ w.retained tables env options root)) :
    result.Sound tables env options root := by
  have ids : (w.edges.map (·.relationId)).Nodup := sound.listed.nodup sound.nodup
  have sub : result.edges.Sublist (w.validVisible tables env) := same ▸ filter_sublist
  have all : result.edges.Sublist w.edges := sub.trans (validVisible_sublist w)
  have levels := spread_levels (w.validVisible tables env) root options.hops
  refine ⟨fun factsOnly edge mem => ?_, fun edge mem => ?_, ?_, (all.map _).nodup ids⟩
  · obtain ⟨k, at_, sent⟩ := mem_validVisible.mp (sub.subset mem)
    obtain ⟨value, ref, found, rfl, reason⟩ := sound.edges edge (all.subset mem)
    have passes : Passes tables.legacy env value := by
      rcases reason with passes | suggests
      · exact passes
      · rw [suggests.asked] at factsOnly
        cases factsOnly
    exact ⟨value, ref, k, found, rfl, passes, (sent_iff passes.confirmed found).mp sent⟩
  · rw [same] at mem ⊢
    obtain ⟨inside, kept⟩ := mem_filter.mp mem
    obtain ⟨k, less, x, within, other, mem', touches, id⟩ :=
      (levels.retained _).mp (of_decide_eq_true kept)
    have equal : other = edge := inj_on_of_nodup_map
      (((validVisible_sublist w).map _).nodup ids) mem' inside id
    exact ⟨k, less, x, within.retained levels rfl less.le, equal ▸ touches⟩
  · have listed := (all.map (·.relationId)).trans sound.listed
    have bound := listed.length_le
    rw [length_map, sound.scanned] at bound
    exact bound.trans sound.budget

/-! ## What the flag says -/

theorem sentFrom_iff {w : Walk} (ids : (w.edges.map (·.relationId)).Nodup) :
    SentFrom tables env w.edges 0 ↔ w.validVisible tables env = w.edges := by
  have nodup : w.edges.Nodup := .of_map _ ids
  constructor
  · intro sent
    refine (validVisible_sublist w).eq_of_length_le (List.Nodup.subperm nodup fun edge mem => ?_).length_le
    obtain ⟨k, at_⟩ := mem_iff_getElem?.mp mem
    exact mem_validVisible.mpr ⟨k, at_, sent k edge (Nat.zero_le k) at_⟩
  · intro same k edge _ at_
    obtain ⟨k', at', sent⟩ := mem_validVisible.mp (same ▸ List.mem_of_getElem? at_)
    obtain ⟨within, here⟩ := List.getElem?_eq_some_iff.mp at_
    obtain ⟨within', here'⟩ := List.getElem?_eq_some_iff.mp at'
    rw [(nodup.getElem_inj_iff).mp (here.trans here'.symm)]
    exact sent

theorem retained_nodup (w : Walk) : (w.retained tables env options root).Nodup :=
  (spread_levels (w.validVisible tables env) root options.hops).nodup

theorem retained_length_le (w : Walk) :
    (w.retained tables env options root).length ≤ (w.validVisible tables env).length := by
  rw [← length_map RelationProjection.relationId]
  refine (List.Nodup.subperm (retained_nodup w) fun id mem => ?_).length_le
  obtain ⟨k, -, x, -, edge, inside, -, rfl⟩ :=
    ((spread_levels (w.validVisible tables env) root options.hops).retained id).mp mem
  exact mem_map_of_mem inside

theorem mem_retained {w : Walk} (clean : w.Clean tables env options root)
    (same : w.validVisible tables env = w.edges) {edge : RelationProjection} (mem : edge ∈ w.edges) :
    edge.relationId ∈ w.retained tables env options root := by
  obtain ⟨k, less, x, within, touches⟩ := clean.near edge mem
  have levels := spread_levels (w.validVisible tables env) root options.hops
  rw [same] at levels
  unfold Walk.retained
  rw [same]
  exact (levels.retained _).mpr ⟨k, less, x, within, edge, mem, touches, rfl⟩

/-- The flag of the response to a walk. -/
def Walk.flag (tables : Tables) (env : Environment) (options : GraphOptions) (root : ResourceRef)
    (w : Walk) : Bool :=
  (w.incomplete || w.edges.zipIdx.any fun entry => (verdict tables env entry).isNone) ||
    (w.retained tables env options root).length < (w.visible tables env).length

theorem flag_iff {w : Walk} (ids : (w.edges.map (·.relationId)).Nodup)
    (clean : w.incomplete = false → w.Clean tables env options root) :
    w.flag tables env options root = false ↔ w.incomplete = false ∧ SentFrom tables env w.edges 0 := by
  have visible : (w.visible tables env).length ≤ w.edges.length := by
    rw [← length_map (·.edge)]
    exact (visible_sublist w).length_le
  rw [sentFrom_iff ids]
  unfold Walk.flag
  rw [Bool.or_eq_false_iff, Bool.or_eq_false_iff, any_eq_false, decide_eq_false_iff_not, not_lt]
  constructor
  · rintro ⟨⟨down, passed⟩, kept⟩
    have whole : (w.visible tables env).length = w.edges.zipIdx.length := by
      unfold Walk.visible
      rw [filterMap_length_eq_length]
      intro entry mem
      have some_ := passed entry mem
      rwa [Option.isNone_iff_eq_none, ← ne_eq, ← Option.isSome_iff_ne_none] at some_
    rw [length_zipIdx] at whole
    refine ⟨down, (validVisible_sublist w).eq_of_length_le ?_⟩
    exact (whole ▸ kept).trans (retained_length_le w)
  · rintro ⟨down, same⟩
    refine ⟨⟨down, fun entry mem none_ => ?_⟩, visible.trans ?_⟩
    · have at_ := mem_zipIdx_iff_getElem?.mp mem
      obtain ⟨v, passed, -⟩ := (sentFrom_iff ids).mpr same entry.2 entry.1 (Nat.zero_le _) at_
      rw [passed] at none_
      cases none_
    · rw [← length_map RelationProjection.relationId]
      refine (List.Nodup.subperm ids fun id mem => ?_).length_le
      obtain ⟨edge, inside, rfl⟩ := mem_map.mp mem
      exact mem_retained (clean down) same inside

theorem Walk.Clean.within_iff {w : Walk} (clean : w.Clean tables env options root) {x : ResourceRef} :
    x ∈ w.seenNodes ↔ ∃ k, Within w.edges root k x := by
  constructor
  · exact clean.reached x
  · rintro ⟨k, within⟩
    induction within with
    | root => exact clean.rooted
    | @step k x y edge _ mem joins _ =>
      obtain ⟨value, ref, rfl, -, found⟩ := clean.facts edge mem
      have seen : (projection value ref).relationId ∈ w.seenEdges := clean.ids ▸ mem_map_of_mem mem
      obtain ⟨other, found', source, target⟩ := clean.ends _ seen
      obtain rfl := some.inj (found.symm.trans found')
      unfold RelationProjection.Joins projection at joins
      dsimp only at joins
      split at joins <;> grind

theorem Walk.Clean.whole_iff {w : Walk} (clean : w.Clean tables env options root)
    (same : result.edges = w.edges) : result.Whole tables root ↔ ¬ Missing tables w := by
  unfold GraphResult.Whole Missing
  rw [same, clean.ids]
  push Not
  constructor
  · intro whole x seen id inside
    obtain ⟨k, within⟩ := clean.within_iff.mp seen
    obtain ⟨value, found, touches⟩ := mem_incidentIds.mp inside
    exact whole k x within id value found touches
  · intro all k x within id value found touches
    exact all x (clean.within_iff.mpr ⟨k, within⟩) id (mem_incidentIds.mpr ⟨value, found, touches⟩)

/-- The graph around a resource that may be read: it is returned and its edges are what they are said to
be; and if it is not flagged, every head at a resource it has come to is among its edges, in all cases
but the ones where a stop is overlooked. -/
theorem graph_honest (tables : Tables) (env : Environment) (options : GraphOptions) (root : ResourceRef)
    (valid : options.valid = true) (readable : env.readable root = true) :
    ∃ result, graph tables env root options = .ok result ∧
      result.Sound tables env options root ∧
      ((result.incomplete = false → result.Whole tables root) ↔
        ¬ Overlooks tables env options [root] 0 [⟨root, 0, none⟩]) := by
  obtain ⟨revisions, ran⟩ := @graph_eq tables env options root valid readable
  have cleaned (down : (walked tables env options root).incomplete = false) :
      (walked tables env options root).Clean tables env options root :=
    (Walk.Clean.start tables env options root).rounds down
  have flag := flag_iff (@walked_ids_nodup tables env options root) cleaned
  have expanded : Expanded tables (.start tables.revisions root) := fun x seen => .inl seen
  have loses := overlooks_iff (Walk.Clean.start tables env options root) expanded (Nat.zero_le _)
    (show 1 + (options.maxEdges - 0) ≤ options.maxEdges + 1 by omega)
  refine ⟨_, ran, respond_sound walked_sound rfl, ?_⟩
  rw [← not_iff_not, not_not, Classical.not_imp]
  refine Iff.trans ?_ loses
  change (walked tables env options root).flag tables env options root = false ∧ _ ↔
    (walked tables env options root).incomplete = false ∧
      SentFrom tables env (walked tables env options root).edges 0 ∧ _
  rw [flag, and_assoc]
  refine and_congr_right fun down => and_congr_right fun sent => ?_
  have same := (sentFrom_iff walked_ids_nodup).mp sent
  have clean := cleaned down
  rw [clean.whole_iff, not_not]
  · rfl
  · change ((walked tables env options root).validVisible tables env).filter
      (fun edge => edge.relationId ∈ (walked tables env options root).retained tables env options root) = _
    rw [same, filter_eq_self]
    exact fun edge mem => decide_eq_true (mem_retained clean same mem)

/-- A confirmed relation of two servers. -/
def confirmedEdge (id source target : Nat) : StoredRelation where
  relationId := id
  version := 1
  source := ⟨.server, source⟩
  target := ⟨.server, target⟩
  relationType := .depends_on
  state := .confirmed
  content := ⟨[⟨"log", 1, "", 100⟩], 0, 0, none, .manual⟩
  author := none
  legacyProvenance := none
  confirmedBy := some 1
  confirmedAt := some 0
  withdrawalReason := none

/-- Three servers in a row, joined by relations 5 and 9. -/
def rowTables : Tables where
  legacy := ⟨[], .nil, no_rows_below⟩
  revisions := [confirmedEdge 5 1 2, confirmedEdge 9 2 3]
  keyed := by decide

/-- Everything may be read and is proven, and the clock stands. -/
def steadyEnvironment : Environment where
  readable _ := true
  evidence _ _ := .valid
  now := 1
  sendAt _ := 1
  legacyAt _ := 1
  responseAt := 1

theorem graph_honest_row : ∃ result,
    graph rowTables steadyEnvironment ⟨.server, 1⟩ ⟨2, 100, true⟩ = .ok result ∧
      result.Sound rowTables steadyEnvironment ⟨2, 100, true⟩ ⟨.server, 1⟩ ∧
      ((result.incomplete = false → result.Whole rowTables ⟨.server, 1⟩) ↔
        ¬ Overlooks rowTables steadyEnvironment ⟨2, 100, true⟩ [⟨.server, 1⟩] 0
          [⟨⟨.server, 1⟩, 0, none⟩]) :=
  graph_honest rowTables steadyEnvironment ⟨2, 100, true⟩ ⟨.server, 1⟩ (by decide) rfl

/-- With a budget of one edge, the second server's window holds the edge it was reached by and nothing
else, so that the other relation is neither listed nor flagged. -/
theorem graph_overlooks : ∃ result,
    graph rowTables steadyEnvironment ⟨.server, 1⟩ ⟨2, 1, true⟩ = .ok result ∧
      result.incomplete = false ∧ ¬ result.Whole rowTables ⟨.server, 1⟩ := by
  have listed : (graph rowTables steadyEnvironment ⟨.server, 1⟩ ⟨2, 1, true⟩).map
      (fun result => (result.edges, result.incomplete)) =
        .ok ([projection (confirmedEdge 5 1 2) ⟨.server, 1⟩], false) := by
    rfl
  obtain ⟨result, ran, same⟩ := Except.map_eq_ok.mp listed
  obtain ⟨edges, flag⟩ := Prod.mk.inj same
  refine ⟨result, ran, flag, fun whole => ?_⟩
  have second : Within result.edges ⟨.server, 1⟩ 1 ⟨.server, 2⟩ := by
    rw [edges]
    exact .step .root mem_cons_self (.inl ⟨rfl, rfl⟩)
  have inside := whole 1 _ second 9 (confirmedEdge 9 2 3) (by rfl) (by decide)
  rw [edges] at inside
  revert inside
  decide

end Slide.Relations
