import Mathlib.Data.List.Infix
import Slide.Relations.GraphClean

/-!
# When the graph is whole

`graph` reads one head more than its budget has left, to see whether there are more than it can take.  At
a resource below the root the edge that led there can be that one head, and then the heads behind it are
overlooked.  `Overlooks` says when this happens with everything else in order, and `graph_honest` that the
flag is right in all other cases.
-/

namespace Slide.Relations

open Slide.Resources List

variable {tables : Tables} {env : Environment} {options : GraphOptions} {stop : Stop}
  {value : StoredRelation} {w : Walk} {id place : Nat} {ref root x : ResourceRef}
  {candidates : List StoredRelation}

/-! ## Facts -/

/-- A head still holds in the second check of its edge and at the response. -/
structure Holds (legacy : Legacy) (env : Environment) (place : Nat) (value : StoredRelation) : Prop where
  window : inWindow value (env.sendAt place) = true
  proof : ∀ item ∈ value.content.evidence, env.sendAt place < item.validUntil
  checked : env.evidence value (env.sendAt place) = .valid
  source : ∃ until_, legacyWindow legacy value (env.legacyAt place) = some until_ ∧
    ∀ t, until_ = some t → env.responseAt < t
  lasting : inWindow value env.responseAt = true
  proven : ∀ item ∈ value.content.evidence, env.responseAt < item.validUntil

/-- A valid confirmed relation, as the edge at a place. -/
def Fact (legacy : Legacy) (env : Environment) (place : Nat) (value : StoredRelation) : Prop :=
  Passes legacy env value ∧ Holds legacy env place value

/-- The edge at a place is sent. -/
def Sent (tables : Tables) (env : Environment) (entry : RelationProjection × Nat) : Prop :=
  ∃ v, verdict tables env entry = some v ∧ v.current env.responseAt = true

theorem all_min?_iff {l : List Int} {t : Int} :
    l.min?.all (fun a => decide (t < a)) = true ↔ ∀ a ∈ l, t < a := by
  cases found : l.min? with
  | none =>
    rw [min?_eq_none_iff.mp found]
    simp
  | some m =>
    obtain ⟨mem, least⟩ := min?_eq_some_iff.mp found
    rw [Option.all_some, decide_eq_true_eq]
    exact ⟨fun below a inside => below.trans_le (least a inside), fun below => below m mem⟩

theorem stillHolds_iff (confirmed : value.state = .confirmed) {t : Int} :
    stillHolds env (projection value ref) value t = true ↔
      inWindow value t = true ∧ (∀ item ∈ value.content.evidence, t < item.validUntil) ∧
        env.evidence value t = .valid := by
  unfold stillHolds projection
  simp [confirmed]

theorem sent_iff (confirmed : value.state = .confirmed)
    (found : head tables.legacy tables.revisions value.relationId = some value) :
    Sent tables env (projection value ref, place) ↔ Holds tables.legacy env place value := by
  have lasts (until_ : Option Int) : (VisibleEdge.mk (projection value ref)
      (proofExpiry value until_)).current env.responseAt = true ↔
        inWindow value env.responseAt = true ∧ (∀ t, until_ = some t → env.responseAt < t) ∧
          ∀ item ∈ value.content.evidence, env.responseAt < item.validUntil := by
    unfold VisibleEdge.current proofExpiry
    rw [if_pos confirmed, Bool.and_eq_true, all_min?_iff]
    refine and_congr Iff.rfl ?_
    simp only [mem_append, mem_map, Option.mem_toList]
    constructor
    · exact fun all => ⟨fun t same => all t (.inl same), fun item mem => all _ (.inr ⟨item, mem, rfl⟩)⟩
    · rintro ⟨first, second⟩ t (same | ⟨item, mem, rfl⟩)
      · exact first t same
      · exact second item mem
  unfold Sent verdict
  rw [show (projection value ref).relationId = value.relationId from rfl, found, Option.bind_some]
  by_cases stale : stillHolds env (projection value ref) value (env.sendAt place) = false
  · rw [if_pos stale]
    constructor
    · rintro ⟨v, absent, -⟩
      cases absent
    · intro holds
      rw [(stillHolds_iff confirmed).mpr ⟨holds.window, holds.proof, holds.checked⟩] at stale
      cases stale
  · rw [if_neg stale]
    obtain ⟨window, proof, checked⟩ := (stillHolds_iff confirmed).mp (Bool.eq_true_of_not_eq_false stale)
    constructor
    · rintro ⟨v, sent, current⟩
      obtain ⟨until_, source, rfl⟩ := Option.map_eq_some_iff.mp sent
      obtain ⟨lasting, ends, proven⟩ := (lasts until_).mp current
      exact ⟨window, proof, checked, ⟨until_, source, ends⟩, lasting, proven⟩
    · rintro ⟨-, -, -, ⟨until_, source, ends⟩, lasting, proven⟩
      exact ⟨_, Option.map_eq_some_iff.mpr ⟨until_, source, rfl⟩, (lasts until_).mpr ⟨lasting, ends, proven⟩⟩

/-! ## Resources that are overlooked -/

/-- The heads are facts, at the places from one on, and each leads to a new resource. -/
def Grows (tables : Tables) (env : Environment) (stop : Stop) :
    List ResourceRef → Nat → List StoredRelation → Prop
  | _, _, [] => True
  | seen, place, value :: rest => Fact tables.legacy env place value ∧ value.other stop.ref ∉ seen ∧
    Grows tables env stop (seen ++ [value.other stop.ref]) (place + 1) rest

/-- The stops that heads lead to. -/
def Stop.nexts (stop : Stop) (values : List StoredRelation) : List Stop :=
  values.map fun value => ⟨value.other stop.ref, stop.depth + 1, some value.relationId⟩

/-- The heads at a stop but for the one that led to it. -/
def Stop.ahead (tables : Tables) (stop : Stop) : List StoredRelation :=
  stop.others (incident tables stop.ref)

/-- With the resources seen and the edges counted so far, the walk over the stops comes to one at which
more heads are ahead than the budget has left and the edge that led there is among the first of its heads by
relation id, one more than are left; as far as the budget lasts, the heads are facts that lead to new
resources; and at each later stop the edge that led there is the first head. -/
inductive Overlooks (tables : Tables) (env : Environment) (options : GraphOptions) :
    List ResourceRef → Nat → List Stop → Prop
  | here {seen : List ResourceRef} {scanned parent : Nat} {stop : Stop} {queue : List Stop}
    (more : options.maxEdges - scanned < (stop.ahead tables).length)
    (led : stop.parentEdge = some parent)
    (first : parent ∈ (incidentIds tables stop.ref).take (options.maxEdges - scanned + 1))
    (grows : Grows tables env stop seen scanned ((stop.ahead tables).take (options.maxEdges - scanned)))
    (shallow : scanned < options.maxEdges → stop.depth < options.hops)
    (later : ∀ next ∈ queue ++ stop.nexts ((stop.ahead tables).take (options.maxEdges - scanned)),
      (incidentIds tables next.ref).head? = next.parentEdge) :
    Overlooks tables env options seen scanned (stop :: queue)
  | there {seen : List ResourceRef} {scanned : Nat} {stop : Stop} {queue : List Stop}
    (all : (stop.ahead tables).length ≤ options.maxEdges - scanned)
    (grows : Grows tables env stop seen scanned (stop.ahead tables))
    (shallow : stop.ahead tables ≠ [] → stop.depth < options.hops)
    (rest : Overlooks tables env options
      (seen ++ (stop.ahead tables).map fun value => value.other stop.ref)
      (scanned + (stop.ahead tables).length) (queue ++ stop.nexts (stop.ahead tables))) :
    Overlooks tables env options seen scanned (stop :: queue)

/-! ## One turn of the walk -/

theorem past_eq {others : List StoredRelation} :
    w.past stop others =
      { w with
        scanned := w.scanned + others.length
        seenNodes := w.seenNodes ++ others.map fun value => value.other stop.ref
        seenEdges := w.seenEdges ++ others.map (·.relationId)
        edges := w.edges ++ others.map fun value => projection value stop.ref
        queue := w.queue ++ stop.nexts others } := by
  unfold Walk.past
  induction others generalizing w with
  | nil => simp [Stop.nexts]
  | cons value rest ih =>
    rw [foldl_cons, ih, length_cons, Nat.add_comm rest.length 1]
    simp [Walk.accept, Stop.nexts, Nat.add_assoc]

theorem Walk.Clean.admits {others : List StoredRelation} (clean : w.Clean tables env options root)
    (current : stop.Current tables root w) (inside : ∀ value ∈ others, value ∈ incident tables stop.ref)
    (admits : Admits tables env options stop w others) :
    (w.past stop others).Clean tables env options root := by
  induction others generalizing w with
  | nil => exact clean
  | cons value rest ih =>
    obtain ⟨-, -, shallow, passes, fresh, later⟩ := admits
    obtain ⟨first, others⟩ := forall_mem_cons.mp inside
    obtain ⟨clean, current⟩ := clean.accept current first shallow passes fresh
    exact ih clean current others later

theorem Admits.room {others : List StoredRelation} (admits : Admits tables env options stop w others)
    (budget : w.scanned ≤ options.maxEdges) : w.scanned + others.length ≤ options.maxEdges := by
  induction others generalizing w with
  | nil => exact budget
  | cons value rest ih =>
    obtain ⟨-, room, -, -, -, later⟩ := admits
    have more : w.scanned + 1 + rest.length ≤ options.maxEdges := ih later room
    rw [length_cons]
    omega

theorem Admits.shallow {others : List StoredRelation} (admits : Admits tables env options stop w others)
    (some_ : others ≠ []) : stop.depth < options.hops := by
  cases others with
  | nil => exact (some_ rfl).elim
  | cons value rest => exact admits.2.2.1

theorem grows_iff {others : List StoredRelation}
    (found : ∀ value ∈ others, head tables.legacy tables.revisions value.relationId = some value)
    (unseen : ∀ value ∈ others, value.relationId ∉ w.seenEdges)
    (nodup : (others.map (·.relationId)).Nodup)
    (room : w.scanned + others.length ≤ options.maxEdges)
    (shallow : others ≠ [] → stop.depth < options.hops) :
    Grows tables env stop w.seenNodes w.scanned others ↔ Admits tables env options stop w others ∧
      ∀ i value, others[i]? = some value →
        Sent tables env (projection value stop.ref, w.scanned + i) := by
  induction others generalizing w with
  | nil => simp [Grows, Admits]
  | cons value rest ih =>
    obtain ⟨found, foundRest⟩ := forall_mem_cons.mp found
    obtain ⟨new, newRest⟩ := forall_mem_cons.mp unseen
    obtain ⟨apart, nodup⟩ := nodup_cons.mp nodup
    rw [length_cons] at room
    have deep := shallow (cons_ne_nil value rest)
    have later := @ih (w.accept stop value) foundRest (fun other mem seen => by
        rcases mem_append.mp seen with old | last
        · exact newRest other mem old
        · exact apart (mem_map.mpr ⟨other, mem, mem_singleton.mp last⟩)) nodup
      (by change w.scanned + 1 + rest.length ≤ options.maxEdges; omega) fun _ => deep
    constructor
    · rintro ⟨⟨passes, holds⟩, fresh, grows⟩
      obtain ⟨admits, sent⟩ := later.mp grows
      refine ⟨⟨new, by omega, deep, passes, fresh, admits⟩, fun i other here => ?_⟩
      cases i with
      | zero =>
        obtain rfl := some.inj here
        exact (sent_iff passes.confirmed found).mpr holds
      | succ i =>
        have next := sent i other here
        rwa [show (w.accept stop value).scanned + i = w.scanned + (i + 1) by
          change w.scanned + 1 + i = _; omega] at next
    · rintro ⟨⟨-, -, -, passes, fresh, admits⟩, sent⟩
      refine ⟨⟨passes, (sent_iff passes.confirmed found).mp (sent 0 value rfl)⟩, fresh,
        later.mpr ⟨admits, fun i other here => ?_⟩⟩
      have next := sent (i + 1) other here
      rwa [show w.scanned + (i + 1) = (w.accept stop value).scanned + i by
        change _ = w.scanned + 1 + i; omega] at next

/-! ## The window of a turn -/

theorem filter_take_of_mem {values : List StoredRelation} {parent n : Nat}
    (nodup : (values.map (·.relationId)).Nodup)
    (first : parent ∈ (values.map (·.relationId)).take (n + 1)) :
    (values.take (n + 1)).filter (fun value => value.relationId ≠ parent) =
      (values.filter fun value => value.relationId ≠ parent).take n := by
  induction values generalizing n with
  | nil => simp
  | cons value rest ih =>
    obtain ⟨apart, nodup⟩ := nodup_cons.mp nodup
    rw [take_succ_cons]
    by_cases same : value.relationId = parent
    · have others : ∀ other ∈ rest, decide (other.relationId ≠ parent) = true := by
        intro other mem
        refine decide_eq_true fun equal => apart ?_
        exact mem_map.mpr ⟨other, mem, equal.trans same.symm⟩
      rw [filter_cons_of_neg (by simpa using same), filter_cons_of_neg (by simpa using same),
        filter_eq_self.mpr others,
        filter_eq_self.mpr fun other mem => others other (mem_of_mem_take mem)]
    · cases n with
      | zero => exact (same (mem_singleton.mp (by simpa using first)).symm).elim
      | succ n =>
        have later := (mem_cons.mp first).resolve_left fun equal => same equal.symm
        rw [filter_cons_of_pos (by simpa using same), filter_cons_of_pos (by simpa using same),
          take_succ_cons, ih nodup later]

theorem others_of_some {parent : Nat} (led : stop.parentEdge = some parent) :
    stop.others candidates = candidates.filter fun value => value.relationId ≠ parent := by
  unfold Stop.others
  rw [led]
  simp

theorem others_take_of_mem {left parent : Nat} (led : stop.parentEdge = some parent)
    (first : parent ∈ (incidentIds tables stop.ref).take (left + 1)) :
    stop.others ((incident tables stop.ref).take (left + 1)) = (stop.ahead tables).take left := by
  rw [← incident_ids] at first
  have nodup : ((incident tables stop.ref).map (·.relationId)).Nodup := incident_ids ▸ incidentIds_nodup
  unfold Stop.ahead
  rw [others_of_some led, others_of_some led]
  exact filter_take_of_mem nodup first

theorem others_take_of_not_mem {left : Nat}
    (hidden : ∀ parent, stop.parentEdge = some parent →
      parent ∉ (incidentIds tables stop.ref).take (left + 1)) :
    stop.others ((incident tables stop.ref).take (left + 1)) = (incident tables stop.ref).take (left + 1) := by
  refine filter_eq_self.mpr fun value mem => decide_eq_true fun led => ?_
  refine hidden _ led.symm ?_
  rw [← incident_ids, ← map_take]
  exact mem_map_of_mem mem

theorem others_take_of_le {left : Nat} (all : (stop.ahead tables).length ≤ left) :
    stop.others ((incident tables stop.ref).take (left + 1)) = stop.ahead tables := by
  by_cases first : ∃ parent, stop.parentEdge = some parent ∧
      parent ∈ (incidentIds tables stop.ref).take (left + 1)
  · obtain ⟨parent, led, first⟩ := first
    rw [others_take_of_mem led first, take_of_length_le all]
  · have window := others_take_of_not_mem fun parent led mem => first ⟨parent, led, mem⟩
    have split : stop.ahead tables = stop.others ((incident tables stop.ref).take (left + 1)) ++
        stop.others ((incident tables stop.ref).drop (left + 1)) := by
      unfold Stop.ahead Stop.others
      rw [← filter_append, take_append_drop]
    have short : (incident tables stop.ref).length ≤ left + 1 := by
      by_contra long
      rw [not_le] at long
      have filled := congrArg List.length window
      rw [length_take_of_le long.le] at filled
      rw [split, length_append, filled] at all
      omega
    rw [take_of_length_le short]
    rfl

theorem first_of_window {left : Nat} (more : left < (stop.ahead tables).length)
    (fits : (stop.others ((incident tables stop.ref).take (left + 1))).length ≤ left) :
    ∃ parent, stop.parentEdge = some parent ∧
      parent ∈ (incidentIds tables stop.ref).take (left + 1) := by
  by_contra hidden
  rw [others_take_of_not_mem fun parent led mem => hidden ⟨parent, led, mem⟩] at fits
  have bound : (stop.ahead tables).length ≤ (incident tables stop.ref).length :=
    length_filter_le _ _
  rw [length_take_of_le (by omega)] at fits
  omega

theorem ahead_nodup : ((stop.ahead tables).map (·.relationId)).Nodup :=
  (filter_sublist.map _).nodup (incident_ids ▸ incidentIds_nodup)

theorem mem_ahead : value ∈ stop.ahead tables ↔
    value ∈ incident tables stop.ref ∧ stop.parentEdge ≠ some value.relationId := by
  unfold Stop.ahead Stop.others
  rw [mem_filter, decide_eq_true_eq]
  exact and_congr_right fun _ => ne_comm

theorem Walk.Clean.ahead_new (clean : w.Clean tables env options root) (queued : stop ∈ w.queue)
    (mem : value ∈ stop.ahead tables) : value.relationId ∉ w.seenEdges := by
  obtain ⟨inside, other⟩ := mem_ahead.mp mem
  intro seen
  refine other (clean.tree stop queued _ seen ?_)
  rw [← incident_ids]
  exact mem_map_of_mem inside

theorem expand_eq (revisions : w.revisions = tables.revisions) :
    expand tables.legacy env options stop w = scan tables.legacy env options stop
      ((incident tables stop.ref).take (options.maxEdges - w.scanned + 1)) w := by
  unfold expand
  rw [revisions, adjacent_eq]

/-! ## The whole walk -/

theorem rounds_spent {n : Nat} (clean : w.Clean tables env options root)
    (spent : w.scanned = options.maxEdges) (fuel : w.queue.length ≤ n) :
    ((rounds tables.legacy env options n w).incomplete = false ↔
      ∀ next ∈ w.queue, (incidentIds tables next.ref).head? = next.parentEdge) ∧
    ((rounds tables.legacy env options n w).incomplete = false →
      rounds tables.legacy env options n w = { w with queue := [] }) := by
  have done (empty : w.queue = []) : (w.incomplete = false ↔
      ∀ next ∈ w.queue, (incidentIds tables next.ref).head? = next.parentEdge) ∧
        (w.incomplete = false → w = { w with queue := [] }) := by
    rw [empty]
    refine ⟨⟨fun _ next mem => ?_, fun _ => clean.down⟩, fun _ => ?_⟩
    · cases mem
    · rw [← empty]
  induction n generalizing w with
  | zero => exact done (length_eq_zero_iff.mp (Nat.le_zero.mp fuel))
  | succ n ih =>
    unfold rounds
    split
    next empty => exact done empty
    next stop queue front =>
      obtain ⟨clean', current⟩ := clean.pop front
      have turn : expand tables.legacy env options stop { w with queue } =
          scan tables.legacy env options stop ((incident tables stop.ref).take 1) { w with queue } := by
        rw [expand_eq clean'.revisions, show options.maxEdges - w.scanned + 1 = 1 by omega]
      have admits : Admits tables env options stop { w with queue }
          (stop.others ((incident tables stop.ref).take 1)) ↔
            stop.others ((incident tables stop.ref).take 1) = [] := by
        cases stop.others ((incident tables stop.ref).take 1) with
        | nil => simp [Admits]
        | cons value rest =>
          simp only [cons_ne_nil, iff_false]
          intro admits
          exact absurd admits.2.1 (by simp [spent])
      have alone : stop.others ((incident tables stop.ref).take 1) = [] ↔
          (incidentIds tables stop.ref).head? = stop.parentEdge := by
        rw [← incident_ids]
        cases heads : incident tables stop.ref with
        | nil =>
          cases led : stop.parentEdge with
          | none => simp [Stop.others]
          | some id =>
            obtain ⟨-, inside⟩ := clean.parent stop (front ▸ mem_cons_self) id led
            rw [← incident_ids, heads] at inside
            cases inside
        | cons value rest => simp [Stop.others]
      rw [turn, front, forall_mem_cons]
      by_cases empty : stop.others ((incident tables stop.ref).take 1) = []
      · rw [scan_admits (admits.mpr empty), empty, Walk.past_nil, and_iff_right (alone.mp empty)]
        rw [front, length_cons] at fuel
        refine @ih { w with queue } clean' spent (Nat.le_of_succ_le_succ fuel) fun none_ => ?_
        obtain rfl : queue = [] := none_
        refine ⟨⟨fun _ next mem => ?_, fun _ => clean.down⟩, fun _ => rfl⟩
        cases mem
      · have raised : (scan tables.legacy env options stop ((incident tables stop.ref).take 1)
            { w with queue }).incomplete = true := by
          by_contra flag
          exact empty (admits.mp ((scan_clean clean'.down).mp (Bool.eq_false_of_not_eq_true flag)))
        rw [rounds_incomplete raised]
        refine ⟨⟨fun flag => ?_, fun all => (empty (alone.mpr all.1)).elim⟩, fun flag => ?_⟩
        · cases flag
        · cases flag

/-- A resource seen is still to come, or all of its heads are seen. -/
def Expanded (tables : Tables) (w : Walk) : Prop :=
  ∀ x ∈ w.seenNodes, x ∈ w.queue.map (·.ref) ∨ ∀ id ∈ incidentIds tables x, id ∈ w.seenEdges

/-- Some head at a resource seen is not. -/
def Missing (tables : Tables) (w : Walk) : Prop :=
  ∃ x ∈ w.seenNodes, ∃ id ∈ incidentIds tables x, id ∉ w.seenEdges

/-- The edges from a place on are sent. -/
def SentFrom (tables : Tables) (env : Environment) (edges : List RelationProjection) (n : Nat) : Prop :=
  ∀ k edge, n ≤ k → edges[k]? = some edge → Sent tables env (edge, k)

theorem examine_edges : w.edges <+: (examine tables.legacy env options stop value w).edges := by
  by_cases passes : Passes tables.legacy env value
  · rw [examine_of_passes passes]
    unfold Walk.follow
    dsimp only
    split <;> exact prefix_append _ _
  · obtain ⟨revisions, edges, same, -, old | ⟨-, -, more⟩⟩ :=
      examine_of_not_passes options stop w passes
    · rw [same, old]
    · rw [same, more]
      exact prefix_append _ _

theorem scan_edges : w.edges <+: (scan tables.legacy env options stop candidates w).edges := by
  induction candidates generalizing w with
  | nil => exact prefix_rfl
  | cons value rest ih =>
    unfold scan
    split
    next => exact ih
    next =>
      split
      next => exact @ih { w with incomplete := true }
      next =>
        split
        next => exact prefix_rfl
        next => exact (examine_edges (w := w.count value)).trans ih

theorem rounds_edges {n : Nat} : w.edges <+: (rounds tables.legacy env options n w).edges := by
  induction n generalizing w with
  | zero => exact prefix_rfl
  | succ n ih =>
    unfold rounds
    split
    next => exact prefix_rfl
    next stop queue _ => exact (scan_edges (w := { w with queue })).trans ih

theorem sentFrom_split {edges before : List RelationProjection} {values : List StoredRelation} {n : Nat}
    (length : before.length = n)
    (prefix_ : (before ++ values.map fun value => projection value stop.ref) <+: edges) :
    SentFrom tables env edges n ↔
      (∀ i value, values[i]? = some value → Sent tables env (projection value stop.ref, n + i)) ∧
        SentFrom tables env edges (n + values.length) := by
  obtain ⟨after, rfl⟩ := prefix_
  have here (i : Nat) (within : i < values.length) :
      (before ++ values.map (fun value => projection value stop.ref) ++ after)[n + i]? =
        some (projection values[i] stop.ref) := by
    rw [getElem?_append_left (by simp; omega), getElem?_append_right (by omega), length,
      Nat.add_sub_cancel_left, getElem?_map, getElem?_eq_getElem within]
    rfl
  constructor
  · intro sent
    refine ⟨fun i value at_ => ?_, fun k edge low => sent k edge (by omega)⟩
    obtain ⟨within, rfl⟩ := List.getElem?_eq_some_iff.mp at_
    exact sent (n + i) _ (Nat.le_add_right n i) (here i within)
  · rintro ⟨first, later⟩ k edge low at_
    by_cases within : k < n + values.length
    · obtain ⟨i, rfl⟩ := Nat.exists_eq_add_of_le low
      have inside : i < values.length := by omega
      rw [here i inside] at at_
      obtain rfl := some.inj at_
      exact first i _ (getElem?_eq_getElem inside)
    · exact later k edge (by omega) at_

/-- The walk keeps its flag down, sends its edges from a place on, and misses a head. -/
def Loses (tables : Tables) (env : Environment) (n : Nat) (w : Walk) : Prop :=
  w.incomplete = false ∧ SentFrom tables env w.edges n ∧ Missing tables w

section Turn

variable {n : Nat} (clean : w.Clean tables env options root) (current : stop.Current tables root w)
  (unseen : ∀ value ∈ stop.ahead tables, value.relationId ∉ w.seenEdges)

include unseen in
theorem grows_ahead_iff {values : List StoredRelation}
    (sub : values.Sublist (stop.ahead tables)) (room : w.scanned + values.length ≤ options.maxEdges)
    (shallow : values ≠ [] → stop.depth < options.hops) :
    Grows tables env stop w.seenNodes w.scanned values ↔ Admits tables env options stop w values ∧
      ∀ i value, values[i]? = some value →
        Sent tables env (projection value stop.ref, w.scanned + i) :=
  grows_iff (fun _ mem => (mem_incident.mp (mem_ahead.mp (sub.subset mem)).1).1)
    (fun value mem => unseen value (sub.subset mem)) ((sub.map _).nodup ahead_nodup) room shallow

include clean in
theorem rounds_refused {window : List StoredRelation}
    (refused : ¬ Admits tables env options stop w (stop.others window)) :
    (rounds tables.legacy env options n
      (scan tables.legacy env options stop window w)).incomplete = true := by
  refine rounds_incomplete ?_
  by_contra flag
  exact refused ((scan_clean clean.down).mp (Bool.eq_false_of_not_eq_true flag))

include clean in
theorem sentFrom_past {values : List StoredRelation} :
    SentFrom tables env (rounds tables.legacy env options n (w.past stop values)).edges w.scanned ↔
      (∀ i value, values[i]? = some value →
        Sent tables env (projection value stop.ref, w.scanned + i)) ∧
      SentFrom tables env (rounds tables.legacy env options n (w.past stop values)).edges
        (w.scanned + values.length) := by
  have length : w.edges.length = w.scanned := by
    rw [← clean.scanned, ← clean.ids, length_map]
  refine sentFrom_split length ?_
  have edges : (w.past stop values).edges =
      w.edges ++ values.map fun value => projection value stop.ref := by
    rw [past_eq]
  exact edges ▸ rounds_edges

include clean unseen in
theorem turn_all (all : w.scanned + (stop.ahead tables).length ≤ options.maxEdges) :
    Loses tables env w.scanned (rounds tables.legacy env options n
      (expand tables.legacy env options stop w)) ↔
    Grows tables env stop w.seenNodes w.scanned (stop.ahead tables) ∧
      (stop.ahead tables ≠ [] → stop.depth < options.hops) ∧
      Loses tables env (w.scanned + (stop.ahead tables).length)
        (rounds tables.legacy env options n (w.past stop (stop.ahead tables))) := by
  have window := @others_take_of_le tables stop (options.maxEdges - w.scanned) (by omega)
  have grown := @grows_ahead_iff tables env options stop w unseen _ (List.Sublist.refl _) all
  rw [expand_eq clean.revisions]
  by_cases admits : Admits tables env options stop w (stop.ahead tables)
  · rw [scan_admits (window.symm ▸ admits), window, grown admits.shallow]
    unfold Loses
    rw [sentFrom_past clean]
    constructor
    · rintro ⟨flag, ⟨first, later⟩, missing⟩
      exact ⟨⟨admits, first⟩, admits.shallow, flag, later, missing⟩
    · rintro ⟨⟨-, first⟩, -, flag, later, missing⟩
      exact ⟨flag, ⟨first, later⟩, missing⟩
  · constructor
    · intro loses
      have flag := loses.1
      rw [rounds_refused clean (window.symm ▸ admits)] at flag
      cases flag
    · rintro ⟨grows, shallow, -⟩
      exact (admits ((grown shallow).mp grows).1).elim

include clean current unseen in
theorem turn_spent (budget : w.scanned ≤ options.maxEdges)
    (more : options.maxEdges - w.scanned < (stop.ahead tables).length)
    (fuel : w.queue.length + (options.maxEdges - w.scanned) ≤ n) :
    Loses tables env w.scanned (rounds tables.legacy env options n
      (expand tables.legacy env options stop w)) ↔
    (∃ parent, stop.parentEdge = some parent ∧
        parent ∈ (incidentIds tables stop.ref).take (options.maxEdges - w.scanned + 1)) ∧
      Grows tables env stop w.seenNodes w.scanned
        ((stop.ahead tables).take (options.maxEdges - w.scanned)) ∧
      (w.scanned < options.maxEdges → stop.depth < options.hops) ∧
      ∀ next ∈ w.queue ++ stop.nexts ((stop.ahead tables).take (options.maxEdges - w.scanned)),
        (incidentIds tables next.ref).head? = next.parentEdge := by
  have taken : ((stop.ahead tables).take (options.maxEdges - w.scanned)).length =
      options.maxEdges - w.scanned := length_take_of_le more.le
  have filled : (stop.ahead tables).take (options.maxEdges - w.scanned) ≠ [] ↔
      w.scanned < options.maxEdges := by
    rw [← length_pos_iff, taken]
    omega
  have grown (shallow : w.scanned < options.maxEdges → stop.depth < options.hops) :=
    @grows_ahead_iff tables env options stop w unseen _ (take_sublist _ _) (by rw [taken]; omega)
      fun some_ => shallow (filled.mp some_)
  rw [expand_eq clean.revisions]
  by_cases admits : Admits tables env options stop w
      (stop.others ((incident tables stop.ref).take (options.maxEdges - w.scanned + 1)))
  · have room := admits.room budget
    obtain ⟨parent, led, first⟩ := first_of_window more (by omega)
    have window := others_take_of_mem led first
    have turn := scan_admits admits
    rw [window] at admits turn
    have shallow : w.scanned < options.maxEdges → stop.depth < options.hops :=
      fun left => admits.shallow (filled.mpr left)
    have past_clean := clean.admits current
      (fun value mem => (mem_ahead.mp (mem_of_mem_take mem)).1) admits
    have spent := @rounds_spent tables env options _ root n past_clean (by
        rw [past_eq]
        change w.scanned + _ = options.maxEdges
        omega) (by
        rw [past_eq]
        rw [length_append, Stop.nexts, length_map, taken]
        exact fuel)
    have queue : (w.past stop ((stop.ahead tables).take (options.maxEdges - w.scanned))).queue =
        w.queue ++ stop.nexts ((stop.ahead tables).take (options.maxEdges - w.scanned)) := by
      rw [past_eq]
    have seenEdges : (w.past stop ((stop.ahead tables).take (options.maxEdges - w.scanned))).seenEdges =
        w.seenEdges ++ ((stop.ahead tables).take (options.maxEdges - w.scanned)).map (·.relationId) := by
      rw [past_eq]
    rw [turn]
    unfold Loses
    rw [sentFrom_past clean, ← queue]
    constructor
    · rintro ⟨flag, ⟨first', -⟩, -⟩
      exact ⟨⟨parent, led, first⟩, (grown shallow).mpr ⟨admits, first'⟩, shallow, spent.1.mp flag⟩
    · rintro ⟨-, grows, -, later⟩
      have flag := spent.1.mpr later
      have final := spent.2 flag
      refine ⟨flag, ⟨((grown shallow).mp grows).2, fun k edge low at_ => ?_⟩, ?_⟩
      · -- there is no edge behind the ones of this turn
        rw [final] at at_
        have within := (List.getElem?_eq_some_iff.mp at_).1
        rw [← length_map (·.relationId), past_clean.ids, past_clean.scanned, past_eq] at within
        exact absurd within (not_lt.mpr low)
      · -- the first head that the budget does not last for
        rw [final]
        obtain ⟨value, at_⟩ : ∃ value, (stop.ahead tables)[options.maxEdges - w.scanned]? = some value :=
          ⟨_, getElem?_eq_getElem more⟩
        have mem : value ∈ stop.ahead tables := mem_of_getElem? at_
        refine ⟨stop.ref, ?_, value.relationId, ?_, ?_⟩
        · change stop.ref ∈ (w.past stop _).seenNodes
          rw [past_eq]
          exact mem_append_left _ current.seen
        · rw [← incident_ids]
          exact mem_map_of_mem (mem_ahead.mp mem).1
        · change value.relationId ∉ (w.past stop _).seenEdges
          rw [seenEdges, mem_append, not_or]
          refine ⟨unseen value mem, fun twice => ?_⟩
          have ids := @ahead_nodup tables stop
          rw [← take_append_drop (options.maxEdges - w.scanned) (stop.ahead tables),
            map_append, nodup_append'] at ids
          refine ids.2.2 twice (mem_map_of_mem (mem_iff_getElem?.mpr ⟨0, ?_⟩))
          rw [getElem?_drop, Nat.add_zero, at_]
  · constructor
    · intro loses
      have flag := loses.1
      rw [rounds_refused clean admits] at flag
      cases flag
    · rintro ⟨⟨parent, led, first⟩, grows, shallow, -⟩
      rw [others_take_of_mem led first] at admits
      exact (admits ((grown shallow).mp grows).1).elim

end Turn

theorem Expanded.past (expanded : Expanded tables w) (clean : w.Clean tables env options root)
    {queue : List Stop} (front : w.queue = stop :: queue) :
    Expanded tables ({ w with queue }.past stop (stop.ahead tables)) := by
  rw [past_eq]
  intro x seen
  rw [map_append]
  rcases mem_append.mp seen with old | new
  · rcases expanded x old with queued | all
    · rw [front, map_cons, mem_cons] at queued
      rcases queued with rfl | later
      · refine .inr fun id inside => ?_
        by_cases led : stop.parentEdge = some id
        · exact mem_append_left _ (clean.parent stop (front ▸ mem_cons_self) id led).1
        · rw [← incident_ids] at inside
          obtain ⟨value, mem, rfl⟩ := mem_map.mp inside
          exact mem_append_right _ (mem_map_of_mem (mem_ahead.mpr ⟨mem, led⟩))
      · exact .inl (mem_append_left _ later)
    · exact .inr fun id inside => mem_append_left _ (all id inside)
  · obtain ⟨value, mem, rfl⟩ := mem_map.mp new
    refine .inl (mem_append_right _ ?_)
    unfold Stop.nexts
    rw [map_map]
    exact mem_map.mpr ⟨value, mem, rfl⟩

theorem loses_nothing (expanded : Expanded tables w) (empty : w.queue = []) :
    Loses tables env w.scanned w ↔ Overlooks tables env options w.seenNodes w.scanned w.queue := by
  rw [empty]
  constructor
  · rintro ⟨-, -, x, seen, id, inside, unseen⟩
    rcases expanded x seen with queued | all
    · rw [empty] at queued
      cases queued
    · exact (unseen (all id inside)).elim
  · intro overlooks
    cases overlooks

theorem overlooks_iff {n : Nat} (clean : w.Clean tables env options root) (expanded : Expanded tables w)
    (budget : w.scanned ≤ options.maxEdges)
    (fuel : w.queue.length + (options.maxEdges - w.scanned) ≤ n) :
    Loses tables env w.scanned (rounds tables.legacy env options n w) ↔
      Overlooks tables env options w.seenNodes w.scanned w.queue := by
  induction n generalizing w with
  | zero => exact loses_nothing expanded (length_eq_zero_iff.mp (by omega))
  | succ n ih =>
    unfold rounds
    split
    next empty => exact loses_nothing expanded empty
    next stop queue front =>
      obtain ⟨clean', current⟩ := clean.pop front
      have unseen (value : StoredRelation) (mem : value ∈ stop.ahead tables) :
          value.relationId ∉ w.seenEdges := clean.ahead_new (front ▸ mem_cons_self) mem
      rw [front, length_cons] at fuel
      rw [front]
      by_cases all : (stop.ahead tables).length ≤ options.maxEdges - w.scanned
      · have next (grows : Grows tables env stop w.seenNodes w.scanned (stop.ahead tables))
            (shallow : stop.ahead tables ≠ [] → stop.depth < options.hops) :
            Loses tables env (w.scanned + (stop.ahead tables).length) (rounds tables.legacy env options n
              ({ w with queue }.past stop (stop.ahead tables))) ↔
            Overlooks tables env options
              (w.seenNodes ++ (stop.ahead tables).map fun value => value.other stop.ref)
              (w.scanned + (stop.ahead tables).length) (queue ++ stop.nexts (stop.ahead tables)) := by
          obtain ⟨admits, -⟩ := (grows_ahead_iff (w := { w with queue }) unseen (List.Sublist.refl _)
            (by dsimp only; omega) shallow).mp grows
          have past := clean'.admits current (fun value mem => (mem_ahead.mp mem).1) admits
          have later := ih past (expanded.past clean front) (by rw [past_eq]; dsimp only; omega)
            (by
              rw [past_eq]
              dsimp only
              rw [length_append, Stop.nexts, length_map]
              omega)
          rw [past_eq] at later ⊢
          exact later
        rw [turn_all clean' unseen (by dsimp only; omega)]
        constructor
        · rintro ⟨grows, shallow, loses⟩
          exact .there all grows shallow ((next grows shallow).mp loses)
        · intro overlooks
          cases overlooks with
          | here more => omega
          | there _ grows shallow rest => exact ⟨grows, shallow, (next grows shallow).mpr rest⟩
      · rw [turn_spent clean' current unseen budget (by dsimp only; omega) (by dsimp only; omega)]
        constructor
        · rintro ⟨⟨parent, led, first⟩, grows, shallow, later⟩
          exact .here (by omega) led first grows shallow later
        · intro overlooks
          cases overlooks with
          | here more led first grows shallow later => exact ⟨⟨_, led, first⟩, grows, shallow, later⟩
          | there fits => omega

theorem Walk.Clean.rounds {n : Nat} (clean : w.Clean tables env options root)
    (flag : (rounds tables.legacy env options n w).incomplete = false) :
    (rounds tables.legacy env options n w).Clean tables env options root := by
  induction n generalizing w with
  | zero => exact clean
  | succ n ih =>
    unfold Relations.rounds at flag ⊢
    split at flag
    next => exact clean
    next stop queue front =>
      obtain ⟨clean', current⟩ := clean.pop front
      have turn := @expand_eq tables env options stop { w with queue } clean'.revisions
      have down : (expand tables.legacy env options stop { w with queue }).incomplete = false := by
        by_contra raised
        rw [rounds_incomplete (Bool.eq_true_of_not_eq_false raised)] at flag
        cases flag
      refine ih ?_ flag
      rw [turn] at down ⊢
      have admits := (scan_clean clean'.down).mp down
      rw [scan_admits admits]
      refine clean'.admits current (fun value mem => ?_) admits
      exact mem_of_mem_take (mem_filter.mp mem).1

theorem scan_measure : (scan tables.legacy env options stop candidates w).queue.length +
      (options.maxEdges - (scan tables.legacy env options stop candidates w).scanned) ≤
    w.queue.length + (options.maxEdges - w.scanned) := by
  induction candidates generalizing w with
  | nil => exact le_rfl
  | cons value rest ih =>
    have examined : (examine tables.legacy env options stop value (w.count value)).queue.length ≤
        w.queue.length + 1 ∧
          (examine tables.legacy env options stop value (w.count value)).scanned = w.scanned + 1 := by
      unfold examine Walk.follow Walk.count
      grind
    unfold scan
    split_ifs
    · exact ih
    · exact @ih { w with incomplete := true }
    · exact le_rfl
    · refine ih.trans ?_
      omega

theorem rounds_finished {n : Nat} (fuel : w.queue.length + (options.maxEdges - w.scanned) ≤ n) :
    (rounds tables.legacy env options n w).queue = [] := by
  induction n generalizing w with
  | zero =>
    have empty : w.queue.length = 0 := by omega
    exact length_eq_zero_iff.mp empty
  | succ n ih =>
    unfold rounds
    split
    next empty => exact empty
    next stop queue front =>
      rw [front, length_cons] at fuel
      have measure_ := @scan_measure tables env options stop { w with queue }
        (adjacent tables.legacy w.revisions stop.ref (options.maxEdges - w.scanned + 1))
      refine ih (measure_.trans ?_)
      dsimp only
      omega

end Slide.Relations
