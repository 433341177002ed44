import Slide.Relations.GraphReach

/-!
# A walk that misses nothing it looks at

A walk whose flag is still down has found facts only, and each has led it to a new resource: it has walked
a tree.  `Walk.Clean` collects what follows; `scan_clean` says when a loop over candidates keeps the flag
down.
-/

namespace Slide.Relations

open Slide.Resources List

variable {tables : Tables} {env : Environment} {options : GraphOptions} {stop : Stop}
  {value : StoredRelation} {w : Walk} {id : Nat} {ref root x : ResourceRef}
  {candidates : List StoredRelation}

/-! ## The heads at a resource -/

/-- The ids that `adjacent` lists, without a limit. -/
def incidentIds (tables : Tables) (ref : ResourceRef) : List Nat :=
  let heads := tables.revisions.filter fun r =>
    r.touches ref && !tables.revisions.any fun n => n.relationId = r.relationId && r.version < n.version
  let old := tables.legacy.rows.filter fun row =>
    row.relation.touches ref && !tables.revisions.any (·.relationId = row.id)
  (heads.map (·.relationId) ++ old.map (·.id)).insertionSort (· ≤ ·)

def incident (tables : Tables) (ref : ResourceRef) : List StoredRelation :=
  (incidentIds tables ref).filterMap (head tables.legacy tables.revisions)

theorem head_of_latest (mem : value ∈ tables.revisions)
    (latest : ∀ n ∈ tables.revisions, n.relationId = value.relationId → n.version ≤ value.version) :
    head tables.legacy tables.revisions value.relationId = some value := by
  have listed : value ∈ Versioned.versionsOf (·.relationId) tables.revisions value.relationId :=
    Versioned.mem_versionsOf.mpr ⟨mem, rfl⟩
  unfold head
  cases found : Versioned.head (·.relationId) (·.version) tables.revisions value.relationId with
  | none =>
    rw [Versioned.head_eq_none.mp found] at listed
    cases listed
  | some current =>
    obtain ⟨inside, same⟩ := Versioned.mem_of_head found
    have most : value.version ≤ current.version := le_of_mem_argmax listed found
    have equal : current = value := inj_on_of_nodup_map tables.keyed inside mem
      (Prod.ext same (le_antisymm (latest current inside same) most))
    rw [equal]

theorem mem_incidentIds : id ∈ incidentIds tables ref ↔
    ∃ value, head tables.legacy tables.revisions id = some value ∧ value.touches ref = true := by
  unfold incidentIds
  dsimp only
  rw [(perm_insertionSort _ _).mem_iff, mem_append, mem_map, mem_map]
  simp only [mem_filter, Bool.and_eq_true, Bool.not_eq_true', any_eq_false, decide_eq_true_eq]
  constructor
  · rintro (⟨value, ⟨mem, touches, latest⟩, rfl⟩ | ⟨row, ⟨mem, touches, alone⟩, rfl⟩)
    · exact ⟨value, head_of_latest mem fun n inside same =>
        not_lt.mp fun later => latest n inside ⟨same, later⟩, touches⟩
    · refine ⟨row.relation, ?_, touches⟩
      have none_ : Versioned.head (·.relationId) (·.version) tables.revisions row.id = none := by
        rw [Versioned.head_eq_none, Versioned.versionsOf, filter_eq_nil_iff]
        intro r inside
        simpa using alone r inside
      unfold head
      rw [none_]
      have found : tables.legacy.rows.find? (·.id = row.id) = some row := by
        cases found : tables.legacy.rows.find? (·.id = row.id) with
        | none => exact absurd (decide_eq_true rfl) (find?_eq_none.mp found row mem)
        | some other =>
          have same := of_decide_eq_true (find?_some (p := fun r : LegacyRow => r.id = row.id) found)
          rw [inj_on_of_nodup_map tables.legacy.distinct (mem_of_find?_eq_some found) mem same]
      rw [found]
      rfl
  · rintro ⟨value, found, touches⟩
    unfold head at found
    split at found
    next current latest =>
      obtain rfl := some.inj found
      obtain ⟨mem, same⟩ := Versioned.mem_of_head latest
      refine .inl ⟨current, ⟨mem, touches, fun n inside newer => ?_⟩, same⟩
      have most : n.version ≤ current.version := le_of_mem_argmax
        (Versioned.mem_versionsOf.mpr ⟨inside, newer.1.trans same⟩) latest
      omega
    next none_ =>
      obtain ⟨row, listed, rfl⟩ := Option.map_eq_some_iff.mp found
      have same := of_decide_eq_true (find?_some (p := fun r : LegacyRow => r.id = id) listed)
      refine .inr ⟨row, ⟨mem_of_find?_eq_some listed, touches, fun r inside equal => ?_⟩, same⟩
      have mem : r ∈ Versioned.versionsOf (·.relationId) tables.revisions id :=
        Versioned.mem_versionsOf.mpr ⟨inside, equal.trans same⟩
      rw [Versioned.head_eq_none.mp none_] at mem
      cases mem

theorem incidentIds_nodup : (incidentIds tables ref).Nodup := by
  unfold incidentIds
  dsimp only
  rw [(perm_insertionSort _ _).nodup_iff, nodup_append']
  refine ⟨?_, ?_, ?_⟩
  · refine List.Nodup.map_on (fun a memA b memB same => ?_) (List.Nodup.filter _ (.of_map _ tables.keyed))
    simp only [mem_filter, Bool.and_eq_true, Bool.not_eq_true', any_eq_false,
      decide_eq_true_eq, not_and, not_lt] at memA memB
    exact inj_on_of_nodup_map tables.keyed memA.1 memB.1
      (Prod.ext same (le_antisymm (memB.2.2 a memA.1 same) (memA.2.2 b memB.1 same.symm)))
  · exact (filter_sublist.map _).nodup tables.legacy.distinct
  · intro id new old
    obtain ⟨r, inside, rfl⟩ := mem_map.mp new
    obtain ⟨row, listed, same⟩ := mem_map.mp old
    have alone := (mem_filter.mp listed).2
    rw [Bool.and_eq_true, Bool.not_eq_true', any_eq_false] at alone
    exact alone.2 r (mem_filter.mp inside).1 (decide_eq_true same.symm)

theorem incident_ids : (incident tables ref).map (·.relationId) = incidentIds tables ref := by
  have all (id : Nat) (mem : id ∈ incidentIds tables ref) :
      (head tables.legacy tables.revisions id).map (·.relationId) = some id := by
    obtain ⟨value, found, -⟩ := mem_incidentIds.mp mem
    rw [found, Option.map_some, head_id found]
  unfold incident
  rw [map_filterMap, filterMap_congr all]
  exact filterMap_some

theorem mem_incident : value ∈ incident tables ref ↔
    head tables.legacy tables.revisions value.relationId = some value ∧ value.touches ref = true := by
  unfold incident
  rw [mem_filterMap]
  constructor
  · rintro ⟨id, mem, found⟩
    obtain ⟨other, found', touches⟩ := mem_incidentIds.mp mem
    obtain rfl := some.inj (found.symm.trans found')
    rw [head_id found]
    exact ⟨found, touches⟩
  · rintro ⟨found, touches⟩
    exact ⟨_, mem_incidentIds.mpr ⟨value, found, touches⟩, found⟩

theorem adjacent_eq (limit : Nat) : adjacent tables.legacy tables.revisions ref limit =
    (incident tables ref).take limit := by
  have cut (ids : List Nat) (all : ∀ id ∈ ids, ∃ value,
      head tables.legacy tables.revisions id = some value) (limit : Nat) :
      (ids.take limit).filterMap (head tables.legacy tables.revisions) =
        (ids.filterMap (head tables.legacy tables.revisions)).take limit := by
    induction ids generalizing limit with
    | nil => simp
    | cons id rest ih =>
      obtain ⟨⟨value, found⟩, others⟩ := forall_mem_cons.mp all
      cases limit with
      | zero => simp
      | succ limit => simp [found, ih others]
  exact cut (incidentIds tables ref) (fun id mem => (mem_incidentIds.mp mem).imp fun _ => And.left) limit

/-! ## One stop -/

/-- The walk after a candidate that is a fact and leads to a new resource. -/
def Walk.accept (w : Walk) (stop : Stop) (value : StoredRelation) : Walk :=
  { w with
    scanned := w.scanned + 1
    seenNodes := w.seenNodes ++ [value.other stop.ref]
    seenEdges := w.seenEdges ++ [value.relationId]
    edges := w.edges ++ [projection value stop.ref]
    queue := w.queue ++ [⟨value.other stop.ref, stop.depth + 1, some value.relationId⟩] }

/-- The candidates are new facts that lead to new resources, and the budget lasts. -/
def Admits (tables : Tables) (env : Environment) (options : GraphOptions) (stop : Stop) :
    Walk → List StoredRelation → Prop
  | _, [] => True
  | w, value :: rest => value.relationId ∉ w.seenEdges ∧ w.scanned < options.maxEdges ∧
    stop.depth < options.hops ∧ Passes tables.legacy env value ∧ value.other stop.ref ∉ w.seenNodes ∧
    Admits tables env options stop (w.accept stop value) rest

theorem examine_incomplete (flag : w.incomplete = true) :
    (examine tables.legacy env options stop value w).incomplete = true := by
  by_cases passes : Passes tables.legacy env value
  · rw [examine_of_passes passes]
    unfold Walk.follow
    dsimp only
    split
    next => rfl
    next => exact flag
  · obtain ⟨revisions, edges, same, -⟩ :=
      examine_of_not_passes options stop w passes
    rw [same]

theorem scan_incomplete (flag : w.incomplete = true) :
    (scan tables.legacy env options stop candidates w).incomplete = true := by
  induction candidates generalizing w with
  | nil => exact flag
  | cons value rest ih =>
    unfold scan
    split
    next => exact ih flag
    next =>
      split
      next => exact ih rfl
      next =>
        split
        next => rfl
        next => exact ih (examine_incomplete flag)

theorem rounds_incomplete {n : Nat} (flag : w.incomplete = true) :
    (rounds tables.legacy env options n w).incomplete = true := by
  induction n generalizing w with
  | zero => exact flag
  | succ n ih =>
    unfold rounds
    split
    next => exact flag
    next => exact ih (scan_incomplete flag)

theorem examine_complete
    (flag : (examine tables.legacy env options stop value (w.count value)).incomplete = false) :
    Passes tables.legacy env value ∧ value.other stop.ref ∉ w.seenNodes := by
  by_cases passes : Passes tables.legacy env value
  · refine ⟨passes, fun old => ?_⟩
    rw [examine_of_passes passes] at flag
    unfold Walk.follow at flag
    dsimp only at flag
    rw [if_pos (show value.other stop.ref ∈ (w.count value).seenNodes from old)] at flag
    cases flag
  · obtain ⟨revisions, edges, same, -⟩ :=
      examine_of_not_passes options stop (w.count value) passes
    rw [same] at flag
    cases flag

theorem examine_accept (passes : Passes tables.legacy env value)
    (fresh : value.other stop.ref ∉ w.seenNodes) :
    examine tables.legacy env options stop value (w.count value) = w.accept stop value := by
  rw [examine_of_passes passes]
  unfold Walk.follow
  dsimp only
  rw [if_neg (show value.other stop.ref ∉ (w.count value).seenNodes from fresh)]
  rfl

/-- The candidates but for the edge that led to the stop. -/
def Stop.others (stop : Stop) (candidates : List StoredRelation) : List StoredRelation :=
  candidates.filter fun value => some value.relationId ≠ stop.parentEdge

/-- The walk after candidates that are all admitted. -/
def Walk.past (w : Walk) (stop : Stop) (values : List StoredRelation) : Walk :=
  values.foldl (fun w value => w.accept stop value) w

theorem Walk.past_nil : w.past stop [] = w := rfl

theorem scan_admits (admits : Admits tables env options stop w (stop.others candidates)) :
    scan tables.legacy env options stop candidates w = w.past stop (stop.others candidates) := by
  induction candidates generalizing w with
  | nil => rfl
  | cons value rest ih =>
    unfold scan
    by_cases parent : some value.relationId = stop.parentEdge
    · have skipped : stop.others (value :: rest) = stop.others rest :=
        filter_cons_of_neg (by simpa using parent)
      rw [if_pos parent, skipped]
      rw [skipped] at admits
      exact ih admits
    · have kept : stop.others (value :: rest) = value :: stop.others rest :=
        filter_cons_of_pos (by simpa using parent)
      rw [kept] at admits ⊢
      obtain ⟨new, room, shallow, passes, fresh, later⟩ := admits
      rw [if_neg parent, if_neg new, if_neg (by omega), examine_accept passes fresh]
      exact ih later

theorem scan_clean (down : w.incomplete = false) :
    (scan tables.legacy env options stop candidates w).incomplete = false ↔
      Admits tables env options stop w (stop.others candidates) := by
  constructor
  · intro flag
    induction candidates generalizing w with
    | nil => trivial
    | cons value rest ih =>
      unfold scan at flag
      by_cases parent : some value.relationId = stop.parentEdge
      · have skipped : stop.others (value :: rest) = stop.others rest :=
          filter_cons_of_neg (by simpa using parent)
        rw [if_pos parent] at flag
        rw [skipped]
        exact ih down flag
      · have kept : stop.others (value :: rest) = value :: stop.others rest :=
          filter_cons_of_pos (by simpa using parent)
        rw [kept]
        rw [if_neg parent] at flag
        by_cases old : value.relationId ∈ w.seenEdges
        · rw [if_pos old, scan_incomplete rfl] at flag
          cases flag
        · rw [if_neg old] at flag
          by_cases spent : options.maxEdges ≤ w.scanned ∨ options.hops ≤ stop.depth
          · rw [if_pos spent] at flag
            cases flag
          · rw [if_neg spent] at flag
            rw [not_or, not_le, not_le] at spent
            have examined :
                (examine tables.legacy env options stop value (w.count value)).incomplete = false := by
              by_contra raised
              rw [scan_incomplete (Bool.eq_true_of_not_eq_false raised)] at flag
              cases flag
            obtain ⟨passes, fresh⟩ := examine_complete examined
            rw [examine_accept passes fresh] at flag
            exact ⟨old, spent.1, spent.2, passes, fresh, ih down flag⟩
  · intro admits
    rw [scan_admits admits]
    clear admits
    generalize stop.others candidates = others
    induction others generalizing w with
    | nil => exact down
    | cons value rest ih => exact ih down

/-! ## The tree -/

/-- What a walk whose flag is down has walked. -/
structure Walk.Clean (tables : Tables) (env : Environment) (options : GraphOptions) (root : ResourceRef)
    (w : Walk) : Prop where
  down : w.incomplete = false
  revisions : w.revisions = tables.revisions
  ids : w.edges.map (·.relationId) = w.seenEdges
  scanned : w.seenEdges.length = w.scanned
  nodes : w.seenNodes.Nodup
  rooted : root ∈ w.seenNodes
  refs : (w.queue.map (·.ref)).Nodup
  queued : ∀ stop ∈ w.queue, stop.ref ∈ w.seenNodes
  ends : ∀ id ∈ w.seenEdges, ∃ value, head tables.legacy tables.revisions id = some value ∧
    value.source ∈ w.seenNodes ∧ value.target ∈ w.seenNodes
  tree : ∀ stop ∈ w.queue, ∀ id ∈ w.seenEdges, id ∈ incidentIds tables stop.ref →
    stop.parentEdge = some id
  parent : ∀ stop ∈ w.queue, ∀ id, stop.parentEdge = some id →
    id ∈ w.seenEdges ∧ id ∈ incidentIds tables stop.ref
  depths : ∀ stop ∈ w.queue, Within w.edges root stop.depth stop.ref
  reached : ∀ x ∈ w.seenNodes, ∃ k, Within w.edges root k x
  near : ∀ edge ∈ w.edges, ∃ k < options.hops, ∃ x, Within w.edges root k x ∧ edge.touches x = true
  facts : ∀ edge ∈ w.edges, ∃ value ref, edge = projection value ref ∧ Passes tables.legacy env value ∧
    head tables.legacy tables.revisions edge.relationId = some value

theorem Within.mono {edges more : List RelationProjection} {k : Nat} (within : Within edges root k x)
    (sub : ∀ edge ∈ edges, edge ∈ more) : Within more root k x := by
  induction within with
  | root => exact .root
  | step _ mem joins ih => exact .step ih (sub _ mem) joins

theorem touches_iff : value.touches ref = true ↔ value.source = ref ∨ value.target = ref := by
  unfold StoredRelation.touches
  rw [Bool.or_eq_true, decide_eq_true_eq, decide_eq_true_eq]

theorem ends_of_touches (touches : value.touches ref = true) :
    value.source = ref ∧ value.target = value.other ref ∨
      value.target = ref ∧ value.source = value.other ref := by
  unfold StoredRelation.other
  rcases touches_iff.mp touches with source | target
  · rw [if_pos source]
    exact .inl ⟨source, rfl⟩
  · by_cases source : value.source = ref
    · rw [if_pos source]
      exact .inl ⟨source, rfl⟩
    · rw [if_neg source]
      exact .inr ⟨target, rfl⟩

theorem projection_joins (touches : value.touches ref = true) :
    (projection value ref).Joins ref (value.other ref) := by
  unfold projection RelationProjection.Joins
  dsimp only
  rcases ends_of_touches touches with ⟨near, far⟩ | ⟨near, far⟩
  · split
    next turned => exact .inl ⟨turned.2, by rw [near, ← far, turned.2]⟩
    next => exact .inl ⟨near, far⟩
  · split
    next => exact .inl ⟨near, far⟩
    next => exact .inr ⟨far, near⟩

theorem Walk.Clean.start (tables : Tables) (env : Environment) (options : GraphOptions)
    (root : ResourceRef) : (Walk.start tables.revisions root).Clean tables env options root where
  down := rfl
  revisions := rfl
  ids := rfl
  scanned := rfl
  nodes := nodup_singleton root
  rooted := mem_cons_self
  refs := nodup_singleton root
  queued stop mem := by
    obtain rfl := mem_singleton.mp mem
    exact mem_cons_self
  ends id mem := by cases mem
  tree stop _ id mem := by cases mem
  parent stop mem id led := by
    obtain rfl := mem_singleton.mp mem
    cases led
  depths stop mem := by
    obtain rfl := mem_singleton.mp mem
    exact .root
  reached x mem := by
    obtain rfl := mem_singleton.mp mem
    exact ⟨0, .root⟩
  near edge mem := by cases mem
  facts edge mem := by cases mem

/-- The stop that a turn of the loop has taken off the queue. -/
structure Stop.Current (tables : Tables) (root : ResourceRef) (stop : Stop) (w : Walk) : Prop where
  seen : stop.ref ∈ w.seenNodes
  off : stop.ref ∉ w.queue.map (·.ref)
  depth : Within w.edges root stop.depth stop.ref

theorem Walk.Clean.pop {queue : List Stop} (clean : w.Clean tables env options root)
    (front : w.queue = stop :: queue) :
    { w with queue }.Clean tables env options root ∧ stop.Current tables root { w with queue } := by
  have sub (s : Stop) (mem : s ∈ queue) : s ∈ w.queue := front ▸ mem_cons_of_mem _ mem
  have head_ : stop ∈ w.queue := front ▸ mem_cons_self
  have refs := clean.refs
  rw [front, map_cons, nodup_cons] at refs
  refine ⟨{ clean with refs := refs.2
                       queued := fun s mem => clean.queued s (sub s mem)
                       tree := fun s mem => clean.tree s (sub s mem)
                       parent := fun s mem => clean.parent s (sub s mem)
                       depths := fun s mem => clean.depths s (sub s mem) },
    clean.queued stop head_, refs.1, clean.depths stop head_⟩

theorem Walk.Clean.accept (clean : w.Clean tables env options root) (current : stop.Current tables root w)
    (mem : value ∈ incident tables stop.ref) (shallow : stop.depth < options.hops)
    (passes : Passes tables.legacy env value) (fresh : value.other stop.ref ∉ w.seenNodes) :
    (w.accept stop value).Clean tables env options root ∧
      stop.Current tables root (w.accept stop value) := by
  obtain ⟨found, touches⟩ := mem_incident.mp mem
  have sub (edge : RelationProjection) (mem : edge ∈ w.edges) : edge ∈ (w.accept stop value).edges :=
    mem_append_left _ mem
  have old (y : ResourceRef) (mem : y ∈ w.seenNodes) : y ∈ (w.accept stop value).seenNodes :=
    mem_append_left _ mem
  have new : value.other stop.ref ∈ (w.accept stop value).seenNodes :=
    mem_append_right _ mem_cons_self
  have apart : stop.ref ≠ value.other stop.ref := fun same => fresh (same ▸ current.seen)
  have here := current.depth.mono sub
  have last : projection value stop.ref ∈ (w.accept stop value).edges :=
    mem_append_right _ mem_cons_self
  have there : Within (w.accept stop value).edges root (stop.depth + 1) (value.other stop.ref) :=
    .step here last (projection_joins touches)
  have both : value.source ∈ (w.accept stop value).seenNodes ∧
      value.target ∈ (w.accept stop value).seenNodes := by
    rcases ends_of_touches touches with ⟨near, far⟩ | ⟨near, far⟩
    · exact ⟨near ▸ old _ current.seen, far ▸ new⟩
    · exact ⟨far ▸ new, near ▸ old _ current.seen⟩
  -- the new head touches its two ends only
  have only (y : ResourceRef) (touched : value.relationId ∈ incidentIds tables y) :
      y = stop.ref ∨ y = value.other stop.ref := by
    obtain ⟨other, found', touches'⟩ := mem_incidentIds.mp touched
    obtain rfl := some.inj (found.symm.trans found')
    rcases ends_of_touches touches with ⟨near, far⟩ | ⟨near, far⟩ <;>
      rcases touches_iff.mp touches' with first | second <;> simp_all
  refine ⟨⟨clean.down, clean.revisions, ?_, ?_, ?_, old _ clean.rooted, ?_, ?_, ?_, ?_, ?_, ?_, ?_, ?_, ?_⟩,
    old _ current.seen, ?_, here⟩
  · change (w.edges ++ [_]).map _ = w.seenEdges ++ [_]
    rw [map_append, clean.ids]
    rfl
  · change (w.seenEdges ++ [_]).length = w.scanned + 1
    rw [length_append, clean.scanned]
    rfl
  · exact nodup_append'.mpr ⟨clean.nodes, nodup_singleton _, disjoint_singleton.mpr fresh⟩
  · change ((w.queue ++ [_]).map _).Nodup
    rw [map_append]
    refine nodup_append'.mpr ⟨clean.refs, nodup_singleton _, disjoint_singleton.mpr ?_⟩
    intro inside
    obtain ⟨s, queued, same⟩ := mem_map.mp inside
    exact fresh ((show s.ref = value.other stop.ref from same) ▸ clean.queued s queued)
  · intro s queued
    rcases mem_append.mp queued with before | added
    · exact old _ (clean.queued s before)
    · obtain rfl := mem_singleton.mp added
      exact new
  · intro id seen
    rcases mem_append.mp seen with before | added
    · obtain ⟨other, found', source, target⟩ := clean.ends id before
      exact ⟨other, found', old _ source, old _ target⟩
    · obtain rfl := mem_singleton.mp added
      exact ⟨value, found, both⟩
  · intro s queued id seen touched
    rcases mem_append.mp queued with before | added
    · rcases mem_append.mp seen with id_old | id_new
      · exact clean.tree s before id id_old touched
      · obtain rfl := mem_singleton.mp id_new
        rcases only s.ref touched with same | same
        · exact (current.off (same ▸ mem_map_of_mem before)).elim
        · exact (fresh (same ▸ clean.queued s before)).elim
    · obtain rfl := mem_singleton.mp added
      rcases mem_append.mp seen with id_old | id_new
      · obtain ⟨other, found', source, target⟩ := clean.ends id id_old
        obtain ⟨other', found'', touches'⟩ := mem_incidentIds.mp touched
        obtain rfl := some.inj (found'.symm.trans found'')
        rcases touches_iff.mp touches' with same | same
        · exact (fresh ((show other.source = value.other stop.ref from same) ▸ source)).elim
        · exact (fresh ((show other.target = value.other stop.ref from same) ▸ target)).elim
      · exact congrArg some (mem_singleton.mp id_new).symm
  · intro s queued id led
    rcases mem_append.mp queued with before | added
    · obtain ⟨seen, touched⟩ := clean.parent s before id led
      exact ⟨mem_append_left _ seen, touched⟩
    · obtain rfl := mem_singleton.mp added
      obtain rfl := some.inj led
      refine ⟨mem_append_right _ mem_cons_self, mem_incidentIds.mpr ⟨value, found, ?_⟩⟩
      rcases ends_of_touches touches with ⟨-, far⟩ | ⟨-, far⟩
      · exact touches_iff.mpr (.inr far)
      · exact touches_iff.mpr (.inl far)
  · intro s queued
    rcases mem_append.mp queued with before | added
    · exact (clean.depths s before).mono sub
    · obtain rfl := mem_singleton.mp added
      exact there
  · intro y seen
    rcases mem_append.mp seen with before | added
    · exact (clean.reached y before).imp fun _ within => within.mono sub
    · obtain rfl := mem_singleton.mp added
      exact ⟨_, there⟩
  · intro edge inside
    rcases mem_append.mp inside with before | added
    · obtain ⟨k, less, y, within, touched⟩ := clean.near edge before
      exact ⟨k, less, y, within.mono sub, touched⟩
    · obtain rfl := mem_singleton.mp added
      exact ⟨stop.depth, shallow, stop.ref, here, (projection_joins touches).touches⟩
  · intro edge inside
    rcases mem_append.mp inside with before | added
    · exact clean.facts edge before
    · obtain rfl := mem_singleton.mp added
      exact ⟨value, stop.ref, rfl, passes, found⟩
  · change stop.ref ∉ (w.queue ++ [_]).map _
    rw [map_append, mem_append, not_or]
    exact ⟨current.off, fun same => apart (mem_singleton.mp same)⟩

end Slide.Relations
