import Slide.Relations.Exclusion
import Slide.Relations.Graph

/-!
# What the walk returns

`Walk.Sound` is what the walk keeps whether or not it is complete: its edges are heads that were facts
when they were read (or suggestions, where these are asked for), no edge comes twice, and there are no
more than the budget.
-/

namespace Slide.Relations

open Slide.Resources List

/-- A head that the walk takes for a fact. -/
structure Passes (legacy : Legacy) (env : Environment) (value : StoredRelation) : Prop where
  readable : env.readable value.source = true ∧ env.readable value.target = true
  confirmed : value.state = .confirmed
  lasting : value.lapsed env.now = false
  window : inWindow value env.now = true
  source : legacyValidity legacy value env.now = true
  proven : value.content.evidence ≠ []
  checked : env.evidence value env.now = .valid

/-- A head that is listed as a suggestion. -/
structure Suggests (env : Environment) (options : GraphOptions) (value : StoredRelation) : Prop where
  readable : env.readable value.source = true ∧ env.readable value.target = true
  asked : options.factsOnly = false
  suggested : value.state = .suggested
  window : inWindow value env.now = true

variable {legacy : Legacy} {tables : Tables} {env : Environment} {options : GraphOptions} {stop : Stop}
  {value : StoredRelation} {w : Walk} {revisions : List StoredRelation} {id : Nat} {ref : ResourceRef}

/-! ## Heads -/

theorem head_id (found : head legacy revisions id = some value) : value.relationId = id :=
  (head_known found).2

theorem head_append_of_ne {row : StoredRelation} (other : row.relationId ≠ id) :
    head legacy (revisions ++ [row]) id = head legacy revisions id := by
  have same : Versioned.head (·.relationId) (·.version) (revisions ++ [row]) id =
      Versioned.head (·.relationId) (·.version) revisions id := by
    unfold Versioned.head
    rw [show Versioned.versionsOf (·.relationId) (revisions ++ [row]) id =
      Versioned.versionsOf (·.relationId) revisions id from Versioned.versionsOf_snoc_of_ne other]
  unfold head
  rw [same]

theorem head_expireHead_of_ne {expired : Bool} (other : value.relationId ≠ id) :
    head legacy (expireHead legacy revisions value expired) id = head legacy revisions id := by
  unfold expireHead
  split
  next => rfl
  next current found =>
    split
    next => exact head_append_of_ne fun same => other ((head_id found).symm.trans same)
    next => rfl

theorem mem_adjacent {limit : Nat} (mem : value ∈ adjacent legacy revisions ref limit) :
    head legacy revisions value.relationId = some value := by
  obtain ⟨id, -, found⟩ := mem_filterMap.mp mem
  rw [head_id found]
  exact found

/-! ## One candidate -/

theorem examine_of_passes (passes : Passes legacy env value) :
    examine legacy env options stop value w = w.follow stop value := by
  have live : ¬ (value.state = .confirmed ∧ value.lapsed env.now = true) := by
    rw [passes.lasting]
    exact fun both => Bool.false_ne_true both.2
  have inside : ¬ (inWindow value env.now = false ∨ value.state ≠ .confirmed) := by
    rw [passes.window, passes.confirmed]
    simp
  have open_ : ¬ legacyValidity legacy value env.now = false := by
    rw [passes.source]
    simp
  unfold examine
  rw [if_neg fun unreadable => unreadable passes.readable, if_neg live, if_neg inside, if_neg open_,
    if_neg passes.proven, passes.checked]

theorem examine_of_not_passes (options : GraphOptions) (stop : Stop) (w : Walk)
    (fails : ¬ Passes legacy env value) :
    ∃ revisions edges,
      examine legacy env options stop value w = { w with revisions, edges, incomplete := true } ∧
      (∀ id, value.relationId ≠ id → head legacy revisions id = head legacy w.revisions id) ∧
      (edges = w.edges ∨ revisions = w.revisions ∧ Suggests env options value ∧
        edges = w.edges ++ [projection value stop.ref]) := by
  have expires (expired : Bool) (id : Nat) (other : value.relationId ≠ id) :
      head legacy (expireHead legacy w.revisions value expired) id = head legacy w.revisions id :=
    head_expireHead_of_ne other
  unfold examine
  by_cases readable : env.readable value.source = true ∧ env.readable value.target = true
  · rw [if_neg fun unreadable => unreadable readable]
    by_cases lapsed : value.state = .confirmed ∧ value.lapsed env.now = true
    · rw [if_pos lapsed]
      exact ⟨_, _, rfl, expires true, .inl rfl⟩
    · rw [if_neg lapsed]
      by_cases out : inWindow value env.now = false ∨ value.state ≠ .confirmed
      · rw [if_pos out]
        refine ⟨_, _, rfl, fun _ _ => rfl, ?_⟩
        by_cases listed : options.factsOnly = false ∧ inWindow value env.now = true ∧
            value.state = .suggested
        · rw [if_pos listed]
          exact .inr ⟨rfl, ⟨readable, listed.1, listed.2.2, listed.2.1⟩, rfl⟩
        · rw [if_neg listed]
          exact .inl rfl
      · rw [if_neg out]
        by_cases closed : legacyValidity legacy value env.now = false
        · rw [if_pos closed]
          exact ⟨_, _, rfl, expires false, .inl rfl⟩
        · rw [if_neg closed]
          split
          next valid =>
            rw [not_or, not_not, Bool.not_eq_false] at out
            have proven : value.content.evidence ≠ [] := by
              intro empty
              rw [if_pos empty] at valid
              cases valid
            rw [if_neg proven] at valid
            have lasting : value.lapsed env.now = false := by
              rw [not_and, Bool.not_eq_true] at lapsed
              exact lapsed out.2
            exact (fails ⟨readable, out.2, lasting, out.1, Bool.eq_true_of_not_eq_false closed, proven,
              valid⟩).elim
          next => exact ⟨_, _, rfl, expires false, .inl rfl⟩
          next => exact ⟨_, _, rfl, fun _ _ => rfl, .inl rfl⟩
  · rw [if_pos readable]
    exact ⟨_, _, rfl, fun _ _ => rfl, .inl rfl⟩

theorem examine_seenEdges : (examine legacy env options stop value w).seenEdges = w.seenEdges := by
  by_cases passes : Passes legacy env value
  · rw [examine_of_passes passes]
    unfold Walk.follow
    dsimp only
    split <;> rfl
  · obtain ⟨revisions, edges, same, -⟩ :=
      examine_of_not_passes options stop w passes
    rw [same]

/-! ## The walk -/

/-- An edge is a head that was listed for a reason. -/
def Listed (tables : Tables) (env : Environment) (options : GraphOptions) (edge : RelationProjection) :
    Prop :=
  ∃ value ref, head tables.legacy tables.revisions edge.relationId = some value ∧
    edge = projection value ref ∧ (Passes tables.legacy env value ∨ Suggests env options value)

structure Walk.Sound (tables : Tables) (env : Environment) (options : GraphOptions) (w : Walk) :
    Prop where
  heads : ∀ id, id ∉ w.seenEdges ∨ id ∈ w.edges.map (·.relationId) →
    head tables.legacy w.revisions id = head tables.legacy tables.revisions id
  edges : ∀ edge ∈ w.edges, Listed tables env options edge
  listed : (w.edges.map (·.relationId)).Sublist w.seenEdges
  nodup : w.seenEdges.Nodup
  scanned : w.seenEdges.length = w.scanned
  budget : w.scanned ≤ options.maxEdges

theorem Walk.Sound.start (tables : Tables) (env : Environment) (options : GraphOptions)
    (root : ResourceRef) : (Walk.start tables.revisions root).Sound tables env options where
  heads _ _ := rfl
  edges edge mem := by cases mem
  listed := .slnil
  nodup := .nil
  scanned := rfl
  budget := Nat.zero_le _

theorem Walk.Sound.congr {w' : Walk} (sound : w.Sound tables env options)
    (revisions : w'.revisions = w.revisions) (edges : w'.edges = w.edges)
    (seen : w'.seenEdges = w.seenEdges) (scanned : w'.scanned = w.scanned) :
    w'.Sound tables env options where
  heads := by
    rw [revisions, edges, seen]
    exact sound.heads
  edges := edges ▸ sound.edges
  listed := by
    rw [edges, seen]
    exact sound.listed
  nodup := seen ▸ sound.nodup
  scanned := by
    rw [seen, scanned]
    exact sound.scanned
  budget := scanned ▸ sound.budget

theorem Walk.Sound.examine (sound : w.Sound tables env options) (new : value.relationId ∉ w.seenEdges)
    (current : head tables.legacy tables.revisions value.relationId = some value)
    (room : w.scanned < options.maxEdges) :
    (examine tables.legacy env options stop value (w.count value)).Sound tables env options := by
  have fresh : value.relationId ∉ w.edges.map (·.relationId) := fun old => new (sound.listed.subset old)
  have counted : (w.seenEdges ++ [value.relationId]).Nodup := by
    rw [nodup_append']
    exact ⟨sound.nodup, nodup_singleton _, disjoint_singleton.mpr new⟩
  -- the walk that keeps its edges, and the walk that gains the one of the candidate
  have kept {w' : Walk} (edges : w'.edges = w.edges)
      (seen : w'.seenEdges = w.seenEdges ++ [value.relationId]) (scanned : w'.scanned = w.scanned + 1)
      (frame : ∀ id, value.relationId ≠ id →
        head tables.legacy w'.revisions id = head tables.legacy w.revisions id) :
      w'.Sound tables env options := by
    refine ⟨fun id here => ?_, edges ▸ sound.edges, ?_, seen ▸ counted, ?_, ?_⟩
    · rw [edges, seen] at here
      have other : value.relationId ≠ id := by
        rintro rfl
        rcases here with away | old
        · exact away (mem_append_right _ mem_cons_self)
        · exact fresh old
      rw [frame id other]
      exact sound.heads id (here.imp_left fun away old => away (mem_append_left _ old))
    · rw [edges, seen]
      exact sound.listed.trans (sublist_append_left _ _)
    · rw [seen, scanned, length_append, sound.scanned]
      rfl
    · rw [scanned]
      exact room
  have gained {w' : Walk} (edges : w'.edges = w.edges ++ [projection value stop.ref])
      (seen : w'.seenEdges = w.seenEdges ++ [value.relationId]) (scanned : w'.scanned = w.scanned + 1)
      (revisions : w'.revisions = w.revisions)
      (reason : Passes tables.legacy env value ∨ Suggests env options value) :
      w'.Sound tables env options := by
    refine ⟨fun id here => ?_, fun edge mem => ?_, ?_, seen ▸ counted, ?_, ?_⟩
    · rw [edges, seen, map_append] at here
      rw [revisions]
      refine sound.heads id ?_
      by_cases same : id = value.relationId
      · exact .inl (same ▸ new)
      · rcases here with away | old
        · exact .inl fun old => away (mem_append_left _ old)
        · exact .inr ((mem_append.mp old).resolve_right fun last =>
            same (mem_singleton.mp last))
    · rw [edges] at mem
      rcases mem_append.mp mem with old | last
      · exact sound.edges edge old
      · obtain rfl := mem_singleton.mp last
        exact ⟨value, stop.ref, current, rfl, reason⟩
    · rw [edges, seen, map_append]
      exact sound.listed.append (List.Sublist.refl _)
    · rw [seen, scanned, length_append, sound.scanned]
      rfl
    · rw [scanned]
      exact room
  by_cases passes : Passes tables.legacy env value
  · rw [examine_of_passes passes]
    unfold Walk.follow
    dsimp only
    split
    next => exact gained rfl rfl rfl rfl (.inl passes)
    next => exact gained rfl rfl rfl rfl (.inl passes)
  · obtain ⟨revisions, edges, same, frame, old | ⟨rfl, suggests, more⟩⟩ :=
      examine_of_not_passes options stop (w.count value) passes
    · rw [same]
      exact kept old rfl rfl frame
    · rw [same]
      exact gained more rfl rfl rfl (.inr suggests)

theorem Walk.Sound.scan {candidates : List StoredRelation} (sound : w.Sound tables env options)
    (current : ∀ value ∈ candidates, value.relationId ∈ w.seenEdges ∨
      head tables.legacy tables.revisions value.relationId = some value) :
    (scan tables.legacy env options stop candidates w).Sound tables env options := by
  induction candidates generalizing w with
  | nil => exact sound
  | cons value rest ih =>
    obtain ⟨first, others⟩ := forall_mem_cons.mp current
    unfold scan
    split
    next => exact ih sound others
    next =>
      split
      next => exact ih (sound.congr rfl rfl rfl rfl) others
      next new =>
        split
        next => exact sound.congr rfl rfl rfl rfl
        next room =>
          rw [not_or, not_le] at room
          refine ih (sound.examine new (first.resolve_left new) room.1) fun later mem => ?_
          refine (others later mem).imp_left fun old => ?_
          rw [examine_seenEdges]
          exact mem_append_left _ old

theorem Walk.Sound.expand (sound : w.Sound tables env options) :
    (expand tables.legacy env options stop w).Sound tables env options := by
  refine sound.scan fun value mem => ?_
  by_cases seen : value.relationId ∈ w.seenEdges
  · exact .inl seen
  · refine .inr ?_
    rw [← sound.heads _ (.inl seen)]
    exact mem_adjacent mem

theorem Walk.Sound.rounds {n : Nat} (sound : w.Sound tables env options) :
    (rounds tables.legacy env options n w).Sound tables env options := by
  induction n generalizing w with
  | zero => exact sound
  | succ n ih =>
    unfold rounds
    split
    next => exact sound
    next => exact ih (Walk.Sound.expand (sound.congr rfl rfl rfl rfl))

/-! ## The second check -/

/-- The second check of the edge of a head at a place. -/
def verdict (tables : Tables) (env : Environment) (entry : RelationProjection × Nat) :
    Option VisibleEdge :=
  (head tables.legacy tables.revisions entry.1.relationId).bind fun value =>
    if stillHolds env entry.1 value (env.sendAt entry.2) = false then none
    else (legacyWindow tables.legacy value (env.legacyAt entry.2)).map fun until_ =>
      ⟨entry.1, proofExpiry value until_⟩

theorem Listed.readable {edge : RelationProjection} (listed : Listed tables env options edge) :
    env.readable edge.source = true ∧ env.readable edge.target = true := by
  obtain ⟨value, ref, -, rfl, reason⟩ := listed
  have both : env.readable value.source = true ∧ env.readable value.target = true :=
    reason.elim (·.readable) (·.readable)
  unfold projection
  dsimp only
  split
  next => exact both.symm
  next => exact both

theorem foldlM_recheck {entries : List (RelationProjection × Nat)} {c : Recheck}
    (heads : ∀ entry ∈ entries, head tables.legacy c.revisions entry.1.relationId =
      head tables.legacy tables.revisions entry.1.relationId)
    (listed : ∀ entry ∈ entries, Listed tables env options entry.1)
    (nodup : (entries.map (·.1.relationId)).Nodup) :
    ∃ revisions, entries.foldlM (recheck tables.legacy env) c =
      .ok ⟨revisions, c.visible ++ entries.filterMap (verdict tables env),
        c.incomplete || entries.any fun entry => (verdict tables env entry).isNone⟩ := by
  induction entries generalizing c with
  | nil =>
    refine ⟨c.revisions, ?_⟩
    rw [foldlM_nil, filterMap_nil, append_nil, any_nil, Bool.or_false]
    rfl
  | cons entry rest ih =>
    obtain ⟨here, later⟩ := forall_mem_cons.mp heads
    obtain ⟨first, others⟩ := forall_mem_cons.mp listed
    obtain ⟨fresh, nodup⟩ := nodup_cons.mp nodup
    -- the check of the entry, with the head that it changes at most
    have checks : ∃ revisions, recheck tables.legacy env c entry = .ok ⟨revisions,
        c.visible ++ (verdict tables env entry).toList,
        c.incomplete || (verdict tables env entry).isNone⟩ ∧
        ∀ id, entry.1.relationId ≠ id →
          head tables.legacy revisions id = head tables.legacy c.revisions id := by
      obtain ⟨value, ref, found, -⟩ := first
      unfold recheck verdict
      dsimp only
      rw [if_neg fun unreadable => unreadable (forall_mem_cons.mp listed).1.readable, here, found,
        Option.bind_some]
      dsimp only
      by_cases stale : stillHolds env entry.1 value (env.sendAt entry.2) = false
      · rw [if_pos stale, if_pos stale]
        exact ⟨c.revisions, by simp, fun _ _ => rfl⟩
      · rw [if_neg stale, if_neg stale]
        cases window : legacyWindow tables.legacy value (env.legacyAt entry.2) with
        | none =>
          refine ⟨if value.state = .confirmed then expireHead tables.legacy c.revisions value false
            else c.revisions, by simp, fun id other => ?_⟩
          split
          next => exact head_expireHead_of_ne fun same => other ((head_id found).symm.trans same)
          next => rfl
        | some until_ => exact ⟨c.revisions, by simp, fun _ _ => rfl⟩
    obtain ⟨revisions, checked, frame⟩ := checks
    obtain ⟨final, ran⟩ := @ih ⟨revisions, c.visible ++ (verdict tables env entry).toList,
      c.incomplete || (verdict tables env entry).isNone⟩ (fun entry' mem =>
        (frame _ fun same => fresh (mem_map.mpr ⟨entry', mem, same.symm⟩)).trans
          (later entry' mem)) others nodup
    refine ⟨final, ?_⟩
    rw [foldlM_cons, checked]
    refine Eq.trans ran ?_
    rw [filterMap_cons, any_cons]
    cases verdict tables env entry <;> simp

end Slide.Relations
