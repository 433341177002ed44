import Slide.Attention.Correlator

/-!
# Neighbouring events

What makes two events neighbours, as a relation, and `path` and `reasonFor` as its decision.  The search
for a path stops at its target, so that a turn which does not throw has seen every neighbour of its stops
and none of them is the target.
-/

namespace Slide.Attention

open Slide.Resources List

/-- The edge joins two resources, in either direction. -/
def AttentionEdge.Joins (edge : AttentionEdge) (x y : ResourceRef) : Prop :=
  edge.source = x ∧ edge.target = y ∨ edge.source = y ∧ edge.target = x

/-- A path of one or two edges, by the ids of its edges. -/
inductive EdgePath (bounded : List AttentionEdge) : ResourceRef → ResourceRef → List String → Prop
  | one {x y : ResourceRef} {edge : AttentionEdge} (mem : edge ∈ bounded) (joins : edge.Joins x y) :
    EdgePath bounded x y [edge.id]
  | two {x y z : ResourceRef} {edge edge' : AttentionEdge} (mem : edge ∈ bounded)
    (joins : edge.Joins x y) (mem' : edge' ∈ bounded) (joins' : edge'.Joins y z) :
    EdgePath bounded x z [edge.id, edge'.id]

/-- A signature that the code takes for one: `null` and the empty text are none. -/
def KnownSignature (signature : Option String) : Prop := signature ≠ none ∧ signature ≠ some ""

/-- Two events share the resource, or their resources are joined by a path, or they carry the same
signature, of those that are known. -/
def Neighbours (known : Option String → Prop) (edges : List AttentionEdge) (a b : AttentionEvent) :
    Prop :=
  a.resource = b.resource ∨ (∃ ids, EdgePath (boundedEdges edges) a.resource b.resource ids) ∨
    a.signature = b.signature ∧ known a.signature

/-- The reason names the two events and holds of them. -/
structure CorrelationReason.Explains (edges : List AttentionEdge) (a b : AttentionEvent)
    (reason : CorrelationReason) : Prop where
  events : reason.eventIds = [a.id, b.id]
  valid : match reason.kind with
    | .sameResource => a.resource = b.resource ∧ reason.relationIds = [] ∧ reason.signature = none
    | .relationPath =>
      EdgePath (boundedEdges edges) a.resource b.resource reason.relationIds ∧ reason.signature = none
    | .knownSignature => a.signature = b.signature ∧ KnownSignature a.signature ∧
      reason.signature = a.signature ∧ reason.relationIds = []
    | .manual => False

variable {bounded : List AttentionEdge} {edges : List AttentionEdge} {edge : AttentionEdge}
  {x y z : ResourceRef} {a b : AttentionEvent} {known : Option String → Prop} {ids : List String}
  {reason : CorrelationReason}

theorem AttentionEdge.Joins.symm (joins : edge.Joins x y) : edge.Joins y x := Or.symm joins

theorem EdgePath.symm (path : EdgePath bounded x y ids) : EdgePath bounded y x ids.reverse := by
  cases path with
  | one mem joins => exact .one mem joins.symm
  | two mem joins mem' joins' => exact .two mem' joins'.symm mem joins.symm

theorem Neighbours.symm (near : Neighbours known edges a b) : Neighbours known edges b a := by
  rcases near with same | ⟨ids, path⟩ | ⟨same, carried⟩
  · exact .inl same.symm
  · exact .inr (.inl ⟨ids.reverse, path.symm⟩)
  · exact .inr (.inr ⟨same.symm, same ▸ carried⟩)

/-! ## The search -/

/-- An edge leads from one key to another. -/
def Leads (edge : AttentionEdge) (x y : String) : Prop :=
  edge.source.key = x ∧ edge.target.key = y ∨ edge.source.key = y ∧ edge.target.key = x

theorem joins_iff_leads : edge.Joins x y ↔ Leads edge x.key y.key := by
  unfold AttentionEdge.Joins Leads
  simp only [ResourceRef.key_injective.eq_iff]

theorem Leads.exists_key {x o : String} (leads : Leads edge x o) : ∃ z : ResourceRef, z.key = o := by
  rcases leads with ⟨-, last⟩ | ⟨last, -⟩
  · exact ⟨_, last⟩
  · exact ⟨_, last⟩

section Search

variable {ι : Type} {target : String} {current : Stop} {state middle later : List String × List Stop}
  {queue next : List Stop} {seen : List String} {hops more : String → List String → Prop}

/-- What the search is in after it has tried the hops, each with the ids of its path: every end is
seen, what is new is queued with such a path, and the target is not among it. -/
structure Scanned (target : String) (hops : String → List String → Prop)
    (state later : List String × List Stop) : Prop where
  kept : ∀ o ∈ state.1, o ∈ later.1
  reached : ∀ o ids, hops o ids → o ∈ later.1
  missed : target ∉ state.1 → target ∉ later.1
  appended : ∀ stop ∈ state.2, stop ∈ later.2
  queued : ∀ o ∈ later.1, o ∈ state.1 ∨ ∃ stop ∈ later.2, stop.key = o
  stops : ∀ stop ∈ later.2, stop ∈ state.2 ∨ hops stop.key stop.ids

theorem Scanned.refl (none_ : ∀ o ids, hops o ids → o ∈ state.1) : Scanned target hops state state where
  kept _ mem := mem
  reached := none_
  missed out := out
  appended _ mem := mem
  queued _ mem := .inl mem
  stops _ mem := .inl mem

theorem Scanned.trans (first : Scanned target hops state middle)
    (second : Scanned target more middle later) :
    Scanned target (fun o ids => hops o ids ∨ more o ids) state later where
  kept o mem := second.kept o (first.kept o mem)
  reached o ids hop := hop.elim (fun hop => second.kept o (first.reached o ids hop))
    (second.reached o ids)
  missed out := second.missed (first.missed out)
  appended stop mem := second.appended stop (first.appended stop mem)
  queued o mem := by
    rcases second.queued o mem with seen | new
    · rcases first.queued o seen with seen | ⟨stop, mem, same⟩
      · exact .inl seen
      · exact .inr ⟨stop, second.appended stop mem, same⟩
    · exact .inr new
  stops stop mem := by
    rcases second.stops stop mem with mem | hop
    · rcases first.stops stop mem with mem | hop
      · exact .inl mem
      · exact .inr (.inl hop)
    · exact .inr (.inr hop)

theorem Scanned.congr (scanned : Scanned target hops state later)
    (same : ∀ o ids, hops o ids ↔ more o ids) : Scanned target more state later := by
  have equal : hops = more := funext fun o => funext fun ids => propext (same o ids)
  exact equal ▸ scanned

theorem foldlM_scanned {round : List String × List Stop → ι → Except (List String) (List String × List Stop)}
    {tries : ι → String → List String → Prop} {items : List ι}
    (each : ∀ item state, match round state item with
      | .ok later => Scanned target (tries item) state later
      | .error ids => tries item target ids) (state : List String × List Stop) :
    match items.foldlM round state with
    | .ok later => Scanned target (fun o ids => ∃ item ∈ items, tries item o ids) state later
    | .error ids => ∃ item ∈ items, tries item target ids := by
  induction items generalizing state with
  | nil =>
    refine .refl fun o ids hop => ?_
    obtain ⟨item, mem, -⟩ := hop
    cases mem
  | cons item rest ih =>
    rw [foldlM_cons]
    have first := each item state
    cases ran : round state item with
    | error ids =>
      rw [ran] at first
      exact ⟨item, mem_cons_self, first⟩
    | ok middle =>
      rw [ran] at first
      change match rest.foldlM round middle with
        | .ok later => Scanned target (fun o ids => ∃ i ∈ item :: rest, tries i o ids) state later
        | .error ids => ∃ i ∈ item :: rest, tries i target ids
      have others := ih middle
      cases loop : rest.foldlM round middle with
      | error ids =>
        rw [loop] at others
        obtain ⟨later, mem, hop⟩ := others
        exact ⟨later, mem_cons_of_mem _ mem, hop⟩
      | ok later =>
        rw [loop] at others
        exact (first.trans others).congr fun o ids => by simp

/-- A hop over an edge from a stop. -/
def Hops (current : Stop) (edge : AttentionEdge) (o : String) (ids : List String) : Prop :=
  Leads edge current.key o ∧ ids = current.ids ++ [edge.id]

/-- The end of the edge that `hop` goes to. -/
def otherEnd (edge : AttentionEdge) (key : String) : Option String :=
  if edge.source.key = key then some edge.target.key
  else if edge.target.key = key then some edge.source.key else none

theorem leads_iff {key o : String} : Leads edge key o ↔ otherEnd edge key = some o := by
  unfold Leads otherEnd
  split
  next here => grind
  next away =>
    split
    next here => grind
    next => grind

theorem hop_of_some {other : String} (found : otherEnd edge current.key = some other) :
    hop target current state edge =
      if other ∈ state.1 then .ok state
      else if other = target then .error (current.ids ++ [edge.id])
      else .ok (other :: state.1, state.2 ++ [⟨other, current.ids ++ [edge.id]⟩]) := by
  unfold otherEnd at found
  simp only [hop, found]

theorem hop_of_none (away : otherEnd edge current.key = none) :
    hop target current state edge = .ok state := by
  unfold otherEnd at away
  simp only [hop, away]

theorem hop_scanned (edge : AttentionEdge) (state : List String × List Stop) :
    match hop target current state edge with
    | .ok later => Scanned target (Hops current edge) state later
    | .error ids => Hops current edge target ids := by
  cases found : otherEnd edge current.key with
  | none =>
    rw [hop_of_none found]
    refine .refl fun o ids hop => ?_
    rw [leads_iff.mp hop.1] at found
    cases found
  | some other =>
    have leads (o : String) (leads : Leads edge current.key o) : o = other := by
      rw [leads_iff.mp leads] at found
      exact some.inj found
    rw [hop_of_some found]
    by_cases old : other ∈ state.1
    · rw [if_pos old]
      refine .refl fun o ids hop => ?_
      rw [leads o hop.1]
      exact old
    · rw [if_neg old]
      by_cases arrives : other = target
      · rw [if_pos arrives]
        exact ⟨leads_iff.mpr (arrives ▸ found), rfl⟩
      · rw [if_neg arrives]
        refine ⟨fun o mem => mem_cons_of_mem _ mem, fun o ids hop => ?_, fun out mem => ?_,
          fun stop mem => mem_append_left _ mem, fun o mem => ?_, fun stop mem => ?_⟩
        · rw [leads o hop.1]
          exact mem_cons_self
        · rcases mem_cons.mp mem with same | mem
          · exact arrives same.symm
          · exact out mem
        · rcases mem_cons.mp mem with rfl | mem
          · exact .inr ⟨_, mem_append_right _ (mem_singleton.mpr rfl), rfl⟩
          · exact .inl mem
        · rcases mem_append.mp mem with mem | new
          · exact .inl mem
          · obtain rfl := mem_singleton.mp new
            exact .inr ⟨leads_iff.mpr found, rfl⟩

/-- The hops of a turn. -/
def Turns (bounded : List AttentionEdge) (current : Stop) (o : String) (ids : List String) : Prop :=
  current.ids.length ≠ 2 ∧ ∃ edge ∈ bounded, Hops current edge o ids

theorem turn_scanned (bounded : List AttentionEdge) (seen : List String) (queue : List Stop) :
    match turn bounded target seen queue with
    | .ok later =>
      Scanned target (fun o ids => ∃ current ∈ queue, Turns bounded current o ids) (seen, []) later
    | .error ids => ∃ current ∈ queue, Turns bounded current target ids := by
  refine foldlM_scanned (fun current state => ?_) (seen, [])
  by_cases full : current.ids.length = 2
  · rw [if_pos full]
    exact .refl fun o ids hop => (hop.1 full).elim
  · rw [if_neg full]
    have scanned := @foldlM_scanned _ target (hop target current) (Hops current) bounded
      (fun edge state => hop_scanned edge state) state
    cases ran : bounded.foldlM (hop target current) state with
    | error ids =>
      rw [ran] at scanned
      exact ⟨full, scanned⟩
    | ok later =>
      rw [ran] at scanned
      exact scanned.congr fun o ids => (and_iff_right full).symm

theorem turn_error {ids : List String} (ran : turn bounded target seen queue = .error ids) :
    ∃ current ∈ queue, Turns bounded current target ids := by
  have scanned := @turn_scanned target bounded seen queue
  rw [ran] at scanned
  exact scanned

theorem turn_ok (ran : turn bounded target seen queue = .ok later) :
    Scanned target (fun o ids => ∃ current ∈ queue, Turns bounded current o ids) (seen, []) later := by
  have scanned := @turn_scanned target bounded seen queue
  rw [ran] at scanned
  exact scanned

theorem turn_full (full : ∀ stop ∈ queue, stop.ids.length = 2) :
    turn bounded target seen queue = .ok (seen, []) := by
  unfold turn
  induction queue with
  | nil => rfl
  | cons stop rest ih =>
    obtain ⟨first, others⟩ := forall_mem_cons.mp full
    rw [foldlM_cons, if_pos first]
    exact ih others

end Search

/-! ## Paths -/

theorem turns_start {o : String} {ids : List String} :
    (∃ current ∈ [Stop.mk x.key []], Turns bounded current o ids) ↔
      ∃ edge ∈ bounded, Leads edge x.key o ∧ ids = [edge.id] := by
  simp [Turns, Hops]

theorem path_sound (found : path bounded x y = some ids) : EdgePath bounded x y ids := by
  unfold path search at found
  split at found
  next direct ran =>
    obtain rfl := some.inj found
    obtain ⟨edge, mem, leads, rfl⟩ := turns_start.mp (turn_error ran)
    exact .one mem (joins_iff_leads.mpr leads)
  next seen queue ran =>
    have first := turn_ok ran
    have one (stop : Stop) (mem : stop ∈ queue) :
        ∃ edge ∈ bounded, Leads edge x.key stop.key ∧ stop.ids = [edge.id] := by
      rcases first.stops stop mem with old | hop
      · cases old
      · exact turns_start.mp hop
    unfold search at found
    split at found
    next second ran =>
      obtain rfl := some.inj found
      obtain ⟨stop, mem, -, edge', mem', leads', same⟩ := turn_error ran
      obtain ⟨edge, inside, leads, ids⟩ := one stop mem
      obtain ⟨z, key⟩ := leads.exists_key
      rw [← key] at leads leads'
      rw [same, ids]
      exact .two inside (joins_iff_leads.mpr leads) mem' (joins_iff_leads.mpr leads')
    next seen' queue' ran =>
      have second := turn_ok ran
      have full (stop : Stop) (mem : stop ∈ queue') : stop.ids.length = 2 := by
        rcases second.stops stop mem with old | ⟨current, inside, -, edge', -, -, same⟩
        · cases old
        · obtain ⟨edge, -, -, ids⟩ := one current inside
          rw [same, ids]
          rfl
      unfold search at found
      rw [turn_full full] at found
      cases found

theorem path_complete (apart : x ≠ y) (there : EdgePath bounded x y ids) :
    ∃ ids, path bounded x y = some ids := by
  have out : y.key ∉ [x.key] := by
    intro mem
    exact apart (ResourceRef.key_injective (mem_singleton.mp mem)).symm
  unfold path search
  split
  next direct ran => exact ⟨direct, rfl⟩
  next seen queue ran =>
    have first := turn_ok ran
    have missed : y.key ∉ seen := first.missed out
    have far (edge : AttentionEdge) (mem : edge ∈ bounded) : ¬ edge.Joins x y := by
      intro joins
      exact missed (first.reached _ _ (turns_start.mpr ⟨edge, mem, joins_iff_leads.mp joins, rfl⟩))
    unfold search
    split
    next second ran => exact ⟨second, rfl⟩
    next seen' queue' ran =>
      exfalso
      have second := turn_ok ran
      cases there with
      | one mem joins => exact far _ mem joins
      | two mem joins mem' joins' =>
        have near := first.reached _ _ (turns_start.mpr ⟨_, mem, joins_iff_leads.mp joins, rfl⟩)
        rcases first.queued _ near with start | ⟨stop, inside, same⟩
        · rw [ResourceRef.key_injective (mem_singleton.mp start)] at joins'
          exact far _ mem' joins'
        · have one : stop.ids.length ≠ 2 := by
            rcases first.stops stop inside with old | hop
            · cases old
            · obtain ⟨edge, -, -, ids⟩ := turns_start.mp hop
              simp [ids]
          have leads := joins_iff_leads.mp joins'
          rw [← same] at leads
          exact second.missed missed
            (second.reached _ _ ⟨stop, inside, one, _, mem', leads, rfl⟩)

/-! ## Reasons -/

theorem reasonFor_explains (found : reasonFor (boundedEdges edges) a b = some reason) :
    reason.Explains edges a b := by
  unfold reasonFor at found
  split at found
  next same =>
    obtain rfl := some.inj found
    exact ⟨rfl, ResourceRef.key_injective same, rfl, rfl⟩
  next apart =>
    split at found
    next ids reached =>
      obtain rfl := some.inj found
      exact ⟨rfl, path_sound reached, rfl⟩
    next =>
      split at found
      next carried =>
        obtain rfl := some.inj found
        obtain ⟨filled, same⟩ := carried
        refine ⟨rfl, same, ?_, rfl, rfl⟩
        cases signature : a.signature with
        | none =>
          rw [signature] at filled
          cases filled
        | some text =>
          rw [signature] at filled
          refine ⟨Option.some_ne_none text, fun empty => ?_⟩
          rw [some.inj empty] at filled
          simp at filled
      next => cases found

theorem CorrelationReason.Explains.neighbours (explains : reason.Explains edges a b) :
    Neighbours KnownSignature edges a b := by
  have valid := explains.valid
  cases kind : reason.kind <;> rw [kind] at valid
  case sameResource => exact .inl valid.1
  case relationPath => exact .inr (.inl ⟨_, valid.1⟩)
  case knownSignature => exact .inr (.inr ⟨valid.1, valid.2.1⟩)
  case manual => exact valid.elim

theorem reasonFor_of_neighbours (near : Neighbours KnownSignature edges a b) :
    reasonFor (boundedEdges edges) a b ≠ none := by
  unfold reasonFor
  split
  next => exact Option.some_ne_none _
  next apart =>
    have other : a.resource ≠ b.resource := fun same => apart (congrArg ResourceRef.key same)
    split
    next => exact Option.some_ne_none _
    next missed =>
      rcases near with same | ⟨ids, there⟩ | ⟨same, carried⟩
      · exact (other same).elim
      · obtain ⟨ids, found⟩ := path_complete other there
        rw [found] at missed
        cases missed
      · have filled : a.signature.any (· ≠ "") = true := by
          cases signature : a.signature with
          | none => exact (carried.1 signature).elim
          | some text =>
            have filled : text ≠ "" := fun empty => carried.2 (by rw [signature, empty])
            simpa using filled
        rw [if_pos ⟨filled, same⟩]
        exact Option.some_ne_none _

end Slide.Attention
