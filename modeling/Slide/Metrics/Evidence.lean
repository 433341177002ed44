import Slide.Metrics.Validation

/-!
# Evidence

How quality, accuracy and freshness pass from inputs to an output: `propagateQuality` and
`freshness` of `contracts/metrics/validation.ts`.  The source orders each of the three by a rank;
the results here say that what it propagates is no better than any input.
-/

namespace Slide.Metrics

open List

def QualityStatus.rank : QualityStatus → Nat
  | .good => 0
  | .partly => 1
  | .unknown => 2
  | .invalid => 3

def Accuracy.rank : Accuracy → Nat
  | .exact => 0
  | .estimated => 1
  | .unknown => 2

def Freshness.rank : Freshness → Nat
  | .fresh => 0
  | .stale => 1
  | .unknown => 2

structure Evidence where
  quality : Quality
  accuracy : Accuracy

def Observation.evidence (o : Observation) : Evidence := ⟨o.quality, o.accuracy⟩

theorem QualityStatus.withholds_iff (status : QualityStatus) : status.withholds ↔ 2 ≤ status.rank := by
  cases status <;> simp [withholds, rank]

/-! ## Propagation -/

/-- The worse of two inputs, the first one of equals. -/
def worseQuality (a b : Quality) : Quality := if b.status.rank ≤ a.status.rank then a else b

/-- The least certain of the accuracies. -/
def leastCertain (inputs : List Accuracy) : Accuracy :=
  if .unknown ∈ inputs then .unknown else if .estimated ∈ inputs then .estimated else .exact

def propagateQuality : List Evidence → Evidence
  | [] => ⟨⟨.unknown, .missingInput⟩, .unknown⟩
  | first :: rest =>
    { quality := rest.foldl (fun worst e => worseQuality worst e.quality) first.quality
      accuracy := leastCertain ((first :: rest).map Evidence.accuracy) }

section Propagation

variable {inputs : List Evidence} {e : Evidence} {a b : Quality}

theorem rank_le_worse_left : a.status.rank ≤ (worseQuality a b).status.rank := by
  unfold worseQuality
  split <;> omega

theorem rank_le_worse_right : b.status.rank ≤ (worseQuality a b).status.rank := by
  unfold worseQuality
  split <;> omega

theorem rank_le_foldl_worse (rest : List Evidence) (worst : Quality) :
    worst.status.rank ≤ (rest.foldl (fun w e => worseQuality w e.quality) worst).status.rank ∧
      ∀ e ∈ rest, e.quality.status.rank ≤
        (rest.foldl (fun w e => worseQuality w e.quality) worst).status.rank := by
  induction rest generalizing worst with
  | nil => exact ⟨le_rfl, nofun⟩
  | cons first rest ih =>
    obtain ⟨start, others⟩ := ih (worseQuality worst first.quality)
    refine ⟨rank_le_worse_left.trans start, fun e mem => ?_⟩
    rcases mem_cons.mp mem with rfl | mem
    · exact rank_le_worse_right.trans start
    · exact others e mem

theorem quality_le_propagate (mem : e ∈ inputs) :
    e.quality.status.rank ≤ (propagateQuality inputs).quality.status.rank := by
  cases inputs with
  | nil => cases mem
  | cons first rest =>
    obtain ⟨start, others⟩ := rank_le_foldl_worse rest first.quality
    rcases mem_cons.mp mem with rfl | mem
    · exact start
    · exact others e mem

theorem foldl_worse_mem (rest : List Evidence) (worst : Quality) :
    rest.foldl (fun w e => worseQuality w e.quality) worst = worst ∨
      ∃ e ∈ rest, rest.foldl (fun w e => worseQuality w e.quality) worst = e.quality := by
  induction rest generalizing worst with
  | nil => exact .inl rfl
  | cons first rest ih =>
    have step : worseQuality worst first.quality = worst ∨
        worseQuality worst first.quality = first.quality := by
      unfold worseQuality
      split
      · exact .inl rfl
      · exact .inr rfl
    rcases ih (worseQuality worst first.quality) with same | ⟨e, mem, same⟩
    · rcases step with kept | taken
      · exact .inl (same.trans kept)
      · exact .inr ⟨first, mem_cons_self, same.trans taken⟩
    · exact .inr ⟨e, mem_cons_of_mem _ mem, same⟩

theorem propagate_quality_mem (some : inputs ≠ []) :
    ∃ e ∈ inputs, (propagateQuality inputs).quality = e.quality := by
  cases inputs with
  | nil => exact absurd rfl some
  | cons first rest =>
    rcases foldl_worse_mem rest first.quality with same | ⟨e, mem, same⟩
    · exact ⟨first, mem_cons_self, same⟩
    · exact ⟨e, mem_cons_of_mem _ mem, same⟩

theorem rank_le_leastCertain {accuracies : List Accuracy} {accuracy : Accuracy}
    (mem : accuracy ∈ accuracies) : accuracy.rank ≤ (leastCertain accuracies).rank := by
  unfold leastCertain
  split_ifs with unknown estimated
  · cases accuracy <;> simp [Accuracy.rank]
  · cases accuracy with
    | unknown => exact absurd mem unknown
    | exact | estimated => simp [Accuracy.rank]
  · cases accuracy with
    | unknown => exact absurd mem unknown
    | estimated => exact absurd mem estimated
    | exact => exact le_rfl

theorem accuracy_le_propagate (mem : e ∈ inputs) :
    e.accuracy.rank ≤ (propagateQuality inputs).accuracy.rank := by
  cases inputs with
  | nil => cases mem
  | cons first rest => exact rank_le_leastCertain (mem_map_of_mem mem)

end Propagation

/-! ## Freshness -/

def freshness (observedAt : Option DateText) (now : DateText) (staleAfterMs : Int) : Freshness :=
  match observedAt.bind DateText.instant, now.instant with
  | some observed, some now =>
    if staleAfterMs ≤ 0 ∨ now < observed then .unknown
    else if staleAfterMs < now - observed then .stale else .fresh
  | _, _ => .unknown

/-- The freshness of inputs: unknown before stale before fresh. -/
def worstFreshness (ages : List Freshness) : Freshness :=
  if .unknown ∈ ages then .unknown else if .stale ∈ ages then .stale else .fresh

end Slide.Metrics
