import Slide.Triggers.Evaluate

/-!
# What a verdict rests on

Every leaf of an expression has a position: the way to it from the root.  `leafValue` is what the
uncached selector and the threshold make of the leaf there; `valueUnder` is the strong Kleene value of
the expression when the leaves have any values whatsoever, also different ones for equal leaves.

The value of an expression is monotone in its leaves (`valueUnder_informs`), so whatever an unknown leaf
turns out to be, a definite verdict stays.
-/

namespace Slide.Triggers

open Kleene Metrics

/-- The children taken on the way from the root to a leaf. -/
abbrev Position := List Nat

/-- What each leaf answers. -/
abbrev Leaves := Position → Option Bool

mutual

/-- The strong Kleene value of an expression, with the leaf at each position as given. -/
def ResolvedTriggerExpression.valueUnder (leaves : Leaves) : ResolvedTriggerExpression → Option Bool
  | .compare .. => leaves []
  | .group .all children =>
    Kleene.all (ResolvedTriggerExpression.valuesUnder (fun i at_ => leaves (i :: at_)) children)
  | .group .any children =>
    Kleene.any (ResolvedTriggerExpression.valuesUnder (fun i at_ => leaves (i :: at_)) children)

def ResolvedTriggerExpression.valuesUnder (leaves : Nat → Leaves) :
    List ResolvedTriggerExpression → List (Option Bool)
  | [] => []
  | child :: rest =>
    ResolvedTriggerExpression.valueUnder (leaves 0) child ::
      ResolvedTriggerExpression.valuesUnder (fun i => leaves (i + 1)) rest

end

mutual

/-- The leaf at a position, under the selectors of a context; no leaf is anywhere else. -/
def ResolvedTriggerExpression.leafValue (context : EvaluationContext) :
    ResolvedTriggerExpression → Leaves
  | .compare select operator threshold, [] =>
    (selectValueUncached select context).toOption.map (operator.holds · (numberValue threshold))
  | .group _ children, i :: at_ => ResolvedTriggerExpression.leafValues context children i at_
  | .compare .., _ :: _ | .group .., [] => none

def ResolvedTriggerExpression.leafValues (context : EvaluationContext) :
    List ResolvedTriggerExpression → Nat → Leaves
  | [], _, _ => none
  | child :: _, 0, at_ => ResolvedTriggerExpression.leafValue context child at_
  | _ :: rest, i + 1, at_ => ResolvedTriggerExpression.leafValues context rest i at_

end

/-- The cache that a context has after some expressions have been evaluated in it. -/
def cacheAfter (context : EvaluationContext) (expressions : List ResolvedTriggerExpression) :
    SelectorCache :=
  expressions.foldl (fun cache expression => (matchesExpression context expression cache).2) []

section Information

variable {context : EvaluationContext}

mutual

theorem valueUnder_leafValue : (expression : ResolvedTriggerExpression) →
    expression.valueUnder (expression.leafValue context) = expression.truth context
  | .compare select operator threshold => by
    simp only [ResolvedTriggerExpression.valueUnder, ResolvedTriggerExpression.leafValue,
      ResolvedTriggerExpression.truth]
  | .group .all children => by
    simp only [ResolvedTriggerExpression.valueUnder, ResolvedTriggerExpression.leafValue,
      ResolvedTriggerExpression.truth, valuesUnder_leafValues children]
  | .group .any children => by
    simp only [ResolvedTriggerExpression.valueUnder, ResolvedTriggerExpression.leafValue,
      ResolvedTriggerExpression.truth, valuesUnder_leafValues children]

theorem valuesUnder_leafValues : (children : List ResolvedTriggerExpression) →
    ResolvedTriggerExpression.valuesUnder (ResolvedTriggerExpression.leafValues context children)
      children = ResolvedTriggerExpression.truths context children
  | [] => by simp only [ResolvedTriggerExpression.valuesUnder, ResolvedTriggerExpression.truths]
  | child :: rest => by
    simp only [ResolvedTriggerExpression.valuesUnder, ResolvedTriggerExpression.truths]
    refine congrArg₂ List.cons ?_ ?_
    · refine Eq.trans (congrArg (child.valueUnder ·) ?_) (valueUnder_leafValue child)
      funext at_
      simp only [ResolvedTriggerExpression.leafValues]
    · refine Eq.trans (congrArg (ResolvedTriggerExpression.valuesUnder · rest) ?_)
        (valuesUnder_leafValues rest)
      funext i at_
      simp only [ResolvedTriggerExpression.leafValues]

end

mutual

theorem valueUnder_informs : (expression : ResolvedTriggerExpression) → {leaves others : Leaves} →
    (∀ at_, Informs (leaves at_) (others at_)) →
      Informs (expression.valueUnder leaves) (expression.valueUnder others)
  | .compare .., leaves, others, informs => by
    simp only [ResolvedTriggerExpression.valueUnder]
    exact informs []
  | .group .all children, leaves, others, informs => by
    simp only [ResolvedTriggerExpression.valueUnder]
    apply all_informs
    exact valuesUnder_informs children fun i at_ => informs (i :: at_)
  | .group .any children, leaves, others, informs => by
    simp only [ResolvedTriggerExpression.valueUnder]
    apply any_informs
    exact valuesUnder_informs children fun i at_ => informs (i :: at_)

theorem valuesUnder_informs : (children : List ResolvedTriggerExpression) →
    {leaves others : Nat → Leaves} → (∀ i at_, Informs (leaves i at_) (others i at_)) →
      List.Forall₂ Informs (ResolvedTriggerExpression.valuesUnder leaves children)
        (ResolvedTriggerExpression.valuesUnder others children)
  | [], leaves, others, informs => by
    simp only [ResolvedTriggerExpression.valuesUnder]
    exact .nil
  | child :: rest, leaves, others, informs => by
    simp only [ResolvedTriggerExpression.valuesUnder]
    apply List.Forall₂.cons
    · exact valueUnder_informs child (informs 0)
    · exact valuesUnder_informs rest fun i => informs (i + 1)

end

theorem cacheCoherent_cacheAfter (expressions : List ResolvedTriggerExpression) :
    CacheCoherent context (cacheAfter context expressions) := by
  induction expressions using List.reverseRecOn with
  | nil => exact cacheCoherent_nil
  | append_singleton expressions expression ih =>
    rw [cacheAfter, List.foldl_append]
    exact (matchesExpression_truth expression _ ih).2

end Information

/-- **The verdict of an expression.**  After any expressions of the same context, `matches` answers the
strong Kleene value of its leaves under the uncached selectors; and where it answers, it would answer the
same however the leaves without a value turned out. -/
theorem matches_is_kleene (context : EvaluationContext) (earlier : List ResolvedTriggerExpression)
    (expression : ResolvedTriggerExpression) :
    let verdict := (matchesExpression context expression (cacheAfter context earlier)).1
    let leaves := expression.leafValue context
    verdict.toOption = expression.valueUnder leaves ∧
      ∀ others : Leaves, (∀ at_, leaves at_ ≠ none → others at_ = leaves at_) →
        ∀ truth, verdict = .ok truth → expression.valueUnder others = some truth := by
  intro verdict leaves
  have value : verdict.toOption = expression.valueUnder leaves :=
    (matchesExpression_truth expression _ (cacheCoherent_cacheAfter earlier)).1.trans
      (valueUnder_leafValue expression).symm
  refine ⟨value, fun others agree truth definite => ?_⟩
  have informs (at_ : Position) : Informs (leaves at_) (others at_) := by
    intro truth known
    rw [agree at_ (by rw [known]; nofun), known]
  apply valueUnder_informs expression informs
  rw [← value, definite]
  rfl

end Slide.Triggers
