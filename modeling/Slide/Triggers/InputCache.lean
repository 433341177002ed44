import Slide.Library.Spacing
import Slide.Triggers.HeadContinuity

/-!
# The input cache of the triggers

`metric_trigger_inputs` keeps the accepted samples of a head for the longest window any rule may have,
one day, and an evaluation that finds more than 4096 of them throws.  Samples that are at least
21094 ms apart never get there: a day has 4096 of them at most.
-/

namespace Slide.Triggers

open Metrics Transition Spacing List

/-! ## The series of a call -/

section Attempts

variable (env : Platform) (call : TriggerCall) (current : TriggerResourceSnapshot)
  (previous : Option TriggerResourceSnapshot)

/-- The series of a rule that a call comes to evaluate, up to the one it fails at. -/
def attemptedSeries (rule : TriggerRuleSnapshot) : List SeriesDimensions → TriggerDb → List SeriesEvent
  | [], _ => []
  | dimensions :: rest, db =>
    match claimHead env db call current previous rule dimensions with
    | .error _ => []
    | .ok (_, _, hash) => ⟨call, rule, dimensions, hash⟩ ::
      match evaluateSeries env db call current previous rule dimensions with
      | .error _ => []
      | .ok (db, _) => attemptedSeries rule rest db

def attemptedRules : List TriggerRuleSnapshot → TriggerDb → List SeriesEvent
  | [], _ => []
  | rule :: rest, db =>
    if rule.decision ≠ .collect ∧ rule.decision ≠ .derive then attemptedRules rest db
    else if maxSeries < (seriesDimensions db call current rule).length then []
    else attemptedSeries env call current previous rule (seriesDimensions db call current rule) db ++
      match evaluateAllSeries env call current previous rule
        (seriesDimensions db call current rule) db with
      | .error _ => []
      | .ok (db, _) => attemptedRules rest db

/-- The series a call of `evaluateTemplateSamples` comes to evaluate, up to the one it fails at. -/
def attempted (db : TriggerDb) : List SeriesEvent :=
  if ¬ call.hasTriggers then []
  else match db.snapshots.get (call.resourceKey, call.revision) with
    | none => []
    | some stored =>
      match verifyTriggerSnapshot env stored with
      | .error _ => []
      | .ok current =>
        match priorSnapshot env db call.resourceKey current.configRevision,
          checkTriggerSnapshotFence current (some call.applied) with
        | .ok previous, .ok () => attemptedRules env call current previous current.rules db
        | _, _ => []

end Attempts

/-- The samples a call offers to the head of a series. -/
def SeriesEvent.offered (e : SeriesEvent) : List Observation :=
  (matchingObservations e.call e.rule).filter (·.dimensions.sorted = e.dimensions)

/-- The samples of one series come at most once in an interval: those of different times are at
least the interval apart. -/
def OncePerInterval (interval : Nat) (events : List SeriesEvent) : Prop :=
  ∀ e ∈ events, ∀ e' ∈ events, e.hash = e'.hash → ∀ o ∈ e.offered, ∀ o' ∈ e'.offered,
    o.observedAt.ms < o'.observedAt.ms → o.observedAt.ms + interval ≤ o'.observedAt.ms

/-- A formal write with its call; a call that throws is rolled back. -/
def TriggerDb.Write (env : Platform) (s : TriggerDb) (e : CallEvent) (t : TriggerDb) : Prop :=
  e.events = attempted env e.call s ∧
    match evaluateTemplateSamples env s e.call with
    | .ok (after, _) => t = after
    | .error _ => t = s

/-- The inputs of a head. -/
def rowsOf (inputs : List TriggerInputRow) (hash : HashId) : List TriggerInputRow :=
  inputs.filter (·.identityHash = hash)

/-- What the inputs are: for each head in the order of their times, samples that were offered to it,
none beyond its watermark. -/
structure TriggerDb.Cached (events : List SeriesEvent) (db : TriggerDb) : Prop where
  ordered : ∀ hash, (rowsOf db.inputs hash).Pairwise fun a b => a.observedAt.ms < b.observedAt.ms
  offered : ∀ row ∈ db.inputs, ∃ e ∈ events, e.hash = row.identityHash ∧
    ∃ o ∈ e.offered, o.observedAt = row.observedAt
  marked : ∀ row ∈ db.inputs, ∃ head seen, db.heads.get row.identityHash = some head ∧
    head.sampleWatermark = some seen ∧ row.observedAt.ms ≤ seen.ms

section Cache

variable {env : Platform} {db t claimed : TriggerDb} {call : TriggerCall}
  {current : TriggerResourceSnapshot} {previous : Option TriggerResourceSnapshot}
  {rule : TriggerRuleSnapshot} {dimensions : SeriesDimensions} {identity : TriggerEpisodeIdentity}
  {hash : HashId} {head : TriggerHead} {events : List SeriesEvent} {interval : Nat}

/-! ## One head -/

variable {inputs : List TriggerInputRow}

theorem acceptObservations_spec {watermark marked : Option Timestamp} {observations : List Observation}
    {recorded : List TriggerInputRow} {accepted : Nat}
    (ok : acceptObservations hash watermark observations inputs = .ok (recorded, marked, accepted)) :
    ∃ new, recorded = inputs ++ new ∧
      (∀ row ∈ new, row.identityHash = hash ∧ ∃ o ∈ observations, o.observedAt = row.observedAt) ∧
      (new.Pairwise fun a b => a.observedAt.ms < b.observedAt.ms) ∧
      (∀ row ∈ new, ∀ seen ∈ watermark, seen.ms < row.observedAt.ms) ∧
      (∀ row ∈ new, ∃ seen ∈ marked, row.observedAt.ms ≤ seen.ms) ∧
      ∀ seen ∈ watermark, ∃ seen' ∈ marked, seen.ms ≤ seen'.ms := by
  induction observations generalizing watermark inputs accepted with
  | nil =>
    obtain ⟨rfl, rfl, -⟩ := Prod.mk.inj (Except.ok.inj ok) |>.imp_right Prod.mk.inj
    exact ⟨[], (append_nil _).symm, forall_mem_nil _, .nil, forall_mem_nil _,
      forall_mem_nil _, fun seen mem => ⟨seen, mem, le_rfl⟩⟩
  | cons o rest ih =>
    unfold acceptObservations at ok
    split at ok
    next =>
      obtain ⟨new, same, fresh, facts⟩ := ih ok
      refine ⟨new, same, fun row mem => ?_, facts⟩
      obtain ⟨ofHash, o', mem', at'⟩ := fresh row mem
      exact ⟨ofHash, o', mem_cons_of_mem _ mem', at'⟩
    next later =>
      split at ok
      next => cases ok
      next =>
        obtain ⟨⟨recorded', marked', accepted'⟩, tail, ok⟩ := bind_eq_ok.mp ok
        obtain ⟨rfl, rfl, -⟩ := Prod.mk.inj (Except.ok.inj ok) |>.imp_right Prod.mk.inj
        obtain ⟨new, rfl, fresh, ordered, after, within, kept⟩ := ih tail
        obtain ⟨seen, isSeen, reached⟩ := kept o.observedAt rfl
        have behind : ∀ seen ∈ watermark, seen.ms < o.observedAt.ms := fun seen mem => by
          rw [Option.mem_def.mp mem] at later
          simpa using later
        refine ⟨⟨hash, o.id, o.observedAt, sampleOf o⟩ :: new, by simp, ?_, ?_, ?_, ?_, ?_⟩
        · refine forall_mem_cons.mpr ⟨⟨rfl, o, mem_cons_self .., rfl⟩, fun row mem => ?_⟩
          obtain ⟨ofHash, o', mem', at'⟩ := fresh row mem
          exact ⟨ofHash, o', mem_cons_of_mem _ mem', at'⟩
        · exact pairwise_cons.mpr ⟨fun row mem => after row mem _ rfl, ordered⟩
        · refine forall_mem_cons.mpr ⟨behind, fun row mem seen mem' => ?_⟩
          have first := behind seen mem'
          have second := after row mem _ rfl
          omega
        · exact forall_mem_cons.mpr ⟨⟨seen, isSeen, reached⟩, within⟩
        · intro seen' mem
          have first := behind seen' mem
          exact ⟨seen, isSeen, by omega⟩

theorem rowsOf_append (left right : List TriggerInputRow) :
    rowsOf (left ++ right) hash = rowsOf left hash ++ rowsOf right hash :=
  filter_append ..

theorem windowInputs_length {now : Int}
    (slow : 21094 ≤ interval) (once : OncePerInterval interval events)
    (ordered : (rowsOf inputs hash).Pairwise fun a b => a.observedAt.ms < b.observedAt.ms)
    (offered : ∀ row ∈ rowsOf inputs hash, ∃ e ∈ events, e.hash = hash ∧
      ∃ o ∈ e.offered, o.observedAt = row.observedAt) :
    (windowInputs inputs hash now).length ≤ 4096 := by
  unfold windowInputs
  rw [length_insertionSort]
  set kept := inputs.filter fun row => row.identityHash = hash ∧
    now - maxWindowMs ≤ row.observedAt.ms ∧ row.observedAt.ms ≤ now with keeps
  have sub : kept.Sublist (rowsOf inputs hash) := by
    refine monotone_filter_right _ fun row here => ?_
    simp only [decide_eq_true_eq] at here ⊢
    exact here.1
  by_cases empty : kept = []
  · simp [empty]
  · have spaced : Spaced (fun row : TriggerInputRow => row.observedAt.ms) interval kept := by
      refine (ordered.sublist sub).imp_of_mem fun {a b} left right before => ?_
      obtain ⟨e, mem, ofHash, o, given, at'⟩ := offered a (sub.subset left)
      obtain ⟨e', mem', ofHash', o', given', at''⟩ := offered b (sub.subset right)
      change a.observedAt.ms + interval ≤ b.observedAt.ms
      rw [← at', ← at''] at before ⊢
      exact once e mem e' mem' (ofHash.trans ofHash'.symm) o given o' given' before
    have window : ∀ row ∈ kept, now - maxWindowMs ≤ row.observedAt.ms ∧ row.observedAt.ms ≤ now := by
      intro row mem
      have here := (mem_filter.mp mem).2
      simp only [decide_eq_true_eq] at here
      exact here.2
    have span := spaced.length_le window empty
    by_contra many
    have wide : ((4096 : Nat) : Int) ≤ kept.length - 1 := by omega
    have product := Int.mul_le_mul wide (Int.ofNat_le.mpr slow) (by omega) (by omega)
    simp only [maxWindowMs] at span
    omega

variable {before : Option TriggerEpisodeRecord} {resourceKey : String}

theorem persist_frame {record : TriggerEpisodeRecord}
    (ok : persistTemplateTransition db before record current resourceKey = .ok t) :
    t.heads = db.heads ∧ t.inputs = db.inputs := by
  unfold persistTemplateTransition at ok
  split at ok
  next =>
    dsimp only at ok
    split at ok
    next => cases ok
    next =>
      rw [← Except.ok.inj ok]
      exact ⟨rfl, rfl⟩
  next =>
    split at ok
    next => cases ok
    next =>
      rw [← Except.ok.inj ok]
      exact ⟨rfl, rfl⟩

/-- The samples a series is given, in the order it takes them. -/
def orderedSamples (env : Platform) (call : TriggerCall) (rule : TriggerRuleSnapshot)
    (dimensions : SeriesDimensions) : List Observation :=
  ((matchingObservations call rule).filter (·.dimensions.sorted = dimensions)).insertionSort
    fun left right =>
      ¬ env.localeLe right.observedAt.text left.observedAt.text ∨
        env.localeLe left.observedAt.text right.observedAt.text ∧ env.localeLe left.id right.id

theorem mem_orderedSamples {o : Observation} : o ∈ orderedSamples env call rule dimensions ↔
    o ∈ SeriesEvent.offered ⟨call, rule, dimensions, hash⟩ :=
  mem_insertionSort _

theorem evaluateHead_rows
    (ok : evaluateHead env db call current rule dimensions identity hash head = .ok t) :
    t = db ∨ ∃ recorded marked accepted next,
      acceptObservations hash head.sampleWatermark (orderedSamples env call rule dimensions)
        db.inputs = .ok (recorded, marked, accepted) ∧
      t.inputs = recorded.filter (fun row =>
        ¬ (row.identityHash = hash ∧ row.observedAt.ms < call.now - maxWindowMs)) ∧
      ∀ h, t.heads.get h = if h = hash then (db.heads.get hash).map fun head =>
        { head with payload := next, sampleWatermark := marked } else db.heads.get h := by
  unfold evaluateHead at ok
  obtain ⟨⟨recorded, marked, accepted⟩, taken, ok⟩ := bind_eq_ok.mp ok
  dsimp only at ok
  split at ok
  next => exact .inl (Except.ok.inj ok).symm
  next =>
    obtain ⟨-, ok⟩ := guard_eq_ok.mp ok
    obtain ⟨next, -, ok⟩ := bind_eq_ok.mp ok
    refine .inr ⟨recorded, marked, accepted, next, taken, ?_⟩
    cases next with
    | none =>
      rw [← Except.ok.inj ok]
      exact ⟨rfl, fun h => settle_heads⟩
    | some record =>
      obtain ⟨persisted, stored, ok⟩ := bind_eq_ok.mp ok
      obtain ⟨heads, inputs⟩ := persist_frame stored
      rw [← Except.ok.inj ok]
      refine ⟨?_, fun h => ?_⟩
      · unfold TriggerDb.settle
        rw [inputs]
      · rw [settle_heads, heads]

/-! ### Other failures -/

theorem acceptObservations_ne_budget {watermark : Option Timestamp} {observations : List Observation} :
    acceptObservations hash watermark observations inputs ≠ .error "TRIGGER_INPUT_BUDGET" := by
  induction observations generalizing watermark inputs with
  | nil => nofun
  | cons o rest ih =>
    unfold acceptObservations
    split
    · exact ih
    · split
      · simp
      · exact Except.bind_ne_error ih fun _ _ => nofun

theorem nextRecord_ne_budget {ruleId : String} {verdict : TriggerEvaluationResult} :
    nextRecord env call ruleId identity before verdict ≠ .error "TRIGGER_INPUT_BUDGET" := by
  unfold nextRecord
  split
  next code _ => cases code <;> simp [episodeError]
  next => split <;> nofun

theorem persist_ne_budget {record : TriggerEpisodeRecord}
    : persistTemplateTransition db before record current resourceKey ≠
      .error "TRIGGER_INPUT_BUDGET" := by
  unfold persistTemplateTransition
  split
  · dsimp only
    split <;> simp
  · split <;> simp

theorem verify_ne_budget {snapshot : TriggerResourceSnapshot} :
    verifyTriggerSnapshot env snapshot ≠ .error "TRIGGER_INPUT_BUDGET" := by
  unfold verifyTriggerSnapshot
  split
  · simp
  · split <;> simp

theorem prior_ne_budget {revision : Nat} :
    priorSnapshot env db resourceKey revision ≠ .error "TRIGGER_INPUT_BUDGET" := by
  unfold priorSnapshot
  split
  · nofun
  · split
    · nofun
    · next stored _ =>
      have own : verifyTriggerSnapshot env stored ≠ .error "TRIGGER_INPUT_BUDGET" := verify_ne_budget
      cases verified : verifyTriggerSnapshot env stored with
      | error code =>
        rw [verified] at own
        exact fun same => own (congrArg Except.error (Except.error.inj same))
      | ok => nofun

theorem claimHead_ne_budget :
    claimHead env db call current previous rule dimensions ≠ .error "TRIGGER_INPUT_BUDGET" := by
  unfold claimHead
  dsimp only
  split
  · split
    · refine Except.bind_ne_error verify_ne_budget fun _ _ => ?_
      split
      · simp
      · nofun
    · nofun
  · nofun

theorem evaluateHead_ne_budget
    (room : ∀ recorded marked accepted,
      acceptObservations hash head.sampleWatermark (orderedSamples env call rule dimensions)
        db.inputs = .ok (recorded, marked, accepted) →
      (windowInputs recorded hash call.now).length ≤ 4096) :
    evaluateHead env db call current rule dimensions identity hash head ≠
      .error "TRIGGER_INPUT_BUDGET" := by
  unfold evaluateHead
  refine Except.bind_ne_error acceptObservations_ne_budget fun ⟨recorded, marked, accepted⟩ taken => ?_
  dsimp only
  split
  · nofun
  · refine Except.guard_ne_error (fun many => absurd (room _ _ _ taken) (not_le.mpr many)) fun _ => ?_
    refine Except.bind_ne_error nextRecord_ne_budget fun next _ => ?_
    cases next with
    | none => nofun
    | some record => exact Except.bind_ne_error persist_ne_budget fun _ _ => nofun

/-! ### What a series keeps -/

theorem TriggerDb.Cached.mono {more : List SeriesEvent} (cached : db.Cached events)
    (sub : events ⊆ more) : db.Cached more :=
  ⟨cached.ordered, fun row mem => (cached.offered row mem).imp fun _ => And.imp_left (@sub _),
    cached.marked⟩

theorem TriggerDb.Cached.claim (cached : db.Cached events)
    (taken : claimHead env db call current previous rule dimensions = .ok (claimed, identity, hash)) :
    claimed.Cached events := by
  obtain ⟨-, ⟨-, -, -, rfl⟩ | ⟨-, rfl, -⟩⟩ := claimHead_cases taken
  · refine ⟨cached.ordered, cached.offered, fun row mem => ?_⟩
    obtain ⟨head, seen, found, marked, within⟩ := cached.marked row mem
    by_cases same : row.identityHash = hash
    · refine ⟨{ head with configRevision := current.configRevision }, seen, ?_, marked, within⟩
      rw [Table.get_updateWhere, if_pos same, ← same, found]
      rfl
    · refine ⟨head, seen, ?_, marked, within⟩
      rw [Table.get_updateWhere, if_neg same]
      exact found
  · refine ⟨cached.ordered, cached.offered, fun row mem => ?_⟩
    obtain ⟨head, seen, found, marked, within⟩ := cached.marked row mem
    by_cases same : row.identityHash = hash
    · refine ⟨{ head with dimensions }, seen, ?_, marked, within⟩
      rw [Table.get_updateWhere, if_pos same, Table.get_insertNew, if_neg, ← same, found]
      · rfl
      · rw [← same, found]
        nofun
    · refine ⟨head, seen, ?_, marked, within⟩
      rw [Table.get_updateWhere, if_neg same, Table.get_insertNew, if_neg fun new => same new.1]
      exact found

theorem TriggerDb.Cached.accept {recorded : List TriggerInputRow} {marked : Option Timestamp}
    {accepted : Nat} (cached : db.Cached events) (mem : ⟨call, rule, dimensions, hash⟩ ∈ events)
    (found : db.heads.get hash = some head)
    (taken : acceptObservations hash head.sampleWatermark (orderedSamples env call rule dimensions)
      db.inputs = .ok (recorded, marked, accepted)) :
    (∀ h, (rowsOf recorded h).Pairwise fun a b => a.observedAt.ms < b.observedAt.ms) ∧
    (∀ row ∈ recorded, ∃ e ∈ events, e.hash = row.identityHash ∧
      ∃ o ∈ e.offered, o.observedAt = row.observedAt) ∧
    ∀ row ∈ recorded, row.identityHash = hash ∧ (∃ seen ∈ marked, row.observedAt.ms ≤ seen.ms) ∨
      row.identityHash ≠ hash ∧ row ∈ db.inputs := by
  obtain ⟨new, rfl, fresh, ordered, after, within, kept⟩ := acceptObservations_spec taken
  have known : ∀ row ∈ db.inputs, row.identityHash = hash →
      ∃ seen ∈ head.sampleWatermark, row.observedAt.ms ≤ seen.ms := by
    intro row mem ofHash
    obtain ⟨head', seen, found', isSeen, below⟩ := cached.marked row mem
    rw [ofHash, found] at found'
    obtain rfl := some.inj found'
    exact ⟨seen, isSeen, below⟩
  refine ⟨fun h => ?_, fun row mem' => ?_, fun row mem' => ?_⟩
  · rw [rowsOf_append, pairwise_append]
    refine ⟨cached.ordered h, ordered.sublist filter_sublist, fun a left b right => ?_⟩
    obtain ⟨inA, ofA⟩ := mem_filter.mp left
    obtain ⟨inB, ofB⟩ := mem_filter.mp right
    have ofA := of_decide_eq_true ofA
    have ofB := of_decide_eq_true ofB
    obtain ⟨seen, isSeen, below⟩ := known a inA (ofA.trans (ofB.symm.trans (fresh b inB).1))
    have above := after b inB seen isSeen
    omega
  · rcases mem_append.mp mem' with old | new'
    · exact cached.offered row old
    · obtain ⟨ofHash, o, given, at'⟩ := fresh row new'
      exact ⟨_, mem, ofHash.symm, o, mem_orderedSamples.mp given, at'⟩
  · rcases mem_append.mp mem' with old | new'
    · by_cases same : row.identityHash = hash
      · left
        obtain ⟨seen, isSeen, below⟩ := known row old same
        obtain ⟨seen', isSeen', above⟩ := kept seen isSeen
        exact ⟨same, seen', isSeen', by omega⟩
      · exact .inr ⟨same, old⟩
    · exact .inl ⟨(fresh row new').1, within row new'⟩

/-! ## One series -/

theorem TriggerDb.Cached.series (cached : db.Cached events)
    (mem : ⟨call, rule, dimensions, hash⟩ ∈ events)
    (ok : evaluateSeries env db call current previous rule dimensions = .ok (t, hash)) :
    t.Cached events := by
  obtain ⟨⟨claimed, identity, hash'⟩, taken, ok⟩ := bind_eq_ok.mp ok
  have cached := cached.claim taken
  dsimp only at ok
  split at ok
  next => cases ok
  next head found =>
    obtain ⟨t', evaluated, ok⟩ := bind_eq_ok.mp ok
    obtain ⟨rfl, rfl⟩ := Prod.mk.inj (Except.ok.inj ok)
    rcases evaluateHead_rows evaluated with
      rfl | ⟨recorded, marked, accepted, next, taken', inputs, heads⟩
    · exact cached
    · obtain ⟨ordered, offered, below⟩ := cached.accept mem found taken'
      refine ⟨fun h => ?_, fun row here => ?_, fun row here => ?_⟩
      · rw [inputs]
        exact (ordered h).sublist (filter_sublist.filter _)
      · rw [inputs] at here
        exact offered row (mem_of_mem_filter here)
      · rw [inputs] at here
        rcases below row (mem_of_mem_filter here) with ⟨same, seen, isSeen, within⟩ | ⟨other, old⟩
        · refine ⟨{ head with payload := next, sampleWatermark := marked }, seen, ?_, isSeen, within⟩
          rw [heads, if_pos same, found]
          rfl
        · obtain ⟨head', seen, found', isSeen, within⟩ := cached.marked row old
          refine ⟨head', seen, ?_, isSeen, within⟩
          rw [heads, if_neg other]
          exact found'

theorem TriggerDb.Cached.series_ne_budget (slow : 21094 ≤ interval)
    (once : OncePerInterval interval events) (cached : db.Cached events)
    (mem : ∀ claimed identity hash,
      claimHead env db call current previous rule dimensions = .ok (claimed, identity, hash) →
        ⟨call, rule, dimensions, hash⟩ ∈ events) :
    evaluateSeries env db call current previous rule dimensions ≠ .error "TRIGGER_INPUT_BUDGET" := by
  unfold evaluateSeries
  refine Except.bind_ne_error claimHead_ne_budget fun ⟨claimed, identity, hash⟩ taken => ?_
  have mem := mem claimed identity hash taken
  have cached := cached.claim taken
  dsimp only
  split
  next =>
    intro same
    exact absurd (Except.error.inj same) (by decide)
  next head found =>
    refine Except.bind_ne_error (evaluateHead_ne_budget fun recorded marked accepted taken => ?_)
      fun _ _ => nofun
    obtain ⟨ordered, offered, -⟩ := cached.accept mem found taken
    refine windowInputs_length slow once (ordered hash) fun row here => ?_
    obtain ⟨here, ofHash⟩ := mem_filter.mp here
    obtain ⟨e, mem, same, facts⟩ := offered row here
    exact ⟨e, mem, same.trans (of_decide_eq_true ofHash), facts⟩

/-! ## All series -/

theorem evaluateSeries_hash
    (ok : evaluateSeries env db call current previous rule dimensions = .ok (t, hash)) :
    ∃ claimed identity,
      claimHead env db call current previous rule dimensions = .ok (claimed, identity, hash) := by
  obtain ⟨⟨claimed, identity, hash'⟩, taken, ok⟩ := bind_eq_ok.mp ok
  dsimp only at ok
  split at ok
  next => cases ok
  next =>
    obtain ⟨t', -, ok⟩ := bind_eq_ok.mp ok
    obtain ⟨-, rfl⟩ := Prod.mk.inj (Except.ok.inj ok)
    exact ⟨claimed, identity, taken⟩

theorem attemptedSeries_claim {rest : List SeriesDimensions}
    (taken : claimHead env db call current previous rule dimensions = .ok (claimed, identity, hash)) :
    ⟨call, rule, dimensions, hash⟩ ∈
      attemptedSeries env call current previous rule (dimensions :: rest) db := by
  rw [attemptedSeries, taken]
  exact mem_cons_self ..

theorem attemptedSeries_cons {rest : List SeriesDimensions}
    (ok : evaluateSeries env db call current previous rule dimensions = .ok (t, hash)) :
    attemptedSeries env call current previous rule (dimensions :: rest) db =
      ⟨call, rule, dimensions, hash⟩ :: attemptedSeries env call current previous rule rest t := by
  obtain ⟨claimed, identity, taken⟩ := evaluateSeries_hash ok
  rw [attemptedSeries, taken]
  dsimp only
  rw [ok]

theorem TriggerDb.Cached.allSeries {series : List SeriesDimensions} (slow : 21094 ≤ interval)
    (cached : db.Cached events) (once : OncePerInterval interval
      (events ++ attemptedSeries env call current previous rule series db)) :
    evaluateAllSeries env call current previous rule series db ≠ .error "TRIGGER_INPUT_BUDGET" ∧
    ∀ t done, evaluateAllSeries env call current previous rule series db = .ok (t, done) →
      t.Cached (events ++ attemptedSeries env call current previous rule series db) := by
  induction series generalizing db events with
  | nil =>
    refine ⟨fun same => (by cases same), fun t done ok => ?_⟩
    obtain ⟨rfl, -⟩ := Prod.mk.inj (Except.ok.inj ok)
    exact cached.mono (subset_append_left _ _)
  | cons dimensions rest ih =>
    have after : ∀ mid hash,
        evaluateSeries env db call current previous rule dimensions = .ok (mid, hash) →
        mid.Cached (events ++ [⟨call, rule, dimensions, hash⟩]) ∧
          events ++ attemptedSeries env call current previous rule (dimensions :: rest) db =
            events ++ [⟨call, rule, dimensions, hash⟩] ++
              attemptedSeries env call current previous rule rest mid := by
      intro mid hash ok
      refine ⟨(cached.mono (subset_append_left _ _)).series (by simp) ok, ?_⟩
      rw [attemptedSeries_cons ok, append_assoc, singleton_append]
    have first : evaluateSeries env db call current previous rule dimensions ≠
        .error "TRIGGER_INPUT_BUDGET" :=
      (cached.mono (subset_append_left _ _)).series_ne_budget slow once
        fun claimed identity hash taken => mem_append_right _ (attemptedSeries_claim taken)
    refine ⟨Except.bind_ne_error first fun ⟨mid, hash⟩ ok => ?_, fun t done ok => ?_⟩
    · obtain ⟨cached, same⟩ := after mid hash ok
      exact Except.bind_ne_error (ih cached (same ▸ once)).1 fun _ _ => nofun
    · obtain ⟨⟨mid, hash⟩, first, ok⟩ := bind_eq_ok.mp ok
      obtain ⟨⟨last, others⟩, tail, ok⟩ := bind_eq_ok.mp ok
      obtain ⟨rfl, -⟩ := Prod.mk.inj (Except.ok.inj ok)
      obtain ⟨cached, same⟩ := after mid hash first
      rw [same]
      exact (ih cached (same ▸ once)).2 _ _ tail

theorem TriggerDb.Cached.rules {rules : List TriggerRuleSnapshot} (slow : 21094 ≤ interval)
    (cached : db.Cached events) (once : OncePerInterval interval
      (events ++ attemptedRules env call current previous rules db)) :
    evaluateRules env call current previous rules db ≠ .error "TRIGGER_INPUT_BUDGET" ∧
    ∀ t done, evaluateRules env call current previous rules db = .ok (t, done) →
      t.Cached (events ++ attemptedRules env call current previous rules db) := by
  induction rules generalizing db events with
  | nil =>
    refine ⟨fun same => (by cases same), fun t done ok => ?_⟩
    obtain ⟨rfl, -⟩ := Prod.mk.inj (Except.ok.inj ok)
    exact cached.mono (subset_append_left _ _)
  | cons rule rest ih =>
    unfold evaluateRules attemptedRules
    unfold attemptedRules at once
    by_cases skipped : rule.decision ≠ .collect ∧ rule.decision ≠ .derive
    · simp only [if_pos skipped] at once ⊢
      exact ih cached once
    simp only [if_neg skipped] at once ⊢
    by_cases wide : maxSeries < (seriesDimensions db call current rule).length
    · simp only [if_pos wide] at once ⊢
      refine ⟨fun same => ?_, fun t done ok => by cases ok⟩
      exact absurd (Except.error.inj same) (by decide)
    simp only [if_neg wide] at once ⊢
    have part : OncePerInterval interval (events ++ attemptedSeries env call current previous rule
        (seriesDimensions db call current rule) db) := by
      intro e mem e' mem'
      rw [← append_assoc] at once
      exact once e (mem_append_left _ mem) e' (mem_append_left _ mem')
    obtain ⟨fine, after⟩ := cached.allSeries slow part
    refine ⟨Except.bind_ne_error fine ?_, fun t done ok => ?_⟩
    · rintro ⟨mid, done⟩ ok
      rw [ok, ← append_assoc] at once
      exact Except.bind_ne_error (ih (after mid done ok) once).1 fun _ _ same => by cases same
    · obtain ⟨⟨mid, first⟩, series, ok⟩ := bind_eq_ok.mp ok
      obtain ⟨⟨last, others⟩, tail, ok⟩ := bind_eq_ok.mp ok
      obtain ⟨rfl, -⟩ := Prod.mk.inj (Except.ok.inj ok)
      rw [series, ← append_assoc] at once ⊢
      exact (ih (after mid first series) once).2 _ _ tail

theorem TriggerDb.Cached.called (slow : 21094 ≤ interval) (cached : db.Cached events)
    (once : OncePerInterval interval (events ++ attempted env call db)) :
    evaluateTemplateSamples env db call ≠ .error "TRIGGER_INPUT_BUDGET" ∧
    ∀ t done, evaluateTemplateSamples env db call = .ok (t, done) →
      t.Cached (events ++ attempted env call db) := by
  unfold evaluateTemplateSamples attempted
  unfold attempted at once
  by_cases idle : ¬ call.hasTriggers
  · simp only [if_pos idle] at once ⊢
    refine ⟨fun same => (by cases same), fun t done ok => ?_⟩
    obtain ⟨rfl, -⟩ := Prod.mk.inj (Except.ok.inj ok)
    exact cached.mono (subset_append_left _ _)
  simp only [if_neg idle] at once ⊢
  cases found : db.snapshots.get (call.resourceKey, call.revision) with
  | none =>
    refine ⟨fun same => ?_, fun t done ok => by cases ok⟩
    exact absurd (Except.error.inj same) (by decide)
  | some stored =>
    rw [found] at once
    dsimp only at once ⊢
    constructor
    · refine Except.bind_ne_error verify_ne_budget fun current verified => ?_
      refine Except.bind_ne_error prior_ne_budget fun previous prior => ?_
      rw [verified] at once
      dsimp only at once
      rw [prior] at once
      cases fence : checkTriggerSnapshotFence current (some call.applied) with
      | error code =>
        intro same
        exact absurd (Except.error.inj same) (by decide)
      | ok =>
        rw [fence] at once
        exact (cached.rules slow once).1
    · intro t done ok
      obtain ⟨current, verified, ok⟩ := bind_eq_ok.mp ok
      obtain ⟨previous, prior, ok⟩ := bind_eq_ok.mp ok
      rw [verified] at once ⊢
      dsimp only at once ⊢
      rw [prior] at once ⊢
      cases fence : checkTriggerSnapshotFence current (some call.applied) with
      | error code =>
        rw [fence] at ok
        cases ok
      | ok =>
        rw [fence] at once ok
        exact (cached.rules slow once).2 t done ok

theorem TriggerDb.Cached.run {s : TriggerDb} {calls : List CallEvent} (slow : 21094 ≤ interval)
    (empty : db.inputs = []) (run : Run (TriggerDb.Write env) db calls s)
    (once : OncePerInterval interval (calls.flatMap CallEvent.events)) :
    s.Cached (calls.flatMap CallEvent.events) := by
  revert once
  refine run.history (P := fun calls s => OncePerInterval interval (calls.flatMap CallEvent.events) →
    s.Cached (calls.flatMap CallEvent.events)) (fun _ => ?_) fun calls s e t ih step once => ?_
  · refine ⟨fun hash => ?_, ?_, ?_⟩
    · rw [empty]
      exact .nil
    · rw [empty]
      exact forall_mem_nil _
    · rw [empty]
      exact forall_mem_nil _
  · rw [flatMap_append, flatMap_singleton] at once ⊢
    obtain ⟨events, outcome⟩ := step
    have cached := ih fun e mem e' mem' =>
      once e (mem_append_left _ mem) e' (mem_append_left _ mem')
    rw [events] at once ⊢
    cases result : evaluateTemplateSamples env s e.call with
    | error code =>
      rw [result] at outcome
      rw [outcome]
      exact cached.mono (subset_append_left _ _)
    | ok after =>
      rw [result] at outcome
      rw [outcome]
      exact (cached.called slow once).2 _ _ result

theorem cache_keeps_up {s : TriggerDb} {calls : List CallEvent} (slow : 21094 ≤ interval)
    (empty : db.inputs = []) (run : Run (TriggerDb.Write env) db calls s)
    (once : OncePerInterval interval
      (calls.flatMap CallEvent.events ++ attempted env call s)) :
    evaluateTemplateSamples env s call ≠ .error "TRIGGER_INPUT_BUDGET" := by
  have cached : s.Cached (calls.flatMap CallEvent.events) := TriggerDb.Cached.run slow empty run
    fun e mem e' mem' => once e (mem_append_left _ mem) e' (mem_append_left _ mem')
  exact (cached.called slow once).1

end Cache

end Slide.Triggers
