import Slide.Triggers.InputCache

/-!
# Series the input cache starves

Samples that come every 21093 ms or less fill the cache: each call of a series that is on time records
one more input and, within a day, prunes none, so the call after the 4096th throws.  The rule has no
window at all.
-/

namespace Slide.Triggers

open Metrics Transition List

theorem attempted_call {env : Platform} {call : TriggerCall} {db : TriggerDb} {e : SeriesEvent}
    (mem : e ∈ attempted env call db) : e.call = call := by
  have series : ∀ current previous rule dims db,
      e ∈ attemptedSeries env call current previous rule dims db → e.call = call := by
    intro current previous rule dims
    induction dims with
    | nil => exact fun db mem => by cases mem
    | cons dimensions rest ih =>
      intro db mem
      unfold attemptedSeries at mem
      split at mem
      next => cases mem
      next =>
        rcases mem_cons.mp mem with rfl | later
        · rfl
        · split at later
          next => cases later
          next => exact ih _ later
  have rules : ∀ current previous rules db,
      e ∈ attemptedRules env call current previous rules db → e.call = call := by
    intro current previous rules
    induction rules with
    | nil => exact fun db mem => by cases mem
    | cons rule rest ih =>
      intro db mem
      unfold attemptedRules at mem
      split at mem
      next => exact ih db mem
      next =>
        split at mem
        next => cases mem
        next =>
          rcases mem_append.mp mem with first | later
          · exact series _ _ _ _ _ first
          · split at later
            next => cases later
            next => exact ih _ later
  unfold attempted at mem
  repeat' split at mem
  all_goals first | exact rules _ _ _ _ mem | cases mem

/-! ## A series that is on time -/

private def digestOf (c : Char) : HashId := "sha256:" ++ String.ofList (replicate 64 c)

/-- Digests that tell the values below apart. -/
private def plainDigests : Platform where
  hashOf
    | .rule _ => digestOf 'a'
    | .snapshot _ => digestOf 'b'
    | .episodeIdentity identity => identity.ruleId ++ " " ++ identity.contextHash.getD ""
    | .episode identityHash occurrence =>
      identityHash ++ String.ofList (replicate occurrence '+')
    | .context snapshotHash _ _ => snapshotHash
  localeLe left right := decide (left ≤ right)

private def busyRule : TriggerRuleSnapshot :=
  { sessionsRule with bodyHash := digestOf 'd', snapshotHash := digestOf 'a' }

private def busySnapshot : TriggerResourceSnapshot :=
  ⟨⟨.databaseInstance, "7"⟩, 1, "sha256:2", [⟨"mysql", 1, "sha256:5"⟩], [busyRule], digestOf 'b'⟩

private def busyHash : HashId := seriesHash plainDigests busySnapshot busyRule (.dimensions [])

private def atStart : TriggerDb where
  snapshots := Table.empty.put ("instance:7", 1) busySnapshot
  heads := Table.empty
  inputs := []
  episodes := Table.empty

section OnTime

variable (interval : Nat)

private def timeOf (n : Nat) : Timestamp := ⟨isoText (n * interval), n * interval⟩

private def sampleIdOf (n : Nat) : String := String.ofList (replicate n 'x')

private def sampleAt (n : Nat) : Observation where
  id := sampleIdOf n
  resourceType := .databaseInstance
  resourceId := "7"
  metric := busyRule.metric
  dimensions := ⟨[], nodup_nil⟩
  observedAt := timeOf interval n
  collectedAt := timeOf interval n
  storedAt := none
  quality := ⟨.good, .none⟩
  accuracy := .exact
  production := .measured
  source := ⟨"b", "m", "c", "a"⟩
  versions := ⟨⟨1, 0, 0⟩, "mysql", ⟨1, 0, 0⟩, ⟨1, 0, 0⟩, 4⟩
  counter := none
  unit := .count
  value := some (.scalar (.uint64 10))
  origin := .raw "threads_running"

/-- The call of the formal write of a sample. -/
private def onTime (n : Nat) : TriggerCall where
  resourceKey := "instance:7"
  revision := 1
  applied := ⟨.databaseInstance, 7, 1, "sha256:2", .applied⟩
  hasTriggers := true
  intervalMs := interval
  observations := [sampleAt interval n]
  now := n * interval
  clockOnly := false
  discovered _ := none
  blocked _ := true

private def rowAt (n : Nat) : TriggerInputRow :=
  ⟨busyHash, sampleIdOf n, timeOf interval n, sampleOf (sampleAt interval n)⟩

/-- After this many calls every sample is an input. -/
private structure Filled (n : Nat) (s : TriggerDb) : Prop where
  snapshots : s.snapshots = atStart.snapshots
  inputs : s.inputs = (range n).map (rowAt interval)
  others : ∀ h head, s.heads.get h = some head → head.dimensions = []
  head : s.heads.get busyHash =
    if n = 0 then none
    else some ⟨"instance:7", 1, "busy", [], none, some (timeOf interval (n - 1))⟩

private theorem atStart_filled : Filled interval 0 atStart :=
  ⟨rfl, rfl, (fun _ head found => nomatch (found : none = some head)), rfl⟩

variable {interval} {n : Nat} {s t : TriggerDb}

private theorem orderedSamples_onTime :
    orderedSamples plainDigests (onTime interval n) busyRule [] = [sampleAt interval n] := by
  rfl

private theorem seriesDimensions_filled (filled : Filled interval n s) :
    seriesDimensions s (onTime interval n) busySnapshot busyRule = [[]] := by
  have empties (stored : List SeriesDimensions) (all : ∀ dims ∈ stored, dims = []) :
      (if (replicate 1 [] ++ stored).dedup = [] then [[]] else (replicate 1 [] ++ stored).dedup) = [[]] := by
    rw [eq_replicate_of_mem all, replicate_append_replicate, replicate_dedup (by omega)]
    rfl
  unfold seriesDimensions
  apply empties
  intro dims mem
  obtain ⟨⟨h, head⟩, entry, kept⟩ := mem_filterMap.mp mem
  dsimp only at kept
  split at kept
  next => exact some.inj kept ▸ filled.others h head (Table.mem_entries.mp entry)
  next => cases kept

private theorem sampleIdOf_inj {m : Nat} (same : sampleIdOf m = sampleIdOf n) : m = n := by
  have lengths := congrArg String.length same
  simpa [sampleIdOf] using lengths

private theorem accept_filled (positive : 0 < interval) (filled : Filled interval n s) :
    acceptObservations busyHash
        (if n = 0 then none else some (timeOf interval (n - 1)))
        [sampleAt interval n] s.inputs =
      .ok ((range (n + 1)).map (rowAt interval), some (timeOf interval n), 1) := by
  unfold acceptObservations
  rw [if_neg, if_neg]
  · rw [filled.inputs]
    simp [acceptObservations, range_succ, rowAt]
    exact ⟨rfl, rfl⟩
  · rw [filled.inputs]
    simp only [any_map, any_eq_true, not_exists, not_and]
    intro m below
    have other : sampleIdOf m ≠ sampleIdOf n := fun same => by
      have := sampleIdOf_inj same
      simp [this] at below
    simp [rowAt, sampleAt, other]
  · split
    next => simp
    next later =>
      obtain ⟨m, rfl⟩ := Nat.exists_eq_succ_of_ne_zero later
      simp only [Nat.succ_eq_add_one, Nat.add_sub_cancel, Option.any_some, decide_eq_true_eq, sampleAt,
        timeOf, Nat.cast_add, Nat.cast_one, Int.add_mul, Int.one_mul]
      omega

private theorem window_filled (fits : n * interval ≤ maxWindowMs) :
    (windowInputs ((range (n + 1)).map (rowAt interval)) busyHash (n * interval)).length =
      n + 1 := by
  unfold windowInputs
  rw [length_insertionSort, filter_eq_self.mpr, length_map, length_range]
  intro row mem
  obtain ⟨m, below, rfl⟩ := mem_map.mp mem
  have below := Nat.lt_succ_iff.mp (mem_range.mp below)
  have before : (m * interval : Int) ≤ n * interval := by exact_mod_cast Nat.mul_le_mul_right _ below
  have since : (0 : Int) ≤ m * interval := by positivity
  have fits : (n * interval : Int) ≤ maxWindowMs := by exact_mod_cast fits
  have inWindow : (rowAt interval m).identityHash = busyHash ∧
      (n * interval : Int) - maxWindowMs ≤ (rowAt interval m).observedAt.ms ∧
      (rowAt interval m).observedAt.ms ≤ n * interval :=
    ⟨rfl, by simp only [rowAt, timeOf]; omega, before⟩
  exact decide_eq_true inWindow

private def busyIdentity : TriggerEpisodeIdentity :=
  seriesIdentity plainDigests busySnapshot busyRule (.dimensions [])

/-- The head the series takes. -/
private def takenHead (interval n : Nat) : TriggerHead :=
  ⟨"instance:7", 1, "busy", [], none, if n = 0 then none else some (timeOf interval (n - 1))⟩

private theorem claim_filled (filled : Filled interval n s) : ∃ claimed,
    claimHead plainDigests s (onTime interval n) busySnapshot none busyRule [] =
      .ok (claimed, busyIdentity, busyHash) ∧
    claimed.snapshots = s.snapshots ∧ claimed.inputs = s.inputs ∧
    (∀ h head, claimed.heads.get h = some head → head.dimensions = []) ∧
    claimed.heads.get busyHash = some (takenHead interval n) := by
  refine ⟨{ s with
    heads := ((s.heads.insertNew busyHash ⟨"instance:7", 1, "busy", [], none, none⟩).updateWhere busyHash
      (fun _ => true) fun head => { head with dimensions := [] }).1 }, rfl, rfl, rfl, ?_, ?_⟩
  · intro h head found
    rw [Table.get_updateWhere] at found
    split at found
    next =>
      obtain ⟨old, -, same⟩ := Option.map_eq_some_iff.mp found
      rw [← same]
      rfl
    next other =>
      rw [Table.get_insertNew, if_neg fun new => other new.1] at found
      exact filled.others h head found
  · rw [Table.get_updateWhere, if_pos rfl, Table.get_insertNew, filled.head]
    by_cases first : n = 0
    · subst first
      rfl
    · rw [if_neg first, if_neg (by simp)]
      simp [takenHead, first]

private theorem next_blocked {watermark : Option Timestamp} {samples : List TriggerSample} :
    nextRecord plainDigests (onTime interval n) "busy" busyIdentity none
      (nodataVerdict (evaluateTriggerRule busySnapshot ⟨"busy", "item:sessions"⟩
        (requestOf (onTime interval n) none watermark samples))) = .ok none := by
  have wellFormed : busyIdentity.wellFormed = true := by rfl
  generalize requestOf (onTime interval n) none watermark samples = request
  generalize named : evaluateTriggerRule busySnapshot ⟨"busy", "item:sessions"⟩ request = evaluation
  have found : busySnapshot.rule? ⟨"busy", "item:sessions"⟩ = some busyRule := by rfl
  obtain ⟨ruleId, version, scope⟩ := @evaluate_ids busySnapshot _ request busyRule found
  rw [named] at ruleId version scope
  have ids : ¬ ((nodataVerdict evaluation).ruleId ≠ busyIdentity.ruleId ∨
      (nodataVerdict evaluation).ruleVersion ≠ busyIdentity.version ∨
      (nodataVerdict evaluation).scope ≠ busyIdentity.scope) := by
    have same : (nodataVerdict evaluation).ruleId = evaluation.ruleId ∧
        (nodataVerdict evaluation).ruleVersion = evaluation.ruleVersion ∧
        (nodataVerdict evaluation).scope = evaluation.scope := by
      unfold nodataVerdict
      split <;> exact ⟨rfl, rfl, rfl⟩
    rw [same.1, same.2.1, same.2.2, ruleId, version, scope]
    simp only [not_or, not_not]
    exact ⟨rfl, rfl, rfl⟩
  unfold nextRecord nextTriggerEpisode
  rw [if_neg (not_not.mpr wellFormed)]
  dsimp only
  rw [if_neg ids]
  split_ifs with absent
  · rfl
  · dsimp only [ownedRecord, Option.filter_none]
    rw [applyEvaluation_none]
    by_cases problem : (nodataVerdict evaluation).business = .problem
    · rw [if_pos problem]
      exact if_pos ⟨rfl, nofun, rfl⟩
    · rw [if_neg problem]
      exact if_neg fun blocked => nomatch blocked.1

private theorem evaluate_filled (positive : 0 < interval) (fits : n * interval ≤ maxWindowMs)
    (filled : Filled interval n s) {claimed : TriggerDb} (snapshots : claimed.snapshots = s.snapshots)
    (inputs : claimed.inputs = s.inputs)
    (others : ∀ h head, claimed.heads.get h = some head → head.dimensions = [])
    (found : claimed.heads.get busyHash = some (takenHead interval n)) :
    (4096 ≤ n → evaluateHead plainDigests claimed (onTime interval n) busySnapshot busyRule []
      busyIdentity busyHash (takenHead interval n) = .error "TRIGGER_INPUT_BUDGET") ∧
    (n < 4096 → ∃ t, evaluateHead plainDigests claimed (onTime interval n) busySnapshot busyRule []
      busyIdentity busyHash (takenHead interval n) = .ok t ∧
        Filled interval (n + 1) t) := by
  have taken : acceptObservations busyHash (takenHead interval n).sampleWatermark
      (orderedSamples plainDigests (onTime interval n) busyRule []) claimed.inputs =
      .ok ((range (n + 1)).map (rowAt interval), some (timeOf interval n), 1) := by
    rw [inputs, orderedSamples_onTime]
    exact accept_filled positive filled
  have window := window_filled fits
  unfold evaluateHead
  change (4096 ≤ n → (acceptObservations busyHash (takenHead interval n).sampleWatermark
      (orderedSamples plainDigests (onTime interval n) busyRule []) claimed.inputs >>= _) = _) ∧
    (n < 4096 → ∃ t, (acceptObservations busyHash (takenHead interval n).sampleWatermark
      (orderedSamples plainDigests (onTime interval n) busyRule []) claimed.inputs >>= _) = _ ∧ _)
  rw [taken]
  constructor
  · intro many
    dsimp only [bind, Except.bind]
    rw [if_neg (by simp), if_pos]
    · rfl
    · change 4096 < (windowInputs _ busyHash (n * interval)).length
      rw [window]
      omega
  · intro few
    refine ⟨TriggerDb.settle { claimed with inputs := (range (n + 1)).map (rowAt interval) }
        busyHash none (some (timeOf interval n)) (n * interval), ?_, ?_⟩
    · dsimp only [bind, Except.bind]
      rw [if_neg (by simp), if_neg]
      · change (nextRecord plainDigests (onTime interval n) "busy" busyIdentity none
          (nodataVerdict (evaluateTriggerRule busySnapshot ⟨"busy", "item:sessions"⟩
            (requestOf (onTime interval n) none _ _))) >>= _) = _
        rw [next_blocked]
        rfl
      · change ¬ 4096 < (windowInputs _ busyHash (n * interval)).length
        rw [window]
        omega
    · refine ⟨snapshots.trans filled.snapshots, ?_, fun h head there => ?_, ?_⟩
      · refine filter_eq_self.mpr fun row mem => ?_
        obtain ⟨m, -, rfl⟩ := mem_map.mp mem
        have since : (0 : Int) ≤ m * interval := by positivity
        have fits : (n * interval : Int) ≤ maxWindowMs := by exact_mod_cast fits
        refine decide_eq_true fun old => ?_
        have before : (m * interval : Int) < n * interval - maxWindowMs := old.2
        omega
      · rw [settle_heads] at there
        split at there
        next =>
          obtain ⟨old, here, same⟩ := Option.map_eq_some_iff.mp there
          rw [← same]
          exact others busyHash old here
        next => exact others h head there
      · rw [settle_heads, if_pos rfl, if_neg (Nat.succ_ne_zero n)]
        change (claimed.heads.get busyHash).map _ = _
        rw [found]
        rfl

private theorem call_filled (positive : 0 < interval) (fits : n * interval ≤ maxWindowMs)
    (filled : Filled interval n s) :
    (4096 ≤ n → evaluateTemplateSamples plainDigests s (onTime interval n) =
      .error "TRIGGER_INPUT_BUDGET") ∧
    (n < 4096 → ∃ t events, evaluateTemplateSamples plainDigests s (onTime interval n) =
      .ok (t, events) ∧ Filled interval (n + 1) t) := by
  obtain ⟨claimed, taken, snapshots, inputs, others, found⟩ := claim_filled filled
  obtain ⟨fails, goes⟩ := evaluate_filled positive fits filled snapshots inputs others found
  have applied : s.snapshots.get ("instance:7", 1) = some busySnapshot := by
    rw [filled.snapshots]
    exact Table.get_put_self
  have first : s.snapshots.get ("instance:7", 0) = none := by
    rw [filled.snapshots]
    exact Table.get_put_ne (by decide)
  have verified : verifyTriggerSnapshot plainDigests busySnapshot = .ok busySnapshot := by
    unfold verifyTriggerSnapshot
    rw [if_neg (by decide), if_neg (by decide)]
  have prior : priorSnapshot plainDigests s "instance:7" busySnapshot.configRevision = .ok none := by
    unfold priorSnapshot
    simp [busySnapshot, first]
  have fence : checkTriggerSnapshotFence busySnapshot (some (onTime interval n).applied) = .ok () := by
    change checkTriggerSnapshotFence busySnapshot
      (some ⟨.databaseInstance, 7, 1, "sha256:2", .applied⟩) = .ok ()
    unfold checkTriggerSnapshotFence
    dsimp only
    rw [if_neg (by decide), if_neg (by decide), if_neg (by decide), if_neg (by decide)]
  have series : evaluateSeries plainDigests s (onTime interval n) busySnapshot none busyRule [] =
      evaluateHead plainDigests claimed (onTime interval n) busySnapshot busyRule [] busyIdentity
        busyHash (takenHead interval n) >>= fun t => .ok (t, busyHash) := by
    unfold evaluateSeries
    rw [taken]
    dsimp only [bind, Except.bind]
    rw [found]
    rfl
  have call : evaluateTemplateSamples plainDigests s (onTime interval n) =
      evaluateAllSeries plainDigests (onTime interval n) busySnapshot none busyRule [[]] s >>=
        fun after => .ok (after.1, after.2 ++ []) := by
    unfold evaluateTemplateSamples
    rw [if_neg (by simp [onTime])]
    rw [show s.snapshots.get ((onTime interval n).resourceKey, (onTime interval n).revision) =
      some busySnapshot from applied]
    dsimp only
    rw [verified]
    change (priorSnapshot plainDigests s "instance:7" busySnapshot.configRevision >>= _) = _
    rw [prior]
    simp only [bind, Except.bind, fence]
    rw [show busySnapshot.rules = [busyRule] from rfl]
    unfold evaluateRules
    dsimp only
    rw [if_neg (by decide), seriesDimensions_filled filled, if_neg (by decide)]
    rfl
  rw [call]
  unfold evaluateAllSeries
  rw [series]
  refine ⟨fun many => ?_, fun few => ?_⟩
  · rw [fails many]
    rfl
  · obtain ⟨t, ok, next⟩ := goes few
    rw [ok]
    exact ⟨t, _, rfl, next⟩

/-! ## Four thousand calls -/

private theorem run_filled (positive : 0 < interval) (fits : 4096 * interval ≤ maxWindowMs)
    (few : n ≤ 4096) : ∃ calls s, Run (TriggerDb.Write plainDigests) atStart calls s ∧
      Filled interval n s ∧ ∀ e ∈ calls.flatMap CallEvent.events, ∃ m, e.call = onTime interval m := by
  induction n with
  | zero => exact ⟨[], atStart, .nil, atStart_filled interval, forall_mem_nil _⟩
  | succ n ih =>
    obtain ⟨calls, s, run, filled, made⟩ := ih (by omega)
    have within : n * interval ≤ maxWindowMs :=
      (Nat.mul_le_mul_right _ (by omega : n ≤ 4096)).trans fits
    obtain ⟨t, events, ok, next⟩ := (call_filled positive within filled).2 (by omega)
    refine ⟨calls ++ [⟨onTime interval n, attempted plainDigests (onTime interval n) s⟩], t,
      run.snoc ⟨rfl, ?_⟩, next, ?_⟩
    · rw [ok]
    · rw [flatMap_append, flatMap_singleton]
      exact forall_mem_append.mpr ⟨made, fun e mem => ⟨n, attempted_call mem⟩⟩

private theorem once_of_onTime {events : List SeriesEvent}
    (made : ∀ e ∈ events, ∃ m, e.call = onTime interval m) : OncePerInterval interval events := by
  have at_ : ∀ e ∈ events, ∀ o ∈ e.offered, ∃ m : Nat, o.observedAt.ms = m * interval := by
    intro e mem o given
    obtain ⟨m, call⟩ := made e mem
    have among : o ∈ e.call.observations := mem_of_mem_filter (mem_of_mem_filter given)
    rw [call] at among
    exact ⟨m, by rw [mem_singleton.mp among]; rfl⟩
  intro e mem e' mem' _ o given o' given' before
  obtain ⟨m, time⟩ := at_ e mem o given
  obtain ⟨m', time'⟩ := at_ e' mem' o' given'
  rw [time, time'] at before ⊢
  have earlier : m + 1 ≤ m' := by
    by_contra late
    have := Nat.mul_le_mul_right interval (by omega : m' ≤ m)
    exact absurd before (not_lt.mpr (by exact_mod_cast this))
  have gap := Nat.mul_le_mul_right interval earlier
  rw [Nat.add_mul, Nat.one_mul] at gap
  exact_mod_cast gap

private theorem starved (positive : 0 < interval) (fast : interval < 21094) :
    ∃ calls s, Run (TriggerDb.Write plainDigests) atStart calls s ∧
      OncePerInterval interval (calls.flatMap CallEvent.events ++
        attempted plainDigests (onTime interval 4096) s) ∧
      evaluateTemplateSamples plainDigests s (onTime interval 4096) =
        .error "TRIGGER_INPUT_BUDGET" := by
  have fits : 4096 * interval ≤ maxWindowMs := by
    simp only [maxWindowMs]
    omega
  obtain ⟨calls, s, run, filled, made⟩ := run_filled positive fits le_rfl
  refine ⟨calls, s, run, once_of_onTime ?_, (call_filled positive fits filled).1 le_rfl⟩
  exact forall_mem_append.mpr ⟨made, fun e mem => ⟨4096, attempted_call mem⟩⟩

end OnTime

/-- **The input cache** keeps up with the intervals from 21094 ms on, and with no shorter one. -/
theorem cache_keeps_up_iff (interval : Nat) (admitted : 1000 ≤ interval ∧ interval ≤ 86400000) :
    (∀ (env : Platform) (db s : TriggerDb) (calls : List CallEvent) (call : TriggerCall),
      db.inputs = [] → Run (TriggerDb.Write env) db calls s →
      OncePerInterval interval (calls.flatMap CallEvent.events ++ attempted env call s) →
      evaluateTemplateSamples env s call ≠ .error "TRIGGER_INPUT_BUDGET") ↔
    21094 ≤ interval := by
  constructor
  · intro keeps
    by_contra fast
    obtain ⟨calls, s, run, once, fails⟩ :=
      starved (show 0 < interval by omega) (show interval < 21094 by omega)
    exact keeps _ _ _ _ _ rfl run once fails
  · intro slow env db s calls call empty run once
    exact cache_keeps_up slow empty run once

theorem cache_keeps_up_iff_minute :
    (∀ (env : Platform) (db s : TriggerDb) (calls : List CallEvent) (call : TriggerCall),
      db.inputs = [] → Run (TriggerDb.Write env) db calls s →
      OncePerInterval 60000 (calls.flatMap CallEvent.events ++ attempted env call s) →
      evaluateTemplateSamples env s call ≠ .error "TRIGGER_INPUT_BUDGET") ↔
    21094 ≤ 60000 :=
  cache_keeps_up_iff 60000 ⟨by decide, by decide⟩

/-- A series sampled once a second is starved by its own cache. -/
theorem second_starved : ∃ (env : Platform) (db s : TriggerDb) (calls : List CallEvent)
    (call : TriggerCall), db.inputs = [] ∧ Run (TriggerDb.Write env) db calls s ∧
      OncePerInterval 1000 (calls.flatMap CallEvent.events ++ attempted env call s) ∧
      evaluateTemplateSamples env s call = .error "TRIGGER_INPUT_BUDGET" := by
  obtain ⟨calls, s, run, once, fails⟩ := starved (show 0 < 1000 by decide) (by decide)
  exact ⟨_, _, s, calls, _, rfl, run, once, fails⟩

end Slide.Triggers
