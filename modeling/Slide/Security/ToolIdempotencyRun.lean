import Slide.Library.Fallible
import Slide.Library.Guarded
import Slide.Security.ToolIdempotency

/-!
# What the count of a repeated claim leaves of the keys

The statement of `claim` sets nothing, so its count is one whether or not there was a row, and a key is
claimed by whoever reads the row while it is running.  As long as no repetition reads a running row, a
key is claimed once, another hash is a conflict, and a completed key answers with its one result.
-/

namespace Slide.Security

open Slide.Display Guarded List

/-- The result is no text that `JSON.parse` takes for another value. -/
def Readable (host : IdempotencyHost) (result : Json) : Prop :=
  ∀ text value, host.column result = .string text → host.parse text = some value →
    value.deepEqual result

/-- A call that found the key taken does not read a running row under its own hash. -/
def ToolEvent.Meets (host : IdempotencyHost) (w : ToolWorld) : ToolEvent → Prop
  | .insert .. => True
  | .select i => ∀ call row, w.calls[i]? = some call → call.existing = true →
    w.table.get call.key = some row → row.argumentsHash = call.argumentsHash → row.state ≠ .running
  | .finish _ _ _ _ _ _ result => Readable host result

variable {host : IdempotencyHost} {w : ToolWorld} {key k : ToolKey} {row : ToolRow}
  {argumentsHash : String} {affectedRows : Nat} {result : Json} {state : ToolState}

instance (w : ToolWorld) (i : Nat) : Decidable ((ToolEvent.select i).Meets host w) :=
  decidable_of_iff (∀ call ∈ w.calls[i]?, call.existing = true → ∀ row ∈ w.table.get call.key,
      row.argumentsHash = call.argumentsHash → row.state ≠ .running)
    ⟨fun meets call row here taken found => meets call here taken row found,
      fun meets call here taken row found => meets call row here taken found⟩

/-! ## The statements -/

theorem insertClaim_eq {table : Table ToolKey ToolRow} : insertClaim table key argumentsHash =
    (table.insertNew key ⟨argumentsHash, .running, none⟩, 1) :=
  Table.insertOrUpdate_id

theorem claimAnswer_conflict (differ : row.argumentsHash ≠ argumentsHash) :
    claimAnswer host argumentsHash affectedRows (some row) = .ok (.conflict argumentsHash) :=
  if_pos differ

theorem claimAnswer_claimed {h : String}
    (answered : claimAnswer host argumentsHash affectedRows (some row) = .ok (.claimed h)) :
    row.argumentsHash = argumentsHash ∧ row.state = .running := by
  simp only [claimAnswer] at answered
  split at answered
  · cases answered
  next same =>
    refine ⟨not_not.mp same, ?_⟩
    split at answered
    next =>
      obtain ⟨value, -, absurd⟩ := Except.map_eq_ok.mp answered
      cases absurd
    next running => exact running
    next => cases answered

theorem claimAnswer_completed {h : String}
    (answered : claimAnswer host argumentsHash affectedRows (some row) = .ok (.completed h result)) :
    row.state = .completed ∧ resultOf host row = .ok result := by
  simp only [claimAnswer] at answered
  split at answered
  · cases answered
  · split at answered
    next completed =>
      obtain ⟨value, read, same⟩ := Except.map_eq_ok.mp answered
      cases same
      exact ⟨completed, read⟩
    next =>
      split at answered <;> cases answered
    next => cases answered

theorem resultOf_ok {stored : Json} (held : row.resultJson = some stored)
    (column : (host.column stored).deepEqual stored) (readable : Readable host stored)
    (read : resultOf host row = .ok result) : result.deepEqual stored := by
  unfold resultOf at read
  rw [held, Option.map_some] at read
  split at read
  next text of_column =>
    split at read
    next value parsed =>
      cases read
      exact readable text result (some.inj of_column) parsed
    next => cases read
  next of_column =>
    cases read
    exact some.inj of_column ▸ column
  next absurd => cases absurd

/-! ## The table along a run -/

/-- Rows stay under their hash, and finished ones as they are. -/
def RowsStay (w w' : ToolWorld) : Prop :=
  ∀ key row, w.table.get key = some row → ∃ row', w'.table.get key = some row' ∧
    row'.argumentsHash = row.argumentsHash ∧ (row.state ≠ .running → row' = row)

instance : Std.Refl RowsStay := ⟨fun _ _ row found => ⟨row, found, rfl, fun _ => rfl⟩⟩

instance : IsTrans ToolWorld RowsStay := by
  refine ⟨fun _ _ _ first second key row found => ?_⟩
  obtain ⟨row', found', hash', same'⟩ := first key row found
  obtain ⟨row'', found'', hash'', same''⟩ := second key row' found'
  refine ⟨row'', found'', hash''.trans hash', fun finished => ?_⟩
  have same := same' finished
  exact (same'' (same ▸ finished)).trans same

theorem rowsStay_step (w : ToolWorld) (event : ToolEvent) : RowsStay w (w.step host event) := by
  intro key row found
  cases event with
  | insert actorId sessionId toolName name args =>
    refine ⟨row, ?_, rfl, fun _ => rfl⟩
    simp only [ToolWorld.step, insertClaim_eq, Table.get_insertNew]
    rw [if_neg fun taken => ?_, found]
    rw [← taken.1, found] at taken
    cases taken.2
  | select i =>
    refine ⟨row, ?_, rfl, fun _ => rfl⟩
    simp only [ToolWorld.step]
    split <;> exact found
  | finish actorId sessionId toolName name hash success result =>
    simp only [ToolWorld.step, finishStatement, Table.get_updateWhere]
    split
    next same =>
      subst same
      rw [found, Option.map_some]
      refine ⟨_, rfl, ?_, fun finished => ?_⟩
      · split <;> rfl
      · exact if_neg fun passes => finished (of_decide_eq_true passes).2
    next => exact ⟨row, found, rfl, fun _ => rfl⟩

/-! ## The run -/

/-- What a run keeps of the rows, of what was written and of the calls. -/
structure ToolInv (host : IdempotencyHost) (w : ToolWorld) : Prop where
  /-- A finished row holds what the one call of `finish` that wrote it has given. -/
  finished : ∀ e ∈ w.applied, e.state ≠ .running ∧ Readable host e.result ∧
    w.table.get e.key = some ⟨e.argumentsHash, e.state, some e.result⟩
  written : ∀ key row, w.table.get key = some row → row.state ≠ .running →
    ∃ e ∈ w.applied, e.key = key
  once : (w.applied.map Applied.key).Nodup
  /-- Every call has a row, and only the first of a key did not find it. -/
  rows : ∀ call ∈ w.calls, ∃ row, w.table.get call.key = some row
  first : (w.calls.map fun call => (call.key, call.existing)).Pairwise fun call later =>
    later.1 = call.1 → later.2 = true
  claimed : ∀ call ∈ w.calls, ∀ h, call.answer = some (.ok (.claimed h)) → call.existing = false
  conflict : ∀ call ∈ w.calls, ∀ answer row, call.answer = some answer →
    w.table.get call.key = some row → row.argumentsHash ≠ call.argumentsHash →
      answer = .ok (.conflict call.argumentsHash)
  completed : ∀ call ∈ w.calls, ∀ h result, call.answer = some (.ok (.completed h result)) →
    ∃ e ∈ w.applied, e.key = call.key ∧ e.state = .completed ∧ result.deepEqual e.result

theorem toolInv_start : ToolInv host .start where
  finished := fun _ mem => (nomatch mem)
  written := fun _ _ found => (nomatch found)
  once := nodup_nil
  rows := fun _ mem => (nomatch mem)
  first := .nil
  claimed := fun _ mem => (nomatch mem)
  conflict := fun _ mem => (nomatch mem)
  completed := fun _ mem => (nomatch mem)

theorem ToolInv.of_calls {calls : List ClaimCall} (inv : ToolInv host w)
    (rows : ∀ call ∈ calls, ∃ row, w.table.get call.key = some row)
    (first : (calls.map fun call => (call.key, call.existing)).Pairwise fun call later =>
      later.1 = call.1 → later.2 = true)
    (answers : ∀ call ∈ calls, call ∈ w.calls ∨ (∃ answer row, call.answer = some answer ∧
      w.table.get call.key = some row ∧
      (∀ h, answer = .ok (.claimed h) → call.existing = false) ∧
      (row.argumentsHash ≠ call.argumentsHash → answer = .ok (.conflict call.argumentsHash)) ∧
      ∀ h result, answer = .ok (.completed h result) →
        ∃ e ∈ w.applied, e.key = call.key ∧ e.state = .completed ∧ result.deepEqual e.result)) :
    ToolInv host { w with calls } where
  finished := inv.finished
  written := inv.written
  once := inv.once
  rows := rows
  first := first
  claimed := by
    intro call mem h answered
    rcases answers call mem with old | ⟨answer, row, given, -, claimed, -⟩
    · exact inv.claimed call old h answered
    · rw [given] at answered
      exact claimed h (some.inj answered)
  conflict := by
    intro call mem answer row answered found differ
    rcases answers call mem with old | ⟨answer', row', given, found', -, conflict, -⟩
    · exact inv.conflict call old answer row answered found differ
    · rw [given] at answered
      cases answered
      cases found'.symm.trans found
      exact conflict differ
  completed := by
    intro call mem h result answered
    rcases answers call mem with old | ⟨answer, row, given, -, -, -, completed⟩
    · exact inv.completed call old h result answered
    · rw [given] at answered
      exact completed h result (some.inj answered)

theorem ToolInv.select {i : Nat} (inv : ToolInv host w)
    (column : ∀ value, (host.column value).deepEqual value)
    (meets : (ToolEvent.select i).Meets host w) : ToolInv host (w.step host (.select i)) := by
  simp only [ToolWorld.step]
  cases here : w.calls[i]? with
  | none => exact inv
  | some call =>
    have mem : call ∈ w.calls := mem_of_getElem? here
    obtain ⟨row, found⟩ := inv.rows call mem
    refine inv.of_calls ?_ ?_ ?_
    · intro other inside
      rcases mem_or_eq_of_mem_set inside with old | rfl
      · exact inv.rows other old
      · exact ⟨row, found⟩
    · obtain ⟨inside, rfl⟩ := List.getElem?_eq_some_iff.mp here
      rw [List.map_set, ← List.getElem_map fun call : ClaimCall => (call.key, call.existing)]
      · rw [set_getElem_self]
        exact inv.first
      · rwa [length_map]
    · intro other inside
      rcases mem_or_eq_of_mem_set inside with old | rfl
      · exact .inl old
      cases answered : call.answer with
      | some answer =>
        refine .inr ⟨answer, row, rfl, found, fun h same => ?_, fun differ => ?_, fun h r same => ?_⟩
        · exact inv.claimed call mem h (same ▸ answered)
        · exact inv.conflict call mem answer row answered found differ
        · exact inv.completed call mem h r (same ▸ answered)
      | none =>
        refine .inr ⟨_, row, rfl, found, fun h same => ?_, fun differ => ?_, fun h r same => ?_⟩
        · rw [found] at same
          obtain ⟨equal, running⟩ := claimAnswer_claimed same
          by_contra taken
          exact meets call row here (Bool.eq_true_of_not_eq_false taken) found equal running
        · rw [found]
          exact claimAnswer_conflict differ
        · rw [found] at same
          obtain ⟨completed, read⟩ := claimAnswer_completed same
          have finished : row.state ≠ .running := by
            rw [completed]
            decide
          obtain ⟨e, written, of_key⟩ := inv.written call.key row found finished
          obtain ⟨-, readable, held⟩ := inv.finished e written
          rw [of_key, found] at held
          cases held
          exact ⟨e, written, of_key, completed, resultOf_ok rfl (column _) readable read⟩

theorem ToolInv.insert {actorId : Nat} {sessionId toolName name : String} {args : Json}
    (inv : ToolInv host w) :
    ToolInv host (w.step host (.insert actorId sessionId toolName name args)) := by
  have stay : RowsStay w (w.step host (.insert actorId sessionId toolName name args)) :=
    rowsStay_step w _
  generalize event : ToolEvent.insert actorId sessionId toolName name args = e at stay ⊢
  have calls : (w.step host e).calls = w.calls ++ [⟨toolKey host actorId sessionId toolName name,
      stableArgumentsHash host args, 1, (w.table.get
        (toolKey host actorId sessionId toolName name)).isSome, none⟩] := by
    rw [← event]
    simp only [ToolWorld.step, insertClaim_eq]
  have applied : (w.step host e).applied = w.applied := by
    rw [← event]
    rfl
  have table : (w.step host e).table = w.table.insertNew
      (toolKey host actorId sessionId toolName name) ⟨stableArgumentsHash host args, .running, none⟩ := by
    rw [← event]
    simp only [ToolWorld.step, insertClaim_eq]
  have old {call : ClaimCall} {answer : Except String ToolIdempotencyClaim}
      (mem : call ∈ (w.step host e).calls) (answered : call.answer = some answer) :
      call ∈ w.calls := by
    rw [calls] at mem
    rcases mem_append.mp mem with old | new
    · exact old
    · obtain rfl := mem_singleton.mp new
      cases answered
  refine ⟨fun d mem => ?_, fun key row found late => ?_, ?_, fun call mem => ?_, ?_,
    fun call mem h answered => inv.claimed call (old mem answered) h answered,
    fun call mem answer row answered found differ => ?_, fun call mem h r answered => ?_⟩
  · rw [applied] at mem
    obtain ⟨state, readable, held⟩ := inv.finished d mem
    obtain ⟨row', found', -, same⟩ := stay d.key _ held
    exact ⟨state, readable, same state ▸ found'⟩
  · rw [applied]
    rw [table, Table.get_insertNew] at found
    split at found
    · cases found
      exact absurd rfl late
    · exact inv.written key row found late
  · rw [applied]
    exact inv.once
  · rw [calls] at mem
    rcases mem_append.mp mem with old | new
    · obtain ⟨row, found⟩ := inv.rows call old
      obtain ⟨row', found', -⟩ := stay _ row found
      exact ⟨row', found'⟩
    · obtain rfl := mem_singleton.mp new
      rw [table, Table.get_insertNew]
      split
      · exact ⟨_, rfl⟩
      next taken => exact Option.ne_none_iff_exists'.mp fun absent => taken ⟨rfl, absent⟩
  · rw [calls, map_append, pairwise_append]
    refine ⟨inv.first, pairwise_singleton .., fun call mem later new same => ?_⟩
    obtain ⟨call, inside, rfl⟩ := mem_map.mp mem
    obtain rfl := mem_singleton.mp new
    obtain ⟨row, found⟩ := inv.rows call inside
    change (w.table.get _).isSome = true
    rw [show toolKey host actorId sessionId toolName name = call.key from same, found]
    rfl
  · have inside := old mem answered
    obtain ⟨row', found'⟩ := inv.rows call inside
    obtain ⟨row'', found'', hash, -⟩ := stay _ row' found'
    cases found''.symm.trans found
    exact inv.conflict call inside answer row' answered found' (hash ▸ differ)
  · rw [applied]
    exact inv.completed call (old mem answered) h r answered

theorem finishStatement_cases (table : Table ToolKey ToolRow) (key : ToolKey)
    (argumentsHash : String) (state : ToolState) (result : Json) :
    (∃ row, table.get key = some row ∧ row.argumentsHash = argumentsHash ∧ row.state = .running ∧
      finishStatement table key argumentsHash state result =
        (table.put key ⟨argumentsHash, state, some result⟩, 1)) ∨
    ((finishStatement table key argumentsHash state result).1 = table ∧
      (finishStatement table key argumentsHash state result).2 ≠ 1) := by
  by_cases affected : (finishStatement table key argumentsHash state result).2 = 1
  · obtain ⟨row, found, passes⟩ := Table.affected_iff.mp affected
    obtain ⟨rfl, running⟩ := of_decide_eq_true passes
    exact .inl ⟨row, found, rfl, running, Table.updateWhere_of_pass found passes⟩
  · exact .inr ⟨Table.updateWhere_of_not_affected affected, affected⟩

theorem ToolInv.finish {actorId : Nat} {sessionId toolName name hash : String} {success : Bool}
    (inv : ToolInv host w) (readable : Readable host result) :
    ToolInv host (w.step host (.finish actorId sessionId toolName name hash success result)) := by
  have stay : RowsStay w
      (w.step host (.finish actorId sessionId toolName name hash success result)) :=
    rowsStay_step w _
  simp only [ToolWorld.step] at stay ⊢
  generalize toolKey host actorId sessionId toolName name = key at stay ⊢
  have state : finishState success ≠ .running := by cases success <;> nofun
  rcases finishStatement_cases w.table key hash (finishState success) result with
    ⟨row, found, rfl, running, wrote⟩ | ⟨same, missed⟩
  · rw [wrote] at stay ⊢
    rw [if_pos rfl] at stay ⊢
    have fresh : ∀ e ∈ w.applied, e.key ≠ key := by
      rintro e mem rfl
      obtain ⟨late, -, held⟩ := inv.finished e mem
      cases held.symm.trans found
      exact late running
    refine ⟨fun e mem => ?_, fun k r held late => ?_, ?_, fun call mem => ?_, inv.first, inv.claimed,
      fun call mem answer r answered held differ => ?_, fun call mem h r answered => ?_⟩
    · rcases mem_append.mp mem with old | new
      · obtain ⟨late, readable, held⟩ := inv.finished e old
        exact ⟨late, readable, (Table.get_put_ne (fresh e old)).trans held⟩
      · obtain rfl := mem_singleton.mp new
        exact ⟨state, readable, Table.get_put_self⟩
    · by_cases of_key : k = key
      · exact ⟨_, mem_append_right _ (mem_singleton_self _), of_key.symm⟩
      · obtain ⟨e, mem, of_e⟩ := inv.written k r ((Table.get_put_ne of_key).symm.trans held) late
        exact ⟨e, mem_append_left _ mem, of_e⟩
    · rw [map_append, nodup_append]
      refine ⟨inv.once, nodup_singleton _, fun k mem j new same => ?_⟩
      obtain ⟨e, inside, rfl⟩ := mem_map.mp mem
      obtain rfl := mem_singleton.mp new
      exact fresh e inside same
    · obtain ⟨r, held⟩ := inv.rows call mem
      obtain ⟨r', held', -⟩ := stay _ r held
      exact ⟨r', held'⟩
    · obtain ⟨r', held'⟩ := inv.rows call mem
      obtain ⟨r'', held'', hash, -⟩ := stay _ r' held'
      cases held''.symm.trans held
      exact inv.conflict call mem answer r' answered held' (hash ▸ differ)
    · obtain ⟨e, inside, rest⟩ := inv.completed call mem h r answered
      exact ⟨e, mem_append_left _ inside, rest⟩
  · rw [same, if_neg missed]
    exact inv

/-- What the keys are after a run from the empty table. -/
structure KeysKept (host : IdempotencyHost) (events : List ToolEvent) : Prop where
  /-- At most one call for a key is answered `claimed`. -/
  claimed_once : ∀ (i j : Nat) (c d : ClaimCall) (g h : String), (runTools host .start events).calls[i]? = some c →
    (runTools host .start events).calls[j]? = some d → c.key = d.key →
    c.answer = some (.ok (.claimed g)) → d.answer = some (.ok (.claimed h)) → i = j
  /-- A call whose hash is not the stored one is answered `conflict`. -/
  conflict : ∀ call ∈ (runTools host .start events).calls, ∀ answer row,
    call.answer = some answer → (runTools host .start events).table.get call.key = some row →
    row.argumentsHash ≠ call.argumentsHash → answer = .ok (.conflict call.argumentsHash)
  /-- One call of `finish` is applied to a key at most. -/
  finished_once : ((runTools host .start events).applied.map Applied.key).Nodup
  /-- `completed` answers with the result of that call. -/
  completed : ∀ call ∈ (runTools host .start events).calls, ∀ h result,
    call.answer = some (.ok (.completed h result)) →
    ∃ e ∈ (runTools host .start events).applied, e.key = call.key ∧ e.state = .completed ∧
      result.deepEqual e.result
  /-- From then on the row stays. -/
  stays : ∀ earlier, earlier <+: events → ∀ e ∈ (runTools host .start earlier).applied,
    (runTools host .start events).table.get e.key =
      some ⟨e.argumentsHash, e.state, some e.result⟩

/-- A key is claimed at most once as long as nobody repeats it while its row is running. -/
theorem claimed_at_most_once (host : IdempotencyHost) (events : List ToolEvent)
    (column : ∀ value, (host.column value).deepEqual value)
    (observes : Observes (ToolWorld.step host) (fun w event => event.Meets host w) .start events) :
    KeysKept host events := by
  have inv_of {events : List ToolEvent} (observes : Observes (ToolWorld.step host)
      (fun w event => event.Meets host w) .start events) :
      ToolInv host (runTools host .start events) := by
    refine observes.invariant toolInv_start fun w event inv meets => ?_
    cases event with
    | insert => exact inv.insert
    | select i => exact inv.select column meets
    | finish => exact inv.finish meets
  have inv := inv_of observes
  refine ⟨fun i j c d g h at_i at_j same claimed claimed' => ?_, inv.conflict, inv.once, inv.completed,
    fun earlier before e mem => ?_⟩
  · have new := inv.claimed c (mem_of_getElem? at_i) g claimed
    have new' := inv.claimed d (mem_of_getElem? at_j) h claimed'
    have apart {i j : Nat} {c d : ClaimCall} (at_i : (runTools host .start events).calls[i]? = some c)
        (at_j : (runTools host .start events).calls[j]? = some d) (before : i < j)
        (same : d.key = c.key) : d.existing = true := by
      obtain ⟨inside, rfl⟩ := List.getElem?_eq_some_iff.mp at_i
      obtain ⟨inside', rfl⟩ := List.getElem?_eq_some_iff.mp at_j
      have later := pairwise_iff_getElem.mp inv.first i j (by simpa using inside)
        (by simpa using inside') before
      simp only [getElem_map] at later
      exact later same
    rcases Nat.lt_trichotomy i j with before | equal | after
    · exact absurd (apart at_i at_j before same.symm) (Bool.eq_false_iff.mp new')
    · exact equal
    · exact absurd (apart at_j at_i after same) (Bool.eq_false_iff.mp new)
  · obtain ⟨late, -, held⟩ := (inv_of (observes.of_prefix before)).finished e mem
    obtain ⟨row, found, -, same⟩ :=
      related_of_initial (@rowsStay_step host) before _ _ held
    exact same late ▸ found

/-! ## A key that is claimed twice -/

section Twice

/-- A host whose column and whose texts keep what they are given. -/
def plainHost : IdempotencyHost where
  sha256 := fun text => text
  localeLe := fun a b => a ≤ b
  numberText := fun n => toString n.num
  parse := fun _ => none
  column := fun value => value

def batch : ToolEvent :=
  .insert 7 "chat:1" "slide_add_database_batch" "key-1" (.object [("databases", .array [])])

/-- The second call repeats the first while the first is at work. -/
def repeatedWhileRunning : List ToolEvent := [batch, .select 0, batch, .select 1]

/-- Both calls are told that the key is theirs. -/
theorem claimed_twice :
    let w := runTools plainHost .start repeatedWhileRunning
    w.calls.map ClaimCall.key = [toolKey plainHost 7 "chat:1" "slide_add_database_batch" "key-1",
        toolKey plainHost 7 "chat:1" "slide_add_database_batch" "key-1"] ∧
      ∀ call ∈ w.calls,
        call.answer.bind Except.toOption = some (.claimed call.argumentsHash) := by
  decide

def batchDone : ToolEvent :=
  .finish 7 "chat:1" "slide_add_database_batch" "key-1"
    (stableArgumentsHash plainHost (.object [("databases", .array [])])) true
    (.object [("success", .bool true)])

/-- The second call repeats the first when it is done. -/
def repeatedWhenDone : List ToolEvent := [batch, .select 0, batchDone, batch, .select 1]

theorem claimed_at_most_once_when_done : KeysKept plainHost repeatedWhenDone := by
  have claimed : Observes (ToolWorld.step plainHost) (fun w event => event.Meets plainHost w) .start
      (repeatedWhenDone.take 2) :=
    (observes_nil.snoc (e := batch) trivial).snoc (e := .select 0) (by decide)
  have readable : Readable plainHost (.object [("success", .bool true)]) :=
    fun _ _ absurd => (nomatch absurd)
  have finished : Observes (ToolWorld.step plainHost) (fun w event => event.Meets plainHost w) .start
      (repeatedWhenDone.take 4) := (claimed.snoc (e := batchDone) readable).snoc (e := batch) trivial
  have again : (ToolEvent.select 1).Meets plainHost (runTools plainHost .start
      (repeatedWhenDone.take 4)) := by decide
  exact claimed_at_most_once plainHost repeatedWhenDone (fun _ => rfl) (finished.snoc again)

end Twice

end Slide.Security
