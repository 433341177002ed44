import Mathlib.Data.List.Nodup
import Slide.Library.Admission
import Slide.Library.Run

/-!
# Lane admission

`BoundedWorkflowRuntime` of `workflows/bounded-worker.ts`: a job that got a lane waits until the keys
of its resources are free.  Holders and waiters are told apart by the ticket of their `acquire`, as
the source tells them apart by object identity; the abort listener of a waiter is gone once it is
admitted or rejected.
-/

namespace Slide.Workflows

open Transition List

/-! ## Keys -/

/-- `key.startsWith('read:')`. -/
def startsWithRead (key : String) : Bool := "read:".toList.isPrefixOf key.toList

/-- `key.slice(5)`. -/
def sliceRead (key : String) : String := String.ofList (key.toList.drop 5)

/-- The test `pump` makes for one key of a holder and one key of a waiter. -/
def keysClash (a b : String) : Prop :=
  a = "*" ∨ b = "*" ∨ (a = b ∧ ¬ startsWithRead a) ∨ (startsWithRead a ∧ sliceRead a = b) ∨
    (startsWithRead b ∧ sliceRead b = a)

instance : DecidableRel keysClash := fun _ _ => inferInstanceAs (Decidable (_ ∨ _ ∨ _ ∨ _ ∨ _))

/-- Which keys exclude one another: everything excludes `*`, an exclusive key itself, and a read of
`k` excludes `k`. -/
inductive Conflict : String → String → Prop
  | everything_left (b : String) : Conflict "*" b
  | everything_right (a : String) : Conflict a "*"
  | exclusive (k : String) : (¬ ∃ j, k = "read:" ++ j) → Conflict k k
  | read_left (k : String) : Conflict ("read:" ++ k) k
  | read_right (k : String) : Conflict k ("read:" ++ k)

section Keys

variable {a b k : String}

theorem startsWithRead_iff : startsWithRead a = true ∧ sliceRead a = b ↔ a = "read:" ++ b := by
  simp only [startsWithRead, sliceRead, isPrefixOf_iff_prefix]
  constructor
  · rintro ⟨⟨rest, whole⟩, rfl⟩
    apply String.toList_inj.mp
    simp [← whole, String.toList_append, String.toList_ofList]
  · rintro rfl
    rw [String.toList_append]
    exact ⟨⟨b.toList, rfl⟩, String.ofList_toList⟩

theorem startsWithRead_eq_true_iff : startsWithRead a = true ↔ ∃ j, a = "read:" ++ j :=
  ⟨fun reads => ⟨sliceRead a, startsWithRead_iff.mp ⟨reads, rfl⟩⟩,
    fun ⟨_, same⟩ => (startsWithRead_iff.mpr same).1⟩

theorem keysClash_iff : keysClash a b ↔ Conflict a b := by
  simp only [keysClash, startsWithRead_iff]
  rw [startsWithRead_eq_true_iff]
  constructor
  · rintro (rfl | rfl | ⟨rfl, exclusive⟩ | rfl | rfl)
    · exact .everything_left b
    · exact .everything_right a
    · exact .exclusive a exclusive
    · exact .read_left b
    · exact .read_right a
  · intro conflict
    cases conflict with
    | everything_left => exact .inl rfl
    | everything_right => exact .inr (.inl rfl)
    | exclusive _ exclusive => exact .inr (.inr (.inl ⟨rfl, exclusive⟩))
    | read_left => exact .inr (.inr (.inr (.inl rfl)))
    | read_right => exact .inr (.inr (.inr (.inr rfl)))

theorem Conflict.symm (conflict : Conflict a b) : Conflict b a := by
  cases conflict with
  | everything_left => exact .everything_right _
  | everything_right => exact .everything_left _
  | exclusive _ exclusive => exact .exclusive _ exclusive
  | read_left => exact .read_right _
  | read_right => exact .read_left _

end Keys

/-! ## The runtime -/

/-- An entry of `waiting`, and its keys in `active` once it is admitted. -/
structure Waiter where
  ticket : Nat
  keys : List String
deriving DecidableEq

/-- The test of `pump` for a holder and a waiter. -/
def holderBlocks (holder next : Waiter) : Prop := ∃ a ∈ holder.keys, ∃ b ∈ next.keys, keysClash a b

instance : DecidableRel holderBlocks := fun holder next =>
  inferInstanceAs (Decidable (∃ a ∈ holder.keys, ∃ b ∈ next.keys, keysClash a b))

/-- `BoundedWorkflowRuntime`, with the ticket of the next `acquire`. -/
structure BoundedWorkflowRuntime where
  (active waiting : List Waiter)
  next : Nat

def BoundedWorkflowRuntime.initial : BoundedWorkflowRuntime := ⟨[], [], 0⟩

/-- What a call queues and which promises of `acquire` it settles. -/
structure LaneReply where
  queued : List Waiter := []
  admitted : List Waiter := []
  rejected : List Waiter := []

/-- `pump`: the waiters it admits, after the reply so far. -/
def BoundedWorkflowRuntime.pump (s : BoundedWorkflowRuntime) (reply : LaneReply) :
    BoundedWorkflowRuntime × LaneReply :=
  let (waiting, entered) := Admission.letIn holderBlocks s.active s.waiting
  ({ s with active := s.active ++ entered, waiting }, { reply with admitted := entered })

/-- `acquire`; an aborted signal throws before anything is queued. -/
def BoundedWorkflowRuntime.acquire (s : BoundedWorkflowRuntime) (keys : List String)
    (aborted : Bool) : BoundedWorkflowRuntime × LaneReply :=
  if aborted then (s, {})
  else
    let entry : Waiter := ⟨s.next, keys⟩
    { s with waiting := s.waiting ++ [entry], next := s.next + 1 }.pump { queued := [entry] }

/-- The function a resolved `acquire` hands out. -/
def BoundedWorkflowRuntime.release (s : BoundedWorkflowRuntime) (ticket : Nat) :
    BoundedWorkflowRuntime × LaneReply :=
  { s with active := s.active.filter (·.ticket ≠ ticket) }.pump {}

/-- `onAbort`; once the waiter is admitted or rejected, nobody listens any more. -/
def BoundedWorkflowRuntime.abort (s : BoundedWorkflowRuntime) (ticket : Nat) :
    BoundedWorkflowRuntime × LaneReply :=
  if ∃ w ∈ s.waiting, w.ticket = ticket then
    { s with waiting := s.waiting.filter (·.ticket ≠ ticket) }.pump
      { rejected := s.waiting.filter (·.ticket = ticket) }
  else (s, {})

inductive LaneEvent
  | acquire (keys : List String) (aborted : Bool)
  | release (ticket : Nat)
  | abort (ticket : Nat)

def BoundedWorkflowRuntime.handle (s : BoundedWorkflowRuntime) :
    LaneEvent → BoundedWorkflowRuntime × LaneReply
  | .acquire keys aborted => s.acquire keys aborted
  | .release ticket => s.release ticket
  | .abort ticket => s.abort ticket

/-- An event and what it settled. -/
structure LaneStep where
  event : LaneEvent
  reply : LaneReply

/-- One event. -/
def BoundedWorkflowRuntime.Step (s : BoundedWorkflowRuntime) (e : LaneStep)
    (t : BoundedWorkflowRuntime) : Prop :=
  s.handle e.event = (t, e.reply)

/-- The waiters queued so far. -/
def queuedIn (es : List LaneStep) : List Waiter := es.flatMap (·.reply.queued)

/-- The waiters admitted so far, in order. -/
def admittedIn (es : List LaneStep) : List Waiter := es.flatMap (·.reply.admitted)

/-- The waiters whose abort came before their admission. -/
def rejectedIn (es : List LaneStep) : List Waiter := es.flatMap (·.reply.rejected)

/-- The waiter was admitted by a step and released by a later one. -/
def ReleasedIn (es : List LaneStep) (w : Waiter) : Prop :=
  ∃ before e after, es = before ++ e :: after ∧ w ∈ e.reply.admitted ∧
    ∃ f ∈ after, f.event = .release w.ticket

section Runs

variable {s t u : BoundedWorkflowRuntime} {reply : LaneReply} {es fs : List LaneStep} {e : LaneStep}
  {w : Waiter} {ticket : Nat}

@[simp] theorem queuedIn_snoc : queuedIn (es ++ [e]) = queuedIn es ++ e.reply.queued := by
  simp [queuedIn]

@[simp] theorem admittedIn_snoc : admittedIn (es ++ [e]) = admittedIn es ++ e.reply.admitted := by
  simp [admittedIn]

@[simp] theorem rejectedIn_snoc : rejectedIn (es ++ [e]) = rejectedIn es ++ e.reply.rejected := by
  simp [rejectedIn]

/-- What `pump` does from a state: it moves waiters from the front of the line into the lanes. -/
structure Pumped (s : BoundedWorkflowRuntime) (given : LaneReply) (t : BoundedWorkflowRuntime)
    (reply : LaneReply) : Prop where
  active : t.active = s.active ++ reply.admitted
  line : reply.admitted ++ t.waiting = s.waiting
  next : t.next = s.next
  queued : reply.queued = given.queued
  rejected : reply.rejected = given.rejected
  apart : s.active.Pairwise (fun a b => ¬ holderBlocks a b) →
    t.active.Pairwise fun a b => ¬ holderBlocks a b
  blocked : ∀ first ∈ t.waiting.head?, ∃ holder ∈ t.active, holderBlocks holder first

theorem pumped (s : BoundedWorkflowRuntime) (given : LaneReply) :
    Pumped s given (s.pump given).1 (s.pump given).2 where
  active := rfl
  line := Admission.letIn_append
  next := rfl
  queued := rfl
  rejected := rfl
  apart := Admission.letIn_pairwise
  blocked _ first := Admission.letIn_blocked first

/-- What an event does before `pump`, if it gets that far. -/
inductive Arrival (s : BoundedWorkflowRuntime) :
    LaneEvent → BoundedWorkflowRuntime → LaneReply → Prop
  | acquire (keys : List String) :
    Arrival s (.acquire keys false)
      { s with waiting := s.waiting ++ [⟨s.next, keys⟩], next := s.next + 1 }
      { queued := [⟨s.next, keys⟩] }
  | release (ticket : Nat) :
    Arrival s (.release ticket) { s with active := s.active.filter (·.ticket ≠ ticket) } {}
  | abort (ticket : Nat) :
    Arrival s (.abort ticket) { s with waiting := s.waiting.filter (·.ticket ≠ ticket) }
      { rejected := s.waiting.filter (·.ticket = ticket) }

theorem step_cases (step : s.Step e t) :
    (t = s ∧ e.reply = {} ∧ ∀ ticket, e.event ≠ .release ticket) ∨
      ∃ mid given, Arrival s e.event mid given ∧ Pumped mid given t e.reply := by
  obtain ⟨event, reply⟩ := e
  have moved : ∀ {mid given}, mid.pump given = (t, reply) → Pumped mid given t reply :=
    fun {mid given} same => by
      have spec := pumped mid given
      rwa [same] at spec
  cases event with
  | acquire keys aborted =>
    cases aborted with
    | true =>
      obtain ⟨rfl, rfl⟩ := Prod.mk.inj (show (s, ({} : LaneReply)) = (t, reply) from step)
      exact .inl ⟨rfl, rfl, nofun⟩
    | false => exact .inr ⟨_, _, .acquire keys, moved step⟩
  | release ticket => exact .inr ⟨_, _, .release ticket, moved step⟩
  | abort ticket =>
    simp only [BoundedWorkflowRuntime.Step, BoundedWorkflowRuntime.handle,
      BoundedWorkflowRuntime.abort] at step
    split at step
    next => exact .inr ⟨_, _, .abort ticket, moved step⟩
    next =>
      obtain ⟨rfl, rfl⟩ := Prod.mk.inj step
      exact .inl ⟨rfl, rfl, nofun⟩

/-- A list of events, one after another. -/
def BoundedWorkflowRuntime.handleAll (s : BoundedWorkflowRuntime) :
    List LaneEvent → List LaneStep × BoundedWorkflowRuntime
  | [] => ([], s)
  | event :: rest =>
    let (t, reply) := s.handle event
    let (steps, last) := t.handleAll rest
    (⟨event, reply⟩ :: steps, last)

theorem handleAll_run (s : BoundedWorkflowRuntime) (events : List LaneEvent) :
    Run BoundedWorkflowRuntime.Step s (s.handleAll events).1 (s.handleAll events).2 := by
  induction events generalizing s with
  | nil => exact .nil
  | cons event rest ih =>
    have first : Run BoundedWorkflowRuntime.Step s [⟨event, (s.handle event).2⟩]
        (s.handle event).1 := Run.single rfl
    exact first.trans (ih _)

/-- What a reachable state says about the history of the line. -/
structure LaneHistory (es : List LaneStep) (s : BoundedWorkflowRuntime) : Prop where
  fresh : ∀ w ∈ queuedIn es, w.ticket < s.next
  distinct : ((queuedIn es).map Waiter.ticket).Nodup
  known : rejectedIn es ⊆ queuedIn es
  order : (queuedIn es).filter (· ∉ rejectedIn es) = admittedIn es ++ s.waiting
  inside : s.active ⊆ admittedIn es
  left : ∀ w ∈ admittedIn es, w ∈ s.active ∨ ReleasedIn es w
  apart : s.active.Pairwise fun a b => ¬ holderBlocks a b
  blocked : ∀ first ∈ s.waiting.head?, ∃ holder ∈ s.active, holderBlocks holder first

theorem LaneHistory.initial : LaneHistory [] .initial where
  fresh := nofun
  distinct := nodup_nil
  known := nil_subset _
  order := rfl
  inside := nil_subset _
  left := nofun
  apart := .nil
  blocked := nofun

theorem ReleasedIn.snoc (released : ReleasedIn es w) : ReleasedIn (es ++ [e]) w := by
  obtain ⟨before, f, after, rfl, mem, g, later, release⟩ := released
  exact ⟨before, f, after ++ [e], by simp, mem, g, mem_append_left _ later, release⟩

theorem releasedIn_snoc (admitted : w ∈ admittedIn es) (release : e.event = .release w.ticket) :
    ReleasedIn (es ++ [e]) w := by
  obtain ⟨f, mem, entered⟩ := mem_flatMap.mp admitted
  obtain ⟨before, after, rfl⟩ := append_of_mem mem
  exact ⟨before, f, after ++ [e], by simp, entered, e, by simp, release⟩

theorem LaneHistory.nodup (history : LaneHistory es s) :
    ((admittedIn es ++ s.waiting).map Waiter.ticket).Nodup := by
  rw [← history.order]
  exact history.distinct.sublist (filter_sublist.map _)

theorem LaneHistory.not_waiting (history : LaneHistory es s) {a b : Waiter}
    (admitted : a ∈ admittedIn es) (waiting : b ∈ s.waiting) : a.ticket ≠ b.ticket := by
  have apart := history.nodup
  rw [map_append, nodup_append] at apart
  exact apart.2.2 _ (mem_map_of_mem admitted) _ (mem_map_of_mem waiting)

theorem LaneHistory.arrive_order (history : LaneHistory es s) {given : LaneReply}
    (arrival : Arrival s e.event t given) :
    (queuedIn es ++ given.queued).filter (· ∉ rejectedIn es ++ given.rejected) =
      admittedIn es ++ t.waiting := by
  obtain ⟨event, reply⟩ := e
  cases arrival with
  | acquire keys =>
    have new : (⟨s.next, keys⟩ : Waiter) ∉ rejectedIn es := fun old =>
      Nat.lt_irrefl _ (history.fresh _ (history.known old))
    simp only [append_nil, filter_append, history.order, append_assoc]
    rw [filter_singleton, decide_eq_true new]
    rfl
  | release ticket => simpa using history.order
  | abort ticket =>
    have stays : ∀ w ∈ admittedIn es,
        w ∉ s.waiting.filter (fun w => decide (w.ticket = ticket)) := fun w admitted waiting =>
      history.not_waiting admitted (mem_of_mem_filter waiting) rfl
    have goes : ∀ w ∈ s.waiting,
        (w ∉ s.waiting.filter fun w => decide (w.ticket = ticket)) ↔ w.ticket ≠ ticket := by
      intro w waiting
      simp [waiting]
    calc (queuedIn es ++ []).filter
            (· ∉ rejectedIn es ++ s.waiting.filter fun w : Waiter => decide (w.ticket = ticket))
        = ((queuedIn es).filter (· ∉ rejectedIn es)).filter
            (· ∉ s.waiting.filter fun w : Waiter => decide (w.ticket = ticket)) := by
          rw [append_nil, filter_filter]
          refine filter_congr fun w _ => ?_
          simp only [mem_append, not_or, Bool.decide_and, Bool.and_comm]
      _ = admittedIn es ++ s.waiting.filter (·.ticket ≠ ticket) := by
          rw [history.order, filter_append]
          congr 1
          · exact filter_eq_self.mpr fun w admitted => decide_eq_true (stays w admitted)
          · exact filter_congr fun w waiting => decide_eq_decide.mpr (goes w waiting)

theorem Arrival.active {given : LaneReply} (arrival : Arrival s e.event t given) :
    t.active.Sublist s.active ∧ ∀ w ∈ s.active, w ∈ t.active ∨ e.event = .release w.ticket := by
  obtain ⟨event, reply⟩ := e
  cases arrival with
  | acquire | abort => exact ⟨Sublist.refl _, fun _ => .inl⟩
  | release ticket =>
    refine ⟨filter_sublist, fun w inside => ?_⟩
    by_cases same : w.ticket = ticket
    · exact .inr (congrArg LaneEvent.release same.symm)
    · exact .inl (mem_filter.mpr ⟨inside, decide_eq_true same⟩)

theorem LaneHistory.arrive_queued (history : LaneHistory es s) {given : LaneReply}
    (arrival : Arrival s e.event t given) :
    (∀ w ∈ queuedIn es ++ given.queued, w.ticket < t.next) ∧
      ((queuedIn es ++ given.queued).map Waiter.ticket).Nodup ∧
      given.rejected ⊆ queuedIn es := by
  obtain ⟨event, reply⟩ := e
  cases arrival with
  | acquire keys =>
    refine ⟨fun w mem => ?_, ?_, nil_subset _⟩
    · rcases mem_append.mp mem with old | new
      · exact Nat.lt_succ_of_lt (history.fresh w old)
      · rw [mem_singleton.mp new]
        exact Nat.lt_succ_self _
    · rw [map_append, nodup_append]
      refine ⟨history.distinct, nodup_singleton _, fun used old new last => ?_⟩
      obtain ⟨w, mem, rfl⟩ := mem_map.mp old
      rw [mem_singleton.mp last]
      exact Nat.ne_of_lt (history.fresh w mem)
  | release ticket =>
    rw [append_nil]
    exact ⟨history.fresh, history.distinct, nil_subset _⟩
  | abort ticket =>
    rw [append_nil]
    refine ⟨history.fresh, history.distinct, fun w rejected => ?_⟩
    have waiting : w ∈ admittedIn es ++ s.waiting :=
      mem_append_right _ (mem_of_mem_filter rejected)
    rw [← history.order] at waiting
    exact mem_of_mem_filter waiting

theorem LaneHistory.step (history : LaneHistory es s) (step : s.Step e t) :
    LaneHistory (es ++ [e]) t := by
  rcases step_cases step with ⟨rfl, quiet, -⟩ | ⟨mid, given, arrival, moved⟩
  · have queued : queuedIn (es ++ [e]) = queuedIn es := by simp [quiet]
    have admitted : admittedIn (es ++ [e]) = admittedIn es := by simp [quiet]
    have rejected : rejectedIn (es ++ [e]) = rejectedIn es := by simp [quiet]
    refine ⟨?_, ?_, ?_, ?_, ?_, ?_, history.apart, history.blocked⟩
    · exact queued ▸ history.fresh
    · exact queued ▸ history.distinct
    · rw [queued, rejected]
      exact history.known
    · rw [queued, rejected, admitted]
      exact history.order
    · exact admitted ▸ history.inside
    · rw [admitted]
      exact fun w mem => (history.left w mem).imp_right ReleasedIn.snoc
  · obtain ⟨fresh, distinct, known⟩ := history.arrive_queued arrival
    obtain ⟨kept, leaves⟩ := arrival.active
    refine ⟨?_, ?_, ?_, ?_, ?_, ?_, ?_, moved.blocked⟩
    · rw [queuedIn_snoc, moved.queued, moved.next]
      exact fresh
    · rw [queuedIn_snoc, moved.queued]
      exact distinct
    · rw [queuedIn_snoc, rejectedIn_snoc, moved.rejected]
      exact append_subset.mpr ⟨
        Subset.trans history.known (subset_append_left _ _),
        Subset.trans known (subset_append_left _ _)⟩
    · rw [queuedIn_snoc, rejectedIn_snoc, admittedIn_snoc, moved.queued, moved.rejected,
        append_assoc, moved.line]
      exact history.arrive_order arrival
    · rw [moved.active, admittedIn_snoc]
      exact append_subset.mpr ⟨
        Subset.trans (Subset.trans kept.subset history.inside)
          (subset_append_left _ _), subset_append_right _ _⟩
    · intro w mem
      rw [admittedIn_snoc, mem_append] at mem
      rw [moved.active]
      rcases mem with old | new
      · rcases history.left w old with inside | released
        · rcases leaves w inside with stays | release
          · exact .inl (mem_append_left _ stays)
          · exact .inr (releasedIn_snoc old release)
        · exact .inr released.snoc
      · exact .inl (mem_append_right _ new)
    · exact moved.apart (history.apart.sublist kept)

theorem laneHistory_of_run (run : Run BoundedWorkflowRuntime.Step .initial es s) :
    LaneHistory es s :=
  run.history (P := LaneHistory) .initial fun _ _ _ _ => LaneHistory.step

/-! ## Consequences -/

theorem release_lowers (inside : w ∈ s.active)
    (step : s.handle (.release w.ticket) = (t, reply)) :
    t.active.length + t.waiting.length < s.active.length + s.waiting.length := by
  have moved := pumped { s with active := s.active.filter (·.ticket ≠ w.ticket) } {}
  rw [show BoundedWorkflowRuntime.pump _ _ = (t, reply) from step] at moved
  have line := congrArg length moved.line
  have active := congrArg length moved.active
  have fewer : (s.active.filter (·.ticket ≠ w.ticket)).length < s.active.length :=
    length_filter_lt_length_iff_exists.mpr ⟨w, inside, by simp⟩
  simp only [length_append] at line active
  omega

theorem releases_drain (s : BoundedWorkflowRuntime) :
    ∃ fs t, Run BoundedWorkflowRuntime.Step s fs t ∧
      (∀ f ∈ fs, ∃ ticket, f.event = .release ticket) ∧ t.active = [] := by
  generalize parties : s.active.length + s.waiting.length = n
  induction n using Nat.strongRecOn generalizing s with
  | _ n ih =>
    cases holders : s.active with
    | nil => exact ⟨[], s, .nil, nofun, holders⟩
    | cons w others =>
      have inside : w ∈ s.active := holders ▸ mem_cons_self
      have fewer := release_lowers inside rfl
      obtain ⟨fs, t, run, releases, alone⟩ := ih _ (parties ▸ fewer) _ rfl
      have first : Run BoundedWorkflowRuntime.Step s
          [⟨.release w.ticket, (s.handle (.release w.ticket)).2⟩]
          (s.handle (.release w.ticket)).1 := Run.single rfl
      refine ⟨_, t, first.trans run, fun f mem => ?_, alone⟩
      rcases mem_append.mp mem with only | later
      · exact ⟨w.ticket, by rw [mem_singleton.mp only]⟩
      · exact releases f later

theorem LaneHistory.settled (history : LaneHistory es s) (alone : s.active = []) :
    s.waiting = [] ∧ (queuedIn es).filter (· ∉ rejectedIn es) = admittedIn es := by
  have empty : s.waiting = [] := by
    cases line : s.waiting with
    | nil => rfl
    | cons first rest =>
      obtain ⟨holder, inside, -⟩ := history.blocked first (by rw [line]; rfl)
      rw [alone] at inside
      cases inside
  refine ⟨empty, ?_⟩
  rw [history.order, empty, append_nil]

/-- Holders and waiters conflict when some of their keys do. -/
def InConflict (a b : Waiter) : Prop := ∃ k ∈ a.keys, ∃ l ∈ b.keys, Conflict k l

theorem holderBlocks_iff {a b : Waiter} : holderBlocks a b ↔ InConflict a b := by
  simp only [holderBlocks, InConflict, keysClash_iff]

theorem InConflict.symm {a b : Waiter} (conflict : InConflict a b) : InConflict b a := by
  obtain ⟨k, left, l, right, clash⟩ := conflict
  exact ⟨l, right, k, left, clash.symm⟩

/-- **Lane admission**, over every sequence of events. -/
theorem lane_admission (run : Run BoundedWorkflowRuntime.Step .initial es s) :
    -- no two holders conflict, and only a release ends a holder's time in the lanes
    s.active.Pairwise (fun a b => ¬ InConflict a b ∧ ¬ InConflict b a) ∧
    s.active ⊆ admittedIn es ∧ (∀ w ∈ admittedIn es, w ∈ s.active ∨ ReleasedIn es w) ∧
    -- first come, first admitted, each at most once
    (queuedIn es).filter (· ∉ rejectedIn es) = admittedIn es ++ s.waiting ∧
    ((queuedIn es).map Waiter.ticket).Nodup ∧
    -- whoever is first in line conflicts with a holder
    (∀ first ∈ s.waiting.head?, ∃ holder ∈ s.active, InConflict holder first) ∧
    -- the holders can all leave, each release brings that nearer, and then everybody was admitted
    (∀ w ∈ s.active, ∀ t reply, s.handle (.release w.ticket) = (t, reply) →
      t.active.length + t.waiting.length < s.active.length + s.waiting.length) ∧
    (∃ fs t, Run BoundedWorkflowRuntime.Step s fs t ∧
      (∀ f ∈ fs, ∃ ticket, f.event = .release ticket) ∧ t.active = []) ∧
    ∀ fs t, Run BoundedWorkflowRuntime.Step s fs t → t.active = [] →
      t.waiting = [] ∧
        (queuedIn (es ++ fs)).filter (· ∉ rejectedIn (es ++ fs)) = admittedIn (es ++ fs) := by
  have history := laneHistory_of_run run
  refine ⟨?_, history.inside, history.left, history.order, history.distinct, ?_, ?_, ?_, ?_⟩
  · refine history.apart.imp fun {a b} apart => ?_
    rw [holderBlocks_iff] at apart
    exact ⟨apart, fun conflict => apart conflict.symm⟩
  · intro first line
    obtain ⟨holder, inside, blocks⟩ := history.blocked first line
    exact ⟨holder, inside, holderBlocks_iff.mp blocks⟩
  · exact fun w inside t reply step => release_lowers inside step
  · exact releases_drain s
  · exact fun fs t later alone => (laneHistory_of_run (run.trans later)).settled alone

/-- Two readers go together, their writer waits for both, and the aborted job behind it, which
wants everything, is never admitted. -/
theorem lane_admission_readers : ∃ es s, Run BoundedWorkflowRuntime.Step .initial es s ∧
    s.active = [⟨2, ["job:c", "db"]⟩] ∧ rejectedIn es = [⟨3, ["job:d", "*"]⟩] ∧
      (queuedIn es).filter (· ∉ rejectedIn es) = admittedIn es ++ s.waiting := by
  have run := handleAll_run .initial [.acquire ["job:a", "read:db"] false,
    .acquire ["job:b", "read:db"] false, .acquire ["job:c", "db"] false,
    .acquire ["job:d", "*"] false, .abort 3, .release 0, .release 1]
  exact ⟨_, _, run, by decide +kernel, by decide +kernel, (lane_admission run).2.2.2.1⟩

end Runs

end Slide.Workflows
