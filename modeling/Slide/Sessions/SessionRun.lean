import Mathlib.Data.List.Infix
import Slide.Sessions.RoundTrip

/-!
# Appends, saves and reads of one session

The calls of a process run in pieces between their awaits.  A call of `save` takes its snapshot in one
piece, renames its temporary file to the session's file, and at its end replaces the messages of the
session by the ones it stored; it can fail at any point.  Everything else is one piece.

A save that ends while the session holds a fact that was appended behind its snapshot takes that fact
out of the session.
-/

namespace Slide.Sessions

open Slide.Display SessionEntry Session List

/-- How far a call of `save` has come behind its snapshot. -/
inductive Stage
  | written
  | renamed
  | settled
  deriving DecidableEq

/-- A call of `save` behind its snapshot. -/
structure Saving where
  stored : List SessionEntry
  lines : List Json
  stage : Stage

/-- Somebody who reads the pages of the session. -/
structure Reader where
  after : Option Json
  collected : List SessionEntry
  ended : Bool

structure World where
  session : Session
  file : Option (List Line)
  saves : List Saving
  readers : List Reader

/-- A session and its file before the first call. -/
def World.start (session : Session) (file : Option (List Line)) : World := ⟨session, file, [], []⟩

inductive Event
  | appendFacts (entries : List SessionEntry)
  | addMessage (role : String) (content : Json) (extra : SessionEntry) (timestamp uuid : String)
    (now : Rat)
  /-- The fields of the session beside its messages are written. -/
  | annotate (metadata : Record String Json) (updatedAt last_consolidated : Json)
  /-- A call of `save` takes its snapshot. -/
  | take (now : Rat)
  /-- The temporary file of a save becomes the file of the session. -/
  | rename (i : Nat)
  /-- `session.messages = storedMessages`. -/
  | finish (i : Nat)
  /-- A file operation of a save fails. -/
  | fail (i : Nat)
  /-- Somebody begins to read. -/
  | open
  /-- A reader asks for the page behind its cursor. -/
  | page (i : Nat) (limit : Int)

section Steps

variable (host : Host)

/-- A save goes on. -/
def World.advance (w : World) (i : Nat) (sv : Saving) (stage : Stage) : World :=
  { w with saves := w.saves.set i { sv with stage } }

/-- A reader behind the answer to its question. -/
def Reader.told (r : Reader) : Except String (List SessionEntry × Option Json) → Reader
  | .error _ => r
  | .ok (page, none) => ⟨r.after, r.collected ++ page, true⟩
  | .ok (page, some next) => ⟨some next, r.collected ++ page, false⟩

def step (w : World) : Event → World
  | .appendFacts entries => { w with session := (appendFacts host w.session entries).1 }
  | .addMessage role content extra timestamp uuid now => { w with
      session := (addMessage host w.session role content extra timestamp uuid now).1 }
  | .annotate metadata updatedAt last_consolidated => { w with
      session := { w.session with metadata, updatedAt, last_consolidated } }
  | .take now =>
    match snapshot host w.session now with
    | (session, .error _) => { w with session }
    | (session, .ok (stored, lines)) =>
      { w with session, saves := w.saves ++ [⟨stored, lines, .written⟩] }
  | .rename i =>
    match w.saves[i]? with
    | some sv =>
      if sv.stage = .written
      then { w.advance i sv .renamed with file := some (sv.lines.map some) } else w
    | none => w
  | .finish i =>
    match w.saves[i]? with
    | some sv =>
      if sv.stage = .renamed
      then { w.advance i sv .settled with session := { w.session with messages := sv.stored } }
      else w
    | none => w
  | .fail i =>
    match w.saves[i]? with
    | some sv => w.advance i sv .settled
    | none => w
  | .open => { w with readers := w.readers ++ [⟨none, [], false⟩] }
  | .page i limit =>
    match w.readers[i]? with
    | some r =>
      if r.ended then w
      else
        let (session, answer) := getCanonicalPage host w.session limit r.after
        { w with session, readers := w.readers.set i (r.told answer) }
    | none => w

def run (w : World) (events : List Event) : World := events.foldl (step host) w

def World.facts (w : World) : List SessionEntry := Session.facts host w.session

/-- The entries that an event appends to the session. -/
def Event.entries (w : World) : Event → List SessionEntry
  | .appendFacts entries => entries
  | .addMessage role content extra timestamp uuid _ =>
    [newEntry w.session role content extra timestamp uuid]
  | _ => []

/-- An event that takes no fact out of the session, or brings in one that cannot be told apart or
read back. -/
def Meets (w : World) : Event → Prop
  /- the session holds no fact that was appended behind the snapshot -/
  | .finish i => ∀ sv, w.saves[i]? = some sv → sv.stage = .renamed →
    (w.facts host).length = sv.stored.length
  | .take now => ∀ stored lines, (snapshot host w.session now).2 = .ok (stored, lines) →
    Readable host w.session.metadata (w.facts host) ∧
      Roomy host w.session.sessionKey (lines.map some)
  | event => Fresh host w.session.sessionKey (ensureFactIds host w.session).1.messages
    (event.entries w)

/-- All events of a run do, where they happen. -/
def Observes : World → List Event → Prop
  | _, [] => True
  | w, event :: events => Meets host w event ∧ Observes (step host w event) events

end Steps

variable {host : Host} {w start : World} {event : Event} {events : List Event}

theorem run_snoc : run host w (events ++ [event]) = step host (run host w events) event := by
  unfold run
  rw [foldl_append]
  rfl

theorem Observes.of_snoc (observes : Observes host w (events ++ [event])) :
    Observes host w events ∧ Meets host (run host w events) event := by
  induction events generalizing w with
  | nil => exact ⟨trivial, observes.1⟩
  | cons first rest ih => exact ⟨⟨observes.1, (ih observes.2).1⟩, (ih observes.2).2⟩

theorem Observes.snoc (observes : Observes host w events)
    (meets : Meets host (run host w events) event) : Observes host w (events ++ [event]) := by
  induction events generalizing w with
  | nil => exact ⟨meets, trivial⟩
  | cons first rest ih => exact ⟨observes.1, ih observes.2 meets⟩

/-! ## What holds in a run -/

/-- A save took its lines at the start of a call. -/
def Snapped (host : Host) (start : World) (events : List Event) (stored : List SessionEntry)
    (lines : List Json) : Prop :=
  ∃ earlier now, earlier ++ [.take now] <+: events ∧
    Taken host (run host start earlier).session now stored lines ∧
    Readable host (run host start earlier).session.metadata ((run host start earlier).facts host) ∧
    Roomy host (run host start earlier).session.sessionKey (lines.map some)

/-- A reader has the first of the facts, and its cursor stands behind them. -/
structure Reads (host : Host) (start : World) (events : List Event) (facts : List SessionEntry)
    (r : Reader) : Prop where
  behind : r.ended = false → ∃ n, r.collected.map fact = facts.take n ∧
    Paging.start SessionEntry.id facts r.after = some n
  all : r.ended = true → ∃ earlier, earlier <+: events ∧
    r.collected.map fact = (run host start earlier).facts host

structure Inv (host : Host) (start : World) (events : List Event) : Prop where
  key : (run host start events).session.sessionKey = start.session.sessionKey
  distinct : Distinct host (run host start events).session
  kept : ∀ earlier, earlier <+: events →
    (run host start earlier).facts host <+: (run host start events).facts host
  grown : ∀ earlier event, earlier ++ [event] <+: events →
    Grown ((run host start earlier).facts host) ((run host start (earlier ++ [event])).facts host)
      (event.entries (run host start earlier)) (appendFacts host (run host start earlier).session
        (event.entries (run host start earlier))).2
  saves : ∀ sv ∈ (run host start events).saves, Snapped host start events sv.stored sv.lines
  file : (run host start events).file = start.file ∨ ∃ stored lines,
    Snapped host start events stored lines ∧
      (run host start events).file = some (lines.map some)
  readers : ∀ r ∈ (run host start events).readers,
    Reads host start events ((run host start events).facts host) r

theorem Snapped.later {stored : List SessionEntry} {lines : List Json}
    (snapped : Snapped host start events stored lines) :
    Snapped host start (events ++ [event]) stored lines := by
  obtain ⟨earlier, now, before, rest⟩ := snapped
  exact ⟨earlier, now, before.trans (prefix_append ..), rest⟩

theorem Reads.later {facts facts' : List SessionEntry} {r : Reader}
    (reads : Reads host start events facts r) (grown : facts <+: facts') :
    Reads host start (events ++ [event]) facts' r := by
  obtain ⟨added, rfl⟩ := grown
  refine ⟨fun open_end => ?_, fun ended => ?_⟩
  · obtain ⟨n, collected, position⟩ := reads.behind open_end
    refine ⟨n, ?_, Paging.start_append position added⟩
    rw [take_append_of_le_length (Paging.start_le position)]
    exact collected
  · obtain ⟨earlier, before, collected⟩ := reads.all ended
    exact ⟨earlier, before.trans (prefix_append ..), collected⟩

/-! ## One event -/

theorem addMessage_facts {role : String} {content : Json} {extra : SessionEntry}
    {timestamp uuid : String} {now : Rat} {s : Session} :
    Session.facts host (addMessage host s role content extra timestamp uuid now).1 =
        Session.facts host
          (appendFacts host s [newEntry s role content extra timestamp uuid]).1 ∧
      (addMessage host s role content extra timestamp uuid now).1.sessionKey = s.sessionKey ∧
      (addMessage host s role content extra timestamp uuid now).2 =
        (appendFacts host s [newEntry s role content extra timestamp uuid]).2 := by
  have key := (@appendFacts_frame host s
    [newEntry s role content extra timestamp uuid]).1
  unfold addMessage
  rcases appended : appendFacts host s [newEntry s role content extra timestamp uuid]
    with ⟨t, thrown⟩
  rw [appended] at key
  cases thrown <;> exact ⟨rfl, key, rfl⟩

theorem finish_facts {sv : Saving} (inv : Inv host start events)
    (mem : sv ∈ (run host start events).saves)
    (same_length : ((run host start events).facts host).length = sv.stored.length) :
    Session.facts host { (run host start events).session with messages := sv.stored } =
      (run host start events).facts host := by
  obtain ⟨earlier, now, before, taken, -⟩ := inv.saves sv mem
  have older := inv.kept earlier ((prefix_append ..).trans before)
  have same : sv.stored.map fact = (run host start events).facts host := by
    rw [taken.stored_eq]
    have length := congrArg List.length taken.stored_eq
    rw [length_map] at length
    exact older.eq_of_length (length.symm.trans same_length.symm)
  have held := @facts_of_messages host (run host start events).session
    { (run host start events).session with messages := sv.stored } rfl same
  exact held.1

theorem step_facts (inv : Inv host start events) (meets : Meets host (run host start events) event) :
    Grown ((run host start events).facts host)
        ((step host (run host start events) event).facts host)
        (event.entries (run host start events))
        (appendFacts host (run host start events).session
          (event.entries (run host start events))).2 ∧
      (step host (run host start events) event).session.sessionKey = start.session.sessionKey ∧
      Distinct host (step host (run host start events) event).session := by
  have same_facts {t : World} (same : t.facts host = (run host start events).facts host)
      (key : t.session.sessionKey = (run host start events).session.sessionKey) :
      Grown ((run host start events).facts host) (t.facts host) []
          (appendFacts host (run host start events).session []).2 ∧
        t.session.sessionKey = start.session.sessionKey ∧ Distinct host t.session := by
    refine ⟨?_, key.trans inv.key, ?_⟩
    · rw [same]
      refine ⟨⟨[], [], .slnil, (append_nil _).symm, .nil⟩, fun _ e mem => ?_⟩
      exact absurd mem not_mem_nil
    · unfold Session.Distinct
      rw [show Session.facts host t.session = _ from same]
      exact inv.distinct
  cases event with
  | appendFacts entries =>
    exact ⟨appendFacts_grown, appendFacts_frame.1.trans inv.key,
      appendFacts_distinct inv.distinct meets⟩
  | addMessage role content extra timestamp uuid now =>
    obtain ⟨facts, key, -⟩ := @addMessage_facts host role content extra timestamp uuid now
      (run host start events).session
    refine ⟨?_, key.trans inv.key, ?_⟩
    · change Grown _ (Session.facts host _) _ _
      rw [show Session.facts host (step host (run host start events)
        (.addMessage role content extra timestamp uuid now)).session = _ from facts]
      exact appendFacts_grown
    · unfold Session.Distinct
      rw [show Session.facts host (step host (run host start events)
        (.addMessage role content extra timestamp uuid now)).session = _ from facts]
      exact appendFacts_distinct inv.distinct meets
  | annotate => exact same_facts rfl rfl
  | take now =>
    obtain ⟨facts, key, -⟩ := @snapshot_facts host (run host start events).session now
    unfold step
    dsimp only
    rcases taken : snapshot host (run host start events).session now with ⟨t, answer⟩
    rw [taken] at facts key
    cases answer <;> exact same_facts facts key
  | rename i =>
    unfold step
    dsimp only
    split
    next =>
      split
      next => exact same_facts rfl rfl
      next => exact same_facts rfl rfl
    next => exact same_facts rfl rfl
  | finish i =>
    unfold step
    dsimp only
    split
    next sv found =>
      split
      next renamed =>
        have mem := mem_of_getElem? found
        exact same_facts (finish_facts inv mem (meets sv found renamed)) rfl
      next => exact same_facts rfl rfl
    next => exact same_facts rfl rfl
  | fail i =>
    unfold step
    dsimp only
    split
    next => exact same_facts rfl rfl
    next => exact same_facts rfl rfl
  | «open» => exact same_facts rfl rfl
  | page i limit =>
    unfold step
    dsimp only
    split
    next r found =>
      split
      next => exact same_facts rfl rfl
      next =>
        refine same_facts getCanonicalPage_facts ?_
        exact getCanonicalPage_key
    next => exact same_facts rfl rfl

theorem step_saves : ∀ sv ∈ (step host w event).saves,
    (∃ old ∈ w.saves, old.stored = sv.stored ∧ old.lines = sv.lines) ∨
      ∃ now, event = .take now ∧ (snapshot host w.session now).2 = .ok (sv.stored, sv.lines) := by
  have advanced {i : Nat} {old : Saving} {stage : Stage} (found : w.saves[i]? = some old) :
      ∀ sv ∈ (w.advance i old stage).saves,
        ∃ old ∈ w.saves, old.stored = sv.stored ∧ old.lines = sv.lines := by
    intro sv mem
    rcases mem_or_eq_of_mem_set mem with old_one | rfl
    · exact ⟨sv, old_one, rfl, rfl⟩
    · exact ⟨old, mem_of_getElem? found, rfl, rfl⟩
  intro sv mem
  cases event with
  | appendFacts | addMessage | annotate => exact .inl ⟨sv, mem, rfl, rfl⟩
  | take now =>
    unfold step at mem
    dsimp only at mem
    rcases taken : snapshot host w.session now with ⟨t, answer⟩
    rw [taken] at mem
    cases answer with
    | error => exact .inl ⟨sv, mem, rfl, rfl⟩
    | ok pair =>
      rcases mem_append.mp mem with old | new
      · exact .inl ⟨sv, old, rfl, rfl⟩
      · rw [mem_singleton.mp new]
        exact .inr ⟨now, rfl, by rw [taken]⟩
  | rename i =>
    unfold step at mem
    dsimp only at mem
    split at mem
    next old found =>
      split at mem
      next => exact .inl (advanced found sv mem)
      next => exact .inl ⟨sv, mem, rfl, rfl⟩
    next => exact .inl ⟨sv, mem, rfl, rfl⟩
  | finish i =>
    unfold step at mem
    dsimp only at mem
    split at mem
    next old found =>
      split at mem
      next => exact .inl (advanced found sv mem)
      next => exact .inl ⟨sv, mem, rfl, rfl⟩
    next => exact .inl ⟨sv, mem, rfl, rfl⟩
  | fail i =>
    unfold step at mem
    dsimp only at mem
    split at mem
    next old found => exact .inl (advanced found sv mem)
    next => exact .inl ⟨sv, mem, rfl, rfl⟩
  | «open» => exact .inl ⟨sv, mem, rfl, rfl⟩
  | page i limit =>
    unfold step at mem
    dsimp only at mem
    split at mem
    next =>
      split at mem
      next => exact .inl ⟨sv, mem, rfl, rfl⟩
      next => exact .inl ⟨sv, mem, rfl, rfl⟩
    next => exact .inl ⟨sv, mem, rfl, rfl⟩

theorem step_file : (step host w event).file = w.file ∨
    ∃ sv ∈ w.saves, (step host w event).file = some (sv.lines.map some) := by
  cases event with
  | take now =>
    unfold step
    dsimp only
    split <;> exact .inl rfl
  | rename i =>
    unfold step
    dsimp only
    split
    next sv found =>
      split
      next => exact .inr ⟨sv, mem_of_getElem? found, rfl⟩
      next => exact .inl rfl
    next => exact .inl rfl
  | finish i =>
    unfold step
    dsimp only
    split
    next =>
      split <;> exact .inl rfl
    next => exact .inl rfl
  | fail i =>
    unfold step
    dsimp only
    split <;> exact .inl rfl
  | page i limit =>
    unfold step
    dsimp only
    split
    next =>
      split <;> exact .inl rfl
    next => exact .inl rfl
  | _ => exact .inl rfl

theorem step_readers : ∀ r ∈ (step host w event).readers, r ∈ w.readers ∨ r = ⟨none, [], false⟩ ∨
    (∃ old ∈ w.readers, old.ended = false ∧ ∃ limit,
        r = old.told (getCanonicalPage host w.session limit old.after).2) ∧
      (step host w event).facts host = w.facts host := by
  intro r mem
  cases event with
  | take now =>
    unfold step at mem
    dsimp only at mem
    split at mem <;> exact .inl mem
  | rename i =>
    unfold step at mem
    dsimp only at mem
    split at mem
    next =>
      split at mem <;> exact .inl mem
    next => exact .inl mem
  | finish i =>
    unfold step at mem
    dsimp only at mem
    split at mem
    next =>
      split at mem <;> exact .inl mem
    next => exact .inl mem
  | fail i =>
    unfold step at mem
    dsimp only at mem
    split at mem <;> exact .inl mem
  | «open» =>
    rcases mem_append.mp mem with old | new
    · exact .inl old
    · exact .inr (.inl (mem_singleton.mp new))
  | page i limit =>
    unfold step at mem ⊢
    dsimp only at mem ⊢
    split at mem
    next old found =>
      split at mem
      next => exact .inl mem
      next goes_on =>
        rcases mem_or_eq_of_mem_set mem with there | rfl
        · exact .inl there
        · refine .inr (.inr ⟨⟨old, mem_of_getElem? found, Bool.not_eq_true _ ▸ goes_on,
            limit, rfl⟩, ?_⟩)
          rw [if_neg goes_on]
          exact getCanonicalPage_facts
    next => exact .inl mem
  | _ => exact .inl mem

theorem Reads.told {r : Reader} {limit : Int}
    (distinct : Distinct host (run host start events).session)
    (reads : Reads host start events ((run host start events).facts host) r)
    (open_end : r.ended = false)
    (same : (run host start (events ++ [event])).facts host = (run host start events).facts host) :
    Reads host start (events ++ [event]) ((run host start (events ++ [event])).facts host)
      (r.told (getCanonicalPage host (run host start events).session limit r.after).2) := by
  have unchanged : Reads host start (events ++ [event])
      ((run host start (events ++ [event])).facts host) r := by
    rw [same]
    exact reads.later (prefix_refl _)
  by_cases valid : 1 ≤ limit ∧ limit ≤ 1000
  · cases invalid : (ensureFactIds host (run host start events).session).2 with
    | some error =>
      have refused := @getCanonicalPage_invalid host (run host start events).session limit r.after
        valid error invalid
      rw [refused]
      exact unchanged
    | none =>
      obtain ⟨n, collected, position⟩ := reads.behind open_end
      obtain ⟨page, next, answered, part⟩ := getCanonicalPage_spec valid invalid position
      have positive : 0 < limit.toNat := by omega
      have inside : n ≤ ((run host start events).facts host).length := Paging.start_le position
      rw [answered]
      rcases Paging.slice_next distinct positive inside with ⟨last, rest⟩ | ⟨after, more, there⟩
      · -- the last page ends with the last of the facts
        have ends : next = none := (congrArg Prod.snd part).trans last
        have rest' : page.map fact = _ := (congrArg Prod.fst part).trans rest
        subst ends
        refine ⟨fun goes_on => (nomatch goes_on), fun _ => ⟨_, prefix_refl _, ?_⟩⟩
        change (r.collected ++ page).map fact = _
        rw [map_append, collected, rest', same]
        exact take_append_drop n _
      · obtain ⟨found, -, selected⟩ := there
        have goes_on : next = some after := (congrArg Prod.snd part).trans more
        have selected' : page.map fact = _ := (congrArg Prod.fst part).trans selected
        subst goes_on
        refine ⟨fun _ => ⟨n + limit.toNat, ?_, ?_⟩, fun ended => (nomatch ended)⟩
        · change (r.collected ++ page).map fact = _
          rw [map_append, collected, selected', same]
          exact take_add.symm
        · rw [same]
          exact found
  · have refused : getCanonicalPage host (run host start events).session limit r.after =
        ((run host start events).session, .error "INVALID_CANONICAL_PAGE") := if_pos valid
    rw [refused]
    exact unchanged

/-! ## Runs -/

theorem Inv.step (inv : Inv host start events)
    (meets : Meets host (run host start events) event) :
    Inv host start (events ++ [event]) := by
  obtain ⟨grown, key, distinct⟩ := step_facts inv meets
  have behind : (run host start events).facts host <+:
      (run host start (events ++ [event])).facts host := by
    obtain ⟨new, added, -, whole, -⟩ := grown.behind
    rw [run_snoc, whole]
    exact prefix_append ..
  refine ⟨?_, ?_, fun earlier before => ?_, fun earlier last before => ?_, fun sv mem => ?_, ?_,
    fun r mem => ?_⟩
  · rw [run_snoc]
    exact key
  · rw [run_snoc]
    exact distinct
  · rcases prefix_concat_iff.mp before with rfl | old
    · exact prefix_refl _
    · exact (inv.kept earlier old).trans behind
  · rcases prefix_concat_iff.mp before with whole | old
    · obtain ⟨rfl, same⟩ := append_inj' whole rfl
      cases same
      rw [run_snoc]
      exact grown
    · exact inv.grown earlier last old
  · rw [run_snoc] at mem
    rcases step_saves sv mem with ⟨old, there, stored, lines⟩ | ⟨now, rfl, taken⟩
    · rw [← stored, ← lines]
      exact (inv.saves old there).later
    · obtain ⟨readable, roomy⟩ := meets sv.stored sv.lines taken
      exact ⟨events, now, prefix_refl _, taken_of_snapshot taken, readable, roomy⟩
  · rw [run_snoc]
    rcases @step_file host (run host start events) event with same | ⟨sv, mem, renamed⟩
    · rw [same]
      rcases inv.file with old | ⟨stored, lines, snapped, held⟩
      · exact .inl old
      · exact .inr ⟨stored, lines, snapped.later, held⟩
    · exact .inr ⟨sv.stored, sv.lines, (inv.saves sv mem).later, renamed⟩
  · have mem' := mem
    rw [run_snoc] at mem'
    rcases step_readers r mem' with old | rfl | ⟨⟨old, there, open_end, limit, rfl⟩, same⟩
    · exact (inv.readers r old).later behind
    · exact ⟨fun _ => ⟨0, rfl, rfl⟩, fun ended => (nomatch ended)⟩
    · refine (inv.readers old there).told inv.distinct open_end ?_
      rw [run_snoc]
      exact same

theorem inv_nil (session : Session) (file : Option (List Line)) (distinct : Distinct host session) :
    Inv host (World.start session file) [] := by
  refine ⟨rfl, distinct, fun earlier before => ?_, fun earlier event before => ?_,
    fun sv mem => ?_, .inl rfl, fun r mem => ?_⟩
  · rw [prefix_nil.mp before]
  · exact absurd (prefix_nil.mp before) (append_ne_nil_of_right_ne_nil _
      (cons_ne_nil event []))
  · exact absurd mem not_mem_nil
  · exact absurd mem not_mem_nil

theorem inv_run (session : Session) (file : Option (List Line)) (distinct : Distinct host session)
    (observes : Observes host (World.start session file) events) :
    Inv host (World.start session file) events := by
  induction events using List.reverseRecOn with
  | nil => exact inv_nil session file distinct
  | append_singleton events event ih =>
    obtain ⟨before, meets⟩ := observes.of_snoc
    exact (ih before).step meets

end Slide.Sessions
