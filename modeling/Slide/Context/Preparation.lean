import Mathlib.Data.List.TakeWhile
import Slide.Context.Split
import Slide.Library.Fallible

/-!
# What a provider is sent

`prepareMessages` of `runtime/context-manager.ts`: tool groups are repaired in one scan, old results are
omitted, and what is left is cut to size.
-/

namespace Slide.Context

open List

variable {α : Type}

structure RuntimeError where
  (code message : String)

/-- The calls that have to be answered after a message. -/
def Message.calls (m : Message α) : List ToolCall :=
  if m.role = .assistant then m.toolCalls.getD [] else []

/-- `ids`, with those of `calls` added. -/
def identifiers (ids : List Text) : List ToolCall → Except RuntimeError (List Text)
  | [] => .ok ids
  | call :: calls =>
    if call.id = [] ∨ call.id ∈ ids then
      .error ⟨"CONTEXT_UNRECOVERABLE", "Invalid tool call identifiers"⟩
    else identifiers (call.id :: ids) calls

/-- `results`: by identity, the first of the run. -/
def toolResults (ids : List Text) (run : List (Message α)) : List (Text × Message α) :=
  run.foldl (fun results tool => match tool.toolCallId with
    | some id =>
      if id ≠ [] ∧ id ∈ ids ∧ (results.lookup id).isNone then results ++ [(id, tool)] else results
    | none => results) []

def backfill (call : ToolCall) : Message α where
  role := .tool
  toolCallId := some call.id
  name := some call.name
  content := .text (text
    "[Tool result unavailable — call was interrupted or lost; do not replay without reconciliation]")
  source := some .synthetic

/-- The inner cursor stops where the run of results ends; the scan passes over them anyway. -/
def normalizeToolGroups : List (Message α) → Except RuntimeError (List (Message α))
  | [] => .ok []
  | message :: rest => do
    if message.isTool then normalizeToolGroups rest
    else
      let ids ← identifiers [] message.calls
      let results := toolResults ids (rest.takeWhile Message.isTool)
      let later ← normalizeToolGroups rest
      return message ::
        message.calls.map (fun call => (results.lookup call.id).getD (backfill call)) ++ later

def compactableTools : List Text :=
  ["read_file", "exec", "grep", "find_files", "web_search", "web_fetch", "list_dir",
    "list_exec_sessions"].map text

def Message.isCompactable (m : Message α) : Bool := m.isTool && m.name.any compactableTools.contains

/-- `name || "tool"` -/
def Message.label (m : Message α) : Text := (m.name.filter (· ≠ [])).getD (text "tool")

/-- The content where it is a string. -/
def Content.text? : Content α → Option Text
  | .text s => some s
  | _ => none

/-- A stale result is replaced if it has at least 500 characters. -/
def Message.omitted (m : Message α) : Message α :=
  if (m.content.text?.getD []).length < 500 then m
  else { m with
    source := some .derived
    content := .text (text "[" ++ m.label ++ text " result omitted from context]") }

/-- All compactable results but the ten most recent. -/
def stale (messages : List (Message α)) : List Nat :=
  let compactable := messages.findIdxs Message.isCompactable
  compactable.take (compactable.length - 10)

def microcompact (messages : List (Message α)) : List (Message α) :=
  messages.mapIdx fun i m => if i ∈ stale messages then m.omitted else m

/-- `trim() === ""` -/
def blank (s : Text) : Bool := s.all fun u => JsString.isSpace (Char.ofNat u)

/-- `items` is what `JSON.stringify` writes between the brackets of an array. -/
def ensureNonemptyToolResult (items : α → Text) (toolName : Text) : Content α → Text
  | .null => text "[" ++ toolName ++ text ": no result]"
  | .text s => if blank s then text "[" ++ toolName ++ text ": empty result]" else s
  | .blocks b => text "[" ++ items b ++ text "]"

def truncateText (s : Text) (maxChars : Nat) : Text :=
  if s.length ≤ maxChars then s
  else if maxChars ≤ 3 then replicate maxChars 46 else s.take (maxChars - 3) ++ text "..."

def normalizeToolResult (items : α → Text) (spec : AgentRunSpec) (toolName : Text)
    (result : Content α) : Text :=
  truncateText (ensureNonemptyToolResult items toolName result) spec.maxToolResultChars

/-- One message under the budget. -/
def Message.budgeted (items : α → Text) (spec : AgentRunSpec) (m : Message α) : Message α :=
  if m.isTool ∧ m.content.text? ≠ some (normalizeToolResult items spec m.label m.content) then
    { m with
      content := .text (normalizeToolResult items spec m.label m.content)
      source := some .derived }
  else m

def applyToolResultBudget (items : α → Text) (spec : AgentRunSpec) (messages : List (Message α)) :
    List (Message α) :=
  messages.map (Message.budgeted items spec)

def prepareMessages (items : α → Text) (spec : AgentRunSpec) (messages : List (Message α)) :
    Except RuntimeError (List (Message α)) :=
  (normalizeToolGroups messages).map fun groups =>
    applyToolResultBudget items spec (microcompact groups)

/-! ## The groups -/

/-- The first result of a call in the run, or the notice that it is lost. -/
def answer (run : List (Message α)) (call : ToolCall) : Message α :=
  (run.find? fun tool => tool.toolCallId = some call.id).getD (backfill call)

/-- What a list of messages is turned into. -/
def regrouped : List (Message α) → List (Message α)
  | [] => []
  | m :: rest =>
    (if m.isTool then [] else m :: m.calls.map (answer (rest.takeWhile Message.isTool))) ++ regrouped rest

/-- The provider's rule, with the calls still to be answered. -/
def Answered : List Text → List (Message α) → Prop
  | [], [] => True
  | _ :: _, [] => False
  | [], m :: rest => m.isTool = false ∧ Answered (m.calls.map ToolCall.id) rest
  | id :: pending, m :: rest => m.isTool ∧ m.toolCallId = some id ∧ Answered pending rest

/-- Its calls have identities of their own. -/
def Message.Identified (m : Message α) : Prop :=
  m.isTool = false → ∃ ids, identifiers [] m.calls = .ok ids

variable {calls : List ToolCall}

theorem identifiers_spec {ids all : List Text} (ok : identifiers ids calls = .ok all) :
    (∀ x, x ∈ all ↔ x ∈ ids ∨ x ∈ calls.map ToolCall.id) ∧ [] ∉ calls.map ToolCall.id ∧
      (calls.map ToolCall.id).Nodup ∧ ∀ x ∈ calls.map ToolCall.id, x ∉ ids := by
  induction calls generalizing ids with
  | nil =>
    cases ok
    simp
  | cons call calls ih =>
    unfold identifiers at ok
    split at ok
    · cases ok
    · rename_i fresh
      push Not at fresh
      obtain ⟨mem, filled, nodup, apart⟩ := ih ok
      simp only [map_cons, mem_cons, nodup_cons] at mem apart ⊢
      refine ⟨fun x => by rw [mem]; tauto, ?_, ⟨fun again => apart _ again (Or.inl rfl), nodup⟩, ?_⟩
      · exact fun h => h.elim (fun e => fresh.1 e.symm) filled
      · rintro x (rfl | old)
        · exact fresh.2
        · exact fun mem => apart x old (Or.inr mem)

theorem lookup_toolResults {ids : List Text} {id : Text} (run : List (Message α)) (known : id ∈ ids)
    (filled : id ≠ []) :
    (toolResults ids run).lookup id = run.find? fun tool => tool.toolCallId = some id := by
  have from_ (results : List (Text × Message α)) : (run.foldl (fun results tool =>
      match tool.toolCallId with
      | some id =>
        if id ≠ [] ∧ id ∈ ids ∧ (results.lookup id).isNone then results ++ [(id, tool)] else results
      | none => results) results).lookup id =
        (results.lookup id).or (run.find? fun tool => tool.toolCallId = some id) := by
    induction run generalizing results with
    | nil => simp
    | cons tool run ih =>
      rw [foldl_cons, ih, find?_cons]
      cases identity : tool.toolCallId with
      | none => simp
      | some other =>
        by_cases same : other = id
        · subst same
          cases found : results.lookup other <;> simp [found, known, filled, lookup_append]
        · have skip : (id == other) = false := beq_eq_false_iff_ne.mpr (Ne.symm same)
          simp only [Option.some.injEq, same, decide_false]
          split
          · rw [lookup_append]
            simp [lookup_cons, skip]
          · rfl
  exact from_ []

theorem normalizeToolGroups_eq_ok {messages out : List (Message α)} :
    normalizeToolGroups messages = .ok out ↔
      out = regrouped messages ∧ ∀ m ∈ messages, m.Identified := by
  induction messages generalizing out with
  | nil => simp [normalizeToolGroups, regrouped, eq_comm]
  | cons m rest ih =>
    rw [normalizeToolGroups, regrouped, forall_mem_cons]
    by_cases tool : m.isTool
    · simp [tool, ih, Message.Identified]
    · have group {ids : List Text} (ok : identifiers [] m.calls = .ok ids) : m.calls.map (fun call =>
          ((toolResults ids (rest.takeWhile Message.isTool)).lookup call.id).getD (backfill call)) =
            m.calls.map (answer (rest.takeWhile Message.isTool)) := by
        obtain ⟨mem, filled, -, -⟩ := identifiers_spec ok
        refine map_congr_left fun call called => ?_
        have named := mem_map_of_mem (f := ToolCall.id) called
        rw [lookup_toolResults _ ((mem _).mpr (Or.inr named)) (ne_of_mem_of_not_mem named filled)]
        rfl
      simp only [tool, Bool.false_eq_true, if_false, bind_eq_ok, ih, Message.Identified]
      constructor
      · rintro ⟨ids, ok, later, ⟨rfl, rest⟩, made⟩
        cases made
        exact ⟨by rw [group ok], fun _ => ⟨ids, ok⟩, rest⟩
      · rintro ⟨rfl, identified, rest⟩
        obtain ⟨ids, ok⟩ := identified (by simp)
        exact ⟨ids, ok, _, ⟨rfl, rest⟩, by rw [group ok]; rfl⟩

theorem answer_spec (run : List (Message α)) (tools : ∀ t ∈ run, t.isTool) (call : ToolCall) :
    (answer run call).isTool ∧ (answer run call).toolCallId = some call.id := by
  unfold answer
  cases found : run.find? fun tool => tool.toolCallId = some call.id with
  | none => exact ⟨rfl, rfl⟩
  | some tool => exact ⟨tools tool (mem_of_find?_eq_some found), by simpa using find?_some found⟩

theorem answered_append {later : List (Message α)} {f : ToolCall → Message α}
    (each : ∀ call, (f call).isTool ∧ (f call).toolCallId = some call.id) (rest : Answered [] later) :
    Answered (calls.map ToolCall.id) (calls.map f ++ later) := by
  induction calls with
  | nil => exact rest
  | cons call calls ih => exact ⟨(each call).1, (each call).2, ih⟩

theorem answered_regrouped (ms : List (Message α)) : Answered [] (regrouped ms) := by
  induction ms with
  | nil => trivial
  | cons m rest ih =>
    unfold regrouped
    split
    · exact ih
    · rename_i other
      exact ⟨by simp [other], answered_append (answer_spec _ fun _ => mem_takeWhile_imp) ih⟩

theorem filter_regrouped (ms : List (Message α)) :
    (regrouped ms).filter (! ·.isTool) = ms.filter (! ·.isTool) := by
  induction ms with
  | nil => rfl
  | cons m rest ih =>
    unfold regrouped
    have group : (m.calls.map (answer (rest.takeWhile Message.isTool))).filter (! ·.isTool) = [] := by
      rw [filter_eq_nil_iff, forall_mem_map]
      intro call _
      simp [(answer_spec _ (fun _ => mem_takeWhile_imp) call).1]
    by_cases tool : m.isTool <;> simp [tool, group, ih]

variable {ms : List (Message α)} {m : Message α}

theorem mem_regrouped (mem : m ∈ regrouped ms) : m ∈ ms ∨ ∃ call, m = backfill call := by
  induction ms with
  | nil => cases mem
  | cons first rest ih =>
    rcases mem_append.mp mem with own | later
    · split at own
      · cases own
      · rcases mem_cons.mp own with rfl | answers
        · exact Or.inl mem_cons_self
        · obtain ⟨call, -, rfl⟩ := mem_map.mp answers
          unfold answer
          cases found : (rest.takeWhile Message.isTool).find? fun tool => tool.toolCallId = some call.id with
          | none => exact Or.inr ⟨call, rfl⟩
          | some tool =>
            exact Or.inl (mem_cons_of_mem _ ((takeWhile_sublist _).subset (mem_of_find?_eq_some found)))
    · exact (ih later).imp_left (mem_cons_of_mem _)

/-- Results that answer distinct calls in order are found again. -/
theorem map_answer {run : List (Message α)} (nodup : (calls.map ToolCall.id).Nodup)
    (answers : run.map Message.toolCallId = (calls.map ToolCall.id).map some) :
    calls.map (answer run) = run := by
  induction calls generalizing run with
  | nil => simpa using answers.symm
  | cons call calls ih =>
    cases run with
    | nil => cases answers
    | cons tool run =>
      simp only [map_cons, cons.injEq, nodup_cons] at answers nodup ⊢
      refine ⟨by simp [answer, answers.1], ?_⟩
      refine (map_congr_left fun other mem => ?_).trans (ih nodup.2 answers.2)
      have ne : call.id ≠ other.id := fun same => nodup.1 (same ▸ mem_map_of_mem mem)
      simp [answer, answers.1, ne]

/-- A list that keeps the rule is its own regrouping. -/
theorem regrouped_of_answered {pending : List Text}
    (answered : Answered pending ms) (identified : ∀ m ∈ ms, m.Identified) :
    (ms.takeWhile Message.isTool).map Message.toolCallId = pending.map some ∧
      regrouped ms = ms.dropWhile Message.isTool := by
  induction ms generalizing pending with
  | nil => cases pending <;> simp_all [Answered, regrouped]
  | cons m rest ih =>
    rw [forall_mem_cons] at identified
    cases pending with
    | nil =>
      obtain ⟨other, answered⟩ := answered
      obtain ⟨run, later⟩ := ih answered identified.2
      obtain ⟨ids, ok⟩ := identified.1 other
      have group := map_answer (identifiers_spec ok).2.2.1 run
      simp [regrouped, other, group, later, takeWhile_append_dropWhile]
    | cons id pending =>
      obtain ⟨tool, answers, answered⟩ := answered
      obtain ⟨run, later⟩ := ih answered identified.2
      simp [regrouped, tool, answers, run, later]

theorem normalizeToolGroups_of_answered (answered : Answered [] ms)
    (identified : ∀ m ∈ ms, m.Identified) : normalizeToolGroups ms = .ok ms := by
  obtain ⟨run, same⟩ := regrouped_of_answered answered identified
  refine normalizeToolGroups_eq_ok.mpr ⟨?_, identified⟩
  rw [map_nil, map_eq_nil_iff] at run
  rw [same, ← nil_append (dropWhile _ _), ← run, takeWhile_append_dropWhile]

/-! ## The rewriting passes -/

/-- Only content and source of a tool message differ. -/
def Message.Rewritten (m m' : Message α) : Prop :=
  m' = m ∨ m.isTool ∧ ∃ content source, m' = { m with content := content, source := source }

theorem Message.Rewritten.isCompactable_eq {m' : Message α} (same : m.Rewritten m') :
    m'.isCompactable = m.isCompactable := by
  rcases same with rfl | ⟨_, content, source, rfl⟩ <;> rfl

theorem rewritten_mapIdx (ms : List (Message α)) {f : Nat → Message α → Message α}
    (each : ∀ i (m : Message α), ms[i]? = some m → m.Rewritten (f i m)) :
    Forall₂ Message.Rewritten ms (ms.mapIdx f) := by
  induction ms generalizing f with
  | nil => exact .nil
  | cons m ms ih =>
    rw [mapIdx_cons]
    exact .cons (each 0 m rfl) (ih fun i => each (i + 1))

theorem answered_of_rewritten {ms' : List (Message α)} (same : Forall₂ Message.Rewritten ms ms')
    {pending : List Text} (answered : Answered pending ms) : Answered pending ms' := by
  induction same generalizing pending with
  | nil => exact answered
  | cons first _ ih =>
    cases pending with
    | nil =>
      rcases first with rfl | ⟨tool, _⟩
      · exact ⟨answered.1, ih answered.2⟩
      · exact absurd tool (by simp [answered.1])
    | cons id pending =>
      obtain ⟨tool, answers, answered⟩ := answered
      rcases first with rfl | ⟨_, content, source, rfl⟩ <;> exact ⟨tool, answers, ih answered⟩

theorem stale_of_rewritten {ms' : List (Message α)} (same : Forall₂ Message.Rewritten ms ms') :
    stale ms' = stale ms := by
  have places (s : Nat) : ms'.findIdxs Message.isCompactable s = ms.findIdxs Message.isCompactable s := by
    induction same generalizing s with
    | nil => rfl
    | cons first _ ih => rw [findIdxs_cons, findIdxs_cons, ih, first.isCompactable_eq]
  simp only [stale, places]

theorem isCompactable_of_stale {i : Nat} (mem : i ∈ stale ms)
    (found : ms[i]? = some m) : m.isCompactable := by
  obtain ⟨lt, holds⟩ := mem_findIdxs_iff_exists_getElem_pos.mp (mem_of_mem_take mem)
  rw [getElem?_eq_getElem lt, Option.some.injEq] at found
  rwa [found] at holds

theorem rewritten_microcompact (ms : List (Message α)) :
    Forall₂ Message.Rewritten ms (microcompact ms) := by
  refine rewritten_mapIdx ms fun i m found => ?_
  split
  · rename_i mem
    have tool : m.isTool := (Bool.and_eq_true_iff.mp (isCompactable_of_stale mem found)).1
    unfold Message.omitted
    split
    · exact Or.inl rfl
    · exact Or.inr ⟨tool, _, _, rfl⟩
  · exact Or.inl rfl

theorem recent_microcompact (ms : List (Message α)) {i : Nat}
    (recent : i ∈ (ms.findIdxs Message.isCompactable).reverse.take 10) : (microcompact ms)[i]? = ms[i]? := by
  rw [take_reverse, mem_reverse] at recent
  have kept : i ∉ stale ms := by
    have apart : (ms.findIdxs Message.isCompactable).Nodup := nodup_findIdxs
    rw [← take_append_drop ((ms.findIdxs Message.isCompactable).length - 10)
      (ms.findIdxs Message.isCompactable), nodup_append] at apart
    exact fun old => apart.2.2 i old i recent rfl
  rw [microcompact, getElem?_mapIdx]
  simp [kept]

variable (items : α → Text) (spec : AgentRunSpec)

theorem rewritten_budgeted (m : Message α) : m.Rewritten (m.budgeted items spec) := by
  unfold Message.budgeted
  split
  · rename_i changed
    exact Or.inr ⟨changed.1, _, _, rfl⟩
  · exact Or.inl rfl

theorem rewritten_applyToolResultBudget (ms : List (Message α)) :
    Forall₂ Message.Rewritten ms (applyToolResultBudget items spec ms) :=
  forall₂_map_right_iff.mpr (forall₂_same.mpr fun m _ => rewritten_budgeted items spec m)

theorem budgeted_content (tool : m.isTool) :
    (m.budgeted items spec).content = .text (normalizeToolResult items spec m.label m.content) := by
  unfold Message.budgeted
  split
  · rfl
  · rename_i same
    have same : m.content.text? = some _ := not_not.mp fun ne => same ⟨tool, ne⟩
    revert same
    cases m.content <;> simp [Content.text?]

theorem not_blank_of_mem {s : Text} {u : Nat} (mem : u ∈ s) (solid : JsString.isSpace (Char.ofNat u) = false) :
    blank s = false :=
  all_eq_false.mpr ⟨u, mem, by simp [solid]⟩

theorem normalizeToolResult_bounds (name : Text) (result : Content α) :
    blank (normalizeToolResult items spec name result) = false ∧
      (normalizeToolResult items spec name result).length ≤ spec.maxToolResultChars ∧
      (normalizeToolResult items spec name result).length ≤
        (ensureNonemptyToolResult items name result).length := by
  have pos := spec.admitted
  have bracket : text "[" = [91] := rfl
  have filled : blank (ensureNonemptyToolResult items name result) = false := by
    unfold ensureNonemptyToolResult
    split
    · exact not_blank_of_mem (u := 91) (by simp [bracket]) rfl
    · split
      · exact not_blank_of_mem (u := 91) (by simp [bracket]) rfl
      · rename_i solid
        exact Bool.eq_false_of_not_eq_true solid
    · exact not_blank_of_mem (u := 91) (by simp [bracket]) rfl
  have dots : text "..." = [46, 46, 46] := rfl
  unfold normalizeToolResult truncateText
  split
  · exact ⟨filled, ‹_›, le_rfl⟩
  · split
    · exact ⟨not_blank_of_mem (u := 46) (by simp; omega) rfl, by simp, by simp; omega⟩
    · exact ⟨not_blank_of_mem (u := 46) (by simp [dots]) rfl, by simp [dots]; omega,
        by simp [dots]; omega⟩

theorem label_of_compactable (compactable : m.isCompactable) : m.label.length ≤ 18 := by
  have known : ∀ name ∈ compactableTools, name ≠ [] ∧ name.length ≤ 18 := by decide
  obtain ⟨-, named⟩ := Bool.and_eq_true_iff.mp compactable
  obtain ⟨name, found, mem⟩ := (Option.any_eq_true _ _).mp named
  obtain ⟨filled, short⟩ := known name (contains_iff_mem.mp mem)
  simpa [Message.label, found, Option.filter, filled] using short

/-- A stale result is short once it was omitted and cut. -/
theorem short_of_compactable (compactable : m.isCompactable)
    (readable : ∀ b, m.content ≠ .blocks b) :
    (((m.omitted.budgeted items spec).content.text?).getD []).length < 500 := by
  have tool : m.isTool := (Bool.and_eq_true_iff.mp compactable).1
  have label := label_of_compactable compactable
  have lengths : (text "[").length = 1 ∧ (text ": no result]").length = 12 ∧
      (text ": empty result]").length = 15 ∧ (text " result omitted from context]").length = 29 := by decide
  have ensured {name : Text} (le : name.length ≤ 18) {c : Content α} (readable : ∀ b, c ≠ .blocks b)
      (short : (c.text?.getD []).length < 500) : (ensureNonemptyToolResult items name c).length < 500 := by
    cases c with
    | null => simp only [ensureNonemptyToolResult, length_append]; omega
    | text s =>
      simp only [ensureNonemptyToolResult]
      split
      · simp only [length_append]; omega
      · exact short
    | blocks b => exact absurd rfl (readable b)
  unfold Message.omitted
  split
  · rename_i short
    rw [budgeted_content items spec tool]
    exact (normalizeToolResult_bounds items spec _ _).2.2.trans_lt (ensured label readable short)
  · rw [budgeted_content items spec (by exact tool)]
    refine (normalizeToolResult_bounds items spec _ _).2.2.trans_lt (ensured label nofun ?_)
    simp only [Content.text?, Option.getD_some, length_append]
    omega

theorem budgeted_twice (m : Message α) :
    (m.budgeted items spec).budgeted items spec = m.budgeted items spec := by
  by_cases tool : (m.budgeted items spec).isTool
  · have content := budgeted_content items spec (m := m) (by
      rcases rewritten_budgeted items spec m with same | ⟨tool, _⟩
      · rwa [same] at tool
      · exact tool)
    obtain ⟨solid, le, -⟩ := normalizeToolResult_bounds items spec m.label m.content
    generalize normalizeToolResult items spec m.label m.content = s at content solid le
    generalize m.budgeted items spec = cut at content
    have fixed : normalizeToolResult items spec cut.label (.text s) = s := by
      simp [normalizeToolResult, ensureNonemptyToolResult, truncateText, solid, le]
    exact if_neg fun changed => changed.2 (by rw [content, fixed]; rfl)
  · exact if_neg fun changed => tool changed.1

theorem prepareMessages_twice {groups : List (Message α)} (answered : Answered [] groups)
    (identified : ∀ m ∈ groups, m.Identified) (readable : ∀ m ∈ groups, ∀ b, m.isTool → m.content ≠ .blocks b) :
    prepareMessages items spec (applyToolResultBudget items spec (microcompact groups)) =
      .ok (applyToolResultBudget items spec (microcompact groups)) := by
  have omitted := rewritten_microcompact groups
  have cut := rewritten_applyToolResultBudget items spec (microcompact groups)
  have staleness := (stale_of_rewritten cut).trans (stale_of_rewritten omitted)
  have kept {ms ms' : List (Message α)} (same : Forall₂ Message.Rewritten ms ms')
      (identified : ∀ m ∈ ms, m.Identified) : ∀ m ∈ ms', m.Identified := by
    intro m mem other
    obtain ⟨before, mem, rfl | ⟨tool, content, source, rfl⟩⟩ := Except.exists_of_forall₂ same mem
    · exact identified _ mem other
    · exact absurd tool (by simpa [Message.isTool] using other)
  rw [prepareMessages, normalizeToolGroups_of_answered
    (answered_of_rewritten cut (answered_of_rewritten omitted answered)) (kept cut (kept omitted identified))]
  have again : microcompact (applyToolResultBudget items spec (microcompact groups)) =
      applyToolResultBudget items spec (microcompact groups) := by
    refine ext_getElem? fun i => ?_
    rw [microcompact, getElem?_mapIdx, staleness]
    cases found : groups[i]? with
    | none => simp [applyToolResultBudget, microcompact, found]
    | some m =>
      by_cases old : i ∈ stale groups
      · have compactable := isCompactable_of_stale old found
        have short := short_of_compactable items spec compactable fun b =>
          readable m (mem_of_getElem? found) b (Bool.and_eq_true_iff.mp compactable).1
        simp only [applyToolResultBudget, microcompact, getElem?_map, getElem?_mapIdx, found, old,
          Option.map_some, if_true]
        exact congrArg some (if_pos short)
      · simp [old]
  simp only [Except.map, again]
  simp only [applyToolResultBudget, map_map, Function.comp_def, budgeted_twice]

theorem prepared_keeps_protocol {messages groups : List (Message α)}
    (normalized : normalizeToolGroups messages = .ok groups) :
    groups.filter (! ·.isTool) = messages.filter (! ·.isTool) ∧ groups = regrouped messages ∧
    Answered [] groups ∧ normalizeToolGroups groups = .ok groups ∧
    (∀ ms : List (Message α), Forall₂ Message.Rewritten ms (microcompact ms) ∧
      Forall₂ Message.Rewritten ms (applyToolResultBudget items spec ms) ∧
      (Answered [] ms → Answered [] (microcompact ms) ∧
        Answered [] (applyToolResultBudget items spec ms)) ∧
      (∀ i ∈ (ms.findIdxs Message.isCompactable).reverse.take 10, (microcompact ms)[i]? = ms[i]?) ∧
      ∀ m ∈ applyToolResultBudget items spec ms, m.isTool →
        ∃ s, m.content = .text s ∧ blank s = false ∧ s.length ≤ spec.maxToolResultChars) ∧
    ∃ prepared, prepareMessages items spec messages = .ok prepared ∧
      ((∀ m ∈ messages, m.isTool → ∀ b, m.content ≠ .blocks b) →
        prepareMessages items spec prepared = .ok prepared) := by
  obtain ⟨rfl, identified⟩ := normalizeToolGroups_eq_ok.mp normalized
  have answered := answered_regrouped messages
  have groupsIdentified : ∀ m ∈ regrouped messages, m.Identified := by
    intro m mem
    rcases mem_regrouped mem with old | ⟨call, rfl⟩
    · exact identified m old
    · exact nofun
  refine ⟨filter_regrouped messages, rfl, answered,
    normalizeToolGroups_of_answered answered groupsIdentified, fun ms => ?_, ?_⟩
  · have omitted := rewritten_microcompact ms
    have cut := rewritten_applyToolResultBudget items spec ms
    refine ⟨omitted, cut, fun answered =>
      ⟨answered_of_rewritten omitted answered, answered_of_rewritten cut answered⟩,
      fun i => recent_microcompact ms, fun m mem tool => ?_⟩
    obtain ⟨before, -, rfl⟩ := mem_map.mp mem
    have tool : before.isTool := by
      rcases rewritten_budgeted items spec before with same | ⟨tool, _⟩
      · rwa [same] at tool
      · exact tool
    obtain ⟨solid, le, -⟩ := normalizeToolResult_bounds items spec before.label before.content
    exact ⟨_, budgeted_content items spec tool, solid, le⟩
  · refine ⟨_, by rw [prepareMessages, normalized]; rfl, fun readable => ?_⟩
    refine prepareMessages_twice items spec answered groupsIdentified fun m mem b tool => ?_
    rcases mem_regrouped mem with old | ⟨call, rfl⟩
    · exact readable m old tool b
    · exact nofun

/-- A repeated result is dropped, a lost one is filled in. -/
theorem prepared_keeps_protocol_lost : ∃ groups, normalizeToolGroups
    (batchOf "a" ++ (batchOf "a").drop 1 ++ (batchOf "b").take 1) = .ok groups ∧ Answered [] groups := by
  have ok : normalizeToolGroups
    (batchOf "a" ++ (batchOf "a").drop 1 ++ (batchOf "b").take 1) = .ok _ := rfl
  exact ⟨_, ok, (prepared_keeps_protocol (fun _ => []) ⟨none, false, none, 8, by decide⟩ ok).2.2.1⟩

end Slide.Context
