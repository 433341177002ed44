import Slide.Library.JsString

/-!
# Where a history is cut

`ContextManager.split` and `pins` of `runtime/context-manager.ts`.  A text is its UTF-16 code units, as
the source measures and slices them.
-/

namespace Slide.Context

open List

/-- A JavaScript string. -/
abbrev Text := List Nat

def text (s : String) : Text := JsString.utf16 s

inductive Role
  | system | user | assistant | tool
deriving DecidableEq

inductive Source
  | fact | derived | runtime | synthetic
deriving DecidableEq

/-- `ToolCall`, with the two fields of its `function`. -/
structure ToolCall where
  (id name arguments : Text)

inductive Content (α : Type)
  | null
  | text (text : Text)
  | blocks (blocks : α)

/-- `Message`; `other` are the fields that only a copy touches. -/
structure Message (α : Type) where
  role : Role
  content : Content α
  source : Option Source := none
  toolCalls : Option (List ToolCall) := none
  toolCallId : Option Text := none
  name : Option Text := none
  other : Option α := none

variable {α : Type}

/-- `!m.source || m.source === 'fact'` -/
def Message.isFact (m : Message α) : Bool := m.source.getD .fact = .fact

def Message.isTool (m : Message α) : Bool := m.role = .tool

/-- What is pinned as it is. -/
def Message.isGoal (m : Message α) : Bool := m.role = .system || m.role = .user

/-- An assistant message of the run that calls tools. -/
def Message.isBatch (m : Message α) : Bool :=
  m.role = .assistant && m.isFact && m.toolCalls.getD [] ≠ []

/-- What is configured of `AgentRunSpec`; `contextPins` is rendered, and the constructor of
`ContextManager` has checked the bound of the results. -/
structure AgentRunSpec where
  recentToolBatches : Option Nat
  canonical : Bool
  contextPins : Option Text
  maxToolResultChars : Nat
  admitted : 0 < maxToolResultChars

inductive Status
  | resultRecorded | uncertain
deriving DecidableEq

structure Evidence where
  sourceIndex : Nat
  (toolCallId toolName arguments : Text)
  status : Status

/-- The value under `evidence_references`: its rows, or the identities of an exact range. -/
inductive References
  | full (rows : List Evidence)
  | canonical (stop : Nat) (sha256 : Text) (resultRecorded uncertain : List Text)

/-- Hashing and JSON: `sourceHash`, the identity of a reference, and a reference as it is written. -/
structure Host (α : Type) where
  sourceHash : List (Message α) → Text
  referenceId : Text → Text → Text
  stringify : References → Text

/-- `latest`: the place of the last user message. -/
def latest (raw : List (Message α)) : Nat :=
  (raw.findIdxs fun m => m.role = .user).getLast?.getD raw.length

/-- `end`, from the places of the batches. -/
def cutAt (spec : AgentRunSpec) (batches : List Nat) (latest : Nat) : Nat :=
  if spec.recentToolBatches = some 1 then batches.getLast?.getD latest
  else batches.dropLast.getLast?.getD latest

/-- `split(raw).end` -/
def splitEnd (spec : AgentRunSpec) (raw : List (Message α)) : Nat :=
  cutAt spec (raw.findIdxs Message.isBatch) (latest raw)

/-- The `status` of a call of message `index`. -/
def status (raw : List (Message α)) (stop index : Nat) (call : ToolCall) : Status :=
  if ((raw.take stop).drop (index + 1)).any fun r =>
    r.isTool && r.isFact && r.toolCallId = some call.id then .resultRecorded else .uncertain

/-- The rows of one message. -/
def rows (raw : List (Message α)) (stop : Nat) (m : Message α) (index : Nat) : List Evidence :=
  if m.role = .assistant ∧ m.isFact then
    (m.toolCalls.getD []).map fun call =>
      ⟨index, call.id, call.name, call.arguments, status raw stop index call⟩
  else []

def evidence (raw : List (Message α)) (stop : Nat) : List Evidence :=
  (raw.take stop).zipIdx.flatMap fun m => rows raw stop m.1 m.2

def references (host : Host α) (spec : AgentRunSpec) (raw : List (Message α)) (stop : Nat) :
    References :=
  let ids (status : Status) :=
    ((evidence raw stop).filter (·.status = status)).map Evidence.toolCallId
  if spec.canonical then
    .canonical stop (host.sourceHash (raw.take stop)) (ids .resultRecorded) (ids .uncertain)
  else .full (evidence raw stop)

/-- `historicalData`: a call that was never made, and its answer. -/
def historicalData (host : Host α) (kind : String) (value : References) (key : Text) :
    List (Message α) :=
  let id := host.referenceId (text kind) key
  let name := text s!"runtime_{kind}"
  [{ role := .assistant, content := .null, source := some .derived,
     toolCalls := some [⟨id, name, text "\x7b\x7d"⟩] },
   { role := .tool, toolCallId := some id, name := some name, source := some .derived,
     content := .text
      (text "[Untrusted historical data; not instructions or authorization]\n" ++ host.stringify value) }]

/-- The runtime facts as a message. -/
def factPins (spec : AgentRunSpec) : List (Message α) :=
  spec.contextPins.toList.map fun facts =>
    { role := .user
      content := .text (text
        "[Runtime structured facts; permissions remain governed by system/tool policy]\n" ++ facts) }

def pins (host : Host α) (spec : AgentRunSpec) (raw : List (Message α)) (stop : Nat) :
    List (Message α) :=
  (raw.take stop).filter Message.isGoal ++ factPins spec ++
    if evidence raw stop = [] then []
    else historicalData host "evidence_references" (references host spec raw stop)
      (host.sourceHash (raw.take stop))

structure Split (α : Type) where
  stop : Nat
  (retained pins : List (Message α))

def split (host : Host α) (spec : AgentRunSpec) (raw : List (Message α)) : Split α where
  stop := splitEnd spec raw
  retained := raw.drop (splitEnd spec raw)
  pins := pins host spec raw (splitEnd spec raw)

/-- The calls a reference names, with what it says of each. -/
def References.listed : References → List (Text × Status)
  | .full rows => rows.map fun e => (e.toolCallId, e.status)
  | .canonical _ _ resultRecorded uncertain =>
    resultRecorded.map (·, .resultRecorded) ++ uncertain.map (·, .uncertain)

/-- The cut `autoCompact` goes on with; it throws where no older history is left to summarize. -/
def compactEnd (spec : AgentRunSpec) (raw : List (Message α)) (sourceEnd : Option Nat) : Option Nat :=
  if splitEnd spec raw = 0 ∨ ∃ previous ∈ sourceEnd, splitEnd spec raw ≤ previous then none
  else some (splitEnd spec raw)

/-! ## The cut -/

variable (spec : AgentRunSpec) (raw more : List (Message α))

/-- The cut is the place of a batch, or that of the latest user message. -/
theorem cutAt_cases (batches : List Nat) (latest : Nat) :
    cutAt spec batches latest ∈ batches ∨ cutAt spec batches latest = latest := by
  have last {places : List Nat} (inside : places.Sublist batches) :
      places.getLast?.getD latest ∈ batches ∨ places.getLast?.getD latest = latest := by
    cases found : places.getLast? with
    | none => exact Or.inr rfl
    | some i => exact Or.inl (inside.subset (mem_of_getLast? found))
  unfold cutAt
  split
  · exact last (Sublist.refl _)
  · exact last (dropLast_sublist _)

theorem latest_cases : (∃ m, raw[latest raw]? = some m ∧ m.role = .user) ∨ latest raw = raw.length := by
  unfold latest
  cases found : (raw.findIdxs fun m => decide (m.role = .user)).getLast? with
  | none => exact Or.inr rfl
  | some i =>
    obtain ⟨lt, user⟩ := mem_findIdxs_iff_exists_getElem_pos.mp (mem_of_getLast? found)
    exact Or.inl ⟨_, getElem?_eq_getElem lt, of_decide_eq_true user⟩

/-- What stands at the cut opens a turn or a batch. -/
theorem splitEnd_cases :
    (∃ m, raw[splitEnd spec raw]? = some m ∧ m.isTool = false) ∨ splitEnd spec raw = raw.length := by
  rcases cutAt_cases spec (raw.findIdxs Message.isBatch) (latest raw) with mem | eq
  · obtain ⟨lt, batch⟩ := mem_findIdxs_iff_exists_getElem_pos.mp mem
    refine Or.inl ⟨_, getElem?_eq_getElem lt, ?_⟩
    simp only [Message.isBatch, Bool.and_eq_true, decide_eq_true_eq] at batch
    simp [Message.isTool, batch.1.1]
  · rw [splitEnd, eq]
    rcases latest_cases raw with ⟨m, found, user⟩ | whole
    · exact Or.inl ⟨m, found, by simp [Message.isTool, user]⟩
    · exact Or.inr whole

theorem splitEnd_le : splitEnd spec raw ≤ raw.length := by
  rcases splitEnd_cases spec raw with ⟨m, found, -⟩ | whole
  · exact (List.getElem?_eq_some_iff.mp found).1.le
  · exact whole.le

theorem latest_le_append : latest raw ≤ latest (raw ++ more) := by
  have le : latest raw ≤ raw.length := by
    rcases latest_cases raw with ⟨m, found, -⟩ | whole
    · exact (List.getElem?_eq_some_iff.mp found).1.le
    · exact whole.le
  unfold latest at le ⊢
  rw [findIdxs_append, getLast?_append, length_append, Nat.zero_add]
  cases last : (more.findIdxs (fun m => decide (m.role = .user)) raw.length).getLast? with
  | some i => exact le.trans (ge_of_mem_findIdxs i (mem_of_getLast? last))
  | none => cases (raw.findIdxs fun m => decide (m.role = .user)).getLast? <;> simp

theorem cutAt_append_lt {batches added : List Nat} {n old now : Nat}
    (rising : batches.Pairwise (· < ·)) (new : ∀ i ∈ added, n ≤ i)
    (le : cutAt spec batches old ≤ n) (later : old ≤ now) :
    cutAt spec (batches ++ added) now < cutAt spec batches old ↔
      spec.recentToolBatches ≠ some 1 ∧ added.length = 1 ∧
        ∃ b, batches = [b] ∧ b < cutAt spec batches old := by
  unfold cutAt at le ⊢
  rcases eq_nil_or_concat' added with rfl | ⟨before, x, rfl⟩
  · -- nothing new: the same place, or a later user message
    split
    · cases last : batches.getLast? <;> simp [*]
    · cases last : batches.dropLast.getLast? <;> simp [*]
  · split at le <;> rename_i one
    · have := new x (by simp)
      simp only [one, if_true, ← append_assoc, getLast?_concat, Option.getD_some]
      simp
      omega
    · simp only [one, if_false, ← append_assoc, dropLast_concat, getLast?_append, length_append]
      rcases eq_nil_or_concat' before with rfl | ⟨before, y, rfl⟩
      · -- one new batch: the last of the old ones is now kept
        rcases eq_nil_or_concat' batches with rfl | ⟨kept, b, rfl⟩
        · simp [later]
        · rcases eq_nil_or_concat' kept with rfl | ⟨kept, c, rfl⟩
          · simp [one]
          · have : c < b := (pairwise_append.mp rising).2.2 c (by simp) b (by simp)
            simp [this.le, append_assoc, append_eq_cons_iff]
      · have := new y (by simp)
        simp
        omega

/-- The cut falls back in one case only: it was behind the one batch there was, and one more came. -/
theorem splitEnd_append_lt : splitEnd spec (raw ++ more) < splitEnd spec raw ↔
    spec.recentToolBatches ≠ some 1 ∧ more.countP Message.isBatch = 1 ∧
      ∃ b, raw.findIdxs Message.isBatch = [b] ∧ b < splitEnd spec raw := by
  rw [← length_findIdxs (s := raw.length), splitEnd, findIdxs_append, Nat.zero_add]
  exact cutAt_append_lt spec pairwise_findIdxs ge_of_mem_findIdxs (splitEnd_le spec raw)
    (latest_le_append raw more)

/-! ## The evidence -/

theorem evidence_of_index (stop index : Nat) :
    (evidence raw stop).filter (·.sourceIndex = index) =
      ((raw.take stop)[index]?.map fun m => rows raw stop m index).getD [] := by
  have own (m : Message α) (i : Nat) : ∀ e ∈ rows raw stop m i, e.sourceIndex = i := by
    intro e mem
    unfold rows at mem
    split at mem
    · obtain ⟨call, -, rfl⟩ := mem_map.mp mem
      rfl
    · cases mem
  have other {i j : Nat} (ne : i ≠ j) (m : Message α) :
      (rows raw stop m i).filter (·.sourceIndex = j) = [] :=
    filter_eq_nil_iff.mpr fun e mem => by simp [own m i e mem, ne]
  have each (l : List (Message α)) (k index : Nat) :
      ((l.zipIdx k).flatMap fun m => rows raw stop m.1 m.2).filter (·.sourceIndex = k + index) =
        (l[index]?.map fun m => rows raw stop m (k + index)).getD [] := by
    induction l generalizing k index with
    | nil => rfl
    | cons m l ih =>
      rw [zipIdx_cons, flatMap_cons, filter_append]
      cases index with
      | zero =>
        rw [filter_eq_self.mpr fun e mem => by simp [own m k e mem], filter_flatMap]
        have rest : ∀ m ∈ l.zipIdx (k + 1), (rows raw stop m.1 m.2).filter (·.sourceIndex = k + 0) = [] := by
          intro m mem
          have := le_snd_of_mem_zipIdx mem
          exact other (by omega) m.1
        rw [flatMap_eq_nil_iff.mpr rest, append_nil]
        rfl
      | succ index =>
        rw [other (by omega) m, nil_append, getElem?_cons_succ, show k + (index + 1) = k + 1 + index by omega]
        exact ih (k + 1) index
  simpa [evidence] using each (raw.take stop) 0 index

theorem status_recorded (stop index : Nat) (call : ToolCall) :
    status raw stop index call = .resultRecorded ↔ ∃ j r, index < j ∧ j < stop ∧ raw[j]? = some r ∧
      r.role = .tool ∧ r.isFact ∧ r.toolCallId = some call.id := by
  have found : status raw stop index call = .resultRecorded ↔
      ((raw.take stop).drop (index + 1)).any fun r =>
        r.isTool && r.isFact && r.toolCallId = some call.id := by
    unfold status
    split <;> simp [*]
  rw [found, any_eq_true]
  constructor
  · rintro ⟨r, mem, holds⟩
    obtain ⟨j, found⟩ := mem_iff_getElem?.mp mem
    rw [getElem?_drop, getElem?_take] at found
    split at found
    · exact ⟨_, r, by omega, ‹_›, found, by simpa [Message.isTool, and_assoc] using holds⟩
    · cases found
  · rintro ⟨j, r, after, before, found, holds⟩
    refine ⟨r, mem_iff_getElem?.mpr ⟨j - (index + 1), ?_⟩, by simpa [Message.isTool, and_assoc] using holds⟩
    rw [getElem?_drop, getElem?_take, show index + 1 + (j - (index + 1)) = j by omega, if_pos before, found]

theorem listed_perm (host : Host α) (stop : Nat) :
    (references host spec raw stop).listed.Perm
      ((evidence raw stop).map fun e => (e.toolCallId, e.status)) := by
  unfold references
  split
  · have known (status : Status) : ((evidence raw stop).filter (·.status = status)).map
        (fun e => (e.toolCallId, status)) =
          ((evidence raw stop).filter (·.status = status)).map fun e => (e.toolCallId, e.status) :=
      map_congr_left fun e mem => by rw [of_decide_eq_true (mem_filter.mp mem).2]
    have rest : (evidence raw stop).filter (·.status = .uncertain) =
        (evidence raw stop).filter fun e => ! decide (e.status = .resultRecorded) :=
      filter_congr fun e _ => by cases e.status <;> rfl
    simp only [References.listed, map_map, Function.comp_def, known]
    rw [← map_append, rest]
    exact (filter_append_perm _ _).map _
  · exact Perm.refl _

/-! ## An accepted summary -/

/-- Messages that are appended leave what is pinned for a summary of the old ones. -/
theorem pins_append (host : Host α) {stop : Nat} (within : stop ≤ raw.length) :
    pins host spec (raw ++ more) stop = pins host spec raw stop := by
  have taken : (raw ++ more).take stop = raw.take stop := take_append_of_le_length within
  have same : evidence (raw ++ more) stop = evidence raw stop := by
    simp only [evidence, rows, status, taken]
  simp only [pins, references, same, taken]

theorem goal_retained_or_pinned (host : Host α) {m : Message α} (mem : m ∈ raw) (goal : m.isGoal) :
    m ∈ raw.drop (splitEnd spec raw) ∨ m ∈ pins host spec raw (splitEnd spec raw) := by
  rw [← take_append_drop (splitEnd spec raw) raw, mem_append] at mem
  rcases mem with old | kept
  · exact Or.inr (mem_append_left _ (mem_append_left _ (mem_filter.mpr ⟨old, goal⟩)))
  · exact Or.inl kept

/-- The results that directly follow a call are on its side of the cut. -/
theorem run_of_results_kept {i j : Nat} (before : i < splitEnd spec raw) (inside : j < raw.length)
    (results : ∀ k, i < k → k ≤ j → ∃ r, raw[k]? = some r ∧ r.isTool) : j < splitEnd spec raw := by
  by_contra beyond
  rcases splitEnd_cases spec raw with ⟨m, found, other⟩ | whole
  · obtain ⟨r, result, tool⟩ := results _ before (by omega)
    rw [found, Option.some.injEq] at result
    simp [← result, other] at tool
  · omega

theorem compactEnd_eq_some {sourceEnd : Option Nat} {stop : Nat} :
    compactEnd spec raw sourceEnd = some stop ↔
      stop = splitEnd spec raw ∧ 0 < stop ∧ ∀ previous ∈ sourceEnd, previous < stop := by
  unfold compactEnd
  split
  · rename_i refused
    simp only [reduceCtorEq, false_iff, not_and]
    rintro rfl pos
    rcases refused with zero | ⟨previous, mem, le⟩
    · omega
    · exact fun grows => absurd (grows previous mem) (by omega)
  · rename_i passes
    push Not at passes
    rw [Option.some.injEq]
    constructor
    · rintro rfl
      exact ⟨rfl, Nat.pos_of_ne_zero passes.1, passes.2⟩
    · exact fun h => h.1.symm

theorem summary_stays_usable (host : Host α) (spec : AgentRunSpec) (raw more : List (Message α)) :
    let cut := split host spec raw
    (∀ i j, i < cut.stop → j < raw.length →
      (∀ k, i < k → k ≤ j → ∃ r, raw[k]? = some r ∧ r.isTool) → j < cut.stop) ∧
    cut.retained = raw.drop cut.stop ∧
    (∀ m ∈ raw, m.role = .user → m ∈ cut.retained ∨ m ∈ cut.pins) ∧
    (raw.take cut.stop).filter Message.isGoal <+: cut.pins ∧
    (evidence raw cut.stop ≠ [] → historicalData host "evidence_references"
      (references host spec raw cut.stop) (host.sourceHash (raw.take cut.stop)) <:+ cut.pins) ∧
    (references host spec raw cut.stop).listed.Perm
      ((evidence raw cut.stop).map fun e => (e.toolCallId, e.status)) ∧
    (∀ index, (evidence raw cut.stop).filter (·.sourceIndex = index) =
      ((raw.take cut.stop)[index]?.map fun m => rows raw cut.stop m index).getD []) ∧
    (∀ index call, status raw cut.stop index call = .resultRecorded ↔
      ∃ j r, index < j ∧ j < cut.stop ∧ raw[j]? = some r ∧ r.role = .tool ∧ r.isFact ∧
        r.toolCallId = some call.id) ∧
    pins host spec (raw ++ more) cut.stop = cut.pins ∧
    (splitEnd spec (raw ++ more) < cut.stop ↔
      spec.recentToolBatches ≠ some 1 ∧ more.countP Message.isBatch = 1 ∧
        ∃ b, raw.findIdxs Message.isBatch = [b] ∧ b < cut.stop) ∧
    (∀ sourceEnd next, compactEnd spec (raw ++ more) sourceEnd = some next ↔
      next = splitEnd spec (raw ++ more) ∧ 0 < next ∧ ∀ previous ∈ sourceEnd, previous < next) := by
  intro cut
  refine ⟨fun i j => run_of_results_kept spec raw, rfl, fun m mem user => ?_, ?_, fun some => ?_,
    listed_perm spec raw host _, evidence_of_index raw _, status_recorded raw _,
    pins_append spec raw more host (splitEnd_le spec raw), splitEnd_append_lt spec raw more,
    fun sourceEnd next => compactEnd_eq_some spec (raw ++ more)⟩
  · exact goal_retained_or_pinned spec raw host mem (by simp [Message.isGoal, user])
  · exact (prefix_append _ _).trans (prefix_append _ _)
  · simp only [cut, split, pins]
    rw [if_neg (show evidence raw (splitEnd spec raw) ≠ [] from some)]
    exact suffix_append _ _

/-- A batch with its result. -/
def batchOf (id : String) : List (Message Unit) :=
  [{ role := .assistant, content := .null, toolCalls := some [⟨text id, text "exec", text ""⟩] },
   { role := .tool, content := .text (text "ok"), toolCallId := some (text id) }]

/-- A question and its one batch are summarized with the cut at the next question; after the batch of
that one the cut is back at the first batch. -/
theorem cut_falls_back : ¬ ∀ (spec : AgentRunSpec) (raw more : List (Message Unit)),
    splitEnd spec raw ≠ splitEnd spec (raw ++ more) → splitEnd spec raw ≤ splitEnd spec (raw ++ more) := by
  intro monotone
  have falls := monotone ⟨none, false, none, 1, Nat.one_pos⟩
    ({ role := .user, content := .null } :: batchOf "a" ++ [{ role := .user, content := .null }]) (batchOf "b")
  revert falls
  decide

end Slide.Context
