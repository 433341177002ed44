import Mathlib.Data.Rat.Defs
import Slide.Library.JsString

/-!
# Message parts

The documents of `message-parts.ts` and the tool events of `tool-stream.ts`, as far as the display
projection reads them.  A value that is not of the declared shape is refused by every reader here; the
types leave such values out, and an operation that carries one is `malformed`.

Fields nobody checks (`source`, `preview`, `args`, a block of reasoning, …) may hold any JSON value.
-/

namespace Slide.Display

/-- A JSON value. -/
inductive Json
  | null
  | bool (value : Bool)
  | number (value : Rat)
  | string (value : String)
  | array (items : List Json)
  | object (fields : List (String × Json))

/-- Whether a value counts as true. -/
def Json.truthy : Json → Bool
  | .null => false
  | .bool value => value
  | .number value => value ≠ 0
  | .string value => value ≠ ""
  | .array _ | .object _ => true

/-- `a ?? b`, for keys that may be absent. -/
def nullish (a b : Option Json) : Option Json :=
  match a with
  | none | some .null => b
  | some value => some value

/-- `identity`: a text of 1 to 512 code units. -/
def identity (text : String) : Prop := text ≠ "" ∧ (JsString.utf16 text).length ≤ 512

instance : DecidablePred identity := fun _ => inferInstanceAs (Decidable (_ ∧ _))

/-- `ordinal`: a safe integer that is not negative. -/
def ordinal (n : Int) : Prop := 0 ≤ n ∧ n ≤ 9007199254740991

instance : DecidablePred ordinal := fun _ => inferInstanceAs (Decidable (_ ∧ _))

/-! ## Tool events -/

/-- `ToolPhase`; documents are read without a look at the phase of their tools, so it may be any
other text there. -/
inductive ToolPhase
  | planned | queued | running | settled | persisted
  | other (text : String)
deriving DecidableEq

/-- `ranks.indexOf`. -/
def ToolPhase.rank : ToolPhase → Int
  | .planned => 0
  | .queued => 1
  | .running => 2
  | .settled => 3
  | .persisted => 4
  | .other _ => -1

inductive ToolOutcome
  | ok | error | cancelled | unknown
deriving DecidableEq

structure NormalizedToolEvent where
  startedAt : Option Json := none
  settledAt : Option Json := none
  persistedAt : Option Json := none
  (toolCallId name : String)
  phase : ToolPhase
  occurredAt : Rat
  outcome : Option ToolOutcome := none
  args : Option Json := none
  preview : Option Json := none
  progress : Option Json := none

/-! ## Parts -/

inductive PartStatus
  | partly | failed | discarded | completed
deriving DecidableEq

inductive DurableKind
  | jsonl | mysql | checkpoint

/-- The evidence of storage. -/
structure Durable where
  kind : DurableKind
  reference : String

structure PartBoundary where
  status : PartStatus
  durable : Option Durable := none
  attempt : Option Int := none
  sourceRequestId : Option Json := none

inductive Generation
  | isOpen | ended
deriving DecidableEq

structure ToolCall where
  (id name arguments : String)

/-- What the type of a part adds to it. -/
inductive PartBody
  | text (text : String)
  | reasoning (text : Option String) (block : Option Json) (format : Option Json)
  | toolCall (call : ToolCall)
  | toolInput (toolCallId : String) (text : String) (name : Option Json)
  | toolResult (toolCallId : String) (content : Json) (name : Option Json)
  | attachment (isImage : Bool) (reference : String) (details : List (String × Json))
  | runtimeNotice (text : String)

structure MessagePart extends PartBoundary where
  id : String
  source : Option Json := none
  sourceMessageId : Option String := none
  generation : Option Generation := none
  tool : Option NormalizedToolEvent := none
  body : PartBody

inductive Role
  | system | user | assistant | tool
deriving DecidableEq

inductive RunTerminal
  | completed | partly | cancelled | timedOut | failed
deriving DecidableEq

/-- `MessageParts`, without the legacy payload. -/
structure MessageParts extends PartBoundary where
  version : Nat
  id : String
  role : Role
  runId : Option String := none
  turnId : Option String := none
  source : Option Json := none
  projectionMessageId : Option String := none
  runTerminal : Option RunTerminal := none
  parts : List MessagePart

/-! ## `readMessageParts` -/

/-- `validateBoundary` accepts. -/
def PartBoundary.valid (b : PartBoundary) : Prop :=
  (b.status = .completed → b.durable ≠ none) ∧ (∀ d ∈ b.durable, d.reference ≠ "") ∧
    ∀ n ∈ b.attempt, ordinal n

instance : DecidablePred PartBoundary.valid := fun _ =>
  inferInstanceAs (Decidable ((_ → _ ≠ _) ∧ (∀ d ∈ _, _) ∧ ∀ n ∈ _, _))

/-- The fields the type of a part asks for. -/
def PartBody.valid : PartBody → Prop
  | .toolCall call => call.id ≠ ""
  | .toolInput toolCallId _ _ => toolCallId ≠ ""
  | _ => True

instance : DecidablePred PartBody.valid := fun body => by
  cases body <;> unfold PartBody.valid <;> infer_instance

/-- One round of the loop over the parts, but for the ids seen before. -/
def MessagePart.valid (p : MessagePart) : Prop :=
  p.toPartBoundary.valid ∧ p.id ≠ "" ∧ p.sourceMessageId ≠ some "" ∧ p.body.valid

instance : DecidablePred MessagePart.valid := fun _ => inferInstanceAs (Decidable (_ ∧ _ ∧ _ ∧ _))

/-- `readMessageParts` returns the document. -/
def MessageParts.valid (doc : MessageParts) : Prop :=
  doc.version = 1 ∧ doc.toPartBoundary.valid ∧ (doc.runTerminal ≠ none → doc.durable ≠ none) ∧
    doc.id ≠ "" ∧ (∀ p ∈ doc.parts, p.valid) ∧ (doc.parts.map MessagePart.id).Nodup

instance : DecidablePred MessageParts.valid := fun _ =>
  inferInstanceAs (Decidable (_ ∧ _ ∧ (_ → _ ≠ _) ∧ _ ∧ _ ∧ _))

end Slide.Display
