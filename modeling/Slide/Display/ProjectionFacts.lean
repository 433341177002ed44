import Slide.Display.ProjectionRows
import Slide.Library.Run

/-!
# Confirmed parts survive a frame

A frame rewrites the rows one operation after the other.  `Carried` says what an operation does to a
row that it does not drop; `Spared` is the condition on a row and the operations of a frame under
which no operation drops it or rewrites what storage has acknowledged.
-/

namespace Slide.Display

open Transition List

/-! ## What stays -/

/-- Storage holds the whole part. -/
def MessagePart.acknowledged (p : MessagePart) : Prop := p.durable ≠ none ∧ p.status = .completed

/-- The phase of the tool of a part; a part without a tool comes before all phases. -/
def MessagePart.toolRank (p : MessagePart) : Int := p.tool.elim (-2) (·.phase.rank)

/-- The part without its generation, which is independent of storage, and without the time its tool
was persisted. -/
def MessagePart.content (p : MessagePart) : MessagePart :=
  { p with generation := none, tool := p.tool.map fun t => { t with persistedAt := none } }

/-- The same row but for its generation and a persistence time it did not have. -/
structure SameFacts (p q : ProjectedPart) : Prop where
  messageId : q.messageId = p.messageId
  content : q.part.content = p.part.content
  persistedAt : ∀ t ∈ p.part.tool, t.persistedAt ≠ none → q.part.tool = p.part.tool

/-- The parts of the documents of an operation. -/
def ProjectionOperation.documentParts : ProjectionOperation → List MessagePart
  | .partsPersisted documents => documents.flatMap MessageParts.parts
  | _ => []

/-- A reset and a snapshot make the rows anew. -/
def ProjectionOperation.rebuilds : ProjectionOperation → Prop
  | .streamReset _ | .streamSnapshot _ => True
  | _ => False

/-- What becomes of a row, given the parts that documents bring for its id. -/
structure Carried (q : ProjectedPart) (parts : List MessagePart) (q' : ProjectedPart) : Prop where
  id : q'.id = q.id
  rank : q.part.toolRank ≤ q'.part.toolRank
  acknowledged : q.part.acknowledged → q'.part.acknowledged
  fragment : ∀ call, q'.part.isFragment call → q.part.isFragment call ∨
    ¬ q.part.acknowledged ∧ ∃ part ∈ parts, part.id = q.id ∧ part.isFragment call
  confirmed : confirmed q.part → (q.part.acknowledged ∨ q.part.toolSettled ∨
    ∀ part ∈ parts, part.id = q.id → confirmed part) → confirmed q'.part

section Parts

variable {p q q' q'' : ProjectedPart} {part : MessagePart} {ps ps' : List MessagePart}
  {call : String}

theorem ToolPhase.rank_ge (phase : ToolPhase) : -1 ≤ phase.rank := by
  cases phase <;> simp [ToolPhase.rank]

theorem MessagePart.toolSettled_iff : part.toolSettled ↔ 3 ≤ part.toolRank := by
  unfold MessagePart.toolSettled MessagePart.toolRank
  cases part.tool with
  | none => simp
  | some t => cases h : t.phase <;> simp [h, ToolPhase.rank]

theorem Carried.toolSettled (carried : Carried q ps q') (settled : q.part.toolSettled) :
    q'.part.toolSettled :=
  MessagePart.toolSettled_iff.mpr ((MessagePart.toolSettled_iff.mp settled).trans carried.rank)

theorem Carried.refl (q : ProjectedPart) (ps : List MessagePart) : Carried q ps q where
  id := rfl
  rank := le_rfl
  acknowledged := fun acknowledged => acknowledged
  fragment := fun _ => .inl
  confirmed := fun confirmed _ => confirmed

theorem Carried.trans (first : Carried q ps q') (second : Carried q' ps' q'') :
    Carried q (ps ++ ps') q'' where
  id := second.id.trans first.id
  rank := first.rank.trans second.rank
  acknowledged := second.acknowledged ∘ first.acknowledged
  fragment call fragment := by
    rcases second.fragment call fragment with before | ⟨open', part, mem, same, isPart⟩
    · refine (first.fragment call before).imp_right fun ⟨open', part, mem, here⟩ => ?_
      exact ⟨open', part, mem_append_left _ mem, here⟩
    · exact .inr ⟨fun acknowledged => open' (first.acknowledged acknowledged), part,
        mem_append_right _ mem, same.trans first.id, isPart⟩
  confirmed before evidence := by
    refine second.confirmed (first.confirmed before (evidence.imp_right (Or.imp_right
      fun all part mem => all part (mem_append_left _ mem)))) ?_
    refine evidence.imp first.acknowledged (Or.imp first.toolSettled fun all part mem same => ?_)
    exact all part (mem_append_right _ mem) (same.trans first.id)

theorem Carried.of_same (id : q'.id = q.id) (tool : q'.part.tool = q.part.tool)
    (boundary : q'.part.durable = q.part.durable ∧ q'.part.status = q.part.status)
    (fragment : ∀ call, q'.part.isFragment call → q.part.isFragment call) : Carried q ps q' where
  id := id
  rank := by
    unfold MessagePart.toolRank
    rw [tool]
  acknowledged := by
    unfold MessagePart.acknowledged
    rw [boundary.1, boundary.2]
    exact fun acknowledged => acknowledged
  fragment call here := .inl (fragment call here)
  confirmed := by
    unfold Display.confirmed MessagePart.toolSettled
    rw [boundary.1, tool]
    exact fun confirmed _ => confirmed

theorem SameFacts.refl (p : ProjectedPart) : SameFacts p p := ⟨rfl, rfl, fun _ _ _ => rfl⟩

theorem SameFacts.trans (first : SameFacts p q) (second : SameFacts q q') : SameFacts p q' where
  messageId := second.messageId.trans first.messageId
  content := second.content.trans first.content
  persistedAt t recorded stamped := by
    have same := first.persistedAt t recorded stamped
    exact (second.persistedAt t (same ▸ recorded) stamped).trans same

end Parts

/-! ## One operation -/

section Operations

variable {host : Host} {parts : List ProjectedPart} {p q q' : ProjectedPart} {part : MessagePart}
  {e : NormalizedToolEvent} {durable : Option Durable} {messageId partId : String}
  {doc : MessageParts} {docs : List MessageParts}

theorem writeText_carried (write : String → String) (ps : List MessagePart) :
    Carried q ps { q with part := q.part.writeText write } ∧
      (q.part.acknowledged → q.part.writeText write = q.part) := by
  refine ⟨?_, fun acknowledged => if_pos (.inr (.inl acknowledged.1))⟩
  unfold MessagePart.writeText
  split
  next => exact .refl _ _
  next =>
    cases streamed : q.part.body.stream with
    | none => exact .refl _ _
    | some pair =>
      obtain ⟨shown, body⟩ := pair
      refine .of_same rfl rfl ⟨rfl, rfl⟩ fun call fragment => ?_
      obtain ⟨text, name, same⟩ := fragment
      change body (write shown) = _ at same
      cases kind : q.part.body with
      | toolInput call' text' name' =>
        rw [kind] at streamed
        obtain ⟨-, rfl⟩ := Prod.mk.inj (some.inj streamed)
        obtain ⟨rfl, -, -⟩ := PartBody.toolInput.inj same
        exact ⟨text', name', kind⟩
      | text | runtimeNotice =>
        rw [kind] at streamed
        obtain ⟨-, rfl⟩ := Prod.mk.inj (some.inj streamed)
        cases same
      | reasoning text' block format =>
        rw [kind] at streamed
        cases text' with
        | none => cases streamed
        | some text' =>
          obtain ⟨-, rfl⟩ := Prod.mk.inj (some.inj streamed)
          cases same
      | toolCall | toolResult | attachment => rw [kind] at streamed; cases streamed

theorem endOpen_carried (ps : List MessagePart) :
    Carried q ps { q with part := q.part.endOpen } ∧
      SameFacts q { q with part := q.part.endOpen } := by
  unfold MessagePart.endOpen
  split
  · exact ⟨.of_same rfl rfl ⟨rfl, rfl⟩ fun _ fragment => fragment, rfl, rfl, fun _ _ _ => rfl⟩
  · exact ⟨.refl _ _, .refl _⟩

theorem recordTool_carried (valid : e.valid durable) (onTime : ∀ prior ∈ q.part.tool, ¬ e.late prior)
    (ps : List MessagePart) :
    Carried q ps { q with part := recordTool host e durable q.part } := by
  have tool : (recordTool host e durable q.part).tool = some (e.after q.part.tool) := by
    unfold recordTool
    split <;> rfl
  have rank : q.part.toolRank ≤ e.phase.rank := by
    unfold MessagePart.toolRank
    cases prior : q.part.tool with
    | none => exact (by decide : (-2 : Int) ≤ -1).trans e.phase.rank_ge
    | some before => exact not_lt.mp fun earlier => onTime before prior (.inl earlier)
  have after : (recordTool host e durable q.part).toolRank = e.phase.rank := by
    unfold MessagePart.toolRank
    rw [tool]
    rfl
  have boundary : e.phase = .persisted ∧ (recordTool host e durable q.part).durable = durable ∧
        (recordTool host e durable q.part).status = .completed ∨
      (recordTool host e durable q.part).durable = q.part.durable ∧
        (recordTool host e durable q.part).status = q.part.status := by
    unfold recordTool
    split
    next persisted => exact .inl ⟨persisted, rfl, rfl⟩
    next => exact .inr ⟨rfl, rfl⟩
  have held : e.phase = .persisted → durable ≠ none := by
    intro persisted absent
    obtain ⟨d, mem, -⟩ := valid.2.2.2.2 persisted
    rw [absent] at mem
    cases mem
  refine ⟨by unfold recordTool ProjectedPart.id; split <;> rfl, after ▸ rank, ?_, ?_, ?_⟩
  · rintro ⟨stored, completed⟩
    rcases boundary with ⟨persisted, proof, status⟩ | ⟨proof, status⟩
    · exact ⟨fun absent => held persisted (proof.symm.trans absent), status⟩
    · exact ⟨fun absent => stored (proof.symm.trans absent), status.trans completed⟩
  · rintro call ⟨text, name, same⟩
    refine .inl ⟨text, name, ?_⟩
    have body : (recordTool host e durable q.part).body = withArguments host q.part.body e.args := by
      unfold recordTool
      split <;> rfl
    rw [body] at same
    unfold withArguments at same
    split at same
    next =>
      split at same
      next => cases same
      next => exact same
    next => exact same
  · rintro before -
    rcases before with stored | settled
    · rcases boundary with ⟨persisted, proof, -⟩ | ⟨proof, -⟩
      · exact .inl fun absent => held persisted (proof.symm.trans absent)
      · exact .inl fun absent => stored (proof.symm.trans absent)
    · refine .inr (MessagePart.toolSettled_iff.mpr ?_)
      rw [after]
      exact (MessagePart.toolSettled_iff.mp settled).trans rank

/-- What a tool event does to the rows: nothing, a time stamp, or a record on the row of the call. -/
inductive ToolChange (host : Host) (messageId partId : String) (e : NormalizedToolEvent)
    (durable : Option Durable) (parts : List ProjectedPart) : List ProjectedPart → Prop
  | none : ToolChange host messageId partId e durable parts parts
  | stamp (row : ProjectedPart) (prior : NormalizedToolEvent) :
    findPart parts partId = some row → row.part.tool = some prior → prior.phase = .persisted →
    prior.persistedAt = none →
    ToolChange host messageId partId e durable parts (updateFirst partId (stampPersisted e) parts)
  | record (row : ProjectedPart) : findPart parts partId = some row →
    row.isCall messageId e.toolCallId →
    (∀ prior ∈ row.part.tool, ¬ e.contradicts prior ∧ prior.phase ≠ .persisted ∧ ¬ e.late prior) →
    ToolChange host messageId partId e durable parts
      (updateFirst partId (recordTool host e durable)
        (parts.filter fun p => ¬ p.part.isFragment e.toolCallId))
  | create : findPart parts partId = .none →
    ToolChange host messageId partId e durable parts
      (updateFirst partId (recordTool host e durable)
        ((parts ++ [newCall host messageId partId e]).filter fun p =>
          ¬ p.part.isFragment e.toolCallId))

variable (host parts e durable messageId partId) in
theorem toolChange : ToolChange host messageId partId e durable parts
    (toolParts host messageId partId e durable parts) := by
  unfold toolParts
  dsimp only
  cases found : findPart parts partId with
  | none => simpa using ToolChange.create found
  | some row =>
    by_cases isCall : row.isCall messageId e.toolCallId
    · cases recorded : row.part.tool with
      | none => simpa [isCall, recorded] using ToolChange.record row found isCall (by simp [recorded])
      | some prior =>
        by_cases contradicts : e.contradicts prior
        · simpa [isCall, recorded, contradicts] using ToolChange.none
        · by_cases persisted : prior.phase = .persisted
          · by_cases stamp : e.phase = .persisted ∧ prior.persistedAt = none
            · simpa [isCall, recorded, contradicts, persisted, stamp] using
                ToolChange.stamp row prior found recorded persisted stamp.2
            · simpa [isCall, recorded, contradicts, persisted, stamp] using ToolChange.none
          · by_cases late : e.late prior
            · simpa [isCall, recorded, contradicts, persisted, late] using ToolChange.none
            · simpa [isCall, recorded, contradicts, persisted, late] using
                ToolChange.record row found isCall (by simp [recorded, contradicts, persisted, late])
    · simpa [isCall] using ToolChange.none

theorem id_recordTool : (recordTool host e durable part).id = part.id := by
  unfold recordTool
  split <;> rfl

theorem Distinct.toolParts (distinct : Distinct parts) :
    Distinct (toolParts host messageId partId e durable parts) := by
  have recorded : ∀ {rows : List ProjectedPart}, Distinct rows →
      Distinct (updateFirst partId (recordTool host e durable)
        (rows.filter fun p => ¬ p.part.isFragment e.toolCallId)) := fun {rows} distinct => by
    unfold Distinct
    rw [map_id_updateFirst fun _ => id_recordTool]
    exact distinct.sublist filter_sublist
  generalize after : Display.toolParts host messageId partId e durable parts = rows
  have change := after ▸ toolChange host parts e durable messageId partId
  cases change with
  | none => exact distinct
  | stamp =>
    have keep : ∀ part, (stampPersisted e part).id = part.id := fun _ => rfl
    unfold Distinct
    rwa [map_id_updateFirst keep]
  | record => exact recorded distinct
  | create found => exact recorded (distinct.snoc (findPart_eq_none_iff.mp found))

theorem stampPersisted_carried (ps : List MessagePart) :
    Carried q ps { q with part := stampPersisted e q.part } where
  id := rfl
  rank := by
    unfold MessagePart.toolRank stampPersisted
    cases q.part.tool <;> exact le_rfl
  acknowledged := fun acknowledged => acknowledged
  fragment := fun _ => .inl
  confirmed before _ := before.imp_right fun settled => by
    obtain ⟨t, recorded, settled⟩ := settled
    exact ⟨_, Option.mem_map_of_mem _ recorded, settled⟩

theorem stampPersisted_same {prior : NormalizedToolEvent} (recorded : q.part.tool = some prior)
    (open' : prior.persistedAt = none) :
    SameFacts q { q with part := stampPersisted e q.part } := by
  refine ⟨rfl, ?_, fun t mem stamped => ?_⟩
  · simp only [MessagePart.content, stampPersisted, recorded, Option.map_some]
  · rw [recorded] at mem
    rw [some.inj mem] at open'
    exact absurd open' stamped

/-- The condition on a tool event under which it leaves an acknowledged row alone. -/
def ToolSpares (messageId partId : String) (e : NormalizedToolEvent) (q : ProjectedPart) : Prop :=
  q.id = partId → q.isCall messageId e.toolCallId → ∃ prior ∈ q.part.tool,
    e.contradicts prior ∨ prior.phase = .persisted ∨ e.late prior

variable (host messageId partId) in
theorem toolParts_carried (valid : e.valid durable) (distinct : Distinct parts) (mem : q ∈ parts)
    (notFragment : ¬ q.part.isFragment e.toolCallId) :
    ∃ q' ∈ toolParts host messageId partId e durable parts, Carried q [] q' ∧
      (ToolSpares messageId partId e q → SameFacts q q') := by
  have own : ∀ {row}, findPart parts partId = some row → q.id = partId → row = q :=
    fun {row} found same =>
      distinct.eq_of_id (mem_of_findPart found).1 mem ((mem_of_findPart found).2.trans same.symm)
  generalize after : toolParts host messageId partId e durable parts = rows
  have change := after ▸ toolChange host parts e durable messageId partId
  cases change with
  | none => exact ⟨q, mem, .refl _ _, fun _ => .refl _⟩
  | stamp row prior found recorded _ open' =>
    refine ⟨_, mem_updateFirst _ _ distinct mem, ?_⟩
    by_cases same : q.id = partId
    · obtain rfl := own found same
      rw [if_pos same]
      exact ⟨stampPersisted_carried _, fun _ => stampPersisted_same recorded open'⟩
    · rw [if_neg same]
      exact ⟨.refl _ _, fun _ => .refl _⟩
  | record row found isCall onTime =>
    have kept : q ∈ parts.filter fun p => ¬ p.part.isFragment e.toolCallId :=
      mem_filter.mpr ⟨mem, decide_eq_true notFragment⟩
    refine ⟨_, mem_updateFirst _ _ (distinct.sublist filter_sublist) kept, ?_⟩
    by_cases same : q.id = partId
    · obtain rfl := own found same
      rw [if_pos same]
      refine ⟨recordTool_carried valid (fun prior here => (onTime prior here).2.2) _, fun spares => ?_⟩
      obtain ⟨prior, here, blocked⟩ := spares same isCall
      obtain ⟨agrees, notPersisted, notLate⟩ := onTime prior here
      rcases blocked with contradicts | persisted | late
      · exact absurd contradicts agrees
      · exact absurd persisted notPersisted
      · exact absurd late notLate
    · rw [if_neg same]
      exact ⟨.refl _ _, fun _ => .refl _⟩
  | create absent =>
    have fresh := findPart_eq_none_iff.mp absent
    have kept : q ∈ (parts ++ [newCall host messageId partId e]).filter fun p =>
        ¬ p.part.isFragment e.toolCallId :=
      mem_filter.mpr ⟨mem_append_left _ mem, decide_eq_true notFragment⟩
    have other : q.id ≠ partId := fun same => fresh ⟨q, mem, same⟩
    have grown : Distinct (parts ++ [newCall host messageId partId e]) := distinct.snoc fresh
    have stays := mem_updateFirst partId (recordTool host e durable)
      (grown.sublist filter_sublist) kept
    rw [if_neg other] at stays
    exact ⟨q, stays, .refl _ _, fun _ => .refl _⟩

/-! ### Documents -/

theorem isFragment_persistedRow {prior : Option NormalizedToolEvent} {call : String} :
    (persistedRow host doc part prior).part.isFragment call ↔ part.isFragment call := by
  unfold MessagePart.isFragment persistedRow displayPart
  cases kind : part.body <;> simp [kind]

variable (host part) in
theorem displayPart_frame : (displayPart host part).toPartBoundary = part.toPartBoundary ∧
    (displayPart host part).tool = part.tool ∧ (displayPart host part).id = part.id := by
  unfold displayPart
  split <;> exact ⟨rfl, rfl, rfl⟩

variable (host part doc) in
theorem rank_persistedRow (prior : Option NormalizedToolEvent) :
    prior.elim (-2) (·.phase.rank) ≤ (persistedRow host doc part prior).part.toolRank ∧
      part.toolRank ≤ (persistedRow host doc part prior).part.toolRank := by
  obtain ⟨-, tool, -⟩ := displayPart_frame host part
  have raised : ∀ t : NormalizedToolEvent, t.phase.rank ≤
      (if t.phase = .settled ∧ (displayPart host part).status = .completed then
        { t with phase := .persisted } else t).phase.rank := by
    intro t
    split
    next settled =>
      rw [settled.1]
      exact (by decide : ToolPhase.settled.rank ≤ ToolPhase.persisted.rank)
    next => exact le_rfl
  simp only [MessagePart.toolRank, persistedRow, tool]
  cases prior with
  | none =>
    cases own : part.tool with
    | none => exact ⟨le_rfl, le_rfl⟩
    | some t =>
      have least := t.phase.rank_ge
      exact ⟨(by omega : (-2 : Int) ≤ t.phase.rank).trans (raised t), raised t⟩
  | some before =>
    cases own : part.tool with
    | none =>
      have least := before.phase.rank_ge
      exact ⟨raised before, (by omega : (-2 : Int) ≤ before.phase.rank).trans (raised before)⟩
    | some t =>
      dsimp only
      split
      next earlier => exact ⟨raised before, earlier.trans (raised before)⟩
      next later => exact ⟨(not_le.mp later).le.trans (raised t), raised t⟩

theorem persistedRow_carried (same : part.id = q.id) (open' : ¬ q.part.acknowledged) :
    Carried q [part] (persistedRow host doc part q.part.tool) := by
  obtain ⟨boundary, -, id⟩ := displayPart_frame host part
  have rank := rank_persistedRow host part doc q.part.tool
  refine ⟨id.trans same, rank.1, fun acknowledged => absurd acknowledged open', ?_, ?_⟩
  · exact fun call fragment =>
      .inr ⟨open', part, mem_singleton_self _, same, isFragment_persistedRow.mp fragment⟩
  · rintro - (acknowledged | settled | held)
    · exact absurd acknowledged open'
    · exact .inr (MessagePart.toolSettled_iff.mpr
        ((MessagePart.toolSettled_iff.mp settled).trans rank.1))
    · rcases held part (mem_singleton_self _) same with stored | settled
      · refine .inl fun absent => stored ?_
        rw [← congrArg PartBoundary.durable boundary]
        exact absent
      · exact .inr (MessagePart.toolSettled_iff.mpr
          ((MessagePart.toolSettled_iff.mp settled).trans rank.2))

variable (host part doc) in
theorem persistPart_carried (distinct : Distinct parts) (mem : q ∈ parts) :
    ∃ q' ∈ persistPart host doc parts part, Carried q [part] q' ∧
      (q.part.acknowledged → SameFacts q q') := by
  unfold persistPart
  cases found : findPart parts part.id with
  | none => exact ⟨q, mem_append_left _ mem, .refl _ _, fun _ => .refl _⟩
  | some row =>
    obtain ⟨inside, named⟩ := mem_of_findPart found
    dsimp only
    split
    next replaced =>
      have here := mem_replaceFirst (persistedRow host doc part row.part.tool) mem
      have rowId : (persistedRow host doc part row.part.tool).id = part.id :=
        (displayPart_frame host part).2.2
      by_cases same : q.id = part.id
      · obtain rfl := distinct.eq_of_id inside mem (named.trans same.symm)
        rw [if_pos (same.trans rowId.symm)] at here
        have open' : ¬ row.part.acknowledged := fun acknowledged =>
          replaced.elim acknowledged.1 fun other => other acknowledged.2
        exact ⟨_, here, persistedRow_carried same.symm open',
          fun acknowledged => absurd acknowledged open'⟩
      · rw [if_neg fun hit => same (hit.trans rowId)] at here
        exact ⟨q, here, .refl _ _, fun _ => .refl _⟩
    next => exact ⟨q, mem, .refl _ _, fun _ => .refl _⟩

theorem Distinct.persistPart (distinct : Distinct parts) :
    Distinct (persistPart host doc parts part) := by
  unfold Display.persistPart
  cases found : findPart parts part.id with
  | none =>
    refine distinct.snoc ?_
    rw [show (persistedRow host doc part none).id = part.id from (displayPart_frame host part).2.2]
    exact findPart_eq_none_iff.mp found
  | some row =>
    dsimp only
    split
    next =>
      unfold Distinct
      rwa [map_id_replaceFirst]
    next => exact distinct

variable (host doc) in
theorem foldl_persistPart_carried (ps : List MessagePart) (distinct : Distinct parts)
    (mem : q ∈ parts) : ∃ q' ∈ ps.foldl (persistPart host doc) parts, Carried q ps q' ∧
      (q.part.acknowledged → SameFacts q q') := by
  induction ps generalizing parts q with
  | nil => exact ⟨q, mem, .refl _ _, fun _ => .refl _⟩
  | cons part rest ih =>
    obtain ⟨q', here, carried, same⟩ := persistPart_carried host part doc
      distinct mem
    obtain ⟨q'', there, carried', same'⟩ := ih distinct.persistPart here
    exact ⟨q'', there, carried.trans carried', fun acknowledged =>
      (same acknowledged).trans (same' (carried.acknowledged acknowledged))⟩

theorem Distinct.foldl_persistPart {ps : List MessagePart} (distinct : Distinct parts) :
    Distinct (ps.foldl (Display.persistPart host doc) parts) := by
  induction ps generalizing parts with
  | nil => exact distinct
  | cons part rest ih => exact ih distinct.persistPart

variable (host docs) in
theorem persistParts_carried (distinct : Distinct parts) (mem : q ∈ parts) :
    ∃ q' ∈ persistParts host docs parts, Carried q (docs.flatMap MessageParts.parts) q' ∧
      (q.part.acknowledged → SameFacts q q') := by
  unfold persistParts
  induction docs generalizing parts q with
  | nil => exact ⟨q, mem, .refl _ _, fun _ => .refl _⟩
  | cons doc rest ih =>
    obtain ⟨q', here, carried, same⟩ := foldl_persistPart_carried host doc
      doc.parts distinct mem
    obtain ⟨q'', there, carried', same'⟩ := ih distinct.foldl_persistPart here
    exact ⟨q'', there, carried.trans carried', fun acknowledged =>
      (same acknowledged).trans (same' (carried.acknowledged acknowledged))⟩

theorem Distinct.persistParts (distinct : Distinct parts) :
    Distinct (persistParts host docs parts) := by
  unfold Display.persistParts
  induction docs generalizing parts with
  | nil => exact distinct
  | cons doc rest ih => exact ih distinct.foldl_persistPart

end Operations

/-! ## A frame -/

section Frames

variable {host : Host} {state next : MessageProjection} {frame : ProjectionFrame}
  {op : ProjectionOperation} {ops rest : List ProjectionOperation} {q : ProjectedPart}
  {runId : String}

/-- The condition on one operation under which it does not drop a row. -/
def ProjectionOperation.keepsRow (op : ProjectionOperation) (q : ProjectedPart) : Prop :=
  match op with
  | .tool _ _ e _ => ¬ q.part.isFragment e.toolCallId
  | .streamReset _ | .streamSnapshot _ => confirmed q.part
  | _ => True

/-- The condition on one operation under which it leaves an acknowledged row alone. -/
def ProjectionOperation.keepsFacts (op : ProjectionOperation) (q : ProjectedPart) : Prop :=
  match op with
  | .tool messageId partId e _ => ToolSpares messageId partId e q
  | _ => True

theorem Distinct.applyOperation (valid : op.valid runId) (distinct : Distinct next.parts) :
    Distinct (applyOperation host state frame next op).parts := by
  unfold Display.applyOperation
  split
  next => exact distinct
  next =>
    cases op with
    | runStatus | malformed => exact distinct
    | partStart entry =>
      dsimp only
      split
      next => exact distinct
      next fresh => exact distinct.snoc fresh
    | partAppend partId text | partReplace partId text =>
      unfold Distinct
      rwa [map_id_updateFirst]
      intro part
      unfold MessagePart.writeText
      split
      next => rfl
      next => split <;> rfl
    | partEnd partId =>
      unfold Distinct
      rwa [map_id_updateFirst]
      intro part
      unfold MessagePart.endOpen
      split <;> rfl
    | tool => exact distinct.toolParts
    | streamReset anchor => exact Distinct.resetParts valid.2.2
    | partsPersisted => exact distinct.persistParts
    | streamSnapshot snapshot =>
      dsimp only
      split
      next => exact distinct
      next => exact Distinct.foldl_overlay valid.1.2.2.2.2.2.2
    | runTerminal =>
      unfold Distinct
      rwa [map_map]

variable (host state frame) in
theorem applyOperation_carried (valid : op.valid runId) (distinct : Distinct next.parts)
    (mem : q ∈ next.parts) (keeps : op.keepsRow q) :
    ∃ q' ∈ (applyOperation host state frame next op).parts, Carried q op.documentParts q' ∧
      (q.part.acknowledged → op.keepsFacts q → SameFacts q q') := by
  have stays : ∃ q' ∈ next.parts, Carried q op.documentParts q' ∧
      (q.part.acknowledged → op.keepsFacts q → SameFacts q q') :=
    ⟨q, mem, .refl _ _, fun _ _ => .refl _⟩
  have written : ∀ (partId : String) (write : String → String),
      ∃ q' ∈ updateFirst partId (·.writeText write) next.parts, Carried q op.documentParts q' ∧
        (q.part.acknowledged → op.keepsFacts q → SameFacts q q') := by
    intro partId write
    refine ⟨_, mem_updateFirst _ _ distinct mem, ?_⟩
    split
    · obtain ⟨carried, same⟩ := writeText_carried (q := q) write op.documentParts
      refine ⟨carried, fun acknowledged _ => ?_⟩
      rw [same acknowledged]
      exact .refl _
    · exact ⟨.refl _ _, fun _ _ => .refl _⟩
  unfold applyOperation
  split
  next => exact stays
  next =>
    cases op with
    | runStatus | malformed => exact stays
    | partStart entry =>
      dsimp only
      split
      next => exact stays
      next => exact ⟨q, mem_append_left _ mem, .refl _ _, fun _ _ => .refl _⟩
    | partAppend partId text => exact written partId _
    | partReplace partId text => exact written partId _
    | partEnd partId =>
      refine ⟨_, mem_updateFirst _ _ distinct mem, ?_⟩
      split
      · obtain ⟨carried, same⟩ := endOpen_carried (q := q) []
        exact ⟨carried, fun _ _ => same⟩
      · exact ⟨.refl _ _, fun _ _ => .refl _⟩
    | tool messageId partId event durable =>
      obtain ⟨q', here, carried, same⟩ := toolParts_carried host messageId partId
        valid.2.2 distinct mem keeps
      exact ⟨q', here, carried, fun _ => same⟩
    | streamReset anchor =>
      have kept : q ∈ next.parts.filter fun p => confirmed p.part :=
        mem_filter.mpr ⟨mem, decide_eq_true keeps⟩
      exact ⟨q, mem_resetParts (distinct.sublist filter_sublist) kept, .refl _ _,
        fun _ _ => .refl _⟩
    | partsPersisted documents =>
      obtain ⟨q', here, carried, same⟩ := persistParts_carried host documents
        distinct mem
      exact ⟨q', here, carried, fun acknowledged _ => same acknowledged⟩
    | streamSnapshot snapshot =>
      dsimp only
      split
      next => exact stays
      next =>
        have kept : q ∈ next.parts.filter fun p => confirmed p.part :=
          mem_filter.mpr ⟨mem, decide_eq_true keeps⟩
        exact ⟨q, mem_foldl_overlay (distinct.sublist filter_sublist) kept, .refl _ _,
          fun _ _ => .refl _⟩
    | runTerminal outcome durable error =>
      exact ⟨_, mem_map_of_mem mem, .of_same rfl rfl ⟨rfl, rfl⟩ fun _ fragment => fragment,
        fun _ _ => ⟨rfl, rfl, fun _ _ _ => rfl⟩⟩

/-- The event of a tool operation. -/
def ProjectionOperation.toolEvent : ProjectionOperation → Option NormalizedToolEvent
  | .tool _ _ event _ => some event
  | _ => none

/-- The condition on a row and the operations of a frame under which the frame keeps the row. -/
structure Spared (q : ProjectedPart) (ops : List ProjectionOperation) : Prop where
  /-- The row is no fragment of a call that has an event, and no document makes it one. -/
  fragment : ∀ op ∈ ops, ∀ e ∈ op.toolEvent, ¬ q.part.isFragment e.toolCallId ∧
    (¬ q.part.acknowledged → ∀ part ∈ ops.flatMap ProjectionOperation.documentParts,
      part.id = q.id → ¬ part.isFragment e.toolCallId)
  /-- Before a reset or a snapshot no document takes its evidence. -/
  evidence : ∀ before op after, ops = before ++ op :: after → (∃ later ∈ after, later.rebuilds) →
    q.part.acknowledged ∨ q.part.toolSettled ∨
      ∀ part ∈ op.documentParts, part.id = q.id → confirmed part

/-- What the row has become keeps its id, and its tool has not gone back. -/
structure Kept (p q : ProjectedPart) : Prop where
  id : q.id = p.id
  tool : p.part.toolRank ≤ q.part.toolRank

theorem SameFacts.keepsFacts {q' : ProjectedPart} (same : SameFacts q q') (id : q'.id = q.id)
    (keeps : op.keepsFacts q) : op.keepsFacts q' := by
  cases op with
  | tool messageId partId e durable =>
    rintro named ⟨owner, own⟩
    have body := congrArg MessagePart.body same.content
    have tools := congrArg MessagePart.tool same.content
    change q'.part.body = q.part.body at body
    change q'.part.tool.map _ = q.part.tool.map _ at tools
    rw [same.messageId] at owner
    rw [body] at own
    obtain ⟨prior, here, blocked⟩ := keeps (id ▸ named) ⟨owner, own⟩
    rw [Option.mem_def.mp here, Option.map_some] at tools
    obtain ⟨prior', here', erased⟩ := Option.map_eq_some_iff.mp tools
    have name := congrArg NormalizedToolEvent.name erased
    have phase := congrArg NormalizedToolEvent.phase erased
    have outcome := congrArg NormalizedToolEvent.outcome erased
    change prior'.name = prior.name at name
    change prior'.phase = prior.phase at phase
    change prior'.outcome = prior.outcome at outcome
    refine ⟨prior', here', ?_⟩
    unfold NormalizedToolEvent.contradicts NormalizedToolEvent.late at *
    rwa [name, phase, outcome]
  | _ => trivial

theorem Spared.keepsRow (spared : Spared q (op :: rest))
    (firm : confirmed q.part ∨ ∀ later ∈ op :: rest, ¬ later.rebuilds) : op.keepsRow q := by
  have first : op ∈ op :: rest := mem_cons_self
  cases op with
  | tool messageId partId e durable => exact (spared.fragment _ first e rfl).1
  | streamReset | streamSnapshot =>
    exact firm.elim (fun confirmed => confirmed) fun none => absurd trivial (none _ first)
  | _ => trivial

theorem Spared.tail {q' : ProjectedPart} (spared : Spared q (op :: rest))
    (carried : Carried q op.documentParts q') : Spared q' rest where
  fragment later mem e event := by
    obtain ⟨own, documents⟩ := spared.fragment later (mem_cons_of_mem _ mem) e event
    constructor
    · intro fragment
      rcases carried.fragment _ fragment with before | ⟨open', part, brought, same, isPart⟩
      · exact own before
      · exact documents open' part (mem_append_left _ brought) same isPart
    · intro open' part brought same
      exact documents (fun acknowledged => open' (carried.acknowledged acknowledged)) part
        (mem_append_right _ brought) (same.trans carried.id)
  evidence before later after split rebuilt := by
    have held := spared.evidence (op :: before) later after (by rw [split]; rfl) rebuilt
    refine held.imp carried.acknowledged (Or.imp carried.toolSettled fun all part mem same => ?_)
    exact all part mem (same.trans carried.id)

variable (host state next frame) in
theorem foldl_applyOperation_kept (valid : ∀ op ∈ ops, op.valid runId)
    (distinct : Distinct next.parts) (mem : q ∈ next.parts) (spared : Spared q ops)
    (firm : confirmed q.part ∨ ∀ op ∈ ops, ¬ op.rebuilds) :
    ∃ q' ∈ (ops.foldl (applyOperation host state frame) next).parts, Kept q q' ∧
      (q.part.acknowledged → (∀ op ∈ ops, op.keepsFacts q) → SameFacts q q') := by
  induction ops generalizing next q with
  | nil => exact ⟨q, mem, ⟨rfl, le_rfl⟩, fun _ _ => .refl _⟩
  | cons op rest ih =>
    obtain ⟨valid, validRest⟩ := forall_mem_cons.mp valid
    obtain ⟨q', here, carried, same⟩ := applyOperation_carried host state frame
      valid distinct mem (spared.keepsRow firm)
    have firm' : confirmed q'.part ∨ ∀ op ∈ rest, ¬ op.rebuilds := by
      by_cases rebuilt : ∃ later ∈ rest, later.rebuilds
      · rcases firm with confirmed | none
        · exact .inl (carried.confirmed confirmed (spared.evidence [] op rest rfl rebuilt))
        · obtain ⟨later, mem, rebuilds⟩ := rebuilt
          exact absurd rebuilds (none later (mem_cons_of_mem _ mem))
      · exact .inr fun later mem rebuilds => rebuilt ⟨later, mem, rebuilds⟩
    obtain ⟨q'', there, kept, same'⟩ := ih _ validRest (distinct.applyOperation valid) here
      (spared.tail carried) firm'
    refine ⟨q'', there, ⟨kept.id.trans carried.id, carried.rank.trans kept.tool⟩, ?_⟩
    intro acknowledged keeps
    obtain ⟨first, others⟩ := forall_mem_cons.mp keeps
    have one := same acknowledged first
    exact one.trans (same' (carried.acknowledged acknowledged) fun later mem =>
      one.keepsFacts carried.id (others later mem))

variable (host state next frame) in
theorem foldl_applyOperation_frame (valid : ∀ op ∈ ops, op.valid runId)
    (distinct : Distinct next.parts) (attempt : next.attempt = frame.attempt)
    (sequence : next.sequence = frame.sequence) :
    Distinct (ops.foldl (applyOperation host state frame) next).parts ∧
      (ops.foldl (applyOperation host state frame) next).attempt = frame.attempt ∧
      (ops.foldl (applyOperation host state frame) next).sequence = frame.sequence := by
  induction ops generalizing next with
  | nil => exact ⟨distinct, attempt, sequence⟩
  | cons op rest ih =>
    obtain ⟨valid, validRest⟩ := forall_mem_cons.mp valid
    have numbers : (applyOperation host state frame next op).attempt = frame.attempt ∧
        (applyOperation host state frame next op).sequence = frame.sequence := by
      unfold applyOperation
      split
      next => exact ⟨attempt, sequence⟩
      next =>
        cases op with
        | partStart | streamSnapshot =>
          dsimp only
          split
          next => exact ⟨attempt, sequence⟩
          next => first | exact ⟨attempt, sequence⟩ | exact ⟨rfl, rfl⟩
        | _ => exact ⟨attempt, sequence⟩
    exact ih _ validRest (distinct.applyOperation valid) numbers.1 numbers.2

end Frames

/-! ## The reducer -/

section Reducer

variable {host : Host} {runId : String} {initial s t : MessageProjection}
  {es : List (Option ProjectionFrame)} {frame : ProjectionFrame} {value : Option ProjectionFrame}

theorem acceptFrame_eq_some (accepted : acceptFrame host s value = some t) :
    ∃ frame, value = some frame ∧ s.terminal = none ∧ s.attempt ≤ frame.attempt ∧
      s.sequence < frame.sequence ∧ (∀ op ∈ frame.operations, op.valid s.runId) ∧
      t = frame.operations.foldl (applyOperation host s frame)
        { s with attempt := frame.attempt, sequence := frame.sequence } := by
  cases value with
  | none => cases accepted
  | some frame =>
    simp only [acceptFrame] at accepted
    split at accepted
    next => cases accepted
    next admitted =>
      split at accepted
      next => cases accepted
      next valid =>
        simp only [not_or, not_not] at admitted valid
        obtain ⟨-, -, -, -, live, attempt, sequence⟩ := admitted
        exact ⟨frame, rfl, live, not_lt.mp attempt, not_le.mp sequence, valid,
          (some.inj accepted).symm⟩

/-- Frame after frame. -/
def Reduces (host : Host) (s : MessageProjection) (value : Option ProjectionFrame)
    (t : MessageProjection) : Prop := t = reduceMessageProjection host s value

theorem Distinct.reduce (distinct : Distinct s.parts) :
    Distinct (reduceMessageProjection host s value).parts := by
  unfold reduceMessageProjection
  cases accepted : acceptFrame host s value with
  | none => exact distinct
  | some t =>
    obtain ⟨frame, -, -, -, -, valid, rfl⟩ := acceptFrame_eq_some accepted
    have whole := foldl_applyOperation_frame host s
      { s with attempt := frame.attempt, sequence := frame.sequence } frame valid distinct rfl rfl
    exact whole.1

theorem distinct_of_run (created : createMessageProjection runId = .ok initial)
    (run : Run (Reduces host) initial es s) : Distinct s.parts := by
  refine run.invariant (P := fun s => Distinct s.parts) ?_ fun s value t distinct step => ?_
  · unfold createMessageProjection at created
    split at created
    · cases created
      exact nodup_nil
    · cases created
  · rw [show t = reduceMessageProjection host s value from step]
    exact distinct.reduce

/-- The condition on a state and a frame under which the frame loses nothing that is confirmed. -/
def Spares (s : MessageProjection) (frame : ProjectionFrame) : Prop :=
  ∀ p ∈ s.parts, confirmed p.part → Spared p frame.operations ∧
    (p.part.acknowledged → ∀ op ∈ frame.operations, op.keepsFacts p)

/-- **Confirmed facts**, over every frame on every reachable state. -/
theorem confirmed_facts_kept (created : createMessageProjection runId = .ok initial)
    (run : Run (Reduces host) initial es s) (value : Option ProjectionFrame) :
    -- the very same state, or a newer one
    ((acceptFrame host s value = none ∧ reduceMessageProjection host s value = s) ∨
      s.attempt ≤ (reduceMessageProjection host s value).attempt ∧
      s.sequence < (reduceMessageProjection host s value).sequence) ∧
    (s.terminal ≠ none → reduceMessageProjection host s value = s) ∧
    Distinct (reduceMessageProjection host s value).parts ∧
    -- a frame that spares the confirmed parts keeps each of them, and what storage acknowledged
    ((∀ frame ∈ value, Spares s frame) → ∀ p ∈ s.parts, confirmed p.part →
      ∃ q ∈ (reduceMessageProjection host s value).parts, Kept p q ∧
        (p.part.acknowledged → SameFacts p q)) := by
  have distinct := distinct_of_run created run
  refine ⟨?_, ?_, distinct.reduce, ?_⟩
  · cases accepted : acceptFrame host s value with
    | none => exact .inl ⟨rfl, by rw [reduceMessageProjection, accepted]; rfl⟩
    | some t =>
      obtain ⟨frame, -, -, attempt, sequence, valid, rfl⟩ := acceptFrame_eq_some accepted
      obtain ⟨-, attempt', sequence'⟩ := foldl_applyOperation_frame host s
        { s with attempt := frame.attempt, sequence := frame.sequence } frame
        valid distinct rfl rfl
      rw [reduceMessageProjection, accepted, Option.getD_some, attempt', sequence']
      exact .inr ⟨attempt, sequence⟩
  · intro ended
    cases accepted : acceptFrame host s value with
    | none => rw [reduceMessageProjection, accepted, Option.getD_none]
    | some t =>
      obtain ⟨frame, -, live, -⟩ := acceptFrame_eq_some accepted
      exact absurd live ended
  · intro spares p mem held
    cases accepted : acceptFrame host s value with
    | none =>
      rw [reduceMessageProjection, accepted, Option.getD_none]
      exact ⟨p, mem, ⟨rfl, le_rfl⟩, fun _ => .refl _⟩
    | some t =>
      obtain ⟨frame, rfl, -, -, -, valid, rfl⟩ := acceptFrame_eq_some accepted
      obtain ⟨spared, facts⟩ := spares frame rfl p mem held
      obtain ⟨q, here, kept, same⟩ := foldl_applyOperation_kept host s
        { s with attempt := frame.attempt, sequence := frame.sequence } frame
        valid distinct mem spared (.inl held)
      rw [reduceMessageProjection, accepted, Option.getD_some]
      exact ⟨q, here, kept, fun acknowledged => same acknowledged (facts acknowledged)⟩

/-! ### A stored fragment -/

private def quietHost : Host := ⟨fun _ => "null", fun _ _ => "", fun text => text⟩

private def freshRun : MessageProjection where
  version := 1
  runId := "run"
  attempt := 0
  sequence := 0
  phase := .preparing
  runState := some .running
  parts := []

private theorem freshRun_created : createMessageProjection "run" = .ok freshRun :=
  if_pos (by decide)

private def stored : PartBoundary := { status := .partly, durable := some ⟨.mysql, "message:1"⟩ }

/-- An answer that was interrupted while it wrote the arguments of a call, as storage has it. -/
private def storedAnswer : MessageParts :=
  { stored with
    version := 1, id := "message", role := .assistant, runId := some "run"
    parts := [{ stored with id := "fragment", body := .toolInput "call" "\x7b\"sql\":" none },
      { stored with id := "answer", body := .text "Looking at the slow queries." }] }

private def storedFrame : ProjectionFrame := ⟨1, "run", 1, 1, [.partsPersisted [storedAnswer]]⟩

private def planned : NormalizedToolEvent where
  toolCallId := "call"
  name := "query"
  phase := .planned
  occurredAt := 1

private def plannedFrame : ProjectionFrame := ⟨1, "run", 2, 2, [.tool "message" "call" planned none]⟩

private def afterStored : MessageProjection :=
  reduceMessageProjection quietHost freshRun (some storedFrame)

private theorem storedRun : Run (Reduces quietHost) freshRun [some storedFrame] afterStored :=
  Run.single rfl

private theorem fragment_stored :
    ∃ p ∈ afterStored.parts, p.id = "fragment" ∧ confirmed p.part := by decide

/-- The next attempt plans the call: the fragment that storage acknowledged is gone. -/
theorem stored_fragment_dropped : ∃ initial es s p, createMessageProjection "run" = .ok initial ∧
    Run (Reduces quietHost) initial es s ∧ p ∈ s.parts ∧ confirmed p.part ∧
    ¬ hasPart (reduceMessageProjection quietHost s (some plannedFrame)).parts p.id := by
  obtain ⟨p, here, named, held⟩ := fragment_stored
  refine ⟨freshRun, _, _, p, freshRun_created, storedRun, here, held, ?_⟩
  rw [named]
  decide

private def resetFrame : ProjectionFrame := ⟨1, "run", 2, 2, [.streamReset ⟨"anchor", []⟩]⟩

/-- A reset to an empty anchor keeps the fragment. -/
theorem confirmed_facts_kept_reset : ∃ p ∈ afterStored.parts, p.id = "fragment" ∧
    ∃ q ∈ (reduceMessageProjection quietHost afterStored (some resetFrame)).parts, Kept p q := by
  obtain ⟨p, here, named, held⟩ := fragment_stored
  have whole := confirmed_facts_kept freshRun_created storedRun (some resetFrame)
  have spares : Spares afterStored resetFrame := by
    refine fun p _ _ => ⟨⟨fun op only e event => ?_, fun before op after split rebuilt => ?_⟩,
      fun _ op only => ?_⟩
    · rw [mem_singleton.mp only] at event
      cases event
    · have last := congrArg List.length split
      obtain ⟨later, mem, -⟩ := rebuilt
      have some := length_pos_of_mem mem
      simp only [resetFrame, length_append, length_cons, length_nil] at last
      omega
    · rw [mem_singleton.mp only]
      trivial
  obtain ⟨q, there, kept, -⟩ := whole.2.2.2 (fun frame same => some.inj same ▸ spares) p here held
  exact ⟨p, here, named, q, there, kept⟩

end Reducer

end Slide.Display
