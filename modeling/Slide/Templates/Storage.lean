import Slide.Library.Fallible
import Slide.Library.JsString
import Slide.Library.Versioned

/-!
# Storage of templates

`MySqlTemplateRepository`: the five tables and the five writers of `metrics/templates/mysql-repository.ts`,
one transaction each.  JSON columns and payloads that nothing compares are texts.
-/

namespace Slide.Templates.Storage

/-! ## Rows -/

structure TemplateRecord where
  (templateId name status : String)
  currentPublishedVersion : Option Nat
  revision : Nat
  createdBy : Option Nat
  (createdAt updatedAt : String)

structure TemplateDraft where
  templateId : String
  revision : Nat
  aggregate : String
  (publishedVersion updatedBy : Option Nat)
  updatedAt : String

/-- A row of `metric_template_items`, whose status is always `active`. -/
structure ItemRow where
  (templateId itemId createdAt : String)

structure MetricRef where
  (id semanticVersion : String)
deriving DecidableEq

def MetricRef.canonicalKey (ref : MetricRef) : String := ref.id ++ "@" ++ ref.semanticVersion

/-- What `itemContent` prints of an item; the dimensions are in the order of their names. -/
structure ItemContent where
  displayName : String
  canonicalMetric : MetricRef
  unit : String
  dimensions : List (String × String)
  (collectorRef paramsDefault : String)
deriving DecidableEq

structure SourceChain where
  (createdAt text : String)

structure ItemInput where
  (templateId itemId : String)
  content : ItemContent
  sourceChain : SourceChain

structure ItemVersion extends ItemInput where
  version : Nat

structure TemplateVersion where
  templateId : String
  version : Nat
  (status contentHash aggregate items packageComposition sourceChain publishedAt : String)
  retiredAt : Option String

structure Tables where
  templates : List TemplateRecord
  drafts : List TemplateDraft
  items : List ItemRow
  itemVersions : List ItemVersion
  versions : List TemplateVersion

/-- What identifies an item: two contents with one identity are versions of one item. -/
def ItemContent.identity (c : ItemContent) : String × String × List String :=
  (c.canonicalMetric.canonicalKey, c.unit, c.dimensions.map (·.1))

def identityConflict (latest next : ItemContent) : Bool :=
  latest.canonicalMetric.canonicalKey ≠ next.canonicalMetric.canonicalKey || latest.unit ≠ next.unit ||
    latest.dimensions.map (·.1) ≠ next.dimensions.map (·.1)

def ItemVersion.key (v : ItemVersion) : String × String := (v.templateId, v.itemId)

def ItemRow.key (r : ItemRow) : String × String := (r.templateId, r.itemId)

/-! ## Checks -/

/-- The schemas, and the rendering of a timestamp for its column. -/
structure Host where
  timestamp : String → Option String
  record : TemplateRecord → Bool
  draft : TemplateDraft → Bool
  item : ItemVersion → Bool
  version : TemplateVersion → Bool

/-- How a transaction fails: by a statement, or by a `TemplateError`. -/
inductive StorageError
  | sql
  | template (code : String)

def maxSqlInt : Nat := 2147483647
def maxActorId : Nat := 9007199254740991

def invalidInput : StorageError := .template "TEMPLATE_INVALID_INPUT"

def check (c : Bool) (e : StorageError) : Except StorageError Unit := if c then .ok () else .error e

def Host.toSqlTimestamp (host : Host) (iso : String) : Except StorageError String :=
  match host.timestamp iso with
  | some text => .ok text
  | none => .error invalidInput

def sqlActorId (value : Option Nat) : Except StorageError (Option Nat) :=
  if value.any (maxActorId < ·) then .error invalidInput else .ok value

def sqlInt (value : Option Nat) : Except StorageError (Option Nat) :=
  if value.any (maxSqlInt < ·) then .error invalidInput else .ok value

/-- `sqlNextRevision` and `sqlNextVersion`. -/
def sqlNext (current : Nat) : Except StorageError Nat :=
  if maxSqlInt ≤ current then .error invalidInput else .ok (current + 1)

/-! ## Statements -/

/-- The body of a transaction, over the tables and the number of statements so far. -/
abbrev Tx (α : Type) := StateT (Tables × Nat) (Except StorageError) α

/-- One statement, which may fail. -/
def execute {α : Type} (fails : Nat → Bool) (f : Tables → α × Tables) : Tx α := fun s =>
  if fails s.2 then .error .sql else .ok ((f s.1).1, (f s.1).2, s.2 + 1)

def select {α : Type} (fails : Nat → Bool) (f : Tables → α) : Tx α :=
  execute fails fun tables => (f tables, tables)

/-- What is not a statement: a check, or the reading of a row. -/
def pureStep {α : Type} (x : Except StorageError α) : Tx α := fun s => x.map (·, s)

def found {α : Type} (row : Option α) (code : String) : Except StorageError α :=
  match row with
  | some row => .ok row
  | none => .error (.template code)

/-- An insert, which answers whether its keys are free. -/
def insert (fails : Nat → Bool) (taken : Tables → Bool) (add : Tables → Tables) : Tx Bool :=
  execute fails fun tables => if taken tables then (false, tables) else (true, add tables)

def Tables.template? (tables : Tables) (id : String) : Option TemplateRecord :=
  tables.templates.find? (·.templateId = id)

def Tables.draft? (tables : Tables) (id : String) : Option TemplateDraft :=
  tables.drafts.find? (·.templateId = id)

def Tables.latestItem? (tables : Tables) (key : String × String) : Option ItemVersion :=
  Versioned.head ItemVersion.key (·.version) tables.itemVersions key

def Tables.published? (tables : Tables) (id hash : String) : Option TemplateVersion :=
  tables.versions.find? fun v => v.templateId = id && v.contentHash = hash

/-- `COALESCE(MAX(version), 0)`. -/
def Tables.maxVersion (tables : Tables) (id : String) : Nat :=
  (Versioned.head (·.templateId) (·.version) tables.versions id).elim 0 (·.version)

/-- An update of the row of a template at a revision, with the number of rows it matches. -/
def updateTemplates (fails : Nat → Bool) (id : String) (revision : Nat)
    (f : TemplateRecord → TemplateRecord) : Tx Nat :=
  execute fails fun tables =>
    (tables.templates.countP fun r => r.templateId = id && r.revision = revision,
      { tables with
        templates := tables.templates.map fun r =>
          if r.templateId = id ∧ r.revision = revision then f r else r })

def updateDrafts (fails : Nat → Bool) (id : String) (revision : Nat)
    (f : TemplateDraft → TemplateDraft) : Tx Nat :=
  execute fails fun tables =>
    (tables.drafts.countP fun r => r.templateId = id && r.revision = revision,
      { tables with
        drafts := tables.drafts.map fun r =>
          if r.templateId = id ∧ r.revision = revision then f r else r })

def insertItemRow (fails : Nat → Bool) (row : ItemRow) : Tx Bool :=
  insert fails (·.items.any (·.key = row.key)) fun t => { t with items := t.items ++ [row] }

def insertItemVersion (fails : Nat → Bool) (v : ItemVersion) : Tx Bool :=
  insert fails (·.itemVersions.any fun w => w.key = v.key && w.version = v.version)
    fun t => { t with itemVersions := t.itemVersions ++ [v] }

/-- An insert that throws a `TemplateError` for a key that is taken. -/
def insertOr (code : StorageError) (inserted : Tx Bool) : Tx Unit := do
  let ok ← inserted
  pureStep (check ok code)

variable (host : Host) (fails : Nat → Bool)

/-! ## `create` -/

/-- The items of a copy, each at version 1, after the ids seen so far. -/
def copies (host : Host) (id : String) (seen : List String) :
    List ItemInput → Except StorageError (List ItemVersion)
  | [] => .ok []
  | input :: rest => do
    check (input.templateId = id) (.template "TEMPLATE_ITEM_NOT_FOUND")
    check (!seen.contains input.itemId) (.template "TEMPLATE_ITEM_DUPLICATE")
    check (host.item { input with version := 1 }) invalidInput
    let items ← copies host id (input.itemId :: seen) rest
    pure ({ input with version := 1 } :: items)

/-- One item of the loop of `create`. -/
def createItem (item : ItemVersion) (createdAt : String) : Tx Unit := do
  insertOr (.template "TEMPLATE_ITEM_DUPLICATE") (insertItemRow fails ⟨item.templateId, item.itemId, createdAt⟩)
  insertOr .sql (insertItemVersion fails item)

def createItems : List (ItemVersion × String) → Tx Unit
  | [] => pure ()
  | item :: rest => do
    createItem fails item.1 item.2
    createItems rest

/-- The transaction of `create`. -/
def createRun (record : TemplateRecord) (draft : TemplateDraft) (items : List (ItemVersion × String)) :
    Tx Unit := do
  insertOr (.template "TEMPLATE_EXISTS")
    (insert fails (·.templates.any (·.templateId = record.templateId))
      fun t => { t with templates := t.templates ++ [record] })
  insertOr .sql
    (insert fails (·.drafts.any (·.templateId = draft.templateId))
      fun t => { t with drafts := t.drafts ++ [draft] })
  createItems fails items

/-- The input of `create`, with the values that the columns take. -/
def createInput (record : TemplateRecord) (draft : TemplateDraft) (inputs : List ItemInput) :
    Except StorageError (TemplateRecord × TemplateDraft × List (ItemVersion × String)) := do
  check (host.record record && host.draft draft) invalidInput
  check (draft.templateId = record.templateId && draft.revision = 0 && record.revision = 0)
    (.template "TEMPLATE_EXISTS")
  let items ← copies host record.templateId [] inputs
  let createdAt ← host.toSqlTimestamp record.createdAt
  let updatedAt ← host.toSqlTimestamp record.updatedAt
  let draftUpdatedAt ← host.toSqlTimestamp draft.updatedAt
  let createdBy ← sqlActorId record.createdBy
  let currentPublishedVersion ← sqlInt record.currentPublishedVersion
  let updatedBy ← sqlActorId draft.updatedBy
  let publishedVersion ← sqlInt draft.publishedVersion
  let ordered := items.insertionSort fun a b => JsString.le a.itemId b.itemId
  let dated ← ordered.mapM fun item => do
    let at_ ← host.toSqlTimestamp item.sourceChain.createdAt
    pure (item, at_)
  pure ({ record with createdAt, updatedAt, createdBy, currentPublishedVersion },
    { draft with updatedAt := draftUpdatedAt, updatedBy, publishedVersion }, dated)

/-! ## `updateTemplate` and `updateDraft` -/

structure TemplatePatch where
  (name status : Option String)
  currentPublishedVersion : Option Nat
  updatedAt : String

/-- The record that a patch makes. -/
def TemplateRecord.patch (r : TemplateRecord) (patch : TemplatePatch) (revision : Nat) : TemplateRecord :=
  { r with
    name := patch.name.getD r.name
    status := patch.status.getD r.status
    currentPublishedVersion := patch.currentPublishedVersion <|> r.currentPublishedVersion
    revision
    updatedAt := patch.updatedAt }

/-- The transaction of `updateTemplate`. -/
def updateTemplateRun (id : String) (expected : Nat) (patch : TemplatePatch) : Tx TemplateRecord := do
  let row ← select fails (·.template? id)
  let current ← pureStep (found row "TEMPLATE_NOT_FOUND")
  pureStep (check (host.record current) invalidInput)
  pureStep (check (current.revision = expected) (.template "TEMPLATE_REVISION_CONFLICT"))
  let revision ← pureStep (sqlNext current.revision)
  let next := current.patch patch revision
  pureStep (check (host.record next) invalidInput)
  let currentPublishedVersion ← pureStep (sqlInt next.currentPublishedVersion)
  let updatedAt ← pureStep (host.toSqlTimestamp next.updatedAt)
  let affected ← updateTemplates fails id expected fun r =>
    { r with name := next.name, status := next.status, currentPublishedVersion, revision, updatedAt }
  pureStep (check (affected = 1) (.template "TEMPLATE_REVISION_CONFLICT"))
  pure next

structure DraftUpdate where
  aggregate : String
  updatedBy : Option Nat
  updatedAt : String

/-- The transaction of `updateDraft`. -/
def updateDraftRun (id : String) (expected : Nat) (next : DraftUpdate) : Tx TemplateDraft := do
  let parent ← select fails (·.template? id)
  let _ ← pureStep (found parent "TEMPLATE_NOT_FOUND")
  let row ← select fails (·.draft? id)
  let current ← pureStep (found row "TEMPLATE_NOT_FOUND")
  pureStep (check (host.draft current) invalidInput)
  pureStep (check (current.revision = expected) (.template "TEMPLATE_DRAFT_CONFLICT"))
  let revision ← pureStep (sqlNext current.revision)
  let updated := { current with
    revision, aggregate := next.aggregate, updatedBy := next.updatedBy, updatedAt := next.updatedAt }
  pureStep (check (host.draft updated) invalidInput)
  let updatedAt ← pureStep (host.toSqlTimestamp updated.updatedAt)
  let updatedBy ← pureStep (sqlActorId updated.updatedBy)
  let affected ← updateDrafts fails id expected fun r =>
    { r with revision, aggregate := updated.aggregate, updatedBy, updatedAt }
  pureStep (check (affected = 1) (.template "TEMPLATE_DRAFT_CONFLICT"))
  pure updated

/-! ## `putItemVersion` -/

/-- What the latest version of an item says about an input: its reuse, a conflict, or a new version. -/
def reuse (latest : Option ItemVersion) (input : ItemInput) : Except StorageError (Option ItemVersion) :=
  match latest with
  | none => .ok none
  | some latest =>
    if identityConflict latest.content input.content then
      .error (.template "TEMPLATE_ITEM_IDENTITY_INCOMPATIBLE")
    else .ok (if latest.content = input.content then some latest else none)

/-- The first version of an item also inserts its row. -/
def putItemRow (latest : Option ItemVersion) (row : ItemRow) : Tx Unit :=
  match latest with
  | some _ => pure ()
  | none => insertOr (.template "TEMPLATE_ITEM_DUPLICATE") (insertItemRow fails row)

/-- The rest of `putItemVersion`, for a content that is not the latest. -/
def appendItem (latest : Option ItemVersion) (input : ItemInput) (createdAt : String) :
    Tx (ItemVersion × Bool) := do
  let version ← pureStep (sqlNext (latest.elim 0 (·.version)))
  pureStep (check (host.item { input with version }) invalidInput)
  putItemRow fails latest ⟨input.templateId, input.itemId, createdAt⟩
  insertOr .sql (insertItemVersion fails { input with version })
  pure ({ input with version }, false)

/-- The transaction of `putItemVersion`. -/
def putItemRun (input : ItemInput) (createdAt : String) : Tx (ItemVersion × Bool) := do
  let parent ← select fails (·.template? input.templateId)
  let _ ← pureStep (found parent "TEMPLATE_NOT_FOUND")
  let latest ← select fails (·.latestItem? (input.templateId, input.itemId))
  pureStep (check (latest.all host.item) invalidInput)
  let same ← pureStep (reuse latest input)
  match same with
  | some item => pure (item, true)
  | none => appendItem host fails latest input createdAt

/-! ## `publish` -/

structure PublishCommand where
  templateId : String
  (expectedTemplateRevision expectedDraftRevision : Nat)
  (contentHash aggregate items packageComposition sourceChain publishedAt draftUpdatedAt : String)
  actorId : Option Nat

structure PublishOutcome where
  noop : Bool
  version : Nat
  contentHash : String
  revision : Nat

/-- The version that a command publishes. -/
def PublishCommand.record (c : PublishCommand) (version : Nat) (publishedAt : String) : TemplateVersion where
  templateId := c.templateId
  version
  status := "published"
  contentHash := c.contentHash
  aggregate := c.aggregate
  items := c.items
  packageComposition := c.packageComposition
  sourceChain := c.sourceChain
  publishedAt
  retiredAt := none

/-- The outcome for a version that is already stored. -/
def noop (v : TemplateVersion) (template : TemplateRecord) : PublishOutcome :=
  ⟨true, v.version, v.contentHash, template.revision⟩

/-- The updates after the insert of a version. -/
def publishRows (c : PublishCommand) (actorId : Option Nat) (publishedAt draftUpdatedAt : String)
    (version templateRevision draftRevision : Nat) : Tx PublishOutcome := do
  let templates ← updateTemplates fails c.templateId c.expectedTemplateRevision fun r =>
    { r with currentPublishedVersion := some version, revision := templateRevision, updatedAt := publishedAt }
  pureStep (check (templates = 1) (.template "TEMPLATE_REVISION_CONFLICT"))
  let drafts ← updateDrafts fails c.templateId c.expectedDraftRevision fun r =>
    { r with
      revision := draftRevision
      publishedVersion := some version
      updatedBy := actorId
      updatedAt := draftUpdatedAt }
  pureStep (check (drafts = 1) (.template "TEMPLATE_DRAFT_CONFLICT"))
  pure ⟨false, version, c.contentHash, templateRevision⟩

/-- After an insert that met a key: the stored version, when it is one of this content. -/
def raced (c : PublishCommand) (template : TemplateRecord) : Tx PublishOutcome := do
  let row ← select fails (·.published? c.templateId c.contentHash)
  match row with
  | some v => do
    pureStep (check (host.version v) invalidInput)
    pure (noop v template)
  | none => pureStep (.error .sql)

/-- The rest of `publish`, for a content that is not stored. -/
def publishNew (c : PublishCommand) (template : TemplateRecord) (draft : TemplateDraft)
    (actorId : Option Nat) (publishedAt draftUpdatedAt : String) : Tx PublishOutcome := do
  let maxVersion ← select fails (·.maxVersion c.templateId)
  let version ← pureStep (sqlNext maxVersion)
  let templateRevision ← pureStep (sqlNext template.revision)
  let draftRevision ← pureStep (sqlNext draft.revision)
  pureStep (check (host.version (c.record version c.publishedAt)) invalidInput)
  let record := c.record version publishedAt
  let inserted ← insert fails
    (·.versions.any fun v => v.templateId = record.templateId &&
      (v.version = record.version || v.contentHash = record.contentHash))
    fun t => { t with versions := t.versions ++ [record] }
  if inserted then
    publishRows fails c actorId publishedAt draftUpdatedAt version templateRevision draftRevision
  else raced host fails c template

/-- The transaction of `publish`. -/
def publishRun (c : PublishCommand) (actorId : Option Nat) (publishedAt draftUpdatedAt : String) :
    Tx PublishOutcome := do
  let templateRow ← select fails (·.template? c.templateId)
  let template ← pureStep (found templateRow "TEMPLATE_NOT_FOUND")
  pureStep (check (host.record template) invalidInput)
  let draftRow ← select fails (·.draft? c.templateId)
  let draft ← pureStep (found draftRow "TEMPLATE_NOT_FOUND")
  pureStep (check (host.draft draft) invalidInput)
  pureStep (check (template.revision = c.expectedTemplateRevision) (.template "TEMPLATE_REVISION_CONFLICT"))
  pureStep (check (draft.revision = c.expectedDraftRevision) (.template "TEMPLATE_DRAFT_CONFLICT"))
  let existing ← select fails (·.published? c.templateId c.contentHash)
  match existing with
  | some v => do
    pureStep (check (host.version v) invalidInput)
    pure (noop v template)
  | none => publishNew host fails c template draft actorId publishedAt draftUpdatedAt

/-! ## Operations -/

inductive Operation
  | create (record : TemplateRecord) (draft : TemplateDraft) (items : List ItemInput)
  | updateTemplate (id : String) (expected : Nat) (patch : TemplatePatch)
  | updateDraft (id : String) (expected : Nat) (next : DraftUpdate)
  | putItemVersion (input : ItemInput)
  | publish (command : PublishCommand)

inductive Reply
  | created (items : List ItemVersion)
  | template (record : TemplateRecord)
  | draft (draft : TemplateDraft)
  | item (version : ItemVersion) (reused : Bool)
  | published (outcome : PublishOutcome)

/-- What an operation checks before its transaction, and the body of that. -/
def Operation.body (op : Operation) : Except StorageError (Tx Reply) :=
  match op with
  | .create record draft items => do
    let input ← createInput host record draft items
    pure do
      createRun fails input.1 input.2.1 input.2.2
      pure (.created (input.2.2.map (·.1)))
  | .updateTemplate id expected patch => do
    let _ ← host.toSqlTimestamp patch.updatedAt
    pure do
      let record ← updateTemplateRun host fails id expected patch
      pure (.template record)
  | .updateDraft id expected next => do
    let _ ← host.toSqlTimestamp next.updatedAt
    let _ ← sqlActorId next.updatedBy
    pure do
      let draft ← updateDraftRun host fails id expected next
      pure (.draft draft)
  | .putItemVersion input => do
    check (host.item { input with version := 1 }) invalidInput
    let createdAt ← host.toSqlTimestamp input.sourceChain.createdAt
    pure do
      let result ← putItemRun host fails input createdAt
      pure (.item result.1 result.2)
  | .publish c => do
    check (host.version (c.record 1 c.publishedAt)) invalidInput
    let publishedAt ← host.toSqlTimestamp c.publishedAt
    let draftUpdatedAt ← host.toSqlTimestamp c.draftUpdatedAt
    let actorId ← sqlActorId c.actorId
    pure do
      let outcome ← publishRun host fails c actorId publishedAt draftUpdatedAt
      pure (.published outcome)

/-! ## Transactions -/

/-- What becomes of a commit: it takes effect, it does not, or its acknowledgement is lost. -/
inductive Commit
  | done | refused | lost

/-- What fails around an operation and in it. -/
structure Faults where
  (connect prepare begins : Bool)
  statement : Nat → Bool
  rollback : Bool
  commit : Commit

/-- A connection; `open_` when the server may have a transaction open on it. -/
structure Connection where
  open_ : Bool

/-- The end of an operation; `TemplateStorageUnknownCommitError` is neither success nor failure. -/
inductive Outcome
  | ok (reply : Reply)
  | failed (e : StorageError)
  | unknownCommit

structure Ended where
  outcome : Outcome
  tables : Tables
  /-- The connection that goes back to the pool; another one is destroyed. -/
  released : Option Connection

/-- `finally`: only a reusable connection is released. -/
def finish (reusable : Bool) (connection : Connection) : Option Connection :=
  if reusable then some connection else none

/-- `transaction`.  The server rolls a transaction back whose connection is destroyed. -/
def transaction (faults : Faults) (tables : Tables) (run : Tx Reply) : Ended :=
  if faults.connect then ⟨.failed .sql, tables, none⟩
  else if faults.prepare then ⟨.failed .sql, tables, finish false ⟨false⟩⟩
  else if faults.begins then ⟨.failed .sql, tables, finish false ⟨true⟩⟩
  else
    match run (tables, 0) with
    | .error e =>
      let reusable := !faults.rollback
      ⟨.failed e, tables, finish reusable ⟨faults.rollback⟩⟩
    | .ok (reply, after) =>
      match faults.commit with
      | .done => ⟨.ok reply, after.1, finish true ⟨false⟩⟩
      | .refused => ⟨.unknownCommit, tables, finish false ⟨true⟩⟩
      | .lost => ⟨.unknownCommit, after.1, finish false ⟨false⟩⟩

def Operation.perform (op : Operation) (faults : Faults) (tables : Tables) : Ended :=
  match op.body host faults.statement with
  | .error e => ⟨.failed e, tables, none⟩
  | .ok body => transaction faults tables body

/-- The pointer that an operation sets explicitly. -/
def Operation.pointer : Operation → Option (String × Option Nat)
  | .create record _ _ => some (record.templateId, record.currentPublishedVersion)
  | .updateTemplate id _ patch => patch.currentPublishedVersion.map (id, some ·)
  | _ => none

/-- The tables, the pool and the pointers that operations have set explicitly. -/
structure World where
  tables : Tables
  pool : List Connection
  explicit : List (String × Option Nat)

def World.after (w : World) (op : Operation) (faults : Faults) : World :=
  let ended := op.perform host faults w.tables
  { tables := ended.tables
    pool := w.pool ++ ended.released.toList
    explicit := match ended.outcome with
      | .failed _ => w.explicit
      | _ => op.pointer.toList ++ w.explicit }

/-- The world after operations that follow one another, as the lock of the template has them. -/
def reached (ops : List (Operation × Faults)) : World :=
  ops.foldl (fun w op => w.after host op.1 op.2) ⟨⟨[], [], [], [], []⟩, [], []⟩

end Slide.Templates.Storage
