import Mathlib.Data.List.Chain
import Slide.Library.Transaction
import Slide.Templates.Storage

/-!
# The writers of template storage

What a transaction of each writer has done to the tables when it is through, and `ItemsSound`, the
invariant of the versions of items.
-/

namespace Slide.Templates.Storage

open Versioned List
open Transaction (bind_ok pure_ok)

/-! ## Parts of a transaction -/

section Parts

variable {α β : Type} {fails : Nat → Bool} {s s' : Tables × Nat} {a : α} {e : StorageError} {c : Bool}

theorem pureStep_ok {x : Except StorageError α} :
    pureStep x s = .ok (a, s') ↔ x = .ok a ∧ s' = s := by
  unfold pureStep
  rw [Except.map_eq_ok]
  refine ⟨?_, ?_⟩
  · rintro ⟨b, got, same⟩
    cases same
    exact ⟨got, rfl⟩
  · rintro ⟨got, rfl⟩
    exact ⟨a, got, rfl⟩

theorem execute_ok {f : Tables → α × Tables} :
    execute fails f s = .ok (a, s') ↔
      fails s.2 = false ∧ a = (f s.1).1 ∧ s' = ((f s.1).2, s.2 + 1) := by
  unfold execute
  cases failed : fails s.2 with
  | true => exact ⟨nofun, fun done => nomatch done.1⟩
  | false =>
    refine ⟨fun same => ?_, ?_⟩
    · cases same
      exact ⟨rfl, rfl, rfl⟩
    · rintro ⟨-, rfl, rfl⟩
      rfl

theorem select_ok {f : Tables → α} :
    select fails f s = .ok (a, s') ↔ fails s.2 = false ∧ a = f s.1 ∧ s' = (s.1, s.2 + 1) :=
  execute_ok

theorem check_ok {u : Unit} : check c e = .ok u ↔ c = true := by
  cases c with
  | true => exact ⟨fun _ => rfl, fun _ => rfl⟩
  | false => exact ⟨nofun, nofun⟩

theorem found_ok {row : Option α} {code : String} : found row code = .ok a ↔ row = some a := by
  cases row with
  | none => exact ⟨nofun, nofun⟩
  | some b => exact ⟨fun same => congrArg some (Except.ok.inj same),
      fun same => congrArg Except.ok (some.inj same)⟩

section Peel

variable {b : β}

theorem pureStep_bind_ok {x : Except StorageError α} {f : α → Tx β} :
    (pureStep x >>= f) s = .ok (b, s') ↔ ∃ a, x = .ok a ∧ f a s = .ok (b, s') := by
  rw [bind_ok]
  constructor
  · rintro ⟨a, s₁, first, rest⟩
    obtain ⟨got, rfl⟩ := pureStep_ok.mp first
    exact ⟨a, got, rest⟩
  · rintro ⟨a, got, rest⟩
    exact ⟨a, s, pureStep_ok.mpr ⟨got, rfl⟩, rest⟩

theorem check_bind_ok {f : Unit → Tx β} :
    (pureStep (check c e) >>= f) s = .ok (b, s') ↔ c = true ∧ f () s = .ok (b, s') := by
  rw [pureStep_bind_ok]
  constructor
  · rintro ⟨_, passed, rest⟩
    exact ⟨check_ok.mp passed, rest⟩
  · rintro ⟨passed, rest⟩
    exact ⟨(), check_ok.mpr passed, rest⟩

theorem select_bind_ok {g : Tables → α} {f : α → Tx β} :
    (select fails g >>= f) s = .ok (b, s') ↔
      fails s.2 = false ∧ f (g s.1) (s.1, s.2 + 1) = .ok (b, s') := by
  rw [bind_ok]
  constructor
  · rintro ⟨a, s₁, first, rest⟩
    obtain ⟨runs, rfl, rfl⟩ := select_ok.mp first
    exact ⟨runs, rest⟩
  · rintro ⟨runs, rest⟩
    exact ⟨_, _, select_ok.mpr ⟨runs, rfl, rfl⟩, rest⟩

end Peel

theorem sqlNext_ok {current next : Nat} (ok : sqlNext current = .ok next) : next = current + 1 := by
  unfold sqlNext at ok
  split at ok
  · cases ok
  · exact (Except.ok.inj ok).symm

theorem sqlInt_ok {value value' : Option Nat} (ok : sqlInt value = .ok value') : value' = value := by
  unfold sqlInt at ok
  split at ok
  · cases ok
  · exact (Except.ok.inj ok).symm

theorem insertOr_ok {taken : Tables → Bool} {add : Tables → Tables} {u : Unit}
    (ran : insertOr e (insert fails taken add) s = .ok (u, s')) :
    taken s.1 = false ∧ s'.1 = add s.1 := by
  obtain ⟨ok, s₁, inserted, checked⟩ := bind_ok.mp ran
  obtain ⟨passed, rfl⟩ := pureStep_ok.mp checked
  obtain ⟨-, answer, rfl⟩ := execute_ok.mp inserted
  cases free : taken s.1 with
  | true =>
    rw [free] at answer
    rw [check_ok, answer] at passed
    cases passed
  | false => exact ⟨rfl, rfl⟩

end Parts

/-! ## Items -/

/-- The versions of each item are numbered, of one identity, and each changes the one before. -/
structure ItemsSound (items : List ItemRow) (itemVersions : List ItemVersion) : Prop where
  numbered : NumberedEach ItemVersion.key (·.version) itemVersions
  row : ∀ v ∈ itemVersions, ∃ r ∈ items, r.key = v.key
  identity : ∀ v ∈ itemVersions, ∀ w ∈ itemVersions, v.key = w.key → v.content.identity = w.content.identity
  changed : ∀ key, (versionsOf ItemVersion.key itemVersions key).IsChain (·.content ≠ ·.content)

theorem ItemsSound.nil : ItemsSound [] [] :=
  ⟨.nil, nofun, nofun, fun _ => .nil⟩

theorem ItemsSound.append {items rows : List ItemRow} {itemVersions : List ItemVersion} {v : ItemVersion}
    (sound : ItemsSound items itemVersions) (row : ∃ r ∈ items ++ rows, r.key = v.key)
    (next : v.version = (head ItemVersion.key (·.version) itemVersions v.key).elim 0 (·.version) + 1)
    (fits : ∀ w, head ItemVersion.key (·.version) itemVersions v.key = some w →
      w.content.identity = v.content.identity ∧ w.content ≠ v.content) :
    ItemsSound (items ++ rows) (itemVersions ++ [v]) := by
  have same (w : ItemVersion) (mem : w ∈ itemVersions) (key : w.key = v.key) :
      w.content.identity = v.content.identity := by
    cases latest : head ItemVersion.key (·.version) itemVersions v.key with
    | none =>
      have none_ := head_eq_none.mp latest
      have inside := mem_versionsOf.mpr ⟨mem, key⟩
      rw [none_] at inside
      cases inside
    | some u =>
      obtain ⟨inside, key'⟩ := mem_of_head latest
      rw [← (fits u latest).1]
      exact sound.identity w mem u inside (key.trans key'.symm)
  refine ⟨sound.numbered.snoc ?_, ?_, ?_, ?_⟩
  · rw [next, sound.numbered.head_elim]
  · intro w mem
    rcases mem_append.mp mem with mem | mem
    · obtain ⟨r, inside, key⟩ := sound.row w mem
      exact ⟨r, mem_append_left _ inside, key⟩
    · cases mem_singleton.mp mem
      exact row
  · intro w mem u mem' key
    rcases mem_append.mp mem with mem | mem <;> rcases mem_append.mp mem' with mem' | mem'
    · exact sound.identity w mem u mem' key
    · cases mem_singleton.mp mem'
      exact same w mem key
    · cases mem_singleton.mp mem
      exact (same u mem' key.symm).symm
    · cases mem_singleton.mp mem
      cases mem_singleton.mp mem'
      rfl
  · intro key
    by_cases of : v.key = key
    · subst of
      rw [versionsOf_snoc_self]
      apply (sound.changed v.key).append (isChain_singleton v)
      intro w last u first
      cases Option.mem_some.mp first
      exact (fits w (sound.numbered.head_of_getLast last)).2
    · rw [versionsOf_snoc_of_ne of]
      exact sound.changed key

/-! ## The writers -/

section Writers

variable {host : Host} {fails : Nat → Bool} {s s' : Tables × Nat} {t : Tables} {id id' : String} {n k : Nat}

/-- What an update at a revision makes of a row. -/
def TemplateRecord.at_ (id : String) (n : Nat) (f : TemplateRecord → TemplateRecord) (r : TemplateRecord) :
    TemplateRecord :=
  if r.templateId = id ∧ r.revision = n then f r else r

def TemplateDraft.at_ (id : String) (n : Nat) (f : TemplateDraft → TemplateDraft) (r : TemplateDraft) :
    TemplateDraft :=
  if r.templateId = id ∧ r.revision = n then f r else r

theorem updateTemplates_ok {f : TemplateRecord → TemplateRecord}
    (ran : updateTemplates fails id n f s = .ok (k, s')) :
    s'.1 = { s.1 with templates := s.1.templates.map (TemplateRecord.at_ id n f) } := by
  obtain ⟨-, -, rfl⟩ := execute_ok.mp ran
  rfl

theorem updateDrafts_ok {f : TemplateDraft → TemplateDraft}
    (ran : updateDrafts fails id n f s = .ok (k, s')) :
    s'.1 = { s.1 with drafts := s.1.drafts.map (TemplateDraft.at_ id n f) } := by
  obtain ⟨-, -, rfl⟩ := execute_ok.mp ran
  rfl

theorem template?_map {g : TemplateRecord → TemplateRecord} {rows : List TemplateRecord}
    (same : ∀ r, (g r).templateId = r.templateId) :
    (rows.map g).find? (·.templateId = id) = (rows.find? (·.templateId = id)).map g := by
  rw [find?_map]
  congr 2
  funext r
  exact decide_eq_decide.mpr (by rw [same])

theorem draft?_map {g : TemplateDraft → TemplateDraft} {rows : List TemplateDraft}
    (same : ∀ r, (g r).templateId = r.templateId) :
    (rows.map g).find? (·.templateId = id) = (rows.find? (·.templateId = id)).map g := by
  rw [find?_map]
  congr 2
  funext r
  exact decide_eq_decide.mpr (by rw [same])

theorem updateTemplate_ok {patch : TemplatePatch} {next : TemplateRecord}
    (ran : updateTemplateRun host fails id n patch s = .ok (next, s')) :
    ∃ current updatedAt, s.1.template? id = some current ∧ current.revision = n ∧
      next = current.patch patch (n + 1) ∧
      s'.1 = { s.1 with
        templates := s.1.templates.map (TemplateRecord.at_ id n fun r =>
          { r with
            name := next.name
            status := next.status
            currentPublishedVersion := next.currentPublishedVersion
            revision := n + 1
            updatedAt }) } := by
  obtain ⟨-, ran⟩ := select_bind_ok.mp ran
  obtain ⟨current, got, ran⟩ := pureStep_bind_ok.mp ran
  obtain ⟨-, ran⟩ := check_bind_ok.mp ran
  obtain ⟨expected, ran⟩ := check_bind_ok.mp ran
  obtain ⟨revision, counted, ran⟩ := pureStep_bind_ok.mp ran
  obtain ⟨-, ran⟩ := check_bind_ok.mp ran
  obtain ⟨pointer, bounded, ran⟩ := pureStep_bind_ok.mp ran
  obtain ⟨updatedAt, -, ran⟩ := pureStep_bind_ok.mp ran
  obtain ⟨affected, s₁, wrote, ran⟩ := bind_ok.mp ran
  obtain ⟨-, ran⟩ := check_bind_ok.mp ran
  obtain ⟨rfl, rfl⟩ := pure_ok.mp ran
  have expected := of_decide_eq_true expected
  have counted := sqlNext_ok counted
  rw [expected] at counted
  refine ⟨current, updatedAt, found_ok.mp got, expected, by rw [counted], ?_⟩
  rw [updateTemplates_ok wrote, sqlInt_ok bounded, counted]

theorem updateDraft_ok {update : DraftUpdate} {next : TemplateDraft}
    (ran : updateDraftRun host fails id n update s = .ok (next, s')) :
    ∃ current updatedBy updatedAt, s.1.draft? id = some current ∧ current.revision = n ∧
      s'.1 = { s.1 with
        drafts := s.1.drafts.map (TemplateDraft.at_ id n fun r =>
          { r with revision := n + 1, aggregate := next.aggregate, updatedBy, updatedAt }) } := by
  obtain ⟨-, ran⟩ := select_bind_ok.mp ran
  obtain ⟨_, -, ran⟩ := pureStep_bind_ok.mp ran
  obtain ⟨-, ran⟩ := select_bind_ok.mp ran
  obtain ⟨current, got, ran⟩ := pureStep_bind_ok.mp ran
  obtain ⟨-, ran⟩ := check_bind_ok.mp ran
  obtain ⟨expected, ran⟩ := check_bind_ok.mp ran
  obtain ⟨revision, counted, ran⟩ := pureStep_bind_ok.mp ran
  obtain ⟨-, ran⟩ := check_bind_ok.mp ran
  obtain ⟨updatedAt, -, ran⟩ := pureStep_bind_ok.mp ran
  obtain ⟨updatedBy, -, ran⟩ := pureStep_bind_ok.mp ran
  obtain ⟨affected, s₁, wrote, ran⟩ := bind_ok.mp ran
  obtain ⟨-, ran⟩ := check_bind_ok.mp ran
  obtain ⟨rfl, rfl⟩ := pure_ok.mp ran
  have expected := of_decide_eq_true expected
  have counted := sqlNext_ok counted
  rw [expected] at counted
  refine ⟨current, updatedBy, updatedAt, found_ok.mp got, expected, ?_⟩
  rw [updateDrafts_ok wrote, counted]

theorem putItem_ok {input : ItemInput} {createdAt : String} {result : ItemVersion × Bool}
    (ran : putItemRun host fails input createdAt s = .ok (result, s')) :
    s'.1 = s.1 ∨ ∃ latest, latest = s.1.latestItem? (input.templateId, input.itemId) ∧
      reuse latest input = .ok none ∧
      (s'.1 = { s.1 with
          items := s.1.items ++
            if latest = none then [⟨input.templateId, input.itemId, createdAt⟩] else []
          itemVersions := s.1.itemVersions ++ [{ input with version := latest.elim 0 (·.version) + 1 }] }) := by
  obtain ⟨-, ran⟩ := select_bind_ok.mp ran
  obtain ⟨_, -, ran⟩ := pureStep_bind_ok.mp ran
  obtain ⟨-, ran⟩ := select_bind_ok.mp ran
  obtain ⟨-, ran⟩ := check_bind_ok.mp ran
  obtain ⟨same, reused, ran⟩ := pureStep_bind_ok.mp ran
  cases same with
  | some item =>
    obtain ⟨-, rfl⟩ := pure_ok.mp ran
    exact .inl rfl
  | none =>
    refine .inr ⟨_, rfl, reused, ?_⟩
    obtain ⟨version, counted, ran⟩ := pureStep_bind_ok.mp ran
    obtain ⟨-, ran⟩ := check_bind_ok.mp ran
    obtain ⟨_, s₁, row, ran⟩ := bind_ok.mp ran
    obtain ⟨_, s₂, added, ran⟩ := bind_ok.mp ran
    obtain ⟨-, rfl⟩ := pure_ok.mp ran
    obtain ⟨-, added⟩ := insertOr_ok added
    rw [added, sqlNext_ok counted]
    dsimp only at row ⊢
    cases latest : s.1.latestItem? (input.templateId, input.itemId) with
    | some v =>
      rw [latest] at row
      obtain ⟨-, rfl⟩ := pure_ok.mp row
      rw [if_neg (Option.some_ne_none v), append_nil]
    | none =>
      rw [latest] at row
      obtain ⟨-, row⟩ := insertOr_ok row
      rw [row, if_pos rfl]

/-- What the insert of a new version does to the rows of a command. -/
def PublishCommand.written (c : PublishCommand) (actorId : Option Nat) (publishedAt draftUpdatedAt : String)
    (t : Tables) : Tables :=
  { t with
    templates := t.templates.map (TemplateRecord.at_ c.templateId c.expectedTemplateRevision fun r =>
      { r with
        currentPublishedVersion := some (t.maxVersion c.templateId + 1)
        revision := c.expectedTemplateRevision + 1
        updatedAt := publishedAt })
    drafts := t.drafts.map (TemplateDraft.at_ c.templateId c.expectedDraftRevision fun r =>
      { r with
        revision := c.expectedDraftRevision + 1
        publishedVersion := some (t.maxVersion c.templateId + 1)
        updatedBy := actorId
        updatedAt := draftUpdatedAt })
    versions := t.versions ++ [c.record (t.maxVersion c.templateId + 1) publishedAt] }

variable {actorId : Option Nat} {publishedAt draftUpdatedAt : String} {outcome : PublishOutcome}

theorem publishRows_ok {c : PublishCommand} {version templateRevision draftRevision : Nat}
    (ran : publishRows fails c actorId publishedAt draftUpdatedAt version templateRevision draftRevision s =
      .ok (outcome, s')) :
    outcome = ⟨false, version, c.contentHash, templateRevision⟩ ∧
      s'.1 = { s.1 with
        templates := s.1.templates.map (TemplateRecord.at_ c.templateId c.expectedTemplateRevision fun r =>
          { r with
            currentPublishedVersion := some version
            revision := templateRevision
            updatedAt := publishedAt })
        drafts := s.1.drafts.map (TemplateDraft.at_ c.templateId c.expectedDraftRevision fun r =>
          { r with
            revision := draftRevision
            publishedVersion := some version
            updatedBy := actorId
            updatedAt := draftUpdatedAt }) } := by
  obtain ⟨templates, s₁, wroteTemplate, ran⟩ := bind_ok.mp ran
  obtain ⟨-, ran⟩ := check_bind_ok.mp ran
  obtain ⟨drafts, s₂, wroteDraft, ran⟩ := bind_ok.mp ran
  obtain ⟨-, ran⟩ := check_bind_ok.mp ran
  obtain ⟨rfl, rfl⟩ := pure_ok.mp ran
  refine ⟨rfl, ?_⟩
  rw [updateDrafts_ok wroteDraft, updateTemplates_ok wroteTemplate]

variable {draft : TemplateDraft}

theorem publishNew_ok {c : PublishCommand} {template : TemplateRecord}
    (absent : s.1.published? c.templateId c.contentHash = none)
    (current : template.revision = c.expectedTemplateRevision)
    (currentDraft : draft.revision = c.expectedDraftRevision)
    (ran : publishNew host fails c template draft actorId publishedAt draftUpdatedAt s = .ok (outcome, s')) :
    outcome.noop = false ∧ s'.1 = c.written actorId publishedAt draftUpdatedAt s.1 := by
  obtain ⟨-, ran⟩ := select_bind_ok.mp ran
  obtain ⟨version, next, ran⟩ := pureStep_bind_ok.mp ran
  obtain ⟨templateRevision, nextTemplate, ran⟩ := pureStep_bind_ok.mp ran
  obtain ⟨draftRevision, nextDraft, ran⟩ := pureStep_bind_ok.mp ran
  obtain ⟨-, ran⟩ := check_bind_ok.mp ran
  obtain ⟨inserted, s₁, insert, ran⟩ := bind_ok.mp ran
  obtain ⟨-, answer, rfl⟩ := execute_ok.mp insert
  rw [sqlNext_ok next] at answer ran
  rw [sqlNext_ok nextTemplate, sqlNext_ok nextDraft, current, currentDraft] at ran
  dsimp only at answer ran
  split at answer
  · -- the fallback looks the content up again, which is not there
    subst answer
    rename_i taken
    rw [if_pos taken] at ran
    obtain ⟨-, ran⟩ := select_bind_ok.mp ran
    dsimp only at ran
    rw [absent] at ran
    obtain ⟨failed, -⟩ := pureStep_ok.mp ran
    cases failed
  · subst answer
    rename_i free
    rw [if_neg free] at ran
    obtain ⟨rfl, written⟩ := publishRows_ok ran
    exact ⟨rfl, written⟩

theorem publish_ok {c : PublishCommand}
    (ran : publishRun host fails c actorId publishedAt draftUpdatedAt s = .ok (outcome, s')) :
    ∃ template draft, s.1.template? c.templateId = some template ∧
      template.revision = c.expectedTemplateRevision ∧ s.1.draft? c.templateId = some draft ∧
      draft.revision = c.expectedDraftRevision ∧
      ((∃ v, s.1.published? c.templateId c.contentHash = some v ∧ outcome = noop v template ∧
          s'.1 = s.1) ∨
        s.1.published? c.templateId c.contentHash = none ∧ outcome.noop = false ∧
          s'.1 = c.written actorId publishedAt draftUpdatedAt s.1) := by
  obtain ⟨-, ran⟩ := select_bind_ok.mp ran
  obtain ⟨template, row, ran⟩ := pureStep_bind_ok.mp ran
  obtain ⟨-, ran⟩ := check_bind_ok.mp ran
  obtain ⟨-, ran⟩ := select_bind_ok.mp ran
  obtain ⟨draft, draftRow, ran⟩ := pureStep_bind_ok.mp ran
  obtain ⟨-, ran⟩ := check_bind_ok.mp ran
  obtain ⟨current, ran⟩ := check_bind_ok.mp ran
  obtain ⟨currentDraft, ran⟩ := check_bind_ok.mp ran
  obtain ⟨-, ran⟩ := select_bind_ok.mp ran
  have current := of_decide_eq_true current
  have currentDraft := of_decide_eq_true currentDraft
  refine ⟨template, draft, found_ok.mp row, current, found_ok.mp draftRow, currentDraft, ?_⟩
  cases existing : s.1.published? c.templateId c.contentHash with
  | some v =>
    dsimp only at ran
    rw [existing] at ran
    obtain ⟨-, ran⟩ := check_bind_ok.mp ran
    obtain ⟨rfl, rfl⟩ := pure_ok.mp ran
    exact .inl ⟨v, rfl, rfl, rfl⟩
  | none =>
    dsimp only at ran
    rw [existing] at ran
    obtain ⟨new, written⟩ := publishNew_ok (s := (s.1, s.2 + 1 + 1 + 1)) existing current currentDraft ran
    exact .inr ⟨rfl, new, written⟩

theorem createItem_ok {item : ItemVersion} {createdAt : String} {u : Unit}
    (ran : createItem fails item createdAt s = .ok (u, s')) :
    (∀ r ∈ s.1.items, r.key ≠ item.key) ∧
      s'.1 = { s.1 with
        items := s.1.items ++ [⟨item.templateId, item.itemId, createdAt⟩]
        itemVersions := s.1.itemVersions ++ [item] } := by
  obtain ⟨_, s₁, row, added⟩ := bind_ok.mp ran
  obtain ⟨free, row⟩ := insertOr_ok row
  obtain ⟨-, added⟩ := insertOr_ok added
  rw [any_eq_false] at free
  refine ⟨fun r mem same => free r mem (decide_eq_true same), ?_⟩
  rw [added, row]

theorem ItemsSound.first {item : ItemVersion} (createdAt : String) (sound : ItemsSound t.items t.itemVersions)
    (one : item.version = 1) (free : ∀ r ∈ t.items, r.key ≠ item.key) :
    ItemsSound (t.items ++ [⟨item.templateId, item.itemId, createdAt⟩]) (t.itemVersions ++ [item]) := by
  have none_ : head ItemVersion.key (·.version) t.itemVersions item.key = none := by
    rw [head_eq_none, eq_nil_iff_forall_not_mem]
    intro v mem
    obtain ⟨inside, key⟩ := mem_versionsOf.mp mem
    obtain ⟨r, row, same⟩ := sound.row v inside
    exact free r row (same.trans key)
  apply sound.append
  · exact ⟨_, mem_append_right _ (mem_singleton.mpr rfl), rfl⟩
  · rw [none_, one]
    rfl
  · intro w latest
    rw [none_] at latest
    cases latest

theorem createItems_ok {items : List (ItemVersion × String)} {u : Unit}
    (ones : ∀ item ∈ items, item.1.version = 1) (sound : ItemsSound s.1.items s.1.itemVersions)
    (ran : createItems fails items s = .ok (u, s')) :
    ∃ rows new, s'.1 = { s.1 with
        items := s.1.items ++ rows
        itemVersions := s.1.itemVersions ++ new } ∧
      ItemsSound (s.1.items ++ rows) (s.1.itemVersions ++ new) := by
  induction items generalizing s with
  | nil =>
    obtain ⟨-, rfl⟩ := pure_ok.mp ran
    refine ⟨[], [], ?_, ?_⟩
    · simp only [append_nil]
    · simpa only [append_nil] using sound
  | cons item items ih =>
    obtain ⟨_, s₁, first, ran⟩ := bind_ok.mp ran
    obtain ⟨free, same⟩ := createItem_ok first
    have sound₁ := sound.first item.2 (ones item mem_cons_self) free
    obtain ⟨rows, new, rest, kept⟩ := ih (fun i mem => ones i (mem_cons_of_mem _ mem))
      (by rw [same]; exact sound₁) ran
    rw [same] at rest kept
    refine ⟨⟨item.1.templateId, item.1.itemId, item.2⟩ :: rows, item.1 :: new, ?_, ?_⟩
    · rw [rest]
      simp only [append_assoc, singleton_append]
    · simpa only [append_assoc, singleton_append] using kept

theorem create_ok {record : TemplateRecord} {items : List (ItemVersion × String)}
    {u : Unit} (ones : ∀ item ∈ items, item.1.version = 1)
    (sound : ItemsSound s.1.items s.1.itemVersions)
    (ran : createRun fails record draft items s = .ok (u, s')) :
    s.1.template? record.templateId = none ∧ s.1.draft? draft.templateId = none ∧
      ∃ rows new, s'.1 = { s.1 with
          templates := s.1.templates ++ [record]
          drafts := s.1.drafts ++ [draft]
          items := s.1.items ++ rows
          itemVersions := s.1.itemVersions ++ new } ∧
        ItemsSound (s.1.items ++ rows) (s.1.itemVersions ++ new) := by
  obtain ⟨_, s₁, template, ran⟩ := bind_ok.mp ran
  obtain ⟨_, s₂, drafted, ran⟩ := bind_ok.mp ran
  obtain ⟨free, template⟩ := insertOr_ok template
  obtain ⟨freeDraft, drafted⟩ := insertOr_ok drafted
  rw [template] at drafted freeDraft
  obtain ⟨rows, new, rest, kept⟩ := createItems_ok ones (by rw [drafted]; exact sound) ran
  rw [drafted] at rest kept
  refine ⟨?_, ?_, rows, new, rest, kept⟩
  · rw [any_eq_false] at free
    exact find?_eq_none.mpr free
  · rw [any_eq_false] at freeDraft
    exact find?_eq_none.mpr freeDraft

theorem copies_version {seen : List String} {inputs : List ItemInput} {items : List ItemVersion}
    (ok : copies host id seen inputs = .ok items) : ∀ item ∈ items, item.version = 1 := by
  induction inputs generalizing seen items with
  | nil =>
    cases ok
    exact nofun
  | cons input inputs ih =>
    obtain ⟨_, -, ok⟩ := bind_eq_ok.mp ok
    obtain ⟨_, -, ok⟩ := bind_eq_ok.mp ok
    obtain ⟨_, -, ok⟩ := bind_eq_ok.mp ok
    obtain ⟨rest, copied, ok⟩ := bind_eq_ok.mp ok
    cases ok
    exact forall_mem_cons.mpr ⟨rfl, ih copied⟩

theorem createInput_ok {record : TemplateRecord} {inputs : List ItemInput}
    {input : TemplateRecord × TemplateDraft × List (ItemVersion × String)}
    (ok : createInput host record draft inputs = .ok input) :
    input.1.templateId = record.templateId ∧ input.1.revision = 0 ∧
      input.1.currentPublishedVersion = record.currentPublishedVersion ∧
      input.2.1.templateId = record.templateId ∧ input.2.1.revision = 0 ∧
      ∀ item ∈ input.2.2, item.1.version = 1 := by
  obtain ⟨_, -, ok⟩ := bind_eq_ok.mp ok
  obtain ⟨_, starts, ok⟩ := bind_eq_ok.mp ok
  obtain ⟨items, copied, ok⟩ := bind_eq_ok.mp ok
  obtain ⟨createdAt, -, ok⟩ := bind_eq_ok.mp ok
  obtain ⟨updatedAt, -, ok⟩ := bind_eq_ok.mp ok
  obtain ⟨draftUpdatedAt, -, ok⟩ := bind_eq_ok.mp ok
  obtain ⟨createdBy, -, ok⟩ := bind_eq_ok.mp ok
  obtain ⟨pointer, bounded, ok⟩ := bind_eq_ok.mp ok
  obtain ⟨updatedBy, -, ok⟩ := bind_eq_ok.mp ok
  obtain ⟨publishedVersion, -, ok⟩ := bind_eq_ok.mp ok
  obtain ⟨dated, each, ok⟩ := bind_eq_ok.mp ok
  cases ok
  rw [check_ok, Bool.and_eq_true, Bool.and_eq_true] at starts
  obtain ⟨⟨same, zeroDraft⟩, zero⟩ := starts
  refine ⟨rfl, of_decide_eq_true zero, sqlInt_ok bounded, of_decide_eq_true same,
    of_decide_eq_true zeroDraft, ?_⟩
  intro item mem
  obtain ⟨source, inside, made⟩ := Except.exists_of_forall₂ (Except.mapM_eq_ok.mp each) mem
  obtain ⟨at_, -, made⟩ := bind_eq_ok.mp made
  cases made
  exact copies_version copied _ ((mem_insertionSort _).mp inside)

end Writers

end Slide.Templates.Storage
