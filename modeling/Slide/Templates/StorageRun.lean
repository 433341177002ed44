import Mathlib.Data.List.Infix
import Slide.Templates.StorageWriters

/-!
# Template storage over its runs

What operations in any number leave in the tables, with any of their statements, commits and rollbacks
failing.

* `TablesSound`: the invariant of the tables; `Change`: what one committed body does.
* `change_of_body`: each of the five writers makes a change; `ends_of_perform`: how an operation ends.
* `storage_linear`: the whole of it over a run.
-/

namespace Slide.Templates.Storage

open Versioned List
open Transaction (bind_ok pure_ok)

/-! ## One committed body -/

/-- The operations that count a template's revision, and a draft's. -/
def Operation.advancesTemplate (op : Operation) (reply : Reply) (id : String) : Prop :=
  match op, reply with
  | .updateTemplate id' _ _, _ => id' = id
  | .publish c, .published outcome => c.templateId = id ∧ outcome.noop = false
  | _, _ => False

def Operation.advancesDraft (op : Operation) (reply : Reply) (id : String) : Prop :=
  match op, reply with
  | .updateDraft id' _ _, _ => id' = id
  | .publish c, .published outcome => c.templateId = id ∧ outcome.noop = false
  | _, _ => False

/-- A revision goes up by one when it is advanced, stays otherwise, and begins at zero. -/
structure Counts (advances : Prop) (before after : Option Nat) : Prop where
  up : advances → ∃ n, before = some n ∧ after = some (n + 1)
  kept : ¬ advances → ∀ n, before = some n → after = some n
  first : before = none → after = none ∨ after = some 0

def Tables.revision (t : Tables) (id : String) : Option Nat := (t.template? id).map (·.revision)

def Tables.draftRevision (t : Tables) (id : String) : Option Nat := (t.draft? id).map (·.revision)

/-- The published versions of each template are numbered, and no two are of one content. -/
structure PublishedSound (versions : List TemplateVersion) : Prop where
  numbered : NumberedEach (·.templateId) (·.version) versions
  distinct : ∀ id, ((versionsOf (·.templateId) versions id).map (·.contentHash)).Nodup

/-- A pointer is null, or to a stored version, or has been set explicitly. -/
def Points (explicit : List (String × Option Nat)) (t : Tables) : Prop :=
  ∀ id r, t.template? id = some r → r.currentPublishedVersion = none ∨
    (∃ v ∈ t.versions, v.templateId = id ∧ r.currentPublishedVersion = some v.version) ∨
    (id, r.currentPublishedVersion) ∈ explicit

/-- What the tables satisfy after any operations. -/
structure TablesSound (explicit : List (String × Option Nat)) (t : Tables) : Prop where
  items : ItemsSound t.items t.itemVersions
  published : PublishedSound t.versions
  points : Points explicit t

/-- What a committed body does. -/
structure Change (op : Operation) (reply : Reply) (explicit : List (String × Option Nat)) (t t' : Tables) :
    Prop where
  sound : TablesSound (op.pointer.toList ++ explicit) t'
  versions : t.versions <+: t'.versions
  itemVersions : t.itemVersions <+: t'.itemVersions
  templates : ∀ id, Counts (op.advancesTemplate reply id) (t.revision id) (t'.revision id)
  drafts : ∀ id, Counts (op.advancesDraft reply id) (t.draftRevision id) (t'.draftRevision id)

theorem Counts.same {advances : Prop} {revision : Option Nat} (still : ¬ advances) :
    Counts advances revision revision where
  up moved := absurd moved still
  kept _ _ at_ := at_
  first := .inl

theorem Tables.template?_id {t : Tables} {id : String} {r : TemplateRecord} (found : t.template? id = some r) :
    r.templateId = id :=
  of_decide_eq_true (find?_some (p := fun r : TemplateRecord => decide (r.templateId = id)) found)

theorem Tables.draft?_id {t : Tables} {id : String} {r : TemplateDraft} (found : t.draft? id = some r) :
    r.templateId = id :=
  of_decide_eq_true (find?_some (p := fun r : TemplateDraft => decide (r.templateId = id)) found)

section Changes

variable {host : Host} {fails : Nat → Bool} {explicit : List (String × Option Nat)} {t t' : Tables}
  {id id' : String} {n : Nat} {op : Operation} {reply : Reply}

theorem template?_update {f : TemplateRecord → TemplateRecord} (rows : t'.templates = t.templates.map (TemplateRecord.at_ id n f))
    (keeps : ∀ r, (f r).templateId = r.templateId) :
    t'.template? id' = (t.template? id').map (TemplateRecord.at_ id n f) := by
  rw [Tables.template?, rows]
  apply template?_map
  intro r
  unfold TemplateRecord.at_
  split
  · exact keeps r
  · rfl

theorem draft?_update {f : TemplateDraft → TemplateDraft} (rows : t'.drafts = t.drafts.map (TemplateDraft.at_ id n f))
    (keeps : ∀ r, (f r).templateId = r.templateId) :
    t'.draft? id' = (t.draft? id').map (TemplateDraft.at_ id n f) := by
  rw [Tables.draft?, rows]
  apply draft?_map
  intro r
  unfold TemplateDraft.at_
  split
  · exact keeps r
  · rfl

theorem Counts.template {f : TemplateRecord → TemplateRecord} {current : TemplateRecord} {advances : Prop}
    (rows : t'.templates = t.templates.map (TemplateRecord.at_ id n f))
    (keeps : ∀ r, (f r).templateId = r.templateId) (counts : ∀ r, (f r).revision = n + 1)
    (found : t.template? id = some current) (at_ : current.revision = n) (when_ : advances ↔ id = id') :
    Counts advances (t.revision id') (t'.revision id') := by
  have after : t'.template? id' = _ := template?_update rows keeps
  refine ⟨fun moved => ?_, fun still m before => ?_, fun none_ => .inl ?_⟩
  · rw [when_] at moved
    subst moved
    refine ⟨n, by rw [Tables.revision, found, ← at_]; rfl, ?_⟩
    rw [Tables.revision, after, found, Option.map_some, Option.map_some, TemplateRecord.at_,
      if_pos ⟨Tables.template?_id found, at_⟩, counts]
  · rw [when_] at still
    obtain ⟨r, found', rfl⟩ := Option.map_eq_some_iff.mp before
    rw [Tables.revision, after, found', Option.map_some, Option.map_some, TemplateRecord.at_,
      if_neg fun same => still (same.1.symm.trans (Tables.template?_id found'))]
  · rw [Tables.revision, after, Option.map_eq_none_iff.mp none_]
    rfl

theorem Counts.draft {f : TemplateDraft → TemplateDraft} {current : TemplateDraft} {advances : Prop}
    (rows : t'.drafts = t.drafts.map (TemplateDraft.at_ id n f))
    (keeps : ∀ r, (f r).templateId = r.templateId) (counts : ∀ r, (f r).revision = n + 1)
    (found : t.draft? id = some current) (at_ : current.revision = n) (when_ : advances ↔ id = id') :
    Counts advances (t.draftRevision id') (t'.draftRevision id') := by
  have after : t'.draft? id' = _ := draft?_update rows keeps
  refine ⟨fun moved => ?_, fun still m before => ?_, fun none_ => .inl ?_⟩
  · rw [when_] at moved
    subst moved
    refine ⟨n, by rw [Tables.draftRevision, found, ← at_]; rfl, ?_⟩
    rw [Tables.draftRevision, after, found, Option.map_some, Option.map_some, TemplateDraft.at_,
      if_pos ⟨Tables.draft?_id found, at_⟩, counts]
  · rw [when_] at still
    obtain ⟨r, found', rfl⟩ := Option.map_eq_some_iff.mp before
    rw [Tables.draftRevision, after, found', Option.map_some, Option.map_some, TemplateDraft.at_,
      if_neg fun same => still (same.1.symm.trans (Tables.draft?_id found'))]
  · rw [Tables.draftRevision, after, Option.map_eq_none_iff.mp none_]
    rfl

theorem Points.of {explicit' : List (String × Option Nat)} (points : Points explicit t)
    (versions : t.versions <+: t'.versions) (wider : ∀ p ∈ explicit, p ∈ explicit')
    (rows : ∀ id r', t'.template? id = some r' →
      (∃ r, t.template? id = some r ∧ r.currentPublishedVersion = r'.currentPublishedVersion) ∨
      (∃ v ∈ t'.versions, v.templateId = id ∧ r'.currentPublishedVersion = some v.version) ∨
      (id, r'.currentPublishedVersion) ∈ explicit') : Points explicit' t' := by
  intro id r' found
  rcases rows id r' found with ⟨r, before, same⟩ | stored | set
  · rw [← same]
    rcases points id r before with null | ⟨v, mem, of, at_⟩ | set
    · exact .inl null
    · exact .inr (.inl ⟨v, versions.mem mem, of, at_⟩)
    · exact .inr (.inr (wider _ set))
  · exact .inr (.inl stored)
  · exact .inr (.inr set)

theorem change_updateTemplate {patch : TemplatePatch} {next : TemplateRecord} {s s' : Tables × Nat}
    (sound : TablesSound explicit s.1)
    (ran : updateTemplateRun host fails id n patch s = .ok (next, s')) :
    Change (.updateTemplate id n patch) (.template next) explicit s.1 s'.1 := by
  obtain ⟨current, updatedAt, found, at_, next_, written⟩ := updateTemplate_ok ran
  have rows := congrArg Tables.templates written
  obtain ⟨after, k⟩ := s'
  dsimp only at written
  subst written
  refine ⟨⟨sound.items, sound.published, ?_⟩, prefix_refl _, prefix_refl _, fun id' => ?_,
    fun _ => .same fun no => no⟩
  · refine sound.points.of (prefix_refl _) (fun p mem => mem_append_right _ mem) ?_
    intro id' r' after
    rw [template?_update rows fun _ => rfl] at after
    obtain ⟨r, before, rfl⟩ := Option.map_eq_some_iff.mp after
    unfold TemplateRecord.at_
    split
    · -- the row of the patch, whose pointer is the old one or the patch's
      rename_i here
      have same : r = current := by
        rw [← Tables.template?_id before, here.1, found] at before
        exact (some.inj before).symm
      subst same
      rw [next_]
      cases set : patch.currentPublishedVersion with
      | none => exact .inl ⟨r, before, by simp only [TemplateRecord.patch, set]; rfl⟩
      | some v =>
        refine .inr (.inr (mem_append_left _ ?_))
        rw [← Tables.template?_id before, here.1]
        simp [Operation.pointer, TemplateRecord.patch, set]
    · exact .inl ⟨r, before, rfl⟩
  · exact .template rfl (fun _ => rfl) (fun _ => rfl) found at_ Iff.rfl

theorem change_updateDraft {update : DraftUpdate} {next : TemplateDraft} {s s' : Tables × Nat}
    (sound : TablesSound explicit s.1)
    (ran : updateDraftRun host fails id n update s = .ok (next, s')) :
    Change (.updateDraft id n update) (.draft next) explicit s.1 s'.1 := by
  obtain ⟨current, updatedBy, updatedAt, found, at_, written⟩ := updateDraft_ok ran
  obtain ⟨after, k⟩ := s'
  dsimp only at written
  subst written
  refine ⟨⟨sound.items, sound.published, ?_⟩, prefix_refl _, prefix_refl _,
    fun _ => .same fun no => no, fun id' => ?_⟩
  · exact sound.points.of (prefix_refl _) (fun p mem => mem) fun id' r' after => .inl ⟨r', after, rfl⟩
  · exact .draft rfl (fun _ => rfl) (fun _ => rfl) found at_ Iff.rfl

theorem Change.none (sound : TablesSound explicit t) (still : ∀ id, ¬ op.advancesTemplate reply id)
    (stillDraft : ∀ id, ¬ op.advancesDraft reply id) : Change op reply explicit t t where
  sound := ⟨sound.items, sound.published, sound.points.of (prefix_refl _)
    (fun _ mem => mem_append_right _ mem) fun _ r' after => .inl ⟨r', after, rfl⟩⟩
  versions := prefix_refl _
  itemVersions := prefix_refl _
  templates id := .same (still id)
  drafts id := .same (stillDraft id)

theorem reuse_ok {w : ItemVersion} {input : ItemInput} (fits : reuse (some w) input = .ok none) :
    w.content.identity = input.content.identity ∧ w.content ≠ input.content := by
  unfold reuse at fits
  dsimp only at fits
  split at fits
  · cases fits
  · rename_i compatible
    simp only [identityConflict, Bool.or_eq_true, decide_eq_true_eq, not_or, not_not, ne_eq] at compatible
    refine ⟨?_, fun same => ?_⟩
    · rw [ItemContent.identity, ItemContent.identity, compatible.1.1, compatible.1.2, compatible.2]
    · rw [if_pos same] at fits
      cases fits

theorem change_putItem {input : ItemInput} {createdAt : String} {result : ItemVersion × Bool}
    {s s' : Tables × Nat} (sound : TablesSound explicit s.1)
    (ran : putItemRun host fails input createdAt s = .ok (result, s')) :
    Change (.putItemVersion input) (.item result.1 result.2) explicit s.1 s'.1 := by
  rcases putItem_ok ran with same | ⟨latest, latest_, fits, written⟩
  · rw [same]
    exact .none sound (fun _ no => no) (fun _ no => no)
  · obtain ⟨after, k⟩ := s'
    dsimp only at written
    subst written
    refine ⟨⟨?_, sound.published, ?_⟩, prefix_refl _, prefix_append _ _,
      fun _ => .same fun no => no, fun _ => .same fun no => no⟩
    · apply sound.items.append
      · cases none_ : latest with
        | none => exact ⟨_, mem_append_right _ (mem_singleton.mpr rfl), rfl⟩
        | some v =>
          obtain ⟨inside, key⟩ := mem_of_head (latest_.symm.trans none_)
          obtain ⟨r, row, same⟩ := sound.items.row v inside
          exact ⟨r, mem_append_left _ row, same.trans key⟩
      · exact congrArg (·.elim 0 (·.version) + 1) latest_
      · intro w found
        rw [latest_.trans found] at fits
        exact reuse_ok fits
    · exact sound.points.of (prefix_refl _) (fun p mem => mem) fun id' r' after => .inl ⟨r', after, rfl⟩

theorem template?_append {r : TemplateRecord} (rows : t'.templates = t.templates ++ [r]) :
    t'.template? id = (t.template? id).or (if r.templateId = id then some r else none) := by
  rw [Tables.template?, rows, find?_append, find?_singleton]
  simp only [decide_eq_true_eq]
  rfl

theorem draft?_append {r : TemplateDraft} (rows : t'.drafts = t.drafts ++ [r]) :
    t'.draft? id = (t.draft? id).or (if r.templateId = id then some r else none) := by
  rw [Tables.draft?, rows, find?_append, find?_singleton]
  simp only [decide_eq_true_eq]
  rfl

theorem Counts.added {α : Type} {revision : α → Nat} {before : Option α} {r : α} {c : Prop} [Decidable c]
    {advances : Prop} (still : ¬ advances) (zero : revision r = 0) :
    Counts advances (before.map revision) ((before.or (if c then some r else none)).map revision) := by
  cases before with
  | some r' => exact .same still
  | none =>
    refine ⟨fun moved => absurd moved still, nofun, fun _ => ?_⟩
    rw [Option.none_or]
    split
    · exact .inr (congrArg some zero)
    · exact .inl rfl

theorem change_create {record : TemplateRecord} {draft : TemplateDraft} {inputs : List ItemInput}
    {input : TemplateRecord × TemplateDraft × List (ItemVersion × String)} {u : Unit}
    {s s' : Tables × Nat} (sound : TablesSound explicit s.1)
    (ok : createInput host record draft inputs = .ok input)
    (ran : createRun fails input.1 input.2.1 input.2.2 s = .ok (u, s')) :
    Change (.create record draft inputs) (.created (input.2.2.map (·.1))) explicit s.1 s'.1 := by
  obtain ⟨same, zero, pointer, -, zeroDraft, ones⟩ := createInput_ok ok
  obtain ⟨-, -, rows, new, written, items⟩ := create_ok ones sound.items ran
  have templates := congrArg Tables.templates written
  have drafts := congrArg Tables.drafts written
  obtain ⟨after, k⟩ := s'
  dsimp only at written
  subst written
  refine ⟨⟨items, sound.published, ?_⟩, prefix_refl _, prefix_append _ _, fun id' => ?_,
    fun id' => ?_⟩
  · refine sound.points.of (prefix_refl _) (fun p mem => mem_append_right _ mem) ?_
    intro id' r' after
    rw [template?_append templates] at after
    rcases Option.or_eq_some_iff.mp after with before | ⟨-, here⟩
    · exact .inl ⟨r', before, rfl⟩
    · split at here
      · rename_i at_
        cases here
        refine .inr (.inr (mem_append_left _ ?_))
        rw [← at_, same, pointer]
        exact mem_singleton.mpr rfl
      · cases here
  · rw [Tables.revision, Tables.revision, template?_append templates]
    exact .added (fun no => no) zero
  · rw [Tables.draftRevision, Tables.draftRevision, draft?_append drafts]
    exact .added (fun no => no) zeroDraft

theorem PublishedSound.append {v : TemplateVersion} (sound : PublishedSound t.versions)
    (next : v.version = t.maxVersion v.templateId + 1)
    (absent : t.published? v.templateId v.contentHash = none) : PublishedSound (t.versions ++ [v]) := by
  refine ⟨sound.numbered.snoc ?_, fun id' => ?_⟩
  · rw [next, Tables.maxVersion, sound.numbered.head_elim]
  · by_cases of : v.templateId = id'
    · subst of
      have split : versionsOf (·.templateId) (t.versions ++ [v]) v.templateId =
          versionsOf (·.templateId) t.versions v.templateId ++ [v] := versionsOf_snoc_self
      rw [split, map_append, map_singleton]
      apply List.Nodup.append (sound.distinct _) (nodup_singleton _)
      rw [disjoint_singleton]
      intro taken
      obtain ⟨w, mem, hash⟩ := mem_map.mp taken
      obtain ⟨inside, of⟩ := mem_versionsOf.mp mem
      exact find?_eq_none.mp absent w inside (by simp [of, hash])
    · have split : versionsOf (·.templateId) (t.versions ++ [v]) id' =
          versionsOf (·.templateId) t.versions id' := versionsOf_snoc_of_ne of
      rw [split]
      exact sound.distinct id'

theorem change_publish {c : PublishCommand} {actorId : Option Nat} {publishedAt draftUpdatedAt : String}
    {outcome : PublishOutcome} {s s' : Tables × Nat} (sound : TablesSound explicit s.1)
    (ran : publishRun host fails c actorId publishedAt draftUpdatedAt s = .ok (outcome, s')) :
    Change (.publish c) (.published outcome) explicit s.1 s'.1 := by
  obtain ⟨template, draft, found, at_, foundDraft, atDraft, result⟩ := publish_ok ran
  rcases result with ⟨v, -, rfl, same⟩ | ⟨absent, new, written⟩
  · rw [same]
    exact .none sound (fun _ moved => nomatch moved.2) (fun _ moved => nomatch moved.2)
  · have templates := congrArg Tables.templates written
    have drafts := congrArg Tables.drafts written
    obtain ⟨after, k⟩ := s'
    dsimp only at written
    subst written
    have moves (id' : String) : (c.templateId = id' ∧ outcome.noop = false) ↔ c.templateId = id' :=
      and_iff_left new
    refine ⟨⟨sound.items, ?_, ?_⟩, prefix_append _ _, prefix_refl _, fun id' => ?_, fun id' => ?_⟩
    · exact sound.published.append rfl absent
    · refine sound.points.of (prefix_append _ _) (fun p mem => mem) ?_
      intro id' r' after
      rw [template?_update templates fun _ => rfl] at after
      obtain ⟨r, before, rfl⟩ := Option.map_eq_some_iff.mp after
      unfold TemplateRecord.at_
      split
      · rename_i here
        refine .inr (.inl ⟨_, mem_append_right _ (mem_singleton.mpr rfl), ?_, rfl⟩)
        exact here.1.symm.trans (Tables.template?_id before)
      · exact .inl ⟨r, before, rfl⟩
    · exact .template templates (fun _ => rfl) (fun _ => rfl) found at_ (moves id')
    · exact .draft drafts (fun _ => rfl) (fun _ => rfl) foundDraft atDraft (moves id')

theorem change_of_body {body : Tx Reply} {s s' : Tables × Nat} (sound : TablesSound explicit s.1)
    (checked : op.body host fails = .ok body) (ran : body s = .ok (reply, s')) :
    Change op reply explicit s.1 s'.1 := by
  cases op with
  | create record draft inputs =>
    obtain ⟨input, ok, checked⟩ := bind_eq_ok.mp checked
    cases checked
    obtain ⟨_, s₁, created, ran⟩ := bind_ok.mp ran
    obtain ⟨rfl, rfl⟩ := pure_ok.mp ran
    exact change_create sound ok created
  | updateTemplate id n patch =>
    obtain ⟨_, -, checked⟩ := bind_eq_ok.mp checked
    cases checked
    obtain ⟨next, s₁, updated, ran⟩ := bind_ok.mp ran
    obtain ⟨rfl, rfl⟩ := pure_ok.mp ran
    exact change_updateTemplate sound updated
  | updateDraft id n next =>
    obtain ⟨_, -, checked⟩ := bind_eq_ok.mp checked
    obtain ⟨_, -, checked⟩ := bind_eq_ok.mp checked
    cases checked
    obtain ⟨next, s₁, updated, ran⟩ := bind_ok.mp ran
    obtain ⟨rfl, rfl⟩ := pure_ok.mp ran
    exact change_updateDraft sound updated
  | putItemVersion input =>
    obtain ⟨_, -, checked⟩ := bind_eq_ok.mp checked
    obtain ⟨_, -, checked⟩ := bind_eq_ok.mp checked
    cases checked
    obtain ⟨result, s₁, put, ran⟩ := bind_ok.mp ran
    obtain ⟨rfl, rfl⟩ := pure_ok.mp ran
    exact change_putItem sound put
  | publish c =>
    obtain ⟨_, -, checked⟩ := bind_eq_ok.mp checked
    obtain ⟨publishedAt, -, checked⟩ := bind_eq_ok.mp checked
    obtain ⟨draftUpdatedAt, -, checked⟩ := bind_eq_ok.mp checked
    obtain ⟨actorId, -, checked⟩ := bind_eq_ok.mp checked
    cases checked
    obtain ⟨outcome, s₁, published, ran⟩ := bind_ok.mp ran
    obtain ⟨rfl, rfl⟩ := pure_ok.mp ran
    exact change_publish sound published

end Changes

/-! ## One operation -/

/-- An operation whose body is through, with what it answers and leaves. -/
def Operation.runs (op : Operation) (host : Host) (faults : Faults) (t : Tables) (reply : Reply) (t' : Tables) :
    Prop :=
  ∃ body k, op.body host faults.statement = .ok body ∧ body (t, 0) = .ok (reply, (t', k))

/-- How an operation ends. -/
inductive Ends (host : Host) (op : Operation) (faults : Faults) (t : Tables) (ended : Ended) : Prop
  | failed (e : StorageError) (outcome : ended.outcome = .failed e) (tables : ended.tables = t)
  | ok (reply : Reply) (outcome : ended.outcome = .ok reply) (runs : op.runs host faults t reply ended.tables)
  | refused (outcome : ended.outcome = .unknownCommit) (tables : ended.tables = t)
  | lost (reply : Reply) (outcome : ended.outcome = .unknownCommit)
    (runs : op.runs host faults t reply ended.tables)

section Operations

variable {host : Host} {faults : Faults} {explicit : List (String × Option Nat)} {t t' : Tables}
  {op : Operation} {reply : Reply}

theorem ends_of_transaction {body : Tx Reply} (checked : op.body host faults.statement = .ok body) :
    Ends host op faults t (transaction faults t body) ∧
      ∀ c ∈ (transaction faults t body).released, c.open_ = false := by
  unfold transaction
  split
  · exact ⟨.failed _ rfl rfl, nofun⟩
  split
  · exact ⟨.failed _ rfl rfl, nofun⟩
  split
  · exact ⟨.failed _ rfl rfl, nofun⟩
  split
  · -- a rollback that fails leaves a connection that is not reusable
    refine ⟨.failed _ rfl rfl, ?_⟩
    cases faults.rollback with
    | true => exact nofun
    | false =>
      intro c mem
      cases mem
      rfl
  · rename_i reply after ran
    have runs : op.runs host faults t reply after.1 := ⟨body, after.2, checked, ran⟩
    cases faults.commit with
    | done =>
      refine ⟨.ok reply rfl runs, fun c mem => ?_⟩
      cases mem
      rfl
    | refused => exact ⟨.refused rfl rfl, nofun⟩
    | lost => exact ⟨.lost reply rfl runs, nofun⟩

theorem ends_of_perform (host : Host) (op : Operation) (faults : Faults) (t : Tables) :
    Ends host op faults t (op.perform host faults t) ∧
      ∀ c ∈ (op.perform host faults t).released, c.open_ = false := by
  unfold Operation.perform
  split
  · exact ⟨.failed _ rfl rfl, nofun⟩
  · rename_i body checked
    exact ends_of_transaction checked

theorem Operation.runs.change (runs : op.runs host faults t reply t') (sound : TablesSound explicit t) :
    Change op reply explicit t t' := by
  obtain ⟨body, k, checked, ran⟩ := runs
  have change := @change_of_body host faults.statement explicit op reply body (t, 0) (t', k)
  exact change sound checked ran

theorem runs_publish {c : PublishCommand} (runs : (Operation.publish c).runs host faults t reply t') :
    t.revision c.templateId = some c.expectedTemplateRevision ∧
      t.draftRevision c.templateId = some c.expectedDraftRevision ∧
      ∀ v, t.published? c.templateId c.contentHash = some v →
        t' = t ∧ ∃ template, t.template? c.templateId = some template ∧
          reply = .published (noop v template) := by
  obtain ⟨body, k, checked, ran⟩ := runs
  obtain ⟨_, -, checked⟩ := bind_eq_ok.mp checked
  obtain ⟨publishedAt, -, checked⟩ := bind_eq_ok.mp checked
  obtain ⟨draftUpdatedAt, -, checked⟩ := bind_eq_ok.mp checked
  obtain ⟨actorId, -, checked⟩ := bind_eq_ok.mp checked
  cases checked
  obtain ⟨outcome, s₁, published, ran⟩ := bind_ok.mp ran
  obtain ⟨rfl, rfl⟩ := pure_ok.mp ran
  obtain ⟨template, draft, found, at_, foundDraft, atDraft, result⟩ := publish_ok published
  dsimp only at found foundDraft result
  refine ⟨?_, ?_, fun v stored => ?_⟩
  · rw [Tables.revision, found, Option.map_some, at_]
  · rw [Tables.draftRevision, foundDraft, Option.map_some, atDraft]
  · rw [stored] at result
    rcases result with ⟨v', same, rfl, tables⟩ | ⟨absent, -⟩
    · cases same
      exact ⟨tables, template, found, rfl⟩
    · cases absent

theorem TablesSound.perform (sound : TablesSound explicit t) :
    TablesSound
      (match (op.perform host faults t).outcome with
        | .failed _ => explicit
        | _ => op.pointer.toList ++ explicit)
      (op.perform host faults t).tables := by
  cases (ends_of_perform host op faults t).1 with
  | failed e outcome tables =>
    rw [outcome, tables]
    exact sound
  | ok reply outcome runs =>
    rw [outcome]
    exact (runs.change sound).sound
  | refused outcome tables =>
    rw [outcome, tables]
    refine ⟨sound.items, sound.published, ?_⟩
    exact sound.points.of (prefix_refl _) (fun _ mem => mem_append_right _ mem)
      fun _ r' after => .inl ⟨r', after, rfl⟩
  | lost reply outcome runs =>
    rw [outcome]
    exact (runs.change sound).sound

theorem versions_of_perform (sound : TablesSound explicit t) :
    t.versions <+: (op.perform host faults t).tables.versions := by
  cases (ends_of_perform host op faults t).1 with
  | failed e outcome tables =>
    rw [tables]
  | ok reply outcome runs => exact (runs.change sound).versions
  | refused outcome tables =>
    rw [tables]
  | lost reply outcome runs => exact (runs.change sound).versions

end Operations

/-! ## A publication of a stored content -/

/-- Nothing fails. -/
def quiet : Faults := ⟨false, false, false, fun _ => false, false, .done⟩

/-- The command and the rows it reads pass their checks, at the revisions it expects. -/
structure PublishCommand.Accepted (host : Host) (c : PublishCommand) (template : TemplateRecord)
    (draft : TemplateDraft) (v : TemplateVersion) : Prop where
  command : host.version (c.record 1 c.publishedAt) = true
  publishedAt : (host.timestamp c.publishedAt).isSome
  draftUpdatedAt : (host.timestamp c.draftUpdatedAt).isSome
  actor : ∀ id ∈ c.actorId, id ≤ maxActorId
  rows : host.record template = true ∧ host.draft draft = true ∧ host.version v = true
  revision : template.revision = c.expectedTemplateRevision
  draftRevision : draft.revision = c.expectedDraftRevision

theorem publish_stored {host : Host} {c : PublishCommand} {t : Tables} {template : TemplateRecord}
    {draft : TemplateDraft} {v : TemplateVersion} (accepted : c.Accepted host template draft v)
    (found : t.template? c.templateId = some template) (drafted : t.draft? c.templateId = some draft)
    (stored : t.published? c.templateId c.contentHash = some v) :
    ((Operation.publish c).perform host quiet t).outcome = .ok (.published (noop v template)) := by
  obtain ⟨publishedAt, dated⟩ := Option.isSome_iff_exists.mp accepted.publishedAt
  obtain ⟨draftUpdatedAt, draftDated⟩ := Option.isSome_iff_exists.mp accepted.draftUpdatedAt
  have actor : sqlActorId c.actorId = .ok c.actorId := by
    refine if_neg fun past => ?_
    obtain ⟨id, mem, large⟩ := (Option.any_eq_true _ _).mp past
    exact absurd (accepted.actor id mem) (Nat.not_le.mpr (of_decide_eq_true large))
  have ran : publishRun host quiet.statement c c.actorId publishedAt draftUpdatedAt (t, 0) =
      .ok (noop v template, (t, 3)) := by
    refine select_bind_ok.mpr ⟨rfl, pureStep_bind_ok.mpr ⟨template, found_ok.mpr found, ?_⟩⟩
    refine check_bind_ok.mpr ⟨accepted.rows.1, select_bind_ok.mpr ⟨rfl, ?_⟩⟩
    refine pureStep_bind_ok.mpr ⟨draft, found_ok.mpr drafted, check_bind_ok.mpr ⟨accepted.rows.2.1, ?_⟩⟩
    refine check_bind_ok.mpr ⟨decide_eq_true accepted.revision, ?_⟩
    refine check_bind_ok.mpr ⟨decide_eq_true accepted.draftRevision, select_bind_ok.mpr ⟨rfl, ?_⟩⟩
    dsimp only
    rw [stored]
    exact check_bind_ok.mpr ⟨accepted.rows.2.2, rfl⟩
  have checked : (Operation.publish c).body host quiet.statement = .ok (do
      let outcome ← publishRun host quiet.statement c c.actorId publishedAt draftUpdatedAt
      pure (.published outcome)) := by
    refine bind_eq_ok.mpr ⟨(), check_ok.mpr accepted.command, ?_⟩
    refine bind_eq_ok.mpr ⟨publishedAt, by rw [Host.toSqlTimestamp, dated], ?_⟩
    refine bind_eq_ok.mpr ⟨draftUpdatedAt, by rw [Host.toSqlTimestamp, draftDated], ?_⟩
    exact bind_eq_ok.mpr ⟨c.actorId, actor, rfl⟩
  have answered : (do
      let outcome ← publishRun host quiet.statement c c.actorId publishedAt draftUpdatedAt
      pure (Reply.published outcome) : Tx Reply) (t, 0) = .ok (.published (noop v template), (t, 3)) :=
    bind_ok.mpr ⟨_, _, ran, pure_ok.mpr ⟨rfl, rfl⟩⟩
  rw [Operation.perform, checked]
  dsimp only
  unfold transaction
  rw [answered]
  rfl

/-! ## Runs -/

section Runs

variable {host : Host} {ops more : List (Operation × Faults)} {w : World}

/-- What every world satisfies. -/
structure World.Sound (w : World) : Prop where
  tables : TablesSound w.explicit w.tables
  pool : ∀ c ∈ w.pool, c.open_ = false

theorem World.Sound.after (sound : w.Sound) (op : Operation) (faults : Faults) :
    (w.after host op faults).Sound := by
  refine ⟨sound.tables.perform, fun c mem => ?_⟩
  rcases mem_append.mp mem with mem | mem
  · exact sound.pool c mem
  · exact (ends_of_perform host op faults w.tables).2 c (Option.mem_toList.mp mem)

theorem reached_snoc {op : Operation × Faults} :
    reached host (ops ++ [op]) = (reached host ops).after host op.1 op.2 := by
  rw [reached, foldl_append]
  rfl

theorem reached_sound : (reached host ops).Sound := by
  induction ops using List.reverseRecOn with
  | nil => exact ⟨⟨.nil, ⟨.nil, fun _ => nodup_nil⟩, nofun⟩, nofun⟩
  | append_singleton ops op ih =>
    rw [reached_snoc]
    exact ih.after op.1 op.2

theorem reached_versions : (reached host ops).tables.versions <+: (reached host (ops ++ more)).tables.versions := by
  induction more using List.reverseRecOn with
  | nil => exact (append_nil ops).symm ▸ prefix_refl _
  | append_singleton more op ih =>
    rw [← append_assoc, reached_snoc]
    exact ih.trans (versions_of_perform reached_sound.tables)

/-- What one operation does from sound tables. -/
structure Performed (host : Host) (op : Operation) (faults : Faults) (t : Tables) (ended : Ended) : Prop where
  failed : ∀ e, ended.outcome = .failed e → ended.tables = t
  counts : ∀ reply, ended.outcome = .ok reply →
    ∀ id, Counts (op.advancesTemplate reply id) (t.revision id) (ended.tables.revision id) ∧
      Counts (op.advancesDraft reply id) (t.draftRevision id) (ended.tables.draftRevision id)
  unknown : ended.outcome = .unknownCommit → ended.tables = t ∨
    ∃ reply, ∀ id, Counts (op.advancesTemplate reply id) (t.revision id) (ended.tables.revision id) ∧
      Counts (op.advancesDraft reply id) (t.draftRevision id) (ended.tables.draftRevision id)
  stale : ∀ c, op = .publish c →
    t.revision c.templateId ≠ some c.expectedTemplateRevision ∨
      t.draftRevision c.templateId ≠ some c.expectedDraftRevision → ended.tables = t
  stored : ∀ c v, op = .publish c → t.published? c.templateId c.contentHash = some v →
    ended.tables = t ∧ ∀ reply, ended.outcome = .ok reply →
      ∃ template, t.template? c.templateId = some template ∧ reply = .published (noop v template)

theorem Performed.same {faults : Faults} {t : Tables} {op : Operation} {ended : Ended}
    (tables : ended.tables = t) (unanswered : ∀ reply, ended.outcome ≠ .ok reply) :
    Performed host op faults t ended where
  failed _ _ := tables
  counts reply ok := absurd ok (unanswered reply)
  unknown _ := .inl tables
  stale _ _ _ := tables
  stored _ _ _ _ := ⟨tables, fun reply ok => absurd ok (unanswered reply)⟩

theorem TablesSound.performed {faults : Faults} {explicit : List (String × Option Nat)} {t : Tables}
    {op : Operation} (sound : TablesSound explicit t) :
    Performed host op faults t (op.perform host faults t) := by
  cases (ends_of_perform host op faults t).1 with
  | failed e outcome tables => exact .same tables fun reply ok => (nomatch outcome.symm.trans ok)
  | refused outcome tables => exact .same tables fun reply ok => (nomatch outcome.symm.trans ok)
  | ok reply outcome runs =>
    have change := runs.change sound
    refine ⟨fun _ failed => (nomatch outcome.symm.trans failed), fun reply' ok id => ?_,
      fun unknown => (nomatch outcome.symm.trans unknown), ?_, ?_⟩
    · cases outcome.symm.trans ok
      exact ⟨change.templates id, change.drafts id⟩
    · rintro c rfl stale
      obtain ⟨current, currentDraft, -⟩ := runs_publish runs
      exact absurd stale (not_or.mpr ⟨not_not.mpr current, not_not.mpr currentDraft⟩)
    · rintro c v rfl stored
      obtain ⟨-, -, known⟩ := runs_publish runs
      obtain ⟨same, template, found, reply_⟩ := known v stored
      refine ⟨same, fun reply' ok => ⟨template, found, ?_⟩⟩
      cases outcome.symm.trans ok
      exact reply_
  | lost reply outcome runs =>
    have change := runs.change sound
    refine ⟨fun _ failed => (nomatch outcome.symm.trans failed), fun _ ok => (nomatch outcome.symm.trans ok),
      fun _ => .inr ⟨reply, fun id => ⟨change.templates id, change.drafts id⟩⟩, ?_, ?_⟩
    · rintro c rfl stale
      obtain ⟨current, currentDraft, -⟩ := runs_publish runs
      exact absurd stale (not_or.mpr ⟨not_not.mpr current, not_not.mpr currentDraft⟩)
    · rintro c v rfl stored
      obtain ⟨-, -, known⟩ := runs_publish runs
      exact ⟨(known v stored).1, fun _ ok => (nomatch outcome.symm.trans ok)⟩

/-- Template storage is linear and append-only in every world that is reached. -/
theorem storage_linear (host : Host) (ops more : List (Operation × Faults)) :
    let w := reached host ops
    ItemsSound w.tables.items w.tables.itemVersions ∧ PublishedSound w.tables.versions ∧
      w.tables.versions <+: (reached host (ops ++ more)).tables.versions ∧
      Points w.explicit w.tables ∧ (∀ c ∈ w.pool, c.open_ = false) ∧
      (∀ op faults, Performed host op faults w.tables (op.perform host faults w.tables)) ∧
      ∀ c template draft v, w.tables.template? c.templateId = some template →
        w.tables.draft? c.templateId = some draft →
        w.tables.published? c.templateId c.contentHash = some v → c.Accepted host template draft v →
        ((Operation.publish c).perform host quiet w.tables).outcome =
          .ok (.published (noop v template)) := by
  have sound : (reached host ops).Sound := reached_sound
  refine ⟨sound.tables.items, sound.tables.published, reached_versions, sound.tables.points, sound.pool,
    fun op faults => sound.tables.performed, ?_⟩
  intro c template draft v found drafted stored accepted
  exact publish_stored accepted found drafted stored

end Runs

end Slide.Templates.Storage
