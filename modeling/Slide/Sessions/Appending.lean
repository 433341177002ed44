import Slide.Sessions.FactIds

/-!
# Appending and reading the facts of a session

Every operation migrates the ids first, which leaves the facts as they are.  `appendFacts` adds its
entries behind the facts there are; where it throws it may have added some of them already.
-/

namespace Slide.Sessions

open Slide.Display SessionEntry List

variable {host : Host} {s t : Session} {entry found : SessionEntry}
  {messages entries new : List SessionEntry}

namespace Session

theorem no_turn : (none : Option Json) ≠ some .null := nofun

theorem facts_of_messages (key : t.sessionKey = s.sessionKey)
    (same : t.messages.map fact = facts host s) :
    facts host t = facts host s ∧ (ensureFactIds host t).2 = (ensureFactIds host s).2 := by
  unfold facts ensureFactIds at same ⊢
  dsimp only at same ⊢
  rw [key]
  exact ensureFrom_of_facts no_turn same

theorem facts_ensureFactIds : facts host (ensureFactIds host s).1 = facts host s ∧
    (ensureFactIds host (ensureFactIds host s).1).2 = (ensureFactIds host s).2 :=
  facts_of_messages rfl rfl

theorem facts_push (returned : (ensureFactIds host s).2 = none)
    (key : t.sessionKey = s.sessionKey)
    (pushed : t.messages = (ensureFactIds host s).1.messages ++ new) :
    ∃ added, facts host t = facts host s ++ added ∧ List.Forall₂ Keeps new added := by
  let migrated := (ensureFactIds host s).1.messages
  obtain ⟨same, again⟩ : facts host (ensureFactIds host s).1 = facts host s ∧
    (ensureFactIds host (ensureFactIds host s).1).2 = _ := facts_ensureFactIds
  obtain ⟨turn, -, split⟩ := ensureFrom_append no_turn (again.trans returned)
  refine ⟨(ensureFrom host s.sessionKey (0 + migrated.length) turn new).1.map fact, ?_,
    keeps_ensureFrom⟩
  have whole : (ensureFrom host t.sessionKey 0 none t.messages).1 =
      (ensureFrom host s.sessionKey 0 none migrated).1 ++
        (ensureFrom host s.sessionKey (0 + migrated.length) turn new).1 := by
    rw [key, pushed]
    exact congrArg Prod.fst (split new)
  change (ensureFrom host t.sessionKey 0 none t.messages).1.map fact = _
  rw [whole, map_append]
  exact congrArg (· ++ _) same

/-! ## appendFacts -/

theorem exists_of_forall₂ {R : SessionEntry → SessionEntry → Prop} {left right : List SessionEntry}
    (related : List.Forall₂ R left right) (mem : entry ∈ left) : ∃ f ∈ right, R entry f := by
  induction related with
  | nil => exact absurd mem not_mem_nil
  | cons first _ ih =>
    rcases mem_cons.mp mem with rfl | later
    · exact ⟨_, mem_cons_self .., first⟩
    · obtain ⟨f, inside, holds⟩ := ih later
      exact ⟨f, mem_cons_of_mem _ inside, holds⟩

/-- The fact that stands for an entry to append. -/
structure Stands (entry fact : SessionEntry) : Prop where
  payload : fact.payload = entry.payload
  id : (entry.get "id").any Json.truthy → fact.get "id" = entry.get "id"

theorem existing_eq_some (exists_one : existing messages entry = some found) :
    found ∈ messages ∧ found.get "id" = entry.get "id" := by
  unfold existing at exists_one
  split at exists_one
  next =>
    have same := find?_some exists_one
    exact ⟨mem_of_find?_eq_some exists_one, of_decide_eq_true same⟩
  next => cases exists_one

theorem appendEach_foreign (foreign : entry.foreign) :
    appendEach messages (entry :: entries) = appendEach messages entries :=
  if_pos foreign

theorem appendEach_conflict (own : ¬ entry.foreign) (exists_one : existing messages entry = some found)
    (differs : found.payload ≠ entry.payload) :
    appendEach messages (entry :: entries) = (messages, some "CANONICAL_ID_CONFLICT") := by
  rw [appendEach, if_neg own, exists_one]
  exact if_pos differs

theorem appendEach_same (own : ¬ entry.foreign) (exists_one : existing messages entry = some found)
    (same : found.payload = entry.payload) :
    appendEach messages (entry :: entries) = appendEach messages entries := by
  rw [appendEach, if_neg own, exists_one]
  exact if_neg fun differs => differs same

theorem appendEach_push (own : ¬ entry.foreign) (unknown : existing messages entry = none) :
    appendEach messages (entry :: entries) = appendEach (messages ++ [entry]) entries := by
  rw [appendEach, if_neg own, unknown]

theorem appendEach_spec : ∃ new, (appendEach messages entries).1 = messages ++ new ∧
    new.Sublist entries ∧ ((appendEach messages entries).2 = none →
      ∀ e ∈ entries, ¬ e.foreign → ∃ f ∈ messages ++ new, Stands e f) := by
  induction entries generalizing messages with
  | nil => exact ⟨[], (append_nil _).symm, .slnil, fun _ e mem => absurd mem not_mem_nil⟩
  | cons entry rest ih =>
    by_cases foreign : entry.foreign
    · obtain ⟨new, pushed, part, all⟩ := @ih messages
      rw [appendEach_foreign foreign]
      refine ⟨new, pushed, part.cons entry, fun returned e mem own => ?_⟩
      rcases mem_cons.mp mem with rfl | later
      · exact absurd foreign own
      · exact all returned e later own
    · cases exists_one : existing messages entry with
      | some found =>
        by_cases same : found.payload = entry.payload
        · obtain ⟨new, pushed, part, all⟩ := @ih messages
          rw [appendEach_same foreign exists_one same]
          refine ⟨new, pushed, part.cons entry, fun returned e mem own => ?_⟩
          rcases mem_cons.mp mem with rfl | later
          · obtain ⟨inside, id⟩ := existing_eq_some exists_one
            exact ⟨found, mem_append_left _ inside, same, fun _ => id⟩
          · exact all returned e later own
        · rw [appendEach_conflict foreign exists_one same]
          exact ⟨[], (append_nil _).symm, nil_sublist _, fun returned => (nomatch returned)⟩
      | none =>
        obtain ⟨new, pushed, part, all⟩ := @ih (messages ++ [entry])
        have assoc : messages ++ [entry] ++ new = messages ++ entry :: new := by
          rw [append_assoc, singleton_append]
        rw [appendEach_push foreign exists_one]
        rw [assoc] at pushed all
        refine ⟨entry :: new, pushed, part.cons_cons entry, fun returned e mem own => ?_⟩
        rcases mem_cons.mp mem with rfl | later
        · exact ⟨e, mem_append_right _ (mem_cons_self ..), rfl, fun _ => rfl⟩
        · exact all returned e later own

/-- What a call of `appendFacts` does to the facts. -/
structure Grown (before after : List SessionEntry) (entries : List SessionEntry)
    (thrown : Option String) : Prop where
  /-- Some of the entries are facts behind the ones there were, in their order. -/
  behind : ∃ new added, new.Sublist entries ∧ after = before ++ added ∧
    List.Forall₂ Keeps new added
  /-- Where the call returns there is a fact for every entry. -/
  all : thrown = none → ∀ e ∈ entries, ¬ e.foreign → ∃ f ∈ after, Stands e f

theorem appendFacts_invalid {error : String} (thrown : (ensureFactIds host s).2 = some error) :
    appendFacts host s entries = ((ensureFactIds host s).1, some error) := by
  unfold appendFacts
  rcases migrated : ensureFactIds host s with ⟨left, thrown'⟩
  rw [migrated] at thrown
  cases thrown
  rfl

theorem appendFacts_conflict (returned : (ensureFactIds host s).2 = none) {error : String}
    (thrown : (appendEach (ensureFactIds host s).1.messages entries).2 = some error) :
    appendFacts host s entries = ({ (ensureFactIds host s).1 with
      messages := (appendEach (ensureFactIds host s).1.messages entries).1 }, some error) := by
  unfold appendFacts
  rcases migrated : ensureFactIds host s with ⟨left, thrown'⟩
  rw [migrated] at returned thrown
  cases returned
  rcases pushed : appendEach left.messages entries with ⟨messages, thrown'⟩
  rw [pushed] at thrown
  cases thrown
  simp only [pushed]

theorem appendFacts_returned (returned : (ensureFactIds host s).2 = none)
    (all : (appendEach (ensureFactIds host s).1.messages entries).2 = none) :
    appendFacts host s entries = ensureFactIds host { (ensureFactIds host s).1 with
      messages := (appendEach (ensureFactIds host s).1.messages entries).1 } := by
  unfold appendFacts
  rcases migrated : ensureFactIds host s with ⟨left, thrown'⟩
  rw [migrated] at returned all
  cases returned
  rcases pushed : appendEach left.messages entries with ⟨messages, thrown'⟩
  rw [pushed] at all
  cases all
  simp only [pushed]

theorem appendFacts_frame : (appendFacts host s entries).1.sessionKey = s.sessionKey ∧
    (appendFacts host s entries).1.metadata = s.metadata := by
  cases invalid : (ensureFactIds host s).2 with
  | some error =>
    rw [appendFacts_invalid invalid]
    exact ⟨rfl, rfl⟩
  | none =>
    cases thrown : (appendEach (ensureFactIds host s).1.messages entries).2 with
    | some error =>
      rw [appendFacts_conflict invalid thrown]
      exact ⟨rfl, rfl⟩
    | none =>
      rw [appendFacts_returned invalid thrown]
      exact ⟨rfl, rfl⟩

theorem appendFacts_grown : Grown (facts host s) (facts host (appendFacts host s entries).1)
    entries (appendFacts host s entries).2 := by
  cases invalid : (ensureFactIds host s).2 with
  | some error =>
    rw [appendFacts_invalid invalid]
    refine ⟨⟨[], [], nil_sublist _, ?_, .nil⟩, fun returned => (nomatch returned)⟩
    rw [append_nil]
    exact facts_ensureFactIds.1
  | none =>
    obtain ⟨new, pushed, part, all⟩ :=
      @appendEach_spec (ensureFactIds host s).1.messages entries
    obtain ⟨added, behind, keeps⟩ := @facts_push host s { (ensureFactIds host s).1 with
      messages := (appendEach (ensureFactIds host s).1.messages entries).1 } new invalid rfl pushed
    cases thrown : (appendEach (ensureFactIds host s).1.messages entries).2 with
    | some error =>
      rw [appendFacts_conflict invalid thrown]
      exact ⟨⟨new, added, part, behind, keeps⟩, fun returned => (nomatch returned)⟩
    | none =>
      rw [appendFacts_returned invalid thrown]
      refine ⟨⟨new, added, part, facts_ensureFactIds.1.trans behind, keeps⟩, fun _ e mem own => ?_⟩
      rw [facts_ensureFactIds.1, behind]
      obtain ⟨f, inside, stands⟩ := all thrown e mem own
      rcases mem_append.mp inside with old | pushed
      · refine ⟨f.fact, mem_append_left _ (mem_map_of_mem old), ?_, fun truthy => ?_⟩
        · rw [payload_fact, stands.payload]
        · rw [get_fact (by decide), stands.id truthy]
      · obtain ⟨g, mem', keeps'⟩ := exists_of_forall₂ keeps pushed
        refine ⟨g, mem_append_right _ mem', ?_, fun truthy => ?_⟩
        · rw [keeps'.payload, stands.payload]
        · have same := stands.id truthy
          have there : f.present "id" := (present_congr same).mpr (present_of_truthy truthy)
          rw [keeps'.given "id" (by decide) there, same]

/-! ## An id that is there -/

theorem withParts_idem : withParts host (withParts host entry) = withParts host entry := by
  by_cases given : (entry.get "messageParts").any Json.truthy = true
  · have kept : withParts host entry = entry := if_pos given
    rw [kept, kept]
  · have added : withParts host entry = compatibleMessageParts host entry := if_neg given
    rw [added]
    unfold compatibleMessageParts
    cases migrated : host.migrateMessageParts entry with
    | none =>
      dsimp only
      rw [added, compatibleMessageParts, migrated]
    | some parts =>
      refine if_pos ?_
      rw [Record.get_set_self]
      rfl

variable {sessionKey : String}

theorem ensureFrom_idem {i : Nat} {turnId : Option Json} (open_turn : turnId ≠ some .null) :
    ensureFrom host sessionKey i turnId (ensureFrom host sessionKey i turnId messages).1 =
      ensureFrom host sessionKey i turnId messages := by
  induction messages generalizing i turnId with
  | nil => rfl
  | cons entry rest ih =>
    by_cases foreign : entry.foreign
    · rw [ensureFrom_foreign foreign]
      exact ensureFrom_foreign foreign
    · let identified := entry.fill "id" (legacyId host sessionKey i entry)
      let turn := turnAfter turnId identified
      let copy := withParts host (withTurn host sessionKey turn identified)
      have named : identified.present "id" := present_fill fun null => (nomatch null)
      have opened : turn ≠ some .null := turnAfter_ne_null open_turn named
      have same : copy.fact = (withTurn host sessionKey turn identified).fact := fact_withParts
      have settled : copy.Settled := settled_of_fact same (settled_withTurn opened named)
      have own : ¬ copy.foreign := fun other => not_foreign_withTurn
        (not_foreign_fill_id foreign) ((foreign_of_fact same).mp other)
      have id_there : copy.fill "id" (legacyId host sessionKey i copy) = copy :=
        fill_of_present (settled "id" (by simp))
      have turn_same : turnAfter turnId (copy.fill "id" (legacyId host sessionKey i copy)) =
          turn := by
        rw [id_there, turnAfter_congr (get_of_fact same (by decide))
          (get_of_fact same (by decide)) (get_of_fact same (by decide))]
        exact turnAfter_withTurn named
      rw [ensureFrom_own foreign rfl, ensureFrom_own own turn_same, id_there,
        withTurn_of_settled settled, withParts_idem, ih opened]

theorem ensureFactIds_idem :
    ensureFactIds host (ensureFactIds host s).1 = ensureFactIds host s := by
  have same : ensureFrom host s.sessionKey 0 none (ensureFrom host s.sessionKey 0 none s.messages).1 =
      ensureFrom host s.sessionKey 0 none s.messages := ensureFrom_idem no_turn
  unfold ensureFactIds
  dsimp only
  rw [same]

theorem appendFacts_existing (own : ¬ entry.foreign) (returned : (ensureFactIds host s).2 = none)
    (exists_one : existing (ensureFactIds host s).1.messages entry = some found) :
    appendFacts host s [entry] = if found.payload = entry.payload then ensureFactIds host s
      else ((ensureFactIds host s).1, some "CANONICAL_ID_CONFLICT") := by
  by_cases same : found.payload = entry.payload
  · have all : appendEach (ensureFactIds host s).1.messages [entry] =
        ((ensureFactIds host s).1.messages, none) := appendEach_same own exists_one same
    rw [appendFacts_returned returned (congrArg Prod.snd all), all, if_pos same]
    have idem : ensureFactIds host (ensureFactIds host s).1 = ensureFactIds host s :=
      ensureFactIds_idem
    exact idem
  · have conflict : appendEach (ensureFactIds host s).1.messages [entry] =
        ((ensureFactIds host s).1.messages, some "CANONICAL_ID_CONFLICT") :=
      appendEach_conflict own exists_one same
    rw [appendFacts_conflict returned (congrArg Prod.snd conflict), conflict, if_neg same]

/-! ## Ids stay distinct -/

/-- Every entry that the loop pushes gets an id that no fact has. -/
def Fresh (host : Host) (sessionKey : String) (messages : List SessionEntry) :
    List SessionEntry → Prop
  | [] => True
  | entry :: rest =>
    if entry.foreign then Fresh host sessionKey messages rest
    else match existing messages entry with
    | some found => found.payload = entry.payload → Fresh host sessionKey messages rest
    | none =>
      (entry.fill "id" (legacyId host sessionKey messages.length entry)).id ∉
          (ensureFrom host sessionKey 0 none messages).1.map SessionEntry.id ∧
        Fresh host sessionKey (messages ++ [entry]) rest

instance Fresh.decidable {sessionKey : String} : ∀ entries messages,
    Decidable (Fresh host sessionKey messages entries)
  | [], _ => inferInstanceAs (Decidable True)
  | entry :: rest, messages =>
    have later (messages : List SessionEntry) : Decidable (Fresh host sessionKey messages rest) :=
      Fresh.decidable rest messages
    if foreign : entry.foreign then
      decidable_of_iff (Fresh host sessionKey messages rest) (by simp only [Fresh, if_pos foreign])
    else match known : existing messages entry with
    | some found => decidable_of_iff
        (found.payload = entry.payload → Fresh host sessionKey messages rest)
        (by simp only [Fresh, if_neg foreign, known])
    | none => decidable_of_iff
        ((entry.fill "id" (legacyId host sessionKey messages.length entry)).id ∉
            (ensureFrom host sessionKey 0 none messages).1.map SessionEntry.id ∧
          Fresh host sessionKey (messages ++ [entry]) rest)
        (by simp only [Fresh, if_neg foreign, known])

theorem ids_push (own : ¬ entry.foreign)
    (returned : (ensureFrom host sessionKey 0 none messages).2 = none) :
    (ensureFrom host sessionKey 0 none (messages ++ [entry])).1.map SessionEntry.id =
        (ensureFrom host sessionKey 0 none messages).1.map SessionEntry.id ++
          [(entry.fill "id" (legacyId host sessionKey messages.length entry)).id] ∧
      (ensureFrom host sessionKey 0 none (messages ++ [entry])).2 = none := by
  obtain ⟨turn, -, split⟩ := ensureFrom_append no_turn returned
  have id_of_parts {e : SessionEntry} : (withParts host e).id = e.id := by
    rw [← id_fact, fact_withParts, id_fact]
  have id_of_turn {turn : Option Json} {e : SessionEntry} (named : e.present "id") :
      (withTurn host sessionKey turn e).id = e.id := by
    unfold SessionEntry.id
    rw [keeps_withTurn.given "id" (by decide) named]
  have named : (entry.fill "id" (legacyId host sessionKey messages.length entry)).present "id" :=
    present_fill fun null => (nomatch null)
  rw [split, ensureFrom_own own rfl, Nat.zero_add]
  refine ⟨?_, rfl⟩
  rw [map_append, map_cons, id_of_parts, id_of_turn named]
  rfl

theorem Fresh.nodup (fresh : Fresh host sessionKey messages entries)
    (returned : (ensureFrom host sessionKey 0 none messages).2 = none)
    (nodup : ((ensureFrom host sessionKey 0 none messages).1.map SessionEntry.id).Nodup) :
    ((ensureFrom host sessionKey 0 none (appendEach messages entries).1).1.map
      SessionEntry.id).Nodup := by
  induction entries generalizing messages with
  | nil => exact nodup
  | cons entry rest ih =>
    unfold Fresh at fresh
    by_cases foreign : entry.foreign
    · rw [if_pos foreign] at fresh
      rw [appendEach_foreign foreign]
      exact ih fresh returned nodup
    · rw [if_neg foreign] at fresh
      cases exists_one : existing messages entry with
      | some found =>
        rw [exists_one] at fresh
        by_cases same : found.payload = entry.payload
        · rw [appendEach_same foreign exists_one same]
          exact ih (fresh same) returned nodup
        · rw [appendEach_conflict foreign exists_one same]
          exact nodup
      | none =>
        rw [exists_one] at fresh
        obtain ⟨ids, returned'⟩ := ids_push foreign returned
        rw [appendEach_push foreign exists_one]
        refine ih fresh.2 returned' ?_
        rw [ids, nodup_append]
        refine ⟨nodup, nodup_singleton _, fun a mem b last same => ?_⟩
        rw [mem_singleton.mp last] at same
        exact fresh.1 (same ▸ mem)

/-- The facts of a session have ids of their own. -/
def Distinct (host : Host) (s : Session) : Prop := ((facts host s).map SessionEntry.id).Nodup

theorem distinct_iff : Distinct host s ↔
    ((ensureFrom host s.sessionKey 0 none s.messages).1.map SessionEntry.id).Nodup := by
  unfold Distinct facts ensureFactIds
  dsimp only
  rw [map_map]
  have same : SessionEntry.id ∘ fact = SessionEntry.id := funext fun e => id_fact
  rw [same]

theorem appendFacts_distinct (distinct : Distinct host s)
    (fresh : Fresh host s.sessionKey (ensureFactIds host s).1.messages entries) :
    Distinct host (appendFacts host s entries).1 := by
  cases invalid : (ensureFactIds host s).2 with
  | some error =>
    rw [appendFacts_invalid invalid]
    unfold Distinct
    rwa [facts_ensureFactIds.1]
  | none =>
    have migrated : Distinct host (ensureFactIds host s).1 := by
      unfold Distinct
      rwa [facts_ensureFactIds.1]
    have nodup := fresh.nodup (facts_ensureFactIds.2.trans invalid) (distinct_iff.mp migrated)
    cases thrown : (appendEach (ensureFactIds host s).1.messages entries).2 with
    | some error =>
      rw [appendFacts_conflict invalid thrown]
      exact distinct_iff.mpr nodup
    | none =>
      rw [appendFacts_returned invalid thrown]
      unfold Distinct
      rw [facts_ensureFactIds.1]
      exact distinct_iff.mpr nodup

/-! ## Pages -/

variable {limit : Int} {after : Option Json}

theorem getCanonicalPage_spec {first : Nat}
    (valid : 1 ≤ limit ∧ limit ≤ 1000) (returned : (ensureFactIds host s).2 = none)
    (at_first : Paging.start SessionEntry.id (facts host s) after = some first) :
    ∃ page next, getCanonicalPage host s limit after =
        ((ensureFactIds host s).1, .ok (page, next)) ∧
      (page.map fact, next) = Paging.slice SessionEntry.id (facts host s) limit.toNat first := by
  rcases migrated : ensureFactIds host s with ⟨left, thrown⟩
  rw [migrated] at returned
  cases returned
  have held : facts host s = left.messages.map fact := by
    rw [facts, migrated]
  have position : Paging.start SessionEntry.id left.messages after = some first := by
    rw [← at_first, held, Paging.start_map (fun e => id_fact)]
  refine ⟨(left.messages.drop first).take limit.toNat, if first + limit.toNat <
    left.messages.length then ((left.messages.drop first).take limit.toNat).getLast?.map
      SessionEntry.id else none, ?_, ?_⟩
  · rw [getCanonicalPage, if_neg (fun invalid => invalid valid), migrated]
    dsimp only
    rw [position]
  · have same : SessionEntry.id ∘ fact = SessionEntry.id := funext fun e => id_fact
    rw [Paging.slice_eq, held, ← map_drop, ← map_take, length_map,
      getLast?_map, Option.map_map, same]

theorem getCanonicalPage_invalid (valid : 1 ≤ limit ∧ limit ≤ 1000) {error : String}
    (thrown : (ensureFactIds host s).2 = some error) :
    getCanonicalPage host s limit after = ((ensureFactIds host s).1, .error error) := by
  rw [getCanonicalPage, if_neg (fun invalid => invalid valid)]
  rcases migrated : ensureFactIds host s with ⟨left, thrown'⟩
  rw [migrated] at thrown
  cases thrown
  rfl

theorem getCanonicalPage_facts :
    facts host (getCanonicalPage host s limit after).1 = facts host s := by
  unfold getCanonicalPage
  split
  next => rfl
  next =>
    have kept : facts host (ensureFactIds host s).1 = facts host s := facts_ensureFactIds.1
    rcases migrated : ensureFactIds host s with ⟨left, thrown⟩
    rw [migrated] at kept
    cases thrown with
    | some error => exact kept
    | none =>
      dsimp only
      split
      next => exact kept
      next => exact kept

theorem getCanonicalPage_key :
    (getCanonicalPage host s limit after).1.sessionKey = s.sessionKey := by
  unfold getCanonicalPage
  split
  next => rfl
  next =>
    have key : (ensureFactIds host s).1.sessionKey = s.sessionKey := rfl
    rcases migrated : ensureFactIds host s with ⟨left, thrown⟩
    rw [migrated] at key
    cases thrown with
    | some error => exact key
    | none =>
      dsimp only
      split
      next => exact key
      next => exact key

end Session

end Slide.Sessions
