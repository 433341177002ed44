import Slide.Sessions.Entries

/-!
# What the migration of the ids leaves

An entry is settled once it has an id, a turn, a run and a source.  Migrating a settled entry changes
its parts at most, so the facts of a session are those of its migrated messages, whatever parts these
have (`ensureFrom_of_facts`), and entries behind them change nothing about them
(`ensureFrom_append`).
-/

namespace Slide.Sessions

open Slide.Display List

variable {host : Host} {sessionKey : String} {entry left right : SessionEntry} {key : String}
  {value : Json} {turnId : Option Json} {i : Nat} {messages rest : List SessionEntry}

namespace SessionEntry

/-- The keys that the migration fills. -/
abbrev filledKeys : List String := ["id", "turnId", "runId", "source"]

/-- An entry that the migration only adds parts to. -/
def Settled (entry : SessionEntry) : Prop := ∀ key ∈ filledKeys, entry.present key

/-- What an entry says, the fact keeps. -/
structure Keeps (entry fact : SessionEntry) : Prop where
  given : ∀ key, key ≠ "messageParts" → entry.present key → fact.get key = entry.get key
  other : ∀ key, key ≠ "messageParts" → key ∉ filledKeys → fact.get key = entry.get key

theorem present_iff : entry.present key ↔ ∃ value, entry.get key = some value ∧ value ≠ .null := by
  unfold present
  cases entry.get key with
  | none => simp [nullish]
  | some value => cases value <;> simp [nullish]

theorem nullish_of_not_present (absent : ¬ entry.present key) (other : Option Json) :
    nullish (entry.get key) other = other := by
  rw [present_iff] at absent
  cases found : entry.get key with
  | none => rfl
  | some value =>
    cases value with
    | null => rfl
    | _ => exact absurd ⟨_, found, fun null => (nomatch null)⟩ absent

theorem nullish_of_present (is_there : entry.present key) (other : Option Json) :
    nullish (entry.get key) other = entry.get key := by
  obtain ⟨value, found, not_null⟩ := present_iff.mp is_there
  rw [found]
  cases value <;> first | rfl | exact absurd rfl not_null

theorem fill_of_present (is_there : entry.present key) : entry.fill key value = entry :=
  if_pos is_there

theorem get_fill_ne {other : String} (different : other ≠ key) :
    (entry.fill key value).get other = entry.get other := by
  unfold fill
  split
  next => rfl
  next => exact Record.get_set_ne different

theorem present_congr (same : left.get key = right.get key) :
    left.present key ↔ right.present key := by
  unfold present
  rw [same]

theorem present_fill (not_null : value ≠ .null) : (entry.fill key value).present key := by
  by_cases is_there : entry.present key
  · rwa [fill_of_present is_there]
  · unfold fill
    rw [if_neg is_there]
    exact present_iff.mpr ⟨value, Record.get_set_self, not_null⟩

theorem present_fill_of_present {other : String} (is_there : entry.present other) :
    (entry.fill key value).present other := by
  by_cases same : other = key
  · subst same
    rwa [fill_of_present is_there]
  · rwa [present_congr (get_fill_ne same)]

theorem keeps_fill (filled : key ∈ filledKeys) : Keeps entry (entry.fill key value) := by
  refine ⟨fun other _ is_there => ?_, fun other _ outside => ?_⟩
  · by_cases same : other = key
    · subst same
      rw [fill_of_present is_there]
    · exact get_fill_ne same
  · exact get_fill_ne fun same => outside (same ▸ filled)

theorem Keeps.trans {middle : SessionEntry} (first : Keeps left middle)
    (second : Keeps middle right) : Keeps left right := by
  refine ⟨fun key stored is_there => ?_, fun key stored outside => ?_⟩
  · have same := first.given key stored is_there
    have still : middle.present key := (present_congr same).mpr is_there
    rw [second.given key stored still, same]
  · rw [second.other key stored outside, first.other key stored outside]

theorem get_of_fact (same : left.fact = right.fact) (stored : key ≠ "messageParts") :
    left.get key = right.get key :=
  Record.get_of_erase same stored

theorem get_fact (stored : key ≠ "messageParts") : entry.fact.get key = entry.get key :=
  Record.get_erase_ne stored

theorem keeps_fact : Keeps entry entry.fact :=
  ⟨fun _ stored _ => get_fact stored, fun _ stored _ => get_fact stored⟩

theorem id_fact : entry.fact.id = entry.id := by
  unfold SessionEntry.id
  rw [get_fact (by decide)]

theorem payload_fact : entry.fact.payload = entry.payload := by
  unfold payload
  refine map_congr_left fun key mem => ?_
  rw [get_fact]
  rintro rfl
  simp at mem

theorem Keeps.payload (keeps : Keeps left right) : right.payload = left.payload := by
  unfold SessionEntry.payload
  refine map_congr_left fun key mem => ?_
  rw [keeps.other key]
  · rintro rfl
    simp at mem
  · intro filled
    simp only [mem_cons, not_mem_nil, or_false] at mem filled
    rcases filled with rfl | rfl | rfl | rfl <;> simp at mem

theorem settled_of_fact (same : left.fact = right.fact) (settled : right.Settled) :
    left.Settled := by
  intro key filled
  have stored : key ≠ "messageParts" := by
    rintro rfl
    simp at filled
  exact (present_congr (get_of_fact same stored)).mpr (settled key filled)

theorem foreign_of_fact (same : left.fact = right.fact) : left.foreign ↔ right.foreign := by
  unfold foreign
  rw [get_of_fact same (by decide)]

theorem present_of_truthy (truthy : (entry.get key).any Json.truthy = true) :
    entry.present key := by
  cases found : entry.get key with
  | none =>
    rw [found] at truthy
    cases truthy
  | some value =>
    refine present_iff.mpr ⟨value, found, ?_⟩
    rintro rfl
    rw [found] at truthy
    cases truthy

end SessionEntry

open SessionEntry

/-! ## One entry -/

theorem turnAfter_ne_null (open_turn : turnId ≠ some .null) (named : entry.present "id") :
    turnAfter turnId entry ≠ some .null := by
  unfold turnAfter
  split
  next =>
    by_cases given : entry.present "turnId"
    · rw [nullish_of_present given]
      obtain ⟨value, found, not_null⟩ := present_iff.mp given
      rw [found]
      exact fun null => not_null (some.inj null)
    · rw [nullish_of_not_present given]
      obtain ⟨value, found, not_null⟩ := present_iff.mp named
      rw [found]
      exact fun null => not_null (some.inj null)
  next => exact open_turn

theorem turnAfter_congr (role : left.get "role" = right.get "role")
    (turn : left.get "turnId" = right.get "turnId") (same : left.get "id" = right.get "id") :
    turnAfter turnId left = turnAfter turnId right := by
  have user : left.isUser ↔ right.isUser := by
    unfold isUser
    rw [role]
  unfold turnAfter
  rw [turn, same]
  exact if_congr user rfl rfl

theorem keeps_withTurn : Keeps entry (withTurn host sessionKey turnId entry) :=
  ((keeps_fill (by simp)).trans (keeps_fill (by simp))).trans (keeps_fill (by simp))

theorem settled_withTurn (open_turn : turnId ≠ some .null) (named : entry.present "id") :
    (withTurn host sessionKey turnId entry).Settled := by
  have turn_there : (turnId.getD (.string ("legacy_turn_" ++ sessionKey))) ≠ .null := by
    cases turnId with
    | none => exact fun null => (nomatch null)
    | some value => exact fun null => open_turn (congrArg some null)
  intro key filled
  simp only [mem_cons, not_mem_nil, or_false] at filled
  unfold withTurn
  rcases filled with rfl | rfl | rfl | rfl
  · exact present_fill_of_present (present_fill_of_present (present_fill_of_present named))
  · exact present_fill_of_present (present_fill_of_present (present_fill turn_there))
  · exact present_fill_of_present (present_fill fun null => (nomatch null))
  · exact present_fill fun null => (nomatch null)

theorem withTurn_of_settled (settled : entry.Settled) :
    withTurn host sessionKey turnId entry = entry := by
  unfold withTurn
  dsimp only
  rw [fill_of_present (settled "turnId" (by simp)), fill_of_present (settled "runId" (by simp)),
    fill_of_present (settled "source" (by simp))]

theorem turnAfter_withTurn (named : entry.present "id") :
    turnAfter turnId (withTurn host sessionKey (turnAfter turnId entry) entry) =
      turnAfter turnId entry := by
  have keeps : Keeps entry (withTurn host sessionKey (turnAfter turnId entry) entry) :=
    keeps_withTurn
  have role := keeps.other "role" (by decide) (by decide)
  have named' := keeps.given "id" (by decide) named
  by_cases user : entry.isUser
  · have user' : (withTurn host sessionKey (turnAfter turnId entry) entry).isUser := role.trans user
    have turn : turnAfter turnId entry = nullish (entry.get "turnId") (entry.get "id") :=
      if_pos user
    rw [turnAfter, if_pos user', named']
    by_cases given : entry.present "turnId"
    · rw [keeps.given "turnId" (by decide) given, turn]
    · -- the filled turn is the id, which is there
      obtain ⟨name, found, not_null⟩ := present_iff.mp named
      have opened : turnAfter turnId entry = some name := by
        rw [turn, nullish_of_not_present given, found]
      have filled : (withTurn host sessionKey (turnAfter turnId entry) entry).get "turnId" =
          some name := by
        unfold withTurn
        dsimp only
        rw [get_fill_ne (by decide), get_fill_ne (by decide), fill, if_neg given,
          Record.get_set_self, opened]
        rfl
      rw [filled, opened]
      cases name <;> first | rfl | exact absurd rfl not_null
  · have user' : ¬ (withTurn host sessionKey (turnAfter turnId entry) entry).isUser := fun other =>
      user (role.symm.trans other)
    rw [turnAfter, if_neg user', turnAfter, if_neg user]

theorem fact_withParts : (withParts host entry).fact = entry.fact := by
  unfold withParts compatibleMessageParts SessionEntry.fact
  split
  next => rfl
  next =>
    split
    next => exact Record.erase_set_self
    next => rfl

theorem not_foreign_of_keeps (keeps : Keeps left right) (own : ¬ left.foreign)
    (filled : left.present "source" ∨ right.get "source" = some (.string "fact")
      ∨ right.get "source" = left.get "source") : ¬ right.foreign := by
  rcases filled with is_there | fact | same
  · have same := keeps.given "source" (by decide) is_there
    unfold SessionEntry.foreign at own ⊢
    rwa [same]
  · exact fun foreign => foreign.2 fact
  · unfold SessionEntry.foreign at own ⊢
    rwa [same]

theorem not_foreign_withTurn (own : ¬ entry.foreign) :
    ¬ (withTurn host sessionKey turnId entry).foreign := by
  have keeps : Keeps entry (withTurn host sessionKey turnId entry) := keeps_withTurn
  by_cases is_there : entry.present "source"
  · exact not_foreign_of_keeps keeps own (.inl is_there)
  · refine not_foreign_of_keeps keeps own (.inr (.inl ?_))
    have still : ∀ {key key' : String} {value value' : Json}, key ≠ "source" → key' ≠ "source" →
        ¬ ((entry.fill key value).fill key' value').present "source" := by
      intro key key' value value' ne ne'
      rwa [present_congr (get_fill_ne fun same => ne' same.symm),
        present_congr (get_fill_ne fun same => ne same.symm)]
    unfold withTurn
    dsimp only
    rw [fill, if_neg (still (by decide) (by decide)), Record.get_set_self]

theorem not_foreign_fill_id (own : ¬ entry.foreign) : ¬ (entry.fill "id" value).foreign := by
  unfold SessionEntry.foreign at own ⊢
  rwa [get_fill_ne (by decide)]

/-! ## All entries -/

theorem ensureFrom_foreign (foreign : entry.foreign) :
    ensureFrom host sessionKey i turnId (entry :: rest) =
      (entry :: rest, some "INVALID_CANONICAL_FACT") :=
  if_pos foreign

theorem ensureFrom_own (own : ¬ entry.foreign) {turn : Option Json}
    (opened : turnAfter turnId (entry.fill "id" (legacyId host sessionKey i entry)) = turn) :
    ensureFrom host sessionKey i turnId (entry :: rest) =
      (withParts host (withTurn host sessionKey turn
          (entry.fill "id" (legacyId host sessionKey i entry))) ::
        (ensureFrom host sessionKey (i + 1) turn rest).1,
        (ensureFrom host sessionKey (i + 1) turn rest).2) := by
  subst opened
  exact if_neg own

theorem ensureFrom_of_facts (open_turn : turnId ≠ some .null) {copies : List SessionEntry}
    (same : copies.map fact = (ensureFrom host sessionKey i turnId messages).1.map fact) :
    (ensureFrom host sessionKey i turnId copies).1.map fact =
        (ensureFrom host sessionKey i turnId messages).1.map fact ∧
      (ensureFrom host sessionKey i turnId copies).2 =
        (ensureFrom host sessionKey i turnId messages).2 := by
  induction messages generalizing i turnId copies with
  | nil =>
    cases copies with
    | nil => exact ⟨rfl, rfl⟩
    | cons => cases same
  | cons entry rest ih =>
    by_cases foreign : entry.foreign
    · rw [ensureFrom_foreign foreign] at same ⊢
      cases copies with
      | nil => cases same
      | cons copy copies =>
        have first : copy.fact = entry.fact := (List.cons.inj same).1
        rw [ensureFrom_foreign ((foreign_of_fact first).mpr foreign)]
        exact ⟨same, rfl⟩
    · let identified := entry.fill "id" (legacyId host sessionKey i entry)
      let turn := turnAfter turnId identified
      let settled := withTurn host sessionKey turn identified
      have named : identified.present "id" := present_fill fun null => (nomatch null)
      have opened : turn ≠ some .null := turnAfter_ne_null open_turn named
      rw [ensureFrom_own foreign rfl] at same ⊢
      cases copies with
      | nil => cases same
      | cons copy copies =>
        obtain ⟨first, others⟩ := List.cons.inj same
        rw [fact_withParts] at first
        have copy_settled : copy.Settled := settled_of_fact first (settled_withTurn opened named)
        have own : ¬ copy.foreign := fun other => not_foreign_withTurn
          (not_foreign_fill_id foreign) ((foreign_of_fact first).mp other)
        have turn_same : turnAfter turnId copy = turn := by
          rw [turnAfter_congr (get_of_fact first (by decide)) (get_of_fact first (by decide))
            (get_of_fact first (by decide))]
          exact turnAfter_withTurn named
        have copies_go_on : ensureFrom host sessionKey i turnId (copy :: copies) =
            (withParts host copy :: (ensureFrom host sessionKey (i + 1) turn copies).1,
              (ensureFrom host sessionKey (i + 1) turn copies).2) := by
          have id_there : copy.fill "id" (legacyId host sessionKey i copy) = copy :=
            fill_of_present (copy_settled "id" (by simp))
          have opened : turnAfter turnId (copy.fill "id" (legacyId host sessionKey i copy)) =
              turn := by rw [id_there, turn_same]
          rw [ensureFrom_own own opened, id_there, withTurn_of_settled copy_settled]
        obtain ⟨facts, thrown⟩ := ih opened others
        rw [copies_go_on, map_cons, map_cons, fact_withParts, fact_withParts, first,
          facts]
        exact ⟨rfl, thrown⟩

theorem ensureFrom_append (open_turn : turnId ≠ some .null)
    (returned : (ensureFrom host sessionKey i turnId messages).2 = none) :
    ∃ turn, turn ≠ some .null ∧ ∀ more, ensureFrom host sessionKey i turnId (messages ++ more) =
      ((ensureFrom host sessionKey i turnId messages).1 ++
        (ensureFrom host sessionKey (i + messages.length) turn more).1,
        (ensureFrom host sessionKey (i + messages.length) turn more).2) := by
  induction messages generalizing i turnId with
  | nil => exact ⟨turnId, open_turn, fun more => rfl⟩
  | cons entry rest ih =>
    by_cases foreign : entry.foreign
    · rw [ensureFrom_foreign foreign] at returned
      cases returned
    · let identified := entry.fill "id" (legacyId host sessionKey i entry)
      let turn := turnAfter turnId identified
      have named : identified.present "id" := present_fill fun null => (nomatch null)
      rw [ensureFrom_own foreign rfl] at returned
      obtain ⟨last, not_null, split⟩ := ih (turnAfter_ne_null open_turn named) returned
      refine ⟨last, not_null, fun more => ?_⟩
      have index : i + 1 + rest.length = i + (entry :: rest).length := by
        rw [length_cons]
        omega
      rw [cons_append, ensureFrom_own foreign rfl, ensureFrom_own foreign rfl, split, index,
        cons_append]

theorem keeps_ensureFrom : List.Forall₂ Keeps messages
    ((ensureFrom host sessionKey i turnId messages).1.map fact) := by
  induction messages generalizing i turnId with
  | nil => exact .nil
  | cons entry rest ih =>
    by_cases foreign : entry.foreign
    · rw [ensureFrom_foreign foreign, forall₂_map_right_iff]
      exact forall₂_same.mpr fun e _ => keeps_fact
    · rw [ensureFrom_own foreign rfl]
      refine .cons ?_ ih
      rw [fact_withParts]
      exact ((keeps_fill (by simp)).trans keeps_withTurn).trans keeps_fact

theorem ensureFrom_returns (own : ∀ e ∈ messages, ¬ e.foreign) :
    (ensureFrom host sessionKey i turnId messages).2 = none := by
  induction messages generalizing i turnId with
  | nil => rfl
  | cons entry rest ih =>
    rw [ensureFrom_own (own entry (mem_cons_self ..)) rfl]
    exact ih fun e mem => own e (mem_cons_of_mem _ mem)

theorem settled_ensureFrom (open_turn : turnId ≠ some .null)
    (returned : (ensureFrom host sessionKey i turnId messages).2 = none) :
    ∀ e ∈ (ensureFrom host sessionKey i turnId messages).1, e.Settled ∧ ¬ e.foreign := by
  induction messages generalizing i turnId with
  | nil => exact fun e mem => absurd mem not_mem_nil
  | cons entry rest ih =>
    by_cases foreign : entry.foreign
    · rw [ensureFrom_foreign foreign] at returned
      cases returned
    · have named : (entry.fill "id" (legacyId host sessionKey i entry)).present "id" :=
        present_fill fun null => (nomatch null)
      rw [ensureFrom_own foreign rfl] at returned ⊢
      intro e mem
      rcases mem_cons.mp mem with rfl | later
      · refine ⟨settled_of_fact fact_withParts
          (settled_withTurn (turnAfter_ne_null open_turn named) named), ?_⟩
        rw [foreign_of_fact fact_withParts]
        exact not_foreign_withTurn (not_foreign_fill_id foreign)
      · exact ih (turnAfter_ne_null open_turn named) returned e later

end Slide.Sessions
