import Slide.Sessions.Persistence

/-!
# What a saved file loads as

The lines of a save carry the facts of the session and its metadata.  They are read back as they are
if none of them is taken for the metadata line or for a summary that an old version injected, and if
there is room where the load writes the file again.
-/

namespace Slide.Sessions

open Slide.Display SessionEntry Session List

variable {host : Host} {s : Session} {entry left right : SessionEntry} {sessionKey : String}
  {messages : List SessionEntry} {l : Loading}

/-! ## Entries with other parts -/

theorem fact_acknowledgedWith {parts : Option (Record String Json)} :
    (acknowledgedWith parts entry).fact = entry.fact := by
  unfold acknowledgedWith
  cases parts with
  | none => rfl
  | some parts => exact Record.erase_set_self

theorem storedMessages_facts : (storedMessages host messages).map fact = messages.map fact := by
  unfold storedMessages
  rw [map_map]
  exact map_congr_left fun m _ => fact_acknowledgedWith

theorem repairedMessages_facts : (repairedMessages host messages).map fact = messages.map fact := by
  unfold repairedMessages
  rw [map_map]
  exact map_congr_left fun m _ => fact_acknowledgedWith

theorem isMetadata_of_fact (same : left.fact = right.fact) : isMetadata left ↔ isMetadata right := by
  unfold isMetadata
  rw [get_of_fact same (by decide), get_of_fact same (by decide)]

theorem hasRole_of_fact (same : left.fact = right.fact) : hasRole left ↔ hasRole right := by
  unfold hasRole
  rw [get_of_fact same (by decide)]

theorem injectedBy_of_fact {summary : Record String Json} (same : left.fact = right.fact) :
    injectedBy host summary left ↔ injectedBy host summary right := by
  unfold injectedBy isSystem
  rw [get_of_fact same (by decide), get_of_fact same (by decide)]

/-! ## The conditions -/

/-- The metadata that a load works with. -/
def adopted (metadata : Record String Json) : Record String Json :=
  (adoptSummary ⟨⟨"", [], metadata, .null, .null, .null⟩, .null, 0, 0, []⟩).session.metadata

/-- The facts that a load reads as facts. -/
structure Readable (host : Host) (metadata : Record String Json) (facts : List SessionEntry) :
    Prop where
  plain : ∀ f ∈ facts, ¬ isMetadata f ∧ hasRole f
  kept : ∀ summary, legacyRecord (adopted metadata) = some summary →
    ∀ f ∈ facts, ¬ injectedBy host summary f

/-- A load that writes the file again has the room for it. -/
def Roomy (host : Host) (sessionKey : String) (file : List Line) : Prop :=
  ∀ now s, read host sessionKey now file = .ok (s, true) →
    host.fits s.messages (repairedLines s)

/-! ## Reading the lines -/

theorem readLine_fact (plain : ¬ isMetadata entry) (role : hasRole entry) (own : ¬ entry.foreign) :
    readLine sessionKey l (some (.object entry)) = .ok { l with
      session := { l.session with messages := l.session.messages ++ [entry] } } := by
  unfold readLine
  dsimp only
  rw [if_neg plain, if_pos role, if_neg own]

theorem readLines_facts (each : ∀ m ∈ messages, (¬ isMetadata m ∧ hasRole m) ∧ ¬ m.foreign)
    (rest : List Line) :
    ((messages.map fun m => some (Json.object m)) ++ rest).foldlM (readLine sessionKey) l =
      rest.foldlM (readLine sessionKey) { l with
        session := { l.session with messages := l.session.messages ++ messages } } := by
  induction messages generalizing l with
  | nil =>
    rw [map_nil, nil_append, append_nil]
  | cons m messages ih =>
    obtain ⟨⟨plain, role⟩, own⟩ := each m (mem_cons_self ..)
    rw [map_cons, cons_append, foldlM_cons, readLine_fact plain role own]
    change List.foldlM _ _ _ = _
    rw [ih fun e mem => each e (mem_cons_of_mem _ mem)]
    dsimp only
    rw [append_assoc, singleton_append]

theorem readLine_metadataLine {now : Rat} :
    readLine s.sessionKey l (some (metadataLine s now)) = .ok { l with
      session := ⟨l.session.sessionKey, l.session.messages, s.metadata,
        orElse (some s.createdAt) (.number 0), orElse (some (.number now)) (.number 0),
        (nullish (some s.last_consolidated) none).getD (.number 0)⟩
      version := .number 1 } := by
  have marked (rest : Record String Json) :
      isMetadata (("_type", Json.string "session") :: rest) := .inr rfl
  unfold readLine metadataLine
  dsimp only
  rw [if_pos (marked _), if_neg (fun other => other.2 rfl)]
  rfl

/-! ## Behind the lines -/

theorem keepDerived_nil (none_derived : l.legacyDerived = []) : keepDerived host l = l := by
  unfold keepDerived
  rw [none_derived]
  rfl

theorem adoptSummary_frame : (adoptSummary l).session.messages = l.session.messages ∧
    (adoptSummary l).session.sessionKey = l.session.sessionKey ∧
    (adoptSummary l).session.metadata = adopted l.session.metadata ∧
    (adoptSummary l).legacyDerived = l.legacyDerived := by
  unfold adopted adoptSummary
  dsimp only
  split <;> exact ⟨rfl, rfl, rfl, rfl⟩

theorem dropInjected_frame (kept : ∀ summary, legacyRecord l.session.metadata = some summary →
      ∀ m ∈ l.session.messages, ¬ injectedBy host summary m) :
    (dropInjected host l).session.messages = l.session.messages ∧
      (dropInjected host l).session.sessionKey = l.session.sessionKey := by
  unfold dropInjected
  cases found : legacyRecord l.session.metadata with
  | none => exact ⟨rfl, rfl⟩
  | some summary =>
    refine ⟨?_, rfl⟩
    dsimp only
    exact filter_eq_self.mpr fun m mem => decide_eq_true (kept summary found m mem)

theorem settle_facts (none_derived : l.legacyDerived = [])
    (own : ∀ m ∈ l.session.messages, ¬ m.foreign)
    (readable : ∀ summary, legacyRecord (adopted l.session.metadata) = some summary →
      ∀ m ∈ l.session.messages, ¬ injectedBy host summary m) :
    ∃ t rewrites, settle host l = .ok (t, rewrites) ∧ facts host t = facts host l.session ∧
      (ensureFactIds host t).2 = none := by
  obtain ⟨messages, key, metadata, derived⟩ := @adoptSummary_frame l
  obtain ⟨messages', key'⟩ := @dropInjected_frame host (adoptSummary l) (by
    rw [messages, metadata]
    exact readable)
  have processed : dropInjected host (keepDerived host (adoptSummary l)) =
      dropInjected host (adoptSummary l) := by
    rw [keepDerived_nil (derived.trans none_derived)]
  let left := dropInjected host (adoptSummary l)
  have same : left.session.messages = l.session.messages := messages'.trans messages
  have same_key : left.session.sessionKey = l.session.sessionKey := key'.trans key
  have returned : (ensureFactIds host left.session).2 = none :=
    ensureFrom_returns fun m mem => own m (same ▸ mem)
  have facts_left : facts host left.session = facts host l.session := by
    unfold facts ensureFactIds
    dsimp only
    rw [same, same_key]
  unfold settle
  rw [processed]
  dsimp only
  rcases migrated : ensureFactIds host left.session with ⟨t, thrown⟩
  have held := congrArg (fun r => r.1.sessionKey) migrated
  rw [migrated] at returned
  cases returned
  dsimp only
  refine ⟨_, _, rfl, ?_⟩
  have parts : ∀ final : Session, final.sessionKey = t.sessionKey →
      final.messages.map fact = t.messages.map fact →
      facts host final = facts host l.session ∧ (ensureFactIds host final).2 = none := by
    intro final key same_facts
    have whole : t.messages.map fact = facts host left.session := by
      rw [facts, migrated]
    obtain ⟨stays, returns⟩ :=
      @facts_of_messages host left.session final (key.trans held.symm) (same_facts.trans whole)
    rw [migrated] at returns
    exact ⟨stays.trans facts_left, returns⟩
  refine parts _ rfl ?_
  dsimp only
  split
  next => exact repairedMessages_facts
  next => rfl

/-! ## The round trip -/

theorem canonicalHash_of_returned (returned : (ensureFactIds host s).2 = none) :
    (canonicalHash host s).2 =
      .ok (host.sha256 (host.stringify (.array ((facts host s).map Json.object)))) := by
  unfold canonicalHash facts
  rcases migrated : ensureFactIds host s with ⟨t, thrown⟩
  rw [migrated] at returned
  cases returned
  dsimp only
  rw [map_map]
  rfl

/-- What a save takes of a session. -/
structure Taken (host : Host) (s : Session) (now : Rat) (stored : List SessionEntry)
    (lines : List Json) : Prop where
  returned : (ensureFactIds host s).2 = none
  stored_eq : stored.map fact = facts host s
  own : ∀ m ∈ stored, ¬ m.foreign
  lines_eq : lines = stored.map Json.object ++ [metadataLine s now]

theorem taken_of_snapshot {now : Rat} {stored : List SessionEntry} {lines : List Json}
    (taken : (snapshot host s now).2 = .ok (stored, lines)) : Taken host s now stored lines := by
  unfold snapshot at taken
  rcases migrated : ensureFactIds host s with ⟨t, thrown⟩
  rw [migrated] at taken
  cases thrown with
  | some error => cases taken
  | none =>
    dsimp only at taken
    split at taken
    next room =>
      cases taken
      have returned : (ensureFactIds host s).2 = none := by rw [migrated]
      have same_metadata : metadataLine t now = metadataLine s now := by
        have kept : t = (ensureFactIds host s).1 := by rw [migrated]
        rw [kept]
        rfl
      have held : t.messages.map fact = facts host s := by rw [facts, migrated]
      refine ⟨returned, storedMessages_facts.trans held, fun m mem => ?_, by rw [same_metadata]⟩
      obtain ⟨e, inside, rfl⟩ := mem_map.mp mem
      rw [foreign_of_fact fact_acknowledgedWith]
      have messages : t.messages = (ensureFrom host s.sessionKey 0 none s.messages).1 :=
        congrArg (fun r => r.1.messages) migrated.symm
      rw [messages] at inside
      exact (settled_ensureFrom no_turn returned e inside).2
    next => cases taken

theorem snapshot_facts {now : Rat} : facts host (snapshot host s now).1 = facts host s ∧
    (snapshot host s now).1.sessionKey = s.sessionKey ∧
    (snapshot host s now).1.metadata = s.metadata := by
  have kept : facts host (ensureFactIds host s).1 = facts host s := facts_ensureFactIds.1
  have key : (ensureFactIds host s).1.sessionKey = s.sessionKey := rfl
  have metadata : (ensureFactIds host s).1.metadata = s.metadata := rfl
  unfold snapshot
  rcases migrated : ensureFactIds host s with ⟨t, thrown⟩
  rw [migrated] at kept key metadata
  cases thrown with
  | some error => exact ⟨kept, key, metadata⟩
  | none =>
    dsimp only
    split <;> exact ⟨kept, key, metadata⟩

variable {now later : Rat} {stored : List SessionEntry} {lines : List Json}

/-- The variables of a load behind the lines of a save. -/
def loadingOf (s : Session) (now : Rat) (stored : List SessionEntry) : Loading :=
  ⟨⟨s.sessionKey, stored, s.metadata, orElse (some s.createdAt) (.number 0),
    orElse (some (.number now)) (.number 0),
    (nullish (some s.last_consolidated) none).getD (.number 0)⟩, .number 1, 0, 0, []⟩

theorem fact_fact : entry.fact.fact = entry.fact := by
  unfold SessionEntry.fact Record.erase
  rw [filter_filter]
  simp

theorem Taken.mem_facts (taken : Taken host s now stored lines) (mem : entry ∈ stored) :
    entry.fact ∈ facts host s := by
  rw [← taken.stored_eq]
  exact mem_map_of_mem mem

theorem Taken.lines_read (taken : Taken host s now stored lines)
    (readable : Readable host s.metadata (facts host s)) :
    (lines.map some).foldlM (readLine s.sessionKey)
      ⟨Session.new s.sessionKey later, .number 0, 0, 0, []⟩ = .ok (loadingOf s now stored) := by
  have each : ∀ m ∈ stored, (¬ isMetadata m ∧ hasRole m) ∧ ¬ m.foreign := fun m mem => by
    obtain ⟨plain, role⟩ := readable.plain m.fact (taken.mem_facts mem)
    rw [isMetadata_of_fact fact_fact] at plain
    rw [hasRole_of_fact fact_fact] at role
    exact ⟨⟨plain, role⟩, taken.own m mem⟩
  have file : lines.map some = (stored.map fun m => some (Json.object m)) ++
      [some (metadataLine s now)] := by
    rw [taken.lines_eq, map_append, map_map]
    rfl
  rw [file, readLines_facts each, foldlM_cons, readLine_metadataLine]
  rfl

theorem Taken.read (taken : Taken host s now stored lines)
    (readable : Readable host s.metadata (facts host s)) :
    ∃ t rewrites, read host s.sessionKey later (lines.map some) = .ok (t, rewrites) ∧
      facts host t = facts host s ∧ (ensureFactIds host t).2 = none := by
  obtain ⟨t, rewrites, settled, same, returned⟩ :=
    @settle_facts host (loadingOf s now stored) rfl taken.own fun summary found m mem injected => by
      rw [← injectedBy_of_fact fact_fact] at injected
      exact readable.kept summary found m.fact (taken.mem_facts mem) injected
  refine ⟨t, rewrites, ?_, same.trans ?_, returned⟩
  · unfold Sessions.read
    rw [taken.lines_read readable]
    exact settled
  · have held := @facts_of_messages host s (loadingOf s now stored).session rfl taken.stored_eq
    exact held.1

theorem Taken.roomy (taken : Taken host s now stored lines)
    (readable : Readable host s.metadata (facts host s))
    (clean : (settle host (loadingOf s now stored)).toOption.map Prod.snd = some false) :
    Roomy host s.sessionKey (lines.map some) := by
  intro later t loaded
  unfold Sessions.read at loaded
  rw [taken.lines_read readable] at loaded
  change settle host (loadingOf s now stored) = _ at loaded
  rw [loaded] at clean
  cases clean

theorem Taken.load (taken : Taken host s now stored lines)
    (readable : Readable host s.metadata (facts host s))
    (roomy : Roomy host s.sessionKey (lines.map some)) :
    ∃ t rewritten, load host s.sessionKey later (lines.map some) = .ok (t, rewritten) ∧
      facts host t = facts host s ∧
      (canonicalHash host t).2 = (canonicalHash host s).2 := by
  obtain ⟨t, rewrites, loaded, same, returned⟩ := @Taken.read host s now later stored lines taken readable
  have hash : (canonicalHash host t).2 = (canonicalHash host s).2 := by
    rw [canonicalHash_of_returned returned, canonicalHash_of_returned taken.returned, same]
  cases rewrites with
  | false =>
    refine ⟨t, none, ?_, same, hash⟩
    unfold Sessions.load
    rw [loaded]
    rfl
  | true =>
    refine ⟨t, some (repairedLines t), ?_, same, hash⟩
    unfold Sessions.load
    rw [loaded]
    exact if_pos (roomy later t loaded)

end Slide.Sessions
