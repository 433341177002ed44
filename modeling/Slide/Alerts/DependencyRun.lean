import Slide.Alerts.Dependencies

/-!
# Alert dependencies over any sequence of calls

* `assertDependencyAcyclic_iff`: the check throws exactly for a cycle of resources.
* `change_cases`: a call that succeeds replays an operation, confirms a dependency or writes one.
* `Store.Sound`: what every call keeps: no cycle, and an audit that counts the changes.
-/

namespace Slide.Alerts

open Slide.Resources Relation List

variable {rows : List Dependency} {a b : ResourceRef}

/-! ## Cycles -/

/-- An enabled dependency leads from one resource to the other. -/
def Leads (rows : List Dependency) (a b : ResourceRef) : Prop :=
  ∃ r ∈ rows, r.disabled = false ∧ r.upstream.resource = a ∧ r.downstream.resource = b

/-- The enabled dependencies have a directed cycle. -/
def Cyclic (rows : List Dependency) : Prop := ∃ a, TransGen (Leads rows) a a

/-- Every resource that an enabled row names. -/
def resourceKeys (rows : List Dependency) : List String :=
  rows.flatMap fun r => if r.disabled then [] else
    [r.upstream.resource.key, r.downstream.resource.key]

theorem mem_resourceKeys {k : String} : k ∈ resourceKeys rows ↔ ∃ r ∈ rows, r.disabled = false ∧
    (k = r.upstream.resource.key ∨ k = r.downstream.resource.key) := by
  simp only [resourceKeys, mem_flatMap]
  refine exists_congr fun r => and_congr_right fun _ => ?_
  cases r.disabled <;> simp

theorem mem_graphKeys {k : String} : k ∈ graphKeys rows ↔ ∃ r ∈ rows, r.disabled = false ∧
    r.upstream.resource.key = k := by
  simp [graphKeys, mem_eraseDups, and_assoc]

theorem mem_deps {v d : String} : d ∈ (resourceGraph rows).deps v ↔ ∃ r ∈ rows,
    r.disabled = false ∧ r.upstream.resource.key = v ∧ r.downstream.resource.key = d := by
  simp [resourceGraph, and_assoc]

theorem graphKeys_subset : graphKeys rows ⊆ resourceKeys rows := by
  intro k mem
  obtain ⟨r, inside, enabled, same⟩ := mem_graphKeys.mp mem
  exact mem_resourceKeys.mpr ⟨r, inside, enabled, .inl same.symm⟩

theorem resourceGraph_named : (resourceGraph rows).Named (resourceKeys rows) where
  closed v _ d dep := by
    obtain ⟨r, inside, enabled, -, same⟩ := mem_deps.mp dep
    exact mem_resourceKeys.mpr ⟨r, inside, enabled, .inr same.symm⟩
  inj _ _ _ _ same := same

theorem length_resourceKeys : (resourceKeys rows).length < 2 * rows.length + 1 := by
  unfold resourceKeys
  induction rows with
  | nil => exact Nat.one_pos
  | cons r rows ih =>
    rw [flatMap_cons, length_append, length_cons]
    split <;> simp only [length_cons, length_nil] <;> omega

theorem deps_of_notMem {k : String} (out : k ∉ graphKeys rows) : (resourceGraph rows).deps k = [] := by
  refine eq_nil_iff_forall_not_mem.mpr fun d dep => out ?_
  obtain ⟨r, inside, enabled, same, -⟩ := mem_deps.mp dep
  exact mem_graphKeys.mpr ⟨r, inside, enabled, same⟩

theorem transGen_key_iff : TransGen (fun v d => d ∈ (resourceGraph rows).deps v) a.key b.key ↔
    TransGen (Leads rows) a b := by
  constructor
  · intro walk
    generalize target : b.key = k at walk
    induction walk generalizing b with
    | single dep =>
      subst target
      obtain ⟨r, inside, enabled, up, down⟩ := mem_deps.mp dep
      exact .single ⟨r, inside, enabled, ResourceRef.key_injective up, ResourceRef.key_injective down⟩
    | tail _ dep ih =>
      subst target
      obtain ⟨r, inside, enabled, up, down⟩ := mem_deps.mp dep
      exact .tail (ih up) ⟨r, inside, enabled, rfl, ResourceRef.key_injective down⟩
  · intro walk
    refine walk.lift ResourceRef.key fun a b step => ?_
    obtain ⟨r, inside, enabled, rfl, rfl⟩ := step
    exact mem_deps.mpr ⟨r, inside, enabled, rfl, rfl⟩

theorem acyclic_iff :
    Dag.Acyclic (resourceGraph rows) (resourceKeys rows) ↔ ¬ Cyclic rows := by
  constructor
  · rintro acyclic ⟨a, cycle⟩
    have first : ∃ b, Leads rows a b := by
      obtain ⟨b, step, -⟩ := TransGen.head'_iff.mp cycle
      exact ⟨b, step⟩
    obtain ⟨b, r, inside, enabled, rfl, -⟩ := first
    have mem : r.upstream.resource.key ∈ resourceKeys rows :=
      mem_resourceKeys.mpr ⟨r, inside, enabled, .inl rfl⟩
    exact acyclic.irreflexive resourceGraph_named.closed mem (transGen_key_iff.mpr cycle)
  · intro none
    refine Dag.acyclic_of_irreflexive resourceGraph_named.closed fun k mem cycle => none ?_
    obtain ⟨r, -, -, rfl | rfl⟩ := mem_resourceKeys.mp mem
    · exact ⟨_, transGen_key_iff.mp cycle⟩
    · exact ⟨_, transGen_key_iff.mp cycle⟩

theorem assertDependencyAcyclic_ok_iff : assertDependencyAcyclic rows = .ok () ↔ ¬ Cyclic rows := by
  rw [← acyclic_iff, ← Dag.walk_refusing_roots_iff (e := Failure.policy "DEPENDENCY_CYCLE" 409)
    resourceGraph_named length_resourceKeys graphKeys_subset fun _ _ => deps_of_notMem]
  unfold assertDependencyAcyclic
  rw [bind_eq_ok]
  exact ⟨fun ⟨q, walked, _⟩ => ⟨q, walked⟩, fun ⟨q, walked⟩ => ⟨q, walked, rfl⟩⟩

theorem assertDependencyAcyclic_iff :
    assertDependencyAcyclic rows = .error (.thrown (.policy "DEPENDENCY_CYCLE" 409)) ↔
      Cyclic rows := by
  have named : (resourceGraph rows).Named (resourceKeys rows) := resourceGraph_named
  have ends : Dag.walk (resourceGraph rows) (Dag.refusing (Failure.policy "DEPENDENCY_CYCLE" 409))
      (2 * rows.length + 1) (graphKeys rows) () ≠ .error .outOfFuel :=
    Dag.walk_refusing_roots_ends named length_resourceKeys graphKeys_subset
  rw [← not_iff_not, ← assertDependencyAcyclic_ok_iff]
  unfold assertDependencyAcyclic
  generalize walked : Dag.walk (resourceGraph rows)
    (Dag.refusing (Failure.policy "DEPENDENCY_CYCLE" 409)) (2 * rows.length + 1) (graphKeys rows) () =
      result at ends ⊢
  rcases result with (e | _) | q
  · obtain rfl := Dag.walk_refusing_roots_error named length_resourceKeys graphKeys_subset walked
    exact ⟨fun differ => absurd rfl differ, nofun⟩
  · exact absurd rfl ends
  · exact ⟨fun _ => rfl, fun _ => nofun⟩

theorem Cyclic.mono {rows' : List Dependency} (sub : ∀ r ∈ rows, r.disabled = false → r ∈ rows')
    (cyclic : Cyclic rows) : Cyclic rows' := by
  obtain ⟨a, cycle⟩ := cyclic
  have wider : ∀ a b, Leads rows a b → Leads rows' a b := by
    rintro a b ⟨r, inside, enabled, up, down⟩
    exact ⟨r, sub r inside enabled, enabled, up, down⟩
  exact ⟨a, cycle.lift id wider⟩

/-! ## What a call does -/

section Steps

variable {host : Host} {world : World} {actor : ActorContext} {id : Option String}
  {raw input : DependencyChange} {operation : Nat × String} {digest : String}
  {store store' : Store} {result : Result} {previous : Option Dependency} {wanted : Dependency}

theorem candidate_identity (ok : candidate world actor id input previous = .ok wanted) :
    (∀ k, id = some k → wanted.id = k) ∧
      wanted.revision = (previous.map Dependency.revision).getD 0 + 1 := by
  unfold candidate at ok
  obtain ⟨_, -, ok⟩ := bind_eq_ok.mp ok
  obtain ⟨_, -, ok⟩ := bind_eq_ok.mp ok
  obtain ⟨_, -, ok⟩ := bind_eq_ok.mp ok
  obtain ⟨value, -, ok⟩ := bind_eq_ok.mp ok
  obtain ⟨live, -, ok⟩ := bind_eq_ok.mp ok
  obtain ⟨_, -, ok⟩ := bind_eq_ok.mp ok
  obtain ⟨_, -, ok⟩ := bind_eq_ok.mp ok
  obtain ⟨_, -, ok⟩ := bind_eq_ok.mp ok
  obtain ⟨_, -, ok⟩ := bind_eq_ok.mp ok
  obtain ⟨_, -, ok⟩ := bind_eq_ok.mp ok
  obtain rfl := Except.ok.inj ok
  refine ⟨?_, rfl⟩
  rintro k rfl
  rfl

theorem Store.save_eq_ok : store.save wanted = .ok store' ↔
    (∀ row ∈ store.audit, row.id = wanted.id → row.revision ≠ wanted.revision) ∧
      store' = { store with
        dependencies := store.dependencies.put wanted.id wanted
        audit := store.audit ++ [wanted] } := by
  unfold Store.save
  split
  next twice =>
    obtain ⟨row, inside, same⟩ := any_eq_true.mp twice
    simp only [Bool.and_eq_true, beq_iff_eq] at same
    exact ⟨nofun, fun fresh => absurd same.2 (fresh.1 row inside same.1)⟩
  next fresh =>
    constructor
    · refine fun saved => ⟨fun row inside same revision => fresh ?_, (Except.ok.inj saved).symm⟩
      exact any_eq_true.mpr ⟨row, inside, by simp [same, revision]⟩
    · exact fun saved => congrArg Except.ok saved.2.symm

/-- What a call with a new key writes besides its operation: nothing when the dependency is already
as it is wanted, and otherwise the dependency with a row of the audit. -/
inductive Written (store : Store) (id : Option String) (wanted : Dependency) :
    Store → Result → Prop
  | confirmed {p : Dependency} (found : id.bind store.dependencies.get = some p)
    (same : p.content = wanted.content) : Written store id wanted store ⟨p, true⟩
  | saved {middle : Store}
    (differs : ∀ p, id.bind store.dependencies.get = some p → p.content ≠ wanted.content)
    (save : store.save wanted = .ok middle) : Written store id wanted middle ⟨wanted, false⟩

theorem written_of_write (ok : store.write (id.bind store.dependencies.get) wanted =
    .ok (store', result)) : Written store id wanted store' result := by
  unfold Store.write at ok
  split at ok
  next p kept =>
    obtain ⟨found, same⟩ := Option.filter_eq_some_iff.mp kept
    obtain ⟨rfl, rfl⟩ := Prod.mk.inj (Except.ok.inj ok)
    exact .confirmed found (of_decide_eq_true same)
  next dropped =>
    obtain ⟨middle, save, ok⟩ := bind_eq_ok.mp ok
    obtain ⟨rfl, rfl⟩ := Prod.mk.inj (Except.ok.inj ok)
    refine .saved (fun p found => ?_) save
    exact of_decide_eq_false (Bool.eq_false_iff.mpr (Option.filter_eq_none_iff.mp dropped p found))

theorem perform_cases
    (ok : perform world actor id input operation digest store = .ok (store', result)) :
    ∃ wanted middle required,
      candidate world actor id input (id.bind store.dependencies.get) = .ok wanted ∧
      assertDependencyAcyclic
        (store.dependencies.toList.filter (fun r => id ≠ some r.id) ++ [wanted]) = .ok () ∧
      Written store id wanted middle result ∧
      store' = { middle with
        operations := middle.operations.put operation ⟨digest, result, required⟩ } := by
  unfold perform at ok
  obtain ⟨wanted, candidate, ok⟩ := bind_eq_ok.mp ok
  obtain ⟨_, acyclic, ok⟩ := bind_eq_ok.mp ok
  obtain ⟨⟨middle, answer⟩, written, ok⟩ := bind_eq_ok.mp ok
  obtain ⟨final, -, ok⟩ := bind_eq_ok.mp ok
  obtain ⟨_, -, ok⟩ := bind_eq_ok.mp ok
  obtain ⟨rfl, rfl⟩ := Prod.mk.inj (Except.ok.inj ok)
  exact ⟨wanted, middle, _, Halt.lift_eq_ok.mp candidate, acyclic,
    written_of_write (Halt.lift_eq_ok.mp written), rfl⟩

theorem change_cases (ok : change host world actor id raw store = .ok (store', result)) :
    ∃ input, checkInput host id raw = .ok input ∧
      ((∃ saved, store.operations.get (actor.userId, host.collate input.operationKey) = some saved ∧
          saved.fingerprint = host.digest id input ∧ store' = store ∧ result = saved.result) ∨
        store.operations.get (actor.userId, host.collate input.operationKey) = none ∧
          perform world actor id input (actor.userId, host.collate input.operationKey)
            (host.digest id input) store = .ok (store', result)) := by
  unfold change at ok
  obtain ⟨input, checked, ok⟩ := bind_eq_ok.mp ok
  obtain ⟨_, -, ok⟩ := bind_eq_ok.mp ok
  refine ⟨input, Halt.lift_eq_ok.mp checked, ?_⟩
  cases found : store.operations.get (actor.userId, host.collate input.operationKey) with
  | none =>
    simp only [found] at ok
    exact .inr ⟨rfl, ok⟩
  | some saved =>
    simp only [found] at ok
    obtain ⟨answer, replayed, ok⟩ := bind_eq_ok.mp ok
    obtain ⟨rfl, rfl⟩ := Prod.mk.inj (Except.ok.inj ok)
    have replayed := Halt.lift_eq_ok.mp replayed
    unfold replay at replayed
    obtain ⟨_, same, replayed⟩ := bind_eq_ok.mp replayed
    obtain ⟨_, -, replayed⟩ := bind_eq_ok.mp replayed
    exact .inl ⟨saved, rfl, beq_iff_eq.mp (rule_eq_ok.mp same), rfl, (Except.ok.inj replayed).symm⟩

end Steps

/-! ## What every call keeps -/

/-- The revision of a dependency, zero before it is created. -/
def Store.revision (store : Store) (id : String) : Nat :=
  ((store.dependencies.get id).map Dependency.revision).getD 0

/-- The rows of the audit of one dependency, the oldest first. -/
def Store.auditOf (store : Store) (id : String) : List Dependency :=
  store.audit.filter fun row => row.id = id

structure Store.Sound (store : Store) : Prop where
  keyed : ∀ id d, store.dependencies.get id = some d → d.id = id
  acyclic : ¬ Cyclic store.dependencies.toList
  audited : ∀ id, (store.auditOf id).map Dependency.revision = List.range' 1 (store.revision id)
  latest : ∀ id, (store.auditOf id).getLast? = store.dependencies.get id

section Invariant

variable {store middle store' : Store} {id : Option String} {wanted : Dependency} {result : Result}
  {k : String}

theorem Store.sound_empty : Store.empty.Sound where
  keyed _ _ stored := by cases stored
  acyclic := by
    rintro ⟨a, cycle⟩
    obtain ⟨b, ⟨r, inside, -⟩, -⟩ := TransGen.head'_iff.mp cycle
    cases inside
  audited _ := rfl
  latest _ := rfl

theorem auditOf_saved : ({ store with audit := store.audit ++ [wanted] } : Store).auditOf k =
    if wanted.id = k then store.auditOf k ++ [wanted] else store.auditOf k := by
  unfold Store.auditOf
  rw [filter_append]
  split
  next same => rw [filter_cons_of_pos (by simpa using same), filter_nil]
  next differ => rw [filter_cons_of_neg (by simpa using differ), filter_nil, append_nil]

theorem Store.Sound.length_audit (sound : store.Sound) (k : String) :
    (store.auditOf k).length = store.revision k := by
  rw [← length_map Dependency.revision, sound.audited k, length_range']

theorem Store.Sound.save_revision (sound : store.Sound) {previous : Option Dependency}
    (found : previous = id.bind store.dependencies.get) (given : ∀ k, id = some k → wanted.id = k)
    (revision : wanted.revision = (previous.map Dependency.revision).getD 0 + 1)
    (fresh : ∀ row ∈ store.audit, row.id = wanted.id → row.revision ≠ wanted.revision) :
    wanted.revision = store.revision wanted.id + 1 ∧ store.dependencies.get wanted.id = previous := by
  have known : store.dependencies.get wanted.id = previous := by
    cases id with
    | some k => rw [given k rfl, found, Option.bind_some]
    | none =>
      rw [found, Option.bind_none]
      rw [found, Option.bind_none, Option.map_none, Option.getD_none] at revision
      -- a row of that identity would have its first revision in the audit already
      refine Option.eq_none_iff_forall_ne_some.mpr fun d stored => ?_
      have last : d ∈ store.auditOf wanted.id :=
        mem_of_getLast? ((sound.latest wanted.id).trans stored)
      have positive : 0 < store.revision wanted.id := by
        rw [← sound.length_audit]
        exact length_pos_of_mem last
      have first : 1 ∈ (store.auditOf wanted.id).map Dependency.revision := by
        rw [sound.audited]
        exact mem_range'_1.mpr ⟨le_rfl, by omega⟩
      obtain ⟨row, inside, one⟩ := mem_map.mp first
      obtain ⟨inside, same⟩ := mem_filter.mp inside
      exact fresh row inside (of_decide_eq_true same) (one.trans revision.symm)
  unfold Store.revision
  exact ⟨by rw [known, revision], known⟩

theorem mem_saved {rows : Table String Dependency} {r : Dependency}
    (keyed : ∀ id d, rows.get id = some d → d.id = id)
    (inside : r ∈ (rows.put wanted.id wanted).toList) :
    r = wanted ∨ r ∈ rows.toList ∧ r.id ≠ wanted.id := by
  obtain ⟨k, stored⟩ := Table.mem_toList.mp inside
  rw [Table.get_put] at stored
  split at stored
  next same => exact .inl (some.inj stored).symm
  next differ => exact .inr ⟨Table.mem_toList.mpr ⟨k, stored⟩, keyed k r stored ▸ differ⟩

theorem Store.Sound.written (sound : store.Sound) (written : Written store id wanted middle result)
    (given : ∀ k, id = some k → wanted.id = k)
    (revision : wanted.revision =
      ((id.bind store.dependencies.get).map Dependency.revision).getD 0 + 1)
    (acyclic : assertDependencyAcyclic
      (store.dependencies.toList.filter (fun r => id ≠ some r.id) ++ [wanted]) = .ok ()) :
    middle.Sound := by
  cases written with
  | confirmed => exact sound
  | saved differs save =>
    obtain ⟨fresh, rfl⟩ := Store.save_eq_ok.mp save
    obtain ⟨next, -⟩ := sound.save_revision rfl given revision fresh
    refine ⟨fun k d stored => ?_, fun cyclic => ?_, fun k => ?_, fun k => ?_⟩
    · rw [Table.get_put] at stored
      split at stored
      next same => rw [← some.inj stored, same]
      next differ => exact sound.keyed k d stored
    · refine assertDependencyAcyclic_ok_iff.mp acyclic (cyclic.mono fun r inside _ => ?_)
      rcases mem_saved sound.keyed inside with rfl | ⟨before, other⟩
      · exact mem_append_right _ (mem_singleton.mpr rfl)
      · refine mem_append_left _ (mem_filter.mpr ⟨before, decide_eq_true fun same => ?_⟩)
        exact other (given r.id same).symm
    · change (Store.auditOf { store with audit := store.audit ++ [wanted] } k).map _ = _
      rw [auditOf_saved]
      unfold Store.revision
      rw [Table.get_put]
      by_cases same : wanted.id = k
      · subst same
        rw [if_pos rfl, if_pos rfl, map_append, sound.audited, Option.map_some,
          Option.getD_some, next, List.range'_concat, map_singleton, next]
        congr 2
        omega
      · rw [if_neg same, if_neg (Ne.symm same)]
        exact sound.audited k
    · change (Store.auditOf { store with audit := store.audit ++ [wanted] } k).getLast? = _
      rw [auditOf_saved, Table.get_put]
      by_cases same : wanted.id = k
      · rw [if_pos same, if_pos same.symm, getLast?_concat]
      · rw [if_neg same, if_neg (Ne.symm same)]
        exact sound.latest k

end Invariant

/-! ## Runs -/

section Runs

variable {host : Host} {world : World} {actor : ActorContext} {id : Option String}
  {raw : DependencyChange} {store store' next : Store} {result : Result} {wanted : Dependency}
  {call : Call} {calls : List Call} {k : String}

/-- The stored content of a dependency. -/
def Store.content (store : Store) (id : String) : Option (Value × Bool) :=
  (store.dependencies.get id).map Dependency.content

/-- The number of the calls, taken from the store on, that create the dependency or change its
content. -/
def effectiveChanges (host : Host) (id : String) : Store → List Call → Nat
  | _, [] => 0
  | store, call :: rest =>
    let after := (attempt host store call).1
    (if after.content id = store.content id then 0 else 1) + effectiveChanges host id after rest

theorem Written.revision (sound : store.Sound) (written : Written store id wanted store' result)
    (given : ∀ k, id = some k → wanted.id = k)
    (revision : wanted.revision =
      ((id.bind store.dependencies.get).map Dependency.revision).getD 0 + 1) :
    store'.revision k = store.revision k + if store'.content k = store.content k then 0 else 1 := by
  cases written with
  | confirmed => rw [if_pos rfl, Nat.add_zero]
  | saved differs save =>
    obtain ⟨fresh, rfl⟩ := Store.save_eq_ok.mp save
    obtain ⟨next, known⟩ := sound.save_revision rfl given revision fresh
    by_cases same : k = wanted.id
    · subst same
      have changed : (some wanted).map Dependency.content ≠ store.content wanted.id := by
        unfold Store.content
        rw [known]
        intro equal
        obtain ⟨p, found, content⟩ := Option.map_eq_some_iff.mp equal.symm
        exact differs p found content
      unfold Store.revision Store.content at *
      rw [Table.get_put_self, if_neg changed, Option.map_some, Option.getD_some, next]
    · unfold Store.revision Store.content
      rw [Table.get_put_ne same, if_pos rfl, Nat.add_zero]

theorem Store.Sound.change (sound : store.Sound)
    (ok : change host world actor id raw store = .ok (store', result)) :
    store'.Sound ∧ ∀ k, store'.revision k =
      store.revision k + if store'.content k = store.content k then 0 else 1 := by
  obtain ⟨input, -, ⟨saved, -, -, rfl, -⟩ | ⟨-, performed⟩⟩ := change_cases ok
  · exact ⟨sound, fun k => by rw [if_pos rfl, Nat.add_zero]⟩
  · obtain ⟨wanted, middle, required, asked, acyclic, written, rfl⟩ := perform_cases performed
    obtain ⟨given, revision⟩ := candidate_identity asked
    have kept : middle.Sound := sound.written written given revision acyclic
    refine ⟨⟨kept.keyed, kept.acyclic, kept.audited, kept.latest⟩, fun k => ?_⟩
    have counted : middle.revision k =
        store.revision k + if middle.content k = store.content k then 0 else 1 :=
      written.revision sound given revision
    exact counted

theorem attempt_store (host : Host) (store : Store) (call : Call) :
    (attempt host store call).1 = store ∨
    ∃ next result, call.change host store = .ok (next, result) ∧ (attempt host store call).1 = next := by
  unfold attempt
  cases changed : call.change host store with
  | error e => exact .inl rfl
  | ok answer =>
    cases call.fate with
    | commits | unacknowledged => exact .inr ⟨answer.1, answer.2, rfl, rfl⟩
    | fails => exact .inl rfl

theorem Store.Sound.attempt (host : Host) (call : Call) (sound : store.Sound) :
    (attempt host store call).1.Sound ∧
    ∀ k, (attempt host store call).1.revision k = store.revision k +
      if (attempt host store call).1.content k = store.content k then 0 else 1 := by
  rcases attempt_store host store call with same | ⟨next, result, ok, same⟩
  · rw [same]
    exact ⟨sound, fun k => by rw [if_pos rfl, Nat.add_zero]⟩
  · rw [same]
    exact sound.change ok

theorem Store.Sound.after_calls (host : Host) (calls : List Call) (k : String)
    (sound : store.Sound) :
    (calls.foldl (fun store call => (Alerts.attempt host store call).1) store).Sound ∧
      (calls.foldl (fun store call => (Alerts.attempt host store call).1) store).revision k =
        store.revision k + effectiveChanges host k store calls := by
  induction calls generalizing store with
  | nil => exact ⟨sound, rfl⟩
  | cons call rest ih =>
    obtain ⟨kept, counted⟩ := sound.attempt host call
    obtain ⟨kept', counted'⟩ := ih kept
    refine ⟨kept', ?_⟩
    rw [foldl_cons, counted', counted, effectiveChanges, Nat.add_assoc]

theorem operation_stays {key : Nat × String} {saved : Operation}
    (ok : change host world actor id raw store = .ok (store', result))
    (stored : store.operations.get key = some saved) : store'.operations.get key = some saved := by
  obtain ⟨input, -, ⟨_, -, -, rfl, -⟩ | ⟨absent, performed⟩⟩ := change_cases ok
  · exact stored
  · obtain ⟨wanted, middle, required, -, -, written, rfl⟩ := perform_cases performed
    have other : key ≠ (actor.userId, host.collate input.operationKey) := by
      rintro rfl
      rw [stored] at absent
      cases absent
    have same : middle.operations = store.operations := by
      cases written with
      | confirmed => rfl
      | saved _ save => rw [(Store.save_eq_ok.mp save).2]
    exact (Table.get_put_ne other).trans (same ▸ stored)

theorem operation_stays_calls {key : Nat × String} {saved : Operation}
    (stored : store.operations.get key = some saved) :
    (calls.foldl (fun store call => (attempt host store call).1) store).operations.get key =
      some saved := by
  induction calls generalizing store with
  | nil => exact stored
  | cons call rest ih =>
    have kept : (attempt host store call).1.operations.get key = some saved := by
      rcases attempt_store host store call with same | ⟨next, result, ok, same⟩
      · rw [same]
        exact stored
      · rw [same]
        exact operation_stays ok stored
    exact ih kept

theorem operation_of_change (ok : change host world actor id raw store = .ok (store', result)) :
    ∃ input saved, checkInput host id raw = .ok input ∧
      store'.operations.get (actor.userId, host.collate input.operationKey) = some saved ∧
      saved.fingerprint = host.digest id input ∧ saved.result = result := by
  obtain ⟨input, checked, ⟨saved, stored, same, rfl, rfl⟩ | ⟨-, performed⟩⟩ := change_cases ok
  · exact ⟨input, saved, checked, stored, same, rfl⟩
  · obtain ⟨wanted, middle, required, -, -, -, rfl⟩ := perform_cases performed
    exact ⟨input, ⟨host.digest id input, result, required⟩, checked, Table.get_put_self, rfl, rfl⟩

theorem change_of_stored {input : DependencyChange} {saved : Operation}
    (checked : checkInput host id raw = .ok input)
    (stored : store.operations.get (actor.userId, host.collate input.operationKey) = some saved)
    (same : saved.fingerprint = host.digest id input) :
    change host world actor id raw store = liftM (world.live 0 >>= fun _ =>
      accessAll world 1 saved.required >>= fun _ => .ok (store, saved.result)) := by
  have reused : rule (saved.fingerprint == host.digest id input) "DEPENDENCY_KEY_REUSED" 409 = .ok () :=
    rule_eq_ok.mpr (beq_iff_eq.mpr same)
  unfold change
  rw [checked]
  cases world.live 0 with
  | error e => rfl
  | ok a =>
    simp only [Halt.lift_ok, bind, Except.bind, stored, replay, reused]
    cases accessAll world 1 saved.required with
    | error e => rfl
    | ok _ => rfl

/-- After any calls the enabled dependencies have no cycle, and the check throws for rows with a
cycle and no others; every revision counts the effective changes and has its row of the audit; a
call that is rejected leaves the store; and a call that is repeated changes nothing and returns the
stored result to an actor who may still manage what it names. -/
theorem dependencies_stay_acyclic (host : Host) (calls : List Call) :
    ¬ Cyclic (reached host calls).dependencies.toList ∧
    (∀ rows, (assertDependencyAcyclic rows = .error (.thrown (.policy "DEPENDENCY_CYCLE" 409)) ↔
        Cyclic rows) ∧ (assertDependencyAcyclic rows = .ok () ↔ ¬ Cyclic rows)) ∧
    (∀ id, (reached host calls).revision id = effectiveChanges host id .empty calls ∧
      ((reached host calls).auditOf id).map Dependency.revision =
        List.range' 1 ((reached host calls).revision id) ∧
      ((reached host calls).auditOf id).getLast? = (reached host calls).dependencies.get id) ∧
    (∀ call : Call, (∃ e, call.change host (reached host calls) = .error e) ∨ call.fate = .fails →
      (attempt host (reached host calls) call).1 = reached host calls ∧
        ∃ e, (attempt host (reached host calls) call).2 = .error e) ∧
    ∀ before call between next result, calls = before ++ call :: between → call.fate ≠ .fails →
      call.change host (reached host before) = .ok (next, result) →
      ∃ required, ∀ again : Call, again.actor.userId = call.actor.userId → again.id = call.id →
        again.raw = call.raw → again.change host (reached host calls) =
          liftM (again.world.live 0 >>= fun _ => accessAll again.world 1 required >>= fun _ =>
            .ok (reached host calls, result)) := by
  obtain ⟨sound, -⟩ := Store.sound_empty.after_calls host calls ""
  refine ⟨sound.acyclic, fun rows => ⟨assertDependencyAcyclic_iff, assertDependencyAcyclic_ok_iff⟩,
    fun k => ⟨?_, sound.audited k, sound.latest k⟩, ?_, ?_⟩
  · have counted : (reached host calls).revision k =
        Store.empty.revision k + effectiveChanges host k .empty calls :=
      (Store.sound_empty.after_calls host calls k).2
    rw [counted]
    exact Nat.zero_add _
  · intro call rejected
    unfold attempt
    rcases rejected with ⟨e, thrown⟩ | fails
    · rw [thrown]
      exact ⟨rfl, e, rfl⟩
    · cases changed : call.change host (reached host calls) with
      | error e => exact ⟨rfl, e, rfl⟩
      | ok answer =>
        simp only [fails]
        exact ⟨trivial, _, rfl⟩
  · rintro before call between next result rfl committed ok
    obtain ⟨input, saved, checked, stored, digest, rfl⟩ := operation_of_change ok
    have after : (attempt host (reached host before) call).1 = next := by
      unfold attempt
      rw [ok]
      cases fate : call.fate with
      | commits | unacknowledged => rfl
      | fails => exact absurd fate committed
    rw [← after] at stored
    have kept : (reached host (before ++ call :: between)).operations.get
        (call.actor.userId, host.collate input.operationKey) = some saved := by
      unfold reached
      rw [foldl_append, foldl_cons]
      exact operation_stays_calls stored
    refine ⟨saved.required, fun again user id raw => ?_⟩
    unfold Call.change
    rw [← id, ← raw] at checked
    rw [← user] at kept
    rw [← id] at digest
    exact change_of_stored checked kept digest

end Runs

private def openWorld (uuid : String) : World :=
  let reads : EndpointReads := ⟨fun _ => true, fun _ => [], fun _ => none⟩
  ⟨fun _ => .ok { userId := 1, permissions := ["*"], instanceScopes := [] }, reads, reads, uuid, "now"⟩

private def linkCall (key uuid : String) (up down : Nat) : Call where
  world := openWorld uuid
  actor := { userId := 1, permissions := ["*"], instanceScopes := [] }
  id := none
  raw := ⟨key, 0, some ⟨"link", ⟨⟨.server, up⟩, "*"⟩, ⟨⟨.server, down⟩, "*"⟩⟩, false⟩
  fate := .commits

private def plainHost : Host := ⟨fun _ => true, fun _ input => input.operationKey, id⟩

/-- The second of two opposite dependencies is refused. -/
example : let calls := [linkCall "a" "u" 1 2, linkCall "b" "v" 2 1]
    ((reached plainHost calls).revision "u", (reached plainHost calls).revision "v") = (1, 0) := by
  decide

end Slide.Alerts
