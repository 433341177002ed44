import Mathlib.Data.Finset.Card
import Slide.Library.Fallible
import Slide.Library.Run

/-!
# Post-order walks of a graph

`visit` walks what a node depends on before the node itself and does each node once; `walk` starts
it from every root.  A walk can check a node on entry, against the nodes on the way to it, and acts
on a state when it leaves a node.  Fuel bounds the depth: `walk_outcome` says that with one unit for
each node and one more a walk never uses it up, and that its acts form a run in dependency order.

* `walk_ends`: a walk returns or throws.
* `run_of_walk`: the acts of a successful walk, each node after what it depends on, none twice.
* `walk_total`: a walk succeeds when an invariant lets each of its acts succeed.
* `walk_refusing_iff`: a walk that refuses a node on the way to itself succeeds on an acyclic graph
  only, and on each of them.
* `acyclic_of_irreflexive`: a graph is acyclic when no walk returns to its start.
-/

/-- Why a computation with fuel has no result. -/
inductive Halt (ε : Type)
  | thrown (error : ε)
  | outOfFuel

namespace Halt

open List

variable {ε α β : Type}

instance : MonadLift (Except ε) (Except (Halt ε)) := ⟨Except.mapError .thrown⟩

@[simp] theorem lift_ok {a : α} :
    (liftM (.ok a : Except ε α) : Except (Halt ε) α) = .ok a := rfl

@[simp] theorem lift_error {e : ε} :
    (liftM (.error e : Except ε α) : Except (Halt ε) α) = .error (.thrown e) := rfl

@[simp] theorem lift_eq_ok {x : Except ε α} {a : α} :
    (liftM x : Except (Halt ε) α) = .ok a ↔ x = .ok a := by
  cases x <;> simp

/-- A sequence has enough fuel when its parts have. -/
theorem bind_ne {x : Except (Halt ε) α} {f : α → Except (Halt ε) β} (first : x ≠ .error .outOfFuel)
    (rest : ∀ a, x = .ok a → f a ≠ .error .outOfFuel) : x >>= f ≠ .error .outOfFuel := by
  cases x with
  | error e =>
    cases e with
    | thrown e => exact nofun
    | outOfFuel => exact absurd rfl first
  | ok a => exact rest a rfl

theorem lift_ne (x : Except ε α) : (liftM x : Except (Halt ε) α) ≠ .error .outOfFuel := by
  cases x <;> simp

theorem lift_bind_ne {x : Except ε α} {f : α → Except (Halt ε) β}
    (rest : ∀ a, f a ≠ .error .outOfFuel) :
    (liftM x : Except (Halt ε) α) >>= f ≠ .error .outOfFuel := by
  exact bind_ne (lift_ne x) fun a _ => rest a

end Halt

namespace Dag

open Transition

variable {α κ σ ε : Type}

/-- Nodes with a name each and the nodes they depend on. -/
structure Graph (α κ : Type) where
  name : α → κ
  deps : α → List α

/-- What a walk does at a node: a check on entry, which sees the nodes on the way, and an act. -/
structure Visitor (α σ ε : Type) where
  enter : List α → α → Except ε PUnit
  act : α → σ → Except ε σ

/-- How far a walk is: the nodes it has done, the last one first, and its state. -/
structure Progress (α σ : Type) where
  done : List α
  state : σ

section Walk

variable [DecidableEq κ]

/-- Visits a node, after what it depends on and unless it is done. -/
def visit (g : Graph α κ) (v : Visitor α σ ε) : (fuel : Nat) → (path : List α) → α →
    Progress α σ → Except (Halt ε) (Progress α σ)
  | 0, _, _, _ => .error .outOfFuel
  | fuel + 1, path, k, p => do
    v.enter path k
    if g.name k ∈ p.done.map g.name then pure p
    else do
      let p ← (g.deps k).foldlM (fun p d => visit g v fuel (k :: path) d p) p
      let state ← v.act k p.state
      pure ⟨k :: p.done, state⟩

/-- Visits each of the nodes. -/
def visitAll (g : Graph α κ) (v : Visitor α σ ε) (fuel : Nat) (path ks : List α)
    (p : Progress α σ) : Except (Halt ε) (Progress α σ) :=
  ks.foldlM (fun p k => visit g v fuel path k p) p

/-- Visits each of the roots, from the start. -/
def walk (g : Graph α κ) (v : Visitor α σ ε) (fuel : Nat) (roots : List α) (state : σ) :
    Except (Halt ε) (Progress α σ) :=
  visitAll g v fuel [] roots ⟨[], state⟩

end Walk

/-! ## Order -/

/-- Every node of a list depends on later nodes of it only. -/
def Ordered (g : Graph α κ) : List α → Prop
  | [] => True
  | k :: done => (∀ d ∈ g.deps k, d ∈ done) ∧ Ordered g done

/-- Dependencies decrease some measure. -/
def Acyclic (g : Graph α κ) (all : List α) : Prop :=
  ∃ rank : α → Nat, ∀ k ∈ all, ∀ d ∈ g.deps k, rank d < rank k

/-- The number of nodes from a node of the list on. -/
def position [DecidableEq α] : List α → α → Nat
  | [], _ => 0
  | _ :: done, a => if a ∈ done then position done a else done.length + 1

section Position

variable {g : Graph α κ} {done : List α} {k d : α}

theorem Ordered.dep_mem (ordered : Ordered g done) (mem : k ∈ done) (dep : d ∈ g.deps k) :
    d ∈ done := by
  induction done with
  | nil => cases mem
  | cons first done ih =>
    rcases List.mem_cons.mp mem with rfl | later
    · exact List.mem_cons_of_mem _ (ordered.1 d dep)
    · exact List.mem_cons_of_mem _ (ih ordered.2 later)

/-- What a node of an ordered list depends on follows it. -/
theorem Ordered.dep_follows {later earlier : List α} (ordered : Ordered g (later ++ k :: earlier))
    (dep : d ∈ g.deps k) : d ∈ earlier := by
  induction later with
  | nil => exact ordered.1 d dep
  | cons _ later ih => exact ih ordered.2

variable [DecidableEq α]

theorem position_le (mem : k ∈ done) : position done k ≤ done.length := by
  induction done with
  | nil => cases mem
  | cons first done ih =>
    rw [List.length_cons]
    unfold position
    split
    next later =>
      have before := ih later
      omega
    next => omega

/-- In an ordered list what a node depends on has the smaller position. -/
theorem Ordered.position_lt (ordered : Ordered g done) (mem : k ∈ done) (dep : d ∈ g.deps k) :
    position done d < position done k := by
  induction done with
  | nil => cases mem
  | cons first done ih =>
    by_cases later : k ∈ done
    · have dep_later : d ∈ done := ordered.2.dep_mem later dep
      rw [position, position, if_pos later, if_pos dep_later]
      exact ih ordered.2 later
    · obtain rfl : k = first := (List.mem_cons.mp mem).resolve_right later
      have dep_later : d ∈ done := ordered.1 d dep
      have low := position_le dep_later
      rw [position, position, if_neg later, if_pos dep_later]
      omega

theorem Ordered.acyclic {all : List α} (ordered : Ordered g done) (covers : ∀ k ∈ all, k ∈ done) :
    Acyclic g all :=
  ⟨position done, fun k mem _ dep => ordered.position_lt (covers k mem) dep⟩

end Position

/-! ## Runs -/

section Runs

variable {g : Graph α κ} {v : Visitor α σ ε} {all path ks order : List α} {k : α}
  {p q : Progress α σ} {Way : List α → α → Prop}

/-- One act of a walk: at a node that is not done, after all it depends on. -/
def Step (g : Graph α κ) (v : Visitor α σ ε) (all : List α) (p : Progress α σ) (k : α)
    (q : Progress α σ) : Prop :=
  k ∈ all ∧ k ∉ p.done ∧ (∀ d ∈ g.deps k, d ∈ p.done) ∧
    ∃ state, v.act k p.state = .ok state ∧ q = ⟨k :: p.done, state⟩

/-- The nodes are closed under dependency and told apart by their names. -/
structure Graph.Named (g : Graph α κ) (all : List α) : Prop where
  closed : ∀ k ∈ all, ∀ d ∈ g.deps k, d ∈ all
  inj : ∀ a ∈ all, ∀ b ∈ all, g.name a = g.name b → a = b

/-- What holds of a node and the way to it, and keeps a walk from entering a node below itself. -/
structure Discipline (g : Graph α κ) (v : Visitor α σ ε) (all : List α)
    (Way : List α → α → Prop) : Prop where
  down : ∀ {path k d}, k ∈ all → Way path k → d ∈ g.deps k → Way (k :: path) d
  fresh : ∀ {path k}, Way path k → v.enter path k = .ok () → k ∉ path

/-- An entry or an act of the walk throws. -/
def Throws (g : Graph α κ) (v : Visitor α σ ε) (all : List α) (Way : List α → α → Prop)
    (p : Progress α σ) (e : ε) : Prop :=
  ∃ order q, Run (Step g v all) p order q ∧ ∃ k ∈ all,
    (∃ path, Way path k ∧ v.enter path k = .error e) ∨
      k ∉ q.done ∧ (∀ d ∈ g.deps k, d ∈ q.done) ∧ v.act k q.state = .error e

/-- A walk from `p` throws or does all of `ks`, and none of `path`, in a run. -/
def Outcome (g : Graph α κ) (v : Visitor α σ ε) (all : List α) (Way : List α → α → Prop)
    (path ks : List α) (p : Progress α σ) (result : Except (Halt ε) (Progress α σ)) : Prop :=
  (∃ e, result = .error (.thrown e) ∧ Throws g v all Way p e) ∨
    ∃ q order, result = .ok q ∧ Run (Step g v all) p order q ∧ (∀ k ∈ ks, k ∈ q.done) ∧
      ∀ a ∈ path, a ∉ q.done

theorem Throws.after {e : ε} (run : Run (Step g v all) p order q)
    (throws : Throws g v all Way q e) : Throws g v all Way p e := by
  obtain ⟨later, r, more, where_⟩ := throws
  exact ⟨order ++ later, r, run.trans more, where_⟩

/-- A run does the nodes of its order. -/
theorem done_eq_of_run (run : Run (Step g v all) p order q) : q.done = order.reverse ++ p.done := by
  induction run with
  | nil => rfl
  | snoc _ last ih =>
    obtain ⟨-, -, -, _, -, rfl⟩ := last
    rw [List.reverse_append, List.append_assoc, ← ih]
    rfl

theorem done_subset_of_run (run : Run (Step g v all) p order q) : p.done ⊆ q.done :=
  fun _ mem => done_eq_of_run run ▸ List.mem_append_right order.reverse mem

theorem done_mem_of_run (run : Run (Step g v all) p order q) (start : p.done ⊆ all) :
    q.done ⊆ all := by
  refine run.invariant (P := fun q => q.done ⊆ all) start ?_
  rintro _ k _ inside ⟨mem, -, -, _, -, rfl⟩
  exact List.cons_subset.mpr ⟨mem, inside⟩

theorem ordered_of_run (run : Run (Step g v all) p order q) (start : Ordered g p.done) :
    Ordered g q.done := by
  refine run.invariant (P := fun q => Ordered g q.done) start ?_
  rintro _ k _ ordered ⟨-, -, deps, _, -, rfl⟩
  exact ⟨deps, ordered⟩

end Runs

/-! ## Outcomes -/

section Outcomes

variable {g : Graph α κ} {v : Visitor α σ ε} {all path ks : List α} {k : α} {p : Progress α σ}
  {Way : List α → α → Prop} {fuel : Nat}

theorem Graph.Named.seen_iff (named : g.Named all) (inside : p.done ⊆ all) (mem : k ∈ all) :
    g.name k ∈ p.done.map g.name ↔ k ∈ p.done := by
  refine ⟨fun seen => ?_, List.mem_map_of_mem⟩
  obtain ⟨a, done, same⟩ := List.mem_map.mp seen
  exact named.inj a (inside done) k mem same ▸ done

variable [DecidableEq κ]

/-- A list of visits has an outcome when each visit has one. -/
theorem visitAll_outcome
    (each : ∀ k ∈ ks, ∀ p : Progress α σ, p.done ⊆ all → (∀ a ∈ path, a ∉ p.done) →
      Outcome g v all Way path [k] p (visit g v fuel path k p))
    (inside : p.done ⊆ all) (off : ∀ a ∈ path, a ∉ p.done) :
    Outcome g v all Way path ks p (visitAll g v fuel path ks p) := by
  induction ks generalizing p with
  | nil => exact .inr ⟨p, [], rfl, .nil, nofun, off⟩
  | cons k ks ih =>
    have split : visitAll g v fuel path (k :: ks) p =
        visit g v fuel path k p >>= visitAll g v fuel path ks := rfl
    rw [split]
    rcases each k List.mem_cons_self p inside off with
      ⟨e, thrown, throws⟩ | ⟨q, order, ok, run, done, off'⟩
    · rw [thrown]
      exact .inl ⟨e, rfl, throws⟩
    · rw [ok]
      have rest := ih (p := q) (fun k mem => each k (List.mem_cons_of_mem _ mem))
        (done_mem_of_run run inside) off'
      rcases rest with ⟨e, thrown, throws⟩ | ⟨r, later, ok', run', done', off''⟩
      · exact .inl ⟨e, thrown, throws.after run⟩
      · refine .inr ⟨r, order ++ later, ok', run.trans run', fun a mem => ?_, off''⟩
        rcases List.mem_cons.mp mem with rfl | mem
        · exact done_subset_of_run run' (done a List.mem_cons_self)
        · exact done' a mem

/-- With fuel for the nodes that are not on the way a visit throws or does its node. -/
theorem visit_outcome (named : g.Named all) (discipline : Discipline g v all Way)
    (enough : all.length < fuel + path.length) (nodup : path.Nodup) (onPath : path ⊆ all)
    (mem : k ∈ all) (way : Way path k) (inside : p.done ⊆ all) (off : ∀ a ∈ path, a ∉ p.done) :
    Outcome g v all Way path [k] p (visit g v fuel path k p) := by
  induction fuel generalizing path k p with
  | zero =>
    have short : path.length ≤ all.length := (List.subperm_of_subset nodup onPath).length_le
    omega
  | succ fuel ih =>
    unfold visit
    cases entered : v.enter path k with
    | error e => exact .inl ⟨e, rfl, [], p, .nil, k, mem, .inl ⟨path, way, entered⟩⟩
    | ok =>
      have fresh : k ∉ path := discipline.fresh way entered
      change Outcome g v all Way path [k] p
        (if g.name k ∈ p.done.map g.name then .ok p else
          visitAll g v fuel (k :: path) (g.deps k) p >>= fun q =>
            liftM (v.act k q.state) >>= fun state => .ok ⟨k :: q.done, state⟩)
      by_cases done : k ∈ p.done
      · rw [if_pos ((named.seen_iff inside mem).mpr done)]
        exact .inr ⟨p, [], rfl, .nil, fun a only => List.mem_singleton.mp only ▸ done, off⟩
      · rw [if_neg (mt (named.seen_iff inside mem).mp done)]
        have off' : ∀ a ∈ k :: path, a ∉ p.done := List.forall_mem_cons.mpr ⟨done, off⟩
        have below : Outcome g v all Way (k :: path) (g.deps k) p
            (visitAll g v fuel (k :: path) (g.deps k) p) :=
          visitAll_outcome (fun d dep q inside off =>
            ih (by simp only [List.length_cons]; omega) (List.nodup_cons.mpr ⟨fresh, nodup⟩)
              (List.cons_subset.mpr ⟨mem, onPath⟩) (named.closed k mem d dep)
              (discipline.down mem way dep) inside off) inside off'
        rcases below with ⟨e, thrown, throws⟩ | ⟨q, order, ok, run, deps, away⟩
        · rw [thrown]
          exact .inl ⟨e, rfl, throws⟩
        · rw [ok]
          obtain ⟨new, away⟩ := List.forall_mem_cons.mp away
          change Outcome g v all Way path [k] p
            (liftM (v.act k q.state) >>= fun state => .ok ⟨k :: q.done, state⟩)
          cases acts : v.act k q.state with
          | error e => exact .inl ⟨e, rfl, order, q, run, k, mem, .inr ⟨new, deps, acts⟩⟩
          | ok state =>
            have last : Step g v all q k ⟨k :: q.done, state⟩ :=
              ⟨mem, new, deps, state, acts, rfl⟩
            refine .inr ⟨_, order ++ [k], rfl, .snoc run last, ?_, fun a way => ?_⟩
            · exact fun a only => List.mem_singleton.mp only ▸ List.mem_cons_self
            · rintro (_ | ⟨_, before⟩)
              · exact fresh way
              · exact away a way before

/-- With fuel for each node and one unit more a walk throws or does all roots. -/
theorem walk_outcome {roots : List α} {state : σ} (named : g.Named all)
    (discipline : Discipline g v all Way) (enough : all.length < fuel) (inside : roots ⊆ all)
    (way : ∀ k ∈ roots, Way [] k) :
    Outcome g v all Way [] roots ⟨[], state⟩ (walk g v fuel roots state) :=
  visitAll_outcome (fun k mem _ start off =>
    visit_outcome named discipline (by simpa using enough) List.nodup_nil (List.nil_subset all)
      (inside mem) (way k mem) start off) (List.nil_subset all) nofun

section Results

variable {roots : List α} {state : σ} {q : Progress α σ}

/-- A walk returns or throws. -/
theorem walk_ends (named : g.Named all) (discipline : Discipline g v all Way)
    (enough : all.length < fuel) (inside : roots ⊆ all) (way : ∀ k ∈ roots, Way [] k) :
    walk g v fuel roots state ≠ .error .outOfFuel := by
  have outcome : Outcome g v all Way [] roots ⟨[], state⟩ (walk g v fuel roots state) :=
    walk_outcome named discipline enough inside way
  rcases outcome with ⟨e, thrown, -⟩ | ⟨q, order, ok, -⟩
  · rw [thrown]
    exact nofun
  · rw [ok]
    exact nofun

/-- The acts of a successful walk are a run that does every root. -/
theorem run_of_walk (named : g.Named all) (discipline : Discipline g v all Way)
    (enough : all.length < fuel) (inside : roots ⊆ all) (way : ∀ k ∈ roots, Way [] k)
    (ok : walk g v fuel roots state = .ok q) :
    ∃ order, Run (Step g v all) ⟨[], state⟩ order q ∧ ∀ k ∈ roots, k ∈ q.done := by
  have outcome : Outcome g v all Way [] roots ⟨[], state⟩ (walk g v fuel roots state) :=
    walk_outcome named discipline enough inside way
  rcases outcome with ⟨e, thrown, -⟩ | ⟨r, order, ok', run, done, -⟩
  · rw [ok] at thrown
    cases thrown
  · obtain rfl := Except.ok.inj (ok.symm.trans ok')
    exact ⟨order, run, done⟩

/-- A walk succeeds when no entry throws and an invariant lets each act succeed and is kept. -/
theorem walk_total {P : Progress α σ → Prop} (named : g.Named all)
    (discipline : Discipline g v all Way) (enough : all.length < fuel) (inside : roots ⊆ all)
    (way : ∀ k ∈ roots, Way [] k) (enters : ∀ path k, Way path k → v.enter path k = .ok ())
    (start : P ⟨[], state⟩)
    (acts : ∀ p : Progress α σ, ∀ k ∈ all, P p → k ∉ p.done → (∀ d ∈ g.deps k, d ∈ p.done) →
      ∃ after, v.act k p.state = .ok after ∧ P ⟨k :: p.done, after⟩) :
    ∃ q, walk g v fuel roots state = .ok q ∧ P q := by
  have keeps {order : List α} {q : Progress α σ} (run : Run (Step g v all) ⟨[], state⟩ order q) :
      P q := by
    refine run.invariant start ?_
    rintro p k _ holds ⟨mem, new, deps, after, acted, rfl⟩
    obtain ⟨after', acted', kept⟩ := acts p k mem holds new deps
    obtain rfl := Except.ok.inj (acted.symm.trans acted')
    exact kept
  have outcome : Outcome g v all Way [] roots ⟨[], state⟩ (walk g v fuel roots state) :=
    walk_outcome named discipline enough inside way
  rcases outcome with ⟨e, -, order, p, run, k, mem, ⟨path, way, throws⟩ | ⟨new, deps, throws⟩⟩ |
    ⟨q, order, ok, run, -⟩
  · rw [enters path k way] at throws
    cases throws
  · obtain ⟨after, acted, -⟩ := acts p k mem (keeps run) new deps
    rw [acted] at throws
    cases throws
  · exact ⟨q, ok, keeps run⟩

end Results

end Outcomes

/-! ## Cycles -/

section Cycles

variable {g : Graph α κ} {v : Visitor α σ ε} {all : List α} {fuel : Nat} {e : ε}

/-- The nodes on the way have greater ranks. -/
def Descends (rank : α → Nat) (path : List α) (k : α) : Prop := ∀ a ∈ path, rank k < rank a

/-- Along a rank a walk of any kind enters no node below itself. -/
theorem Descends.discipline {rank : α → Nat}
    (ranked : ∀ k ∈ all, ∀ d ∈ g.deps k, rank d < rank k) :
    Discipline g v all (Descends rank) where
  down mem way dep := List.forall_mem_cons.mpr
    ⟨ranked _ mem _ dep, fun a before => Nat.lt_trans (ranked _ mem _ dep) (way a before)⟩
  fresh way _ on := Nat.lt_irrefl _ (way _ on)

/-- A walk that only refuses the nodes on the way to themselves. -/
def refusing [DecidableEq α] (e : ε) : Visitor α PUnit ε where
  enter path k := if k ∈ path then .error e else .ok ()
  act _ state := .ok state

variable [DecidableEq α]

theorem refusing_discipline :
    Discipline g (refusing e : Visitor α PUnit ε) all fun _ _ => True where
  down _ _ _ := trivial
  fresh _ entered on := by
    have refused : (refusing e : Visitor α PUnit ε).enter _ _ = .error e := if_pos on
    rw [refused] at entered
    cases entered

variable [DecidableEq κ]

variable {roots : List α}

/-- A walk that refuses cycles always ends. -/
theorem walk_refusing_roots_ends (named : g.Named all) (enough : all.length < fuel)
    (inside : roots ⊆ all) : walk g (refusing e) fuel roots () ≠ .error .outOfFuel :=
  walk_ends named refusing_discipline enough inside fun _ _ => trivial

theorem walk_refusing_ends (named : g.Named all) (enough : all.length < fuel) :
    walk g (refusing e) fuel all () ≠ .error .outOfFuel :=
  walk_refusing_roots_ends named enough (List.Subset.refl all)

/-- It throws for a cycle only. -/
theorem walk_refusing_roots_error {e' : ε} (named : g.Named all) (enough : all.length < fuel)
    (inside : roots ⊆ all) (thrown : walk g (refusing e) fuel roots () = .error (.thrown e')) :
    e' = e := by
  have outcome : Outcome g (refusing e) all (fun _ _ => True) [] roots ⟨[], ()⟩
      (walk g (refusing e) fuel roots ()) :=
    walk_outcome named refusing_discipline enough inside fun _ _ => trivial
  rcases outcome with ⟨e'', thrown', -, q, -, k, -, ⟨path, -, entered⟩ | ⟨-, -, acted⟩⟩ |
    ⟨q, order, ok, -⟩
  · obtain rfl := Halt.thrown.inj (Except.error.inj (thrown.symm.trans thrown'))
    unfold refusing at entered
    dsimp only at entered
    split at entered
    · exact (Except.error.inj entered).symm
    · cases entered
  · cases acted
  · rw [ok] at thrown
    cases thrown

/-- From roots that leave out leaves only it succeeds exactly on an acyclic graph. -/
theorem walk_refusing_roots_iff (named : g.Named all) (enough : all.length < fuel)
    (inside : roots ⊆ all) (sources : ∀ k ∈ all, k ∉ roots → g.deps k = []) :
    (∃ q, walk g (refusing e) fuel roots () = .ok q) ↔ Acyclic g all := by
  constructor
  · rintro ⟨q, ok⟩
    obtain ⟨order, run, done⟩ :=
      run_of_walk named refusing_discipline enough inside (fun _ _ => trivial) ok
    obtain ⟨rank, ranked⟩ := (ordered_of_run run trivial).acyclic done
    refine ⟨rank, fun k mem d dep => ?_⟩
    by_cases root : k ∈ roots
    · exact ranked k root d dep
    · rw [sources k mem root] at dep
      cases dep
  · rintro ⟨rank, ranked⟩
    have discipline : Discipline g (refusing e) all (Descends rank) := Descends.discipline ranked
    have enters : ∀ path k, Descends rank path k →
        (refusing e : Visitor α PUnit ε).enter path k = .ok () := fun path k way =>
      if_neg fun on => Nat.lt_irrefl _ (way k on)
    have total : ∃ q, walk g (refusing e) fuel roots () = .ok q ∧ True :=
      walk_total (P := fun _ => True) named discipline enough inside
        (fun _ _ => nofun) enters trivial fun _ _ _ _ _ _ => ⟨(), rfl, trivial⟩
    obtain ⟨q, ok, -⟩ := total
    exact ⟨q, ok⟩

/-- It succeeds exactly on an acyclic graph. -/
theorem walk_refusing_iff (named : g.Named all) (enough : all.length < fuel) :
    (∃ q, walk g (refusing e) fuel all () = .ok q) ↔ Acyclic g all :=
  walk_refusing_roots_iff named enough (List.Subset.refl all) fun _ mem out => absurd mem out

end Cycles

section Closed

variable {g : Graph α κ} {all : List α}

/-- A rank excludes every closed walk. -/
theorem Acyclic.irreflexive (acyclic : Acyclic g all) (closed : ∀ k ∈ all, ∀ d ∈ g.deps k, d ∈ all)
    {k : α} (mem : k ∈ all) : ¬ Relation.TransGen (fun a b => b ∈ g.deps a) k k := by
  obtain ⟨rank, ranked⟩ := acyclic
  have descends {a b : α} (inside : a ∈ all) (walk : Relation.TransGen (fun a b => b ∈ g.deps a) a b) :
      b ∈ all ∧ rank b < rank a := by
    induction walk with
    | single dep => exact ⟨closed _ inside _ dep, ranked _ inside _ dep⟩
    | tail _ dep ih => exact ⟨closed _ ih.1 _ dep, (ranked _ ih.1 _ dep).trans ih.2⟩
  exact fun cycle => Nat.lt_irrefl _ (descends mem cycle).2

/-- Without closed walks the number of nodes ahead is a rank. -/
theorem acyclic_of_irreflexive (closed : ∀ k ∈ all, ∀ d ∈ g.deps k, d ∈ all)
    (none : ∀ k ∈ all, ¬ Relation.TransGen (fun a b => b ∈ g.deps a) k k) : Acyclic g all := by
  classical
  let ahead (k : α) : Finset α :=
    all.toFinset.filter fun d => Relation.TransGen (fun a b => b ∈ g.deps a) k d
  refine ⟨fun k => (ahead k).card, fun k mem d dep => Finset.card_lt_card ?_⟩
  have inside : d ∈ all := closed k mem d dep
  refine Finset.ssubset_iff_of_subset (fun b after => ?_) |>.mpr ⟨d, ?_, ?_⟩
  · obtain ⟨known, walk⟩ := Finset.mem_filter.mp after
    exact Finset.mem_filter.mpr ⟨known, .head dep walk⟩
  · exact Finset.mem_filter.mpr ⟨List.mem_toFinset.mpr inside, .single dep⟩
  · exact fun own => none d inside (Finset.mem_filter.mp own).2

end Closed

end Dag
