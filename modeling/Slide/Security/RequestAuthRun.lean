import Mathlib.Data.List.Induction
import Mathlib.Tactic.IntervalCases
import Slide.Security.RequestAuth

/-!
# A signed request is executed once

A row of a nonce outlives the time in which its timestamp passes the check of the database, so a nonce
that is gone from the table can no longer be claimed for the same timestamp; and a text that was signed
is taken apart into timestamp, nonce and body in one way.
-/

namespace Slide.Security

open List

variable {host : AuthHost} {secret : String} {signed : Set SignedRequest} {w : AuthWorld}
  {events : List AuthEvent} {input : AuthInput} {now : Int} {rows : NonceTable} {nonce : String}
  {timestamp databaseNow : Int}

/-! ## The checks -/

theorem mem_hexDigit (n : Nat) (small : n < 16) : hexDigit n ≠ '.' := by
  unfold hexDigit
  interval_cases n <;> decide

theorem dot_notMem_toHex (digest : List UInt8) : '.' ∉ (toHex digest).toList := by
  unfold toHex
  rw [String.toList_ofList]
  intro mem
  obtain ⟨byte, -, digit⟩ := mem_flatMap.mp mem
  have bound := byte.toNat_lt
  simp only [mem_cons, not_mem_nil, or_false] at digit
  rcases digit with high | low
  · exact mem_hexDigit _ (by omega) high.symm
  · exact mem_hexDigit _ (by omega) low.symm

theorem Seen.no_dot {value : String} (seen : Seen host secret signed value) :
    '.' ∉ value.toList := by
  obtain ⟨r, -, rfl | rfl | rfl⟩ := seen
  · exact r.timestamp_text
  · exact r.nonce_text
  · exact dot_notMem_toHex _

theorem verified_eq_some (passed : verified host secret now input = some (nonce, timestamp)) :
    ∃ text, input.timestamp = some text ∧ input.nonce = some nonce ∧
      host.number text = some timestamp ∧ (now - timestamp).natAbs ≤ 30000 := by
  unfold verified at passed
  split at passed
  next text nonce' signature of_text of_nonce of_signature =>
    split at passed
    next timestamp' number =>
      split at passed
      · cases passed
      next checks =>
        split at passed
        · cases passed
          rw [not_or, not_or] at checks
          exact ⟨text, of_text, of_nonce, number, by omega⟩
        · cases passed
    next => cases passed
  next => cases passed

theorem Resent.of_verified (resent : Resent host secret signed input now)
    (passed : verified host secret now input = some (nonce, timestamp)) :
    ∃ r ∈ signed, input.timestamp = some r.timestamp ∧ nonce = r.nonce ∧
      input.nonce = some r.nonce ∧ input.body = r.body ∧ host.number r.timestamp = some timestamp ∧
      (now - timestamp).natAbs ≤ 30000 := by
  obtain ⟨text, of_text, of_nonce, number, near⟩ := verified_eq_some passed
  obtain ⟨r, mem, same⟩ := resent.unforgeable text of_text nonce of_nonce (passed ▸ rfl)
  have ascii : '.'.val.toNat < 128 := by decide
  obtain ⟨rfl, rfl, body⟩ := Utf8.fields_inj ascii
    ⟨(resent.timestamp text of_text).no_dot, (resent.nonce nonce of_nonce).no_dot⟩
    ⟨r.timestamp_text, r.nonce_text⟩ same
  exact ⟨r, mem, of_text, rfl, of_nonce, body, number, near⟩

/-! ## The table -/

theorem claimNonce_cases :
    ((databaseNow - timestamp).natAbs ≤ 30000 ∧ rows.get (domain, nonce) = none ∧
      claimNonce rows databaseNow nonce timestamp =
        (rows.put (domain, nonce) (max (timestamp + 30000) (databaseNow + 60000)), true)) ∨
    claimNonce rows databaseNow nonce timestamp = (rows, false) := by
  unfold claimNonce
  split
  next near =>
    split
    · exact .inr rfl
    next absent => exact .inl ⟨near, absent, rfl⟩
  next => exact .inr rfl

theorem get_cleanup {chosen : List String} {key : String × String} {expiresAt : Int}
    (found : rows.get key = some expiresAt) :
    (cleanup rows databaseNow chosen).get key = some expiresAt ∨ expiresAt < databaseNow := by
  unfold cleanup
  rw [Table.get_deleteAll]
  split
  next mem =>
    right
    have expired := (mem_filter.mp mem).2
    rw [found] at expired
    exact of_decide_eq_true expired
  next => exact .inl found

/-- The nonce cannot be claimed for the timestamp: its row is there, or its time is over. -/
def Spent (w : AuthWorld) (nonce : String) (timestamp : Int) : Prop :=
  (∃ expiresAt, w.rows.get (domain, nonce) = some expiresAt ∧ timestamp + 30000 ≤ expiresAt) ∨
    timestamp + 30000 < w.databaseNow

theorem Spent.not_new (spent : Spent w nonce timestamp) :
    claimNonce w.rows w.databaseNow nonce timestamp = (w.rows, false) := by
  have cases := @claimNonce_cases w.rows nonce timestamp w.databaseNow
  rcases cases with ⟨near, absent, -⟩ | same
  · rcases spent with ⟨expiresAt, found, -⟩ | past
    · cases found.symm.trans absent
    · omega
  · exact same

theorem get_claimNonce {key : String × String} {expiresAt : Int}
    (found : rows.get key = some expiresAt) :
    (claimNonce rows databaseNow nonce timestamp).1.get key = some expiresAt := by
  have cases := @claimNonce_cases rows nonce timestamp databaseNow
  rcases cases with ⟨-, absent, put⟩ | same
  · rw [put, Table.get_put_ne, found]
    rintro rfl
    cases found.symm.trans absent
  · rw [same, found]

theorem Spent.of_rows (spent : Spent w nonce timestamp) {w' : AuthWorld}
    (later : w.databaseNow ≤ w'.databaseNow)
    (kept : ∀ key expiresAt, w.rows.get key = some expiresAt →
      w'.rows.get key = some expiresAt ∨ expiresAt < w'.databaseNow) : Spent w' nonce timestamp := by
  rcases spent with ⟨expiresAt, found, long⟩ | past
  · rcases kept _ expiresAt found with found' | expired
    · exact .inl ⟨expiresAt, found', long⟩
    · right
      omega
  · right
    omega

theorem Spent.step (spent : Spent w nonce timestamp) (event : AuthEvent) :
    Spent (w.step host secret event) nonce timestamp := by
  cases event with
  | authenticate | acknowledge | fail =>
    apply spent.of_rows
    · simp only [AuthWorld.step]
      repeat' split
      all_goals exact le_rfl
    · intro key expiresAt found
      left
      simp only [AuthWorld.step]
      repeat' split
      all_goals exact found
  | insert i =>
    apply spent.of_rows
    · simp only [AuthWorld.step]
      repeat' split
      all_goals exact le_rfl
    · intro key expiresAt found
      left
      simp only [AuthWorld.step]
      split
      next call here =>
        split
        next => exact get_claimNonce found
        next => exact found
      next => exact found
  | cleanup chosen => exact spent.of_rows le_rfl fun key expiresAt found => get_cleanup found
  | tick elapsed =>
    apply spent.of_rows
    · exact Int.le_add_of_nonneg_right (Int.natCast_nonneg elapsed)
    · intro key expiresAt found
      exact .inl found

/-! ## The run -/

/-- What holds of the calls whenever only what was seen is sent. -/
structure AuthInv (host : AuthHost) (signed : Set SignedRequest) (w : AuthWorld) : Prop where
  /-- A call that goes on to claim is about a signed request. -/
  signed : ∀ call ∈ w.calls, ∀ nonce timestamp, call.claim = some (nonce, timestamp) → ∃ r ∈ signed,
    call.input.timestamp = some r.timestamp ∧ nonce = r.nonce ∧ call.input.nonce = some r.nonce ∧
    call.input.body = r.body ∧ host.number r.timestamp = some timestamp ∧
    (call.now - timestamp).natAbs ≤ 30000
  /-- A nonce that was new is spent. -/
  spent : ∀ call ∈ w.calls, ∀ insertedAt, call.inserted = some (insertedAt, true) →
    ∃ nonce timestamp, call.claim = some (nonce, timestamp) ∧
      (insertedAt - timestamp).natAbs ≤ 30000 ∧ Spent w nonce timestamp
  answered : ∀ call ∈ w.calls, call.answer = some (.ok true) →
    ∃ insertedAt, call.inserted = some (insertedAt, true)
  once : ∀ (i j : Nat) (c d : AuthCall), w.calls[i]? = some c → w.calls[j]? = some d →
    (∃ insertedAt, c.inserted = some (insertedAt, true)) →
    (∃ insertedAt, d.inserted = some (insertedAt, true)) →
    c.claim.map Prod.fst = d.claim.map Prod.fst → i = j

theorem AuthInv.of_calls {w' : AuthWorld} (inv : AuthInv host signed w) (same : w'.calls = w.calls)
    (spent : ∀ nonce timestamp, Spent w nonce timestamp → Spent w' nonce timestamp) :
    AuthInv host signed w' where
  signed := same ▸ inv.signed
  spent := by
    intro call mem insertedAt inserted
    obtain ⟨nonce, timestamp, claim, near, before⟩ := inv.spent call (same ▸ mem) insertedAt inserted
    exact ⟨nonce, timestamp, claim, near, spent nonce timestamp before⟩
  answered := same ▸ inv.answered
  once := same ▸ inv.once

theorem AuthInv.set_answer {i : Nat} {call : AuthCall} {answer : Except Unit Bool}
    (inv : AuthInv host signed w) (here : w.calls[i]? = some call)
    (answered : answer = .ok true → ∃ insertedAt, call.inserted = some (insertedAt, true)) :
    AuthInv host signed { w with calls := w.calls.set i { call with answer := some answer } } := by
  have mem := mem_of_getElem? here
  refine ⟨fun c inside => ?_, fun c inside => ?_, fun c inside ok => ?_,
    fun j k c d at_j at_k => ?_⟩
  · rcases mem_or_eq_of_mem_set inside with old | rfl
    · exact inv.signed c old
    · exact inv.signed call mem
  · rcases mem_or_eq_of_mem_set inside with old | rfl
    · exact inv.spent c old
    · exact inv.spent call mem
  · rcases mem_or_eq_of_mem_set inside with old | rfl
    · exact inv.answered c old ok
    · exact answered (some.inj ok)
  · have origin {j : Nat} {c : AuthCall}
        (at_j : (w.calls.set i { call with answer := some answer })[j]? = some c) :
        ∃ c', w.calls[j]? = some c' ∧ c'.inserted = c.inserted ∧ c'.claim = c.claim := by
      by_cases same : i = j
      · subst same
        rw [List.getElem?_set_self (List.getElem?_eq_some_iff.mp here).1] at at_j
        cases at_j
        exact ⟨call, here, rfl, rfl⟩
      · rw [getElem?_set_ne same] at at_j
        exact ⟨c, at_j, rfl, rfl⟩
    obtain ⟨c', at_j', inserted, claim⟩ := origin at_j
    obtain ⟨d', at_k', inserted', claim'⟩ := origin at_k
    rw [← inserted, ← inserted', ← claim, ← claim']
    exact inv.once j k c' d' at_j' at_k'

theorem AuthInv.authenticate (inv : AuthInv host signed w)
    (resent : Resent host secret signed input now) :
    AuthInv host signed (w.step host secret (.authenticate input now)) := by
  generalize event : AuthEvent.authenticate input now = e
  have stay {nonce : String} {timestamp : Int} (spent : Spent w nonce timestamp) :
      Spent (w.step host secret e) nonce timestamp := spent.step e
  obtain ⟨answer, fails, calls⟩ : ∃ answer : Option (Except Unit Bool), answer ≠ some (.ok true) ∧
      (w.step host secret e).calls =
        w.calls ++ [⟨input, now, verified host secret now input, none, answer⟩] := by
    rw [← event]
    refine ⟨_, ?_, rfl⟩
    split <;> nofun
  have split_calls {c : AuthCall} (mem : c ∈ (w.step host secret e).calls) :
      c ∈ w.calls ∨ c = ⟨input, now, verified host secret now input, none, answer⟩ := by
    rw [calls] at mem
    exact (mem_append.mp mem).imp_right mem_singleton.mp
  have old {j : Nat} {c : AuthCall} (at_j : (w.step host secret e).calls[j]? = some c)
      (inserted : ∃ insertedAt, c.inserted = some (insertedAt, true)) : w.calls[j]? = some c := by
    rw [calls, getElem?_append] at at_j
    split at at_j
    · exact at_j
    · obtain rfl := mem_singleton.mp (mem_of_getElem? at_j)
      obtain ⟨insertedAt, absurd⟩ := inserted
      cases absurd
  refine ⟨fun c mem nonce timestamp claim => ?_, fun c mem insertedAt inserted => ?_,
    fun c mem ok => ?_, fun j k c d at_j at_k new new' same => ?_⟩
  · rcases split_calls mem with before | rfl
    · exact inv.signed c before nonce timestamp claim
    · exact resent.of_verified claim
  · rcases split_calls mem with before | rfl
    · obtain ⟨nonce, timestamp, claim, near, spent⟩ := inv.spent c before insertedAt inserted
      exact ⟨nonce, timestamp, claim, near, stay spent⟩
    · cases inserted
  · rcases split_calls mem with before | rfl
    · exact inv.answered c before ok
    · exact absurd ok fails
  · exact inv.once j k c d (old at_j new) (old at_k new') new new' same

theorem AuthInv.not_new (inv : AuthInv host signed w)
    (distinct : ∀ r ∈ signed, ∀ s ∈ signed, r.nonce = s.nonce → r = s) {call c : AuthCall}
    (mem : call ∈ w.calls) (inside : c ∈ w.calls) (claim : call.claim = some (nonce, timestamp))
    (new : ∃ insertedAt, c.inserted = some (insertedAt, true))
    (same : c.claim.map Prod.fst = some nonce) : Spent w nonce timestamp := by
  obtain ⟨insertedAt, inserted⟩ := new
  obtain ⟨nonce', timestamp', claim', -, spent⟩ := inv.spent c inside insertedAt inserted
  obtain ⟨r, signed_r, -, rfl, -, -, number, -⟩ := inv.signed call mem nonce timestamp claim
  obtain ⟨s, signed_s, -, rfl, -, -, number', -⟩ := inv.signed c inside nonce' timestamp' claim'
  rw [claim'] at same
  obtain rfl := distinct s signed_s r signed_r (some.inj same)
  cases number.symm.trans number'
  exact spent

theorem claimNonce_new {rows' : NonceTable}
    (claimed : claimNonce w.rows w.databaseNow nonce timestamp = (rows', true)) :
    (w.databaseNow - timestamp).natAbs ≤ 30000 ∧ ¬ Spent w nonce timestamp ∧
      ∀ w' : AuthWorld, w'.rows = rows' → Spent w' nonce timestamp := by
  refine ⟨?_, fun spent => ?_, fun w' of_rows => ?_⟩
  · unfold claimNonce at claimed
    split at claimed
    next near => exact near
    next => cases claimed
  · rw [spent.not_new] at claimed
    cases claimed
  · have cases := @claimNonce_cases w.rows nonce timestamp w.databaseNow
    rcases cases with ⟨-, -, put⟩ | same
    · rw [put] at claimed
      left
      refine ⟨max (timestamp + 30000) (w.databaseNow + 60000), ?_, Int.le_max_left ..⟩
      rw [of_rows, ← (Prod.mk.inj claimed).1, Table.get_put_self]
    · rw [same] at claimed
      cases claimed

theorem AuthInv.insert {i : Nat} (inv : AuthInv host signed w)
    (distinct : ∀ r ∈ signed, ∀ s ∈ signed, r.nonce = s.nonce → r = s) :
    AuthInv host signed (w.step host secret (.insert i)) := by
  have stay {nonce : String} {timestamp : Int} (spent : Spent w nonce timestamp) :
      Spent (w.step host secret (.insert i)) nonce timestamp := spent.step _
  simp only [AuthWorld.step] at stay ⊢
  cases here : w.calls[i]? with
  | none => exact inv
  | some call =>
    rw [here] at stay
    dsimp only at stay ⊢
    split
    next nonce timestamp claim fresh =>
      rw [claim, fresh] at stay
      dsimp only at stay
      have mem := mem_of_getElem? here
      cases claimed : claimNonce w.rows w.databaseNow nonce timestamp with
      | mk rows isNew =>
        rw [claimed] at stay
        dsimp only at stay ⊢
        have at_eq {j : Nat} {c : AuthCall} (at_j : (w.calls.set i
            { call with inserted := some (w.databaseNow, isNew) })[j]? = some c) :
            (j = i ∧ c = { call with inserted := some (w.databaseNow, isNew) }) ∨
              (j ≠ i ∧ w.calls[j]? = some c) := by
          by_cases same : j = i
          · rw [same, List.getElem?_set_self (List.getElem?_eq_some_iff.mp here).1] at at_j
            exact .inl ⟨same, (some.inj at_j).symm⟩
          · rw [getElem?_set_ne (Ne.symm same)] at at_j
            exact .inr ⟨same, at_j⟩
        -- the call itself and another one whose nonce was new
        have apart {d : AuthCall} (inside : d ∈ w.calls) (new : isNew = true)
            (new' : ∃ insertedAt, d.inserted = some (insertedAt, true))
            (same : call.claim.map Prod.fst = d.claim.map Prod.fst) : False := by
          subst new
          have spent := inv.not_new distinct mem inside claim new' (same.symm.trans (by rw [claim]; rfl))
          exact (claimNonce_new claimed).2.1 spent
        refine ⟨fun c inside => ?_, fun c inside insertedAt inserted => ?_, fun c inside ok => ?_,
          fun j k c d at_j at_k new new' same => ?_⟩
        · rcases mem_or_eq_of_mem_set inside with old | rfl
          · exact inv.signed c old
          · exact inv.signed call mem
        · rcases mem_or_eq_of_mem_set inside with old | rfl
          · obtain ⟨n, t, of_c, near, spent⟩ := inv.spent c old insertedAt inserted
            exact ⟨n, t, of_c, near, stay spent⟩
          · cases inserted
            obtain ⟨near, -, spent⟩ := claimNonce_new claimed
            exact ⟨nonce, timestamp, claim, near, spent _ rfl⟩
        · rcases mem_or_eq_of_mem_set inside with old | rfl
          · exact inv.answered c old ok
          · obtain ⟨insertedAt, absurd⟩ := inv.answered call mem ok
            cases fresh.symm.trans absurd
        · rcases at_eq at_j with ⟨rfl, rfl⟩ | ⟨-, old⟩ <;>
            rcases at_eq at_k with ⟨rfl, rfl⟩ | ⟨-, old'⟩
          · rfl
          · obtain ⟨insertedAt, inserted⟩ := new
            cases inserted
            exact (apart (mem_of_getElem? old') rfl new' same).elim
          · obtain ⟨insertedAt, inserted⟩ := new'
            cases inserted
            exact (apart (mem_of_getElem? old) rfl new same.symm).elim
          · exact inv.once j k c d old old' new new' same
    next => exact inv

theorem AuthInv.step (inv : AuthInv host signed w)
    (distinct : ∀ r ∈ signed, ∀ s ∈ signed, r.nonce = s.nonce → r = s) (event : AuthEvent)
    (sent : ∀ input now, event = .authenticate input now → Resent host secret signed input now) :
    AuthInv host signed (w.step host secret event) := by
  have stay {nonce : String} {timestamp : Int} (spent : Spent w nonce timestamp) :
      Spent (w.step host secret event) nonce timestamp := spent.step event
  cases event with
  | authenticate input now => exact inv.authenticate (sent input now rfl)
  | insert i => exact inv.insert distinct
  | acknowledge i =>
    simp only [AuthWorld.step]
    split
    next call here =>
      split
      next insertedAt isNew outcome _ =>
        apply inv.set_answer here
        intro ok
        cases ok
        exact ⟨insertedAt, outcome⟩
      next => exact inv
    next => exact inv
  | fail i =>
    simp only [AuthWorld.step]
    split
    next call here =>
      split
      next => exact inv.set_answer here nofun
      next => exact inv
    next => exact inv
  | cleanup | tick => exact inv.of_calls rfl fun _ _ => stay

/-- What the answers of all controllers are. -/
structure ExecutedOnce (host : AuthHost) (signed : Set SignedRequest) (w : AuthWorld) : Prop where
  /-- A request that is let through is a signed one, while both clocks are near its timestamp. -/
  exactly : ∀ call ∈ w.calls, call.answer = some (.ok true) → ∃ r ∈ signed,
    call.input.timestamp = some r.timestamp ∧ call.input.nonce = some r.nonce ∧
    call.input.body = r.body ∧ ∃ timestamp insertedAt, host.number r.timestamp = some timestamp ∧
      (call.now - timestamp).natAbs ≤ 30000 ∧ call.inserted = some (insertedAt, true) ∧
      (insertedAt - timestamp).natAbs ≤ 30000
  /-- A signed request is let through by one call at most. -/
  once : ∀ r ∈ signed, ∀ (i j : Nat) (c d : AuthCall), w.calls[i]? = some c → w.calls[j]? = some d →
    c.answer = some (.ok true) → d.answer = some (.ok true) →
    c.input.nonce = some r.nonce → d.input.nonce = some r.nonce → i = j

/-- A signed request is executed at most once, by whatever controllers it is sent to. -/
theorem executed_once (host : AuthHost) (secret : String) (signed : Set SignedRequest)
    (distinct : ∀ r ∈ signed, ∀ s ∈ signed, r.nonce = s.nonce → r = s) (databaseNow : Int)
    (rows : NonceTable) (events : List AuthEvent)
    (sent : ∀ input now, .authenticate input now ∈ events → Resent host secret signed input now) :
    ExecutedOnce host signed (runAuth host secret ⟨databaseNow, rows, []⟩ events) := by
  have inv : AuthInv host signed (runAuth host secret ⟨databaseNow, rows, []⟩ events) := by
    induction events using List.reverseRecOn with
    | nil =>
      exact ⟨fun _ mem => (nomatch mem), fun _ mem => (nomatch mem), fun _ mem => (nomatch mem),
        fun i _ _ _ absurd => by cases i <;> cases absurd⟩
    | append_singleton events event ih =>
      unfold runAuth
      rw [foldl_append]
      refine (ih fun input now mem => sent input now (mem_append_left _ mem)).step distinct event
        fun input now same => sent input now ?_
      rw [← same]
      exact mem_append_right _ (mem_singleton_self event)
  refine ⟨fun call mem ok => ?_, fun r mem i j c d at_i at_j ok ok' of_c of_d => ?_⟩
  · obtain ⟨insertedAt, inserted⟩ := inv.answered call mem ok
    obtain ⟨nonce, timestamp, claim, near, -⟩ := inv.spent call mem insertedAt inserted
    obtain ⟨r, signed_r, text, -, name, body, number, checked⟩ :=
      inv.signed call mem nonce timestamp claim
    exact ⟨r, signed_r, text, name, body, timestamp, insertedAt, number, checked, inserted, near⟩
  · have name {c : AuthCall} (inside : c ∈ (runAuth host secret ⟨databaseNow, rows, []⟩ events).calls)
        (new : ∃ insertedAt, c.inserted = some (insertedAt, true)) :
        c.claim.map Prod.fst = c.input.nonce := by
      obtain ⟨insertedAt, inserted⟩ := new
      obtain ⟨nonce, timestamp, claim, -⟩ := inv.spent c inside insertedAt inserted
      obtain ⟨r, -, -, of_r, name, -⟩ := inv.signed c inside nonce timestamp claim
      rw [claim, name, of_r]
      rfl
    have new := inv.answered c (mem_of_getElem? at_i) ok
    have new' := inv.answered d (mem_of_getElem? at_j) ok'
    apply inv.once i j c d at_i at_j new new'
    rw [name (mem_of_getElem? at_i) new, name (mem_of_getElem? at_j) new', of_c, of_d]

section Replayed

/-- HMAC-SHA-256 of the one message that is signed below. -/
def digestOfStatus : List UInt8 :=
  [
    147, 197, 128, 55, 25, 54, 197, 1, 115, 60, 0, 221, 171, 153, 121, 215, 114, 155, 189, 199,
    45, 109, 226, 46, 57, 253, 224, 136, 202, 16, 20, 116]

def statusRequest : SignedRequest where
  timestamp := "100000"
  nonce := "00000000-0000-4000-8000-000000000000"
  body := Utf8.bytes "\x7b\x7d"
  timestamp_text := by decide
  nonce_text := by decide

def statusHost : AuthHost where
  hmac := fun _ message =>
    if message = signedText statusRequest.timestamp statusRequest.nonce statusRequest.body then
      digestOfStatus else []
  number := fun text => if text = "100000" then some 100000 else none

def sharedSecret : String := "ssssssssssssssssssssssssssssssss"

def statusInput : AuthInput :=
  ⟨some statusRequest.timestamp, some statusRequest.nonce,
    some (statusRequest.signature statusHost sharedSecret), statusRequest.body⟩

/-- Two controllers get the same request, the second when a cleanup has run. -/
def replayed : List AuthEvent :=
  [.authenticate statusInput 100000, .insert 0, .acknowledge 0, .tick 29000,
    .cleanup ["00000000-0000-4000-8000-000000000000"], .authenticate statusInput 129000, .insert 1,
    .acknowledge 1]

theorem executed_once_replayed :
    (runAuth statusHost sharedSecret ⟨100000, .empty, []⟩ replayed).calls.map
        (fun call => call.answer.bind Except.toOption) = [some true, some false] ∧
      ExecutedOnce statusHost {statusRequest}
        (runAuth statusHost sharedSecret ⟨100000, .empty, []⟩ replayed) := by
  refine ⟨by decide +kernel, executed_once statusHost sharedSecret {statusRequest} ?_ 100000 .empty
    replayed fun input now mem => ?_⟩
  · rintro r rfl s rfl -
    rfl
  · have same : input = statusInput := by
      simp only [replayed, mem_cons, AuthEvent.authenticate.injEq, reduceCtorEq, false_or,
        not_mem_nil, or_false] at mem
      rcases mem with first | second
      · exact first.1
      · exact second.1
    subst same
    refine ⟨fun value of_value => ?_, fun value of_value => ?_, fun value of_value => ?_,
      ⟨statusRequest, rfl, rfl⟩, fun text of_text nonce of_nonce _ => ?_⟩
    · exact ⟨statusRequest, rfl, .inl (some.inj of_value).symm⟩
    · exact ⟨statusRequest, rfl, .inr (.inl (some.inj of_value).symm)⟩
    · exact ⟨statusRequest, rfl, .inr (.inr (some.inj of_value).symm)⟩
    · cases of_text
      cases of_nonce
      exact ⟨statusRequest, rfl, rfl⟩

end Replayed

end Slide.Security
