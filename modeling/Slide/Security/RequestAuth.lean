import Slide.Library.JsString
import Slide.Library.Table
import Slide.Library.Utf8

/-!
# Signed requests to the sandbox

`authenticateRequest` checks a request and claims its nonce in a table that all controllers share.  The
signature covers a plain concatenation of timestamp, nonce and body.
-/

namespace Slide.Security

/-- What the controllers take from their surroundings. -/
structure AuthHost where
  /-- `createHmac('sha256', secret)` over a message. -/
  hmac : String → List UInt8 → List UInt8
  /-- `Number(text)` where that is a safe integer. -/
  number : String → Option Int

/-! ## The signature -/

def hexDigit (n : Nat) : Char := if n < 10 then Char.ofNat (48 + n) else Char.ofNat (87 + n)

/-- `digest('hex')`. -/
def toHex (digest : List UInt8) : String :=
  String.ofList (digest.flatMap fun byte => [hexDigit (byte.toNat / 16), hexDigit (byte.toNat % 16)])

def hexValue (c : Char) : Option Nat :=
  if '0' ≤ c ∧ c ≤ '9' then some (c.toNat - 48)
  else if 'a' ≤ c ∧ c ≤ 'f' then some (c.toNat - 87)
  else if 'A' ≤ c ∧ c ≤ 'F' then some (c.toNat - 55)
  else none

/-- `Buffer.from(text, 'hex')`: the pairs of digits before the first that is none. -/
def fromHex : List Char → List UInt8
  | high :: low :: rest =>
    match hexValue high, hexValue low with
    | some h, some l => UInt8.ofNat (16 * h + l) :: fromHex rest
    | _, _ => []
  | _ => []

/-- What `signRequest` feeds to the digest. -/
def signedText (timestamp nonce : String) (body : List UInt8) : List UInt8 :=
  Utf8.bytes timestamp ++ UInt8.ofNat '.'.val.toNat ::
    (Utf8.bytes nonce ++ UInt8.ofNat '.'.val.toNat :: body)

variable (host : AuthHost)

def signRequest (secret timestamp nonce : String) (body : List UInt8) : String :=
  toHex (host.hmac secret (signedText timestamp nonce body))

/-! ## The checks of a request -/

/-- The headers and the body of a request. -/
structure AuthInput where
  (timestamp nonce signature : Option String)
  body : List UInt8

/-- `/^[a-f0-9-]{36}$/`. -/
def nonceFormat (nonce : String) : Bool :=
  nonce.toList.length = 36 ∧
    nonce.toList.all fun c => ('a' ≤ c ∧ c ≤ 'f') ∨ ('0' ≤ c ∧ c ≤ '9') ∨ c = '-'

/-- `/^[a-f0-9]{64}$/`. -/
def signatureFormat (signature : String) : Bool :=
  signature.toList.length = 64 ∧
    signature.toList.all fun c => ('a' ≤ c ∧ c ≤ 'f') ∨ ('0' ≤ c ∧ c ≤ '9')

variable (secret : String)

/-- `authenticateRequest` up to its claim: the nonce and the timestamp that it goes on to claim. -/
def verified (now : Int) (input : AuthInput) :
    Option (String × Int) :=
  match input.timestamp, input.nonce, input.signature with
  | some text, some nonce, some signature =>
    match host.number text with
    | some timestamp =>
      if (JsString.utf16 secret).length < 32 ∨ (now - timestamp).natAbs > 30000 ∨ ¬ nonceFormat nonce ∨
          ¬ signatureFormat signature then none
      else if fromHex (signRequest host secret text nonce input.body).toList =
          fromHex signature.toList then some (nonce, timestamp)
      else none
    | none => none
  | _, _, _ => none

/-! ## The table of nonces -/

def domain : String := "sandbox-controller"

/-- `sandbox_request_nonces`: when the row of a nonce expires. -/
abbrev NonceTable := Table (String × String) Int

/-- The statement of `claim` at the clock of the database, and whether it answers that a row is new. -/
def claimNonce (rows : NonceTable) (databaseNow : Int) (nonce : String) (timestamp : Int) :
    NonceTable × Bool :=
  if (databaseNow - timestamp).natAbs ≤ 30000 then
    match rows.get (domain, nonce) with
    -- `ER_DUP_ENTRY`
    | some _ => (rows, false)
    | none => (rows.put (domain, nonce) (max (timestamp + 30000) (databaseNow + 60000)), true)
  else (rows, false)

/-- The statement of `cleanup`; which of the expired rows the limit leaves to it is open. -/
def cleanup (rows : NonceTable) (databaseNow : Int) (chosen : List String) : NonceTable :=
  rows.deleteAll (((chosen.take 1000).map (domain, ·)).filter fun key =>
    (rows.get key).any fun expiresAt => expiresAt < databaseNow)

/-! ## Controllers side by side -/

/-- A call of `authenticateRequest`; `inserted` is when its statement took effect and what it gave. -/
structure AuthCall where
  input : AuthInput
  now : Int
  claim : Option (String × Int)
  inserted : Option (Int × Bool)
  answer : Option (Except Unit Bool)

/-- The clock of the database, the table and the calls of all controllers. -/
structure AuthWorld where
  databaseNow : Int
  rows : NonceTable
  calls : List AuthCall

/-- A call arrives at a controller whose clock shows `now`; its statement takes effect; the controller
learns what the statement gave, or gives up on it, before or after it took effect. -/
inductive AuthEvent
  | authenticate (input : AuthInput) (now : Int)
  | insert (call : Nat)
  | acknowledge (call : Nat)
  | fail (call : Nat)
  | cleanup (chosen : List String)
  | tick (elapsed : Nat)

def AuthWorld.step (w : AuthWorld) : AuthEvent → AuthWorld
  | .authenticate input now =>
    let claim := verified host secret now input
    let answer := match claim with
      | none => some (.ok false)
      | some _ => none
    { w with calls := w.calls ++ [⟨input, now, claim, none, answer⟩] }
  | .insert i =>
    match w.calls[i]? with
    | some call =>
      match call.claim, call.inserted with
      | some (nonce, timestamp), none =>
        let (rows, isNew) := claimNonce w.rows w.databaseNow nonce timestamp
        { w with
          rows
          calls := w.calls.set i { call with inserted := some (w.databaseNow, isNew) } }
      | _, _ => w
    | none => w
  | .acknowledge i =>
    match w.calls[i]? with
    | some call =>
      match call.inserted, call.answer with
      | some (_, isNew), none =>
        { w with calls := w.calls.set i { call with answer := some (.ok isNew) } }
      | _, _ => w
    | none => w
  | .fail i =>
    match w.calls[i]? with
    | some call =>
      match call.answer with
      | none => { w with calls := w.calls.set i { call with answer := some (.error ()) } }
      | some _ => w
    | none => w
  | .cleanup chosen => { w with rows := Security.cleanup w.rows w.databaseNow chosen }
  | .tick elapsed => { w with databaseNow := w.databaseNow + elapsed }

def runAuth (w : AuthWorld) (events : List AuthEvent) : AuthWorld :=
  events.foldl (AuthWorld.step host secret) w

/-! ## Who signs and who sends -/

/-- A request of a client, whose `String(Date.now())` and `randomUUID()` have no dot. -/
structure SignedRequest where
  (timestamp nonce : String)
  body : List UInt8
  timestamp_text : '.' ∉ timestamp.toList
  nonce_text : '.' ∉ nonce.toList

def SignedRequest.signature (r : SignedRequest) : String :=
  signRequest host secret r.timestamp r.nonce r.body

/-- A header value that was seen in one of the signed requests. -/
def Seen (signed : Set SignedRequest) (value : String) : Prop :=
  ∃ r ∈ signed, value = r.timestamp ∨ value = r.nonce ∨ value = r.signature host secret

/-- What somebody without the secret can send: what was seen, in any combination, and nothing that
passes for signed without having been. -/
structure Resent (host : AuthHost) (secret : String) (signed : Set SignedRequest) (input : AuthInput)
    (now : Int) : Prop where
  timestamp : ∀ value ∈ input.timestamp, Seen host secret signed value
  nonce : ∀ value ∈ input.nonce, Seen host secret signed value
  signature : ∀ value ∈ input.signature, Seen host secret signed value
  body : ∃ r ∈ signed, input.body = r.body
  unforgeable : ∀ timestamp ∈ input.timestamp, ∀ nonce ∈ input.nonce,
    (verified host secret now input).isSome → ∃ r ∈ signed,
      signedText timestamp nonce input.body = signedText r.timestamp r.nonce r.body

end Slide.Security
