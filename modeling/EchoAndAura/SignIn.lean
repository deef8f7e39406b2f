import EchoAndAura.Table
import EchoAndAura.Text
import EchoAndAura.Shop
import Mathlib.Algebra.Order.Ring.Int

/-!
# The sign-in throttle

The fixed-window counters of the rate limiter, and the calls of `signInAction` over them: each call
asks the counters, hands the password to the auth library and counts it if it was wrong, and any
number of calls run at once.  `lower` is JavaScript's `toLowerCase`, `validEmail` the format check
of an email address and `longEnough` the `min(8)` of a password.
-/

namespace EchoAndAura

section Limiter

/-- A counter, when its key expires, and how many times the key had begun by then. -/
structure Counter where
  count : Nat
  expires : Time
  number : Nat
  deriving DecidableEq, Repr

abbrev RateLimitStore := Table String Counter

structure RateLimitRule where
  scope : String
  subject : String
  limit : Nat
  windowSeconds : Nat

namespace RateLimitStore

variable (store : RateLimitStore) (now : Time)

/-- The counter of a key that has not expired. -/
def live (key : String) : Option Counter := (store.lookup key).filter (now < ·.expires)

/-- The windows of `key` that have begun. -/
def begun (key : String) : Nat := ((store.lookup key).map (·.number)).getD 0

/-- The window a hit of `key` is counted in. -/
def window (key : String) : Nat := ((store.live now key).map (·.number)).getD (store.begun key + 1)

/-- `INCR`, and `EXPIRE` of a key that has no expiry yet. -/
def hit (key : String) (windowSeconds : Nat) : RateLimitStore × Nat :=
  match store.live now key with
  | some c => (store.insert key { c with count := c.count + 1 }, c.count + 1)
  | none => (store.insert key ⟨1, now + 1000 * windowSeconds, store.begun key + 1⟩, 1)

def peek (key : String) : Nat := ((store.live now key).map (·.count)).getD 0

end RateLimitStore

def RateLimitRule.key (r : RateLimitRule) : String := "ratelimit:" ++ r.scope ++ ":" ++ r.subject

/-- `allow` of one rule. -/
def RateLimitStore.allow (store : RateLimitStore) (now : Time) (r : RateLimitRule) :
    RateLimitStore × Bool :=
  let counted := store.hit now r.key r.windowSeconds
  (counted.1, counted.2 ≤ r.limit)

/-- `check` of one rule. -/
def RateLimitStore.check (store : RateLimitStore) (now : Time) (r : RateLimitRule) : Bool :=
  store.peek now r.key < r.limit

end Limiter

section SignIn

def perIpLimit : Nat := 10
def perIpSeconds : Nat := 60
def failedPerAddressLimit : Nat := 5
def failedPerAddressSeconds : Nat := 15 * 60

def ipRule (ip : String) : RateLimitRule := ⟨"admin-login:ip", ip, perIpLimit, perIpSeconds⟩

def failedRule (ip email : String) : RateLimitRule :=
  ⟨"admin-login:failed", ip ++ ":" ++ email, failedPerAddressLimit, failedPerAddressSeconds⟩

def humanCheckFailed : String :=
  "We couldn't confirm you're not a bot. Please try again — if it keeps happening, refresh the page."

def tooManySignIns : String :=
  "Too many sign-in attempts. Please wait a few minutes and try again."

/-- What a call answers: the state of the form, or where it sends the visitor. -/
inductive SignInAnswer
  | state (error email : String) (refused : Bool)
  | redirect (path : String)
  deriving DecidableEq, Repr

/-- The form's fields; none for one that is not text. -/
structure SignInForm where
  email : Option String
  password : Option String

section Parse

variable (lower : String → String) (validEmail longEnough : String → Bool)

/-- `loginSchema`; an error is the first issue's message. -/
def parseLogin (email : String) (password : Option String) : Except String (String × String) :=
  let normalised := lower (trim email)
  if !validEmail normalised then .error "Enter a valid email address"
  else match password with
    | none => .error "Password is required"
    | some password =>
      if !longEnough password then .error "Password must be at least 8 characters"
      else .ok (normalised, password)

end Parse

/-- How the auth library answers `signInEmail`. -/
inductive SignInReply
  | signedIn (twoFactorRedirect : Bool)
  | apiError
  | failure
  deriving DecidableEq, Repr

/-- A right password signs in and a wrong one is an `APIError`, unless the library is in trouble. -/
def signInEmail (right trouble twoFactorRedirect : Bool) : SignInReply :=
  if trouble then .failure else if right then .signedIn twoFactorRedirect else .apiError

inductive SignInStage
  /-- Both questions of `signInAllowed`, each with its answer once it is there. -/
  | checking (ipOk failuresOk : Option Bool)
  | authenticating
  | counting
  | done (answer : SignInAnswer)
  deriving DecidableEq, Repr

/-- A call past its parse, or answered there.  `right` says whether its password is the account's,
`counted` in which window of its IP it was counted, and `handed` in which windows of its IP and of
its address the password went to the auth library. -/
structure SignInCall where
  ip : String
  rawEmail : String
  email : String
  right : Bool
  stage : SignInStage
  counted : Option Nat
  handed : Option (Nat × Nat)
  deriving DecidableEq, Repr

/-- A call: the visitor's IP and the call's number among that IP's. -/
structure CallKey where
  ip : String
  number : Nat
  deriving DecidableEq, Repr

structure SignInDesk where
  store : RateLimitStore
  calls : Table CallKey SignInCall
  now : Time

inductive SignInEvent
  | start (k : CallKey) (form : SignInForm) (human right : Bool)
  /-- `limiter.allow` of the IP's rule. -/
  | allowIp (k : CallKey)
  /-- `limiter.check` of the failures. -/
  | checkFailures (k : CallKey)
  /-- Both answers are there. -/
  | signInAllowed (k : CallKey)
  | reply (k : CallKey) (trouble twoFactorRedirect : Bool)
  | countFailedSignIn (k : CallKey)
  | wait (milliseconds : Nat)

/-- The call an event belongs to. -/
def SignInEvent.call? : SignInEvent → Option CallKey
  | .start k _ _ _ => some k
  | .allowIp k => some k
  | .checkFailures k => some k
  | .signInAllowed k => some k
  | .reply k _ _ => some k
  | .countFailedSignIn k => some k
  | .wait _ => none

namespace SignInDesk

def initial (now : Time) : SignInDesk := ⟨∅, ∅, now⟩

variable (lower : String → String) (validEmail longEnough : String → Bool)
variable (d : SignInDesk)

/-- The call up to its throttle. -/
def beginCall (ip : String) (form : SignInForm) (human right : Bool) : SignInCall :=
  let email := form.email.getD ""
  match parseLogin lower validEmail longEnough email form.password with
  | .error message => ⟨ip, email, "", right, .done (.state message email false), none, none⟩
  | .ok parsed =>
    if human then ⟨ip, email, parsed.1, right, .checking none none, none, none⟩
    else ⟨ip, email, parsed.1, right, .done (.state humanCheckFailed email true), none, none⟩

def set (k : CallKey) (c : SignInCall) : SignInDesk := { d with calls := d.calls.insert k c }

def allowIp (k : CallKey) (c : SignInCall) : SignInDesk :=
  match c.stage with
  | .checking none failuresOk =>
    let window := d.store.window d.now (ipRule c.ip).key
    let allowed := d.store.allow d.now (ipRule c.ip)
    { d with store := allowed.1 }.set k
      { c with stage := .checking (some allowed.2) failuresOk, counted := some window }
  | _ => d

def checkFailures (k : CallKey) (c : SignInCall) : SignInDesk :=
  match c.stage with
  | .checking ipOk none =>
    d.set k { c with
      stage := .checking ipOk (some (d.store.check d.now (failedRule c.ip c.email))) }
  | _ => d

def signInAllowed (k : CallKey) (c : SignInCall) : SignInDesk :=
  match c.stage with
  | .checking (some ipOk) (some failuresOk) =>
    if ipOk && failuresOk then
      d.set k { c with
        stage := .authenticating
        handed := some (d.store.window d.now (ipRule c.ip).key,
          d.store.window d.now (failedRule c.ip c.email).key) }
    else d.set k { c with stage := .done (.state tooManySignIns c.rawEmail true) }
  | _ => d

def reply (k : CallKey) (c : SignInCall) (trouble twoFactorRedirect : Bool) : SignInDesk :=
  match c.stage with
  | .authenticating =>
    d.set k { c with stage := match signInEmail c.right trouble twoFactorRedirect with
      | .signedIn true => .done (.redirect "/admin/login/verify")
      | .signedIn false => .done (.redirect "/admin")
      | .apiError => .counting
      | .failure => .done (.state "Sign-in is temporarily unavailable. Please try again."
          c.rawEmail false) }
  | _ => d

def countFailedSignIn (k : CallKey) (c : SignInCall) : SignInDesk :=
  match c.stage with
  | .counting =>
    let allowed := d.store.allow d.now (failedRule c.ip c.email)
    { d with store := allowed.1 }.set k
      { c with stage := .done (.state "Invalid email or password" c.rawEmail false) }
  | _ => d

/-- What an event does to the call it belongs to. -/
def advance (k : CallKey) (c : SignInCall) : SignInEvent → SignInDesk
  | .allowIp _ => d.allowIp k c
  | .checkFailures _ => d.checkFailures k c
  | .signInAllowed _ => d.signInAllowed k c
  | .reply _ trouble twoFactorRedirect => d.reply k c trouble twoFactorRedirect
  | .countFailedSignIn _ => d.countFailedSignIn k c
  | _ => d

def step : SignInEvent → SignInDesk
  | .start k form human right =>
    if d.calls.lookup k = none then
      d.set k (beginCall lower validEmail longEnough k.ip form human right)
    else d
  | .wait milliseconds => { d with now := d.now + milliseconds }
  | e => match e.call? with
    | none => d
    | some k => match d.calls.lookup k with
      | none => d
      | some c => d.advance k c e

end SignInDesk

end SignIn

end EchoAndAura
