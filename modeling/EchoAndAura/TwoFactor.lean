import EchoAndAura.Shop
import EchoAndAura.Tasks
import EchoAndAura.Text

/-!
# Turning two-factor on

An admin account with its sessions, and the requests of the setup and of the two-step sign-in, call
by call.  The sign-in and the code checks are the auth library's: a password alone opens a session
while two-factor is off, and a code is asked for while it is on; a right code given with a session
turns two-factor on and replaces that session.
-/

namespace EchoAndAura

section Account

/-- What the call that opened a session had checked. -/
inductive SessionOrigin
  | password
  | code
  deriving DecidableEq, Repr

structure AdminSession where
  createdAt : Time
  origin : SessionOrigin
  deriving DecidableEq, Repr

/-- What enabling stores before the first code is given. -/
structure Factor where
  secret : String
  backupCodes : List String
  deriving DecidableEq, Repr

/-- One account, its sessions, the server's clock, and how many `confirmSetupAction`s have answered
that they are done. -/
structure AdminDesk where
  role : String
  password : String
  twoFactorEnabled : Bool
  factor : Option Factor
  sessions : Table Id AdminSession
  nextSession : Id
  now : Time
  confirmed : Nat

inductive Role
  | admin
  | buyer
  deriving DecidableEq, Repr

structure PublicSession where
  role : Role
  twoFactorEnabled : Bool
  deriving DecidableEq, Repr

inductive Redirect
  | login
  | home
  | twoFactorSetup
  deriving DecidableEq, Repr

namespace AdminDesk

variable (d : AdminDesk)

def getPublicSession (cookie : Id) : Option PublicSession :=
  (d.sessions.lookup cookie).map fun _ =>
    ⟨if d.role = "admin" then .admin else .buyer, d.twoFactorEnabled⟩

def requireAdminPendingTwoFactor (cookie : Id) : Except Redirect PublicSession :=
  match d.getPublicSession cookie with
  | none => .error .login
  | some session => if session.role = .admin then .ok session else .error .home

def requireAdmin (cookie : Id) : Except Redirect PublicSession := do
  let session ← d.requireAdminPendingTwoFactor cookie
  if session.twoFactorEnabled then return session else throw .twoFactorSetup

def openSession (origin : SessionOrigin) : AdminDesk :=
  { d with
    sessions := d.sessions.insert d.nextSession ⟨d.now, origin⟩
    nextSession := d.nextSession + 1 }

def endSession (id : Id) : AdminDesk := { d with sessions := d.sessions.erase id }

def revokeSessionsCreatedBefore (before : Time) : AdminDesk :=
  { d with sessions := d.sessions.filter fun session => !(session.createdAt < before) }

end AdminDesk

end Account

section Requests

/-- Six digits, however they are spaced. -/
def parseTotpCode (raw : String) : Option String :=
  let code := removeSpaces raw
  if code.toList.length = 6 ∧ code.toList.all Char.isDigit then some code else none

inductive SecondFactor
  | totp (code : String)
  | backup (code : String)
  deriving DecidableEq, Repr

inductive AdminRequest
  /-- The password, then what is typed at the code step. -/
  | signIn (password : String) (codes : List SecondFactor)
  /-- The setup's first step, and the factor it would store. -/
  | startSetup (cookie : Id) (password : String) (factor : Factor)
  | confirmSetup (cookie : Id) (code : String)

inductive AdminStage
  | signingIn (password : String) (codes : List SecondFactor)
  | challenged (codes : List SecondFactor)
  | starting (cookie : Id) (password : String) (factor : Factor)
  | enabling (cookie : Id) (password : String) (factor : Factor)
  | confirming (cookie : Id) (code : String)
  | throttling (cookie : Id) (code : String)
  | verifying (cookie : Id) (code : String) (before : Time)
  | revoking (before : Time)
  deriving DecidableEq, Repr

/-- The clock, and a session that ends by itself or by signing out. -/
inductive AdminChange
  | clock (t : Time)
  | endSession (id : Id)

variable (totp : String → Time → String → Bool)

namespace AdminDesk

variable (d : AdminDesk)

/-- Whether a code is one the stored secret gives about now. -/
def rightCode (code : String) : Bool := d.factor.any fun f => totp f.secret d.now code

/-- A code at sign-in; a backup code is spent. -/
def verifyCode : SecondFactor → Option AdminDesk
  | .totp code => if d.rightCode totp code then some (d.openSession .code) else none
  | .backup code =>
    match d.factor with
    | none => none
    | some f =>
      if code ∈ f.backupCodes then
        let left := { f with backupCodes := f.backupCodes.erase code }
        some ({ d with factor := some left }.openSession .code)
      else none

/-- A right code given with a session turns two-factor on and replaces that session. -/
def verifyTOTP (cookie : Id) (code : String) : Option AdminDesk :=
  if (d.sessions.lookup cookie).isSome ∧ d.rightCode totp code then
    some ({ d with twoFactorEnabled := true }.endSession cookie |>.openSession .code)
  else none

def signInEmail (password : String) (codes : List SecondFactor) : AdminDesk × Option AdminStage :=
  if password ≠ d.password then (d, none)
  else if d.twoFactorEnabled then (d, some (.challenged codes))
  else (d.openSession .password, none)

def enableTwoFactor (password : String) (factor : Factor) : AdminDesk :=
  if password ≠ d.password ∨ d.twoFactorEnabled then d else { d with factor := some factor }

/-- The setup's actions go on with an admin whose two-factor is off. -/
def mayGoOn (cookie : Id) : Bool :=
  match d.requireAdminPendingTwoFactor cookie with
  | .error _ => false
  | .ok session => !session.twoFactorEnabled

def effect : AdminStage → AdminDesk × Option AdminStage
  | .signingIn password codes => d.signInEmail password codes
  | .challenged [] => (d, none)
  | .challenged (code :: codes) =>
    match d.verifyCode totp code with
    | some d' => (d', none)
    | none => (d, some (.challenged codes))
  | .starting cookie password factor =>
    (d, if d.mayGoOn cookie then some (.enabling cookie password factor) else none)
  | .enabling cookie password factor =>
    (if (d.sessions.lookup cookie).isSome then d.enableTwoFactor password factor else d, none)
  | .confirming cookie code =>
    (d, if d.mayGoOn cookie then (parseTotpCode code).map (.throttling cookie) else none)
  -- The clock is read once the limiter has let the request through, before the code is checked.
  | .throttling cookie code => (d, some (.verifying cookie code d.now))
  | .verifying cookie code before =>
    match d.verifyTOTP totp cookie code with
    | some d' => (d', some (.revoking before))
    | none => (d, none)
  | .revoking before =>
    ({ d.revokeSessionsCreatedBefore before with confirmed := d.confirmed + 1 }, none)

/-- A call that fails or whose answer is lost ends the request; the setup is done even where its
last call is one of these. -/
def next (t : AdminStage) : CallOutcome → AdminDesk × Option AdminStage
  | .ok => d.effect totp t
  | .lost => ((d.effect totp t).1, none)
  | .failed =>
    match t with
    | .revoking _ => ({ d with confirmed := d.confirmed + 1 }, none)
    | _ => (d, none)

def change : AdminChange → AdminDesk
  | .clock t => { d with now := t }
  | .endSession id => d.endSession id

end AdminDesk

def AdminRequest.first : AdminRequest → AdminStage
  | .signIn password codes => .signingIn password codes
  | .startSetup cookie password factor => .starting cookie password factor
  | .confirmSetup cookie code => .confirming cookie code

/-- The requests at work on one admin account; `totp` tells the codes of a secret at a time. -/
def adminWork : Work AdminDesk AdminStage AdminRequest CallOutcome AdminChange where
  first := AdminRequest.first
  next := AdminDesk.next totp
  change := AdminDesk.change

end Requests

end EchoAndAura
