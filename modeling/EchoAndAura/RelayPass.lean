import EchoAndAura.Base64
import EchoAndAura.JsonText
import EchoAndAura.Room
import EchoAndAura.Text
import Mathlib.Data.List.DropRight

/-!
# The relay pass

`relay-pass.ts`: the token a door phone or our server shows the relay, claims and the signature of
their text; and the Worker in front of the rooms (`relay/src/index.ts`), which asks for a pass of
the right role and event.  `mac` is HMAC-SHA256 of a key and a text.
-/

namespace EchoAndAura

namespace Relay

open Utf16 (Units ofString)

inductive RelayRole
  | gate
  | server
  deriving DecidableEq, Repr

def RelayRole.name : RelayRole → String
  | gate => "gate"
  | server => "server"

/-- `exp` is in seconds. -/
structure RelayClaims where
  role : RelayRole
  eventId : Units
  passId : Option Units
  gate : Option Units
  exp : Int

def optionalText (name : String) (text : Option Units) : List (Units × JsonText.Value) :=
  (text.map fun text => (ofString name, .str text)).toList

/-- The claims as an object. -/
def RelayClaims.json (claims : RelayClaims) : JsonText.Value :=
  .obj ([(ofString "v", .decimal 1 0), (ofString "role", .str (ofString claims.role.name)),
      (ofString "eventId", .str claims.eventId)] ++ optionalText "passId" claims.passId ++
    optionalText "gate" claims.gate ++ [(ofString "exp", .decimal claims.exp 0)])

section Claims

/-- A field of an object: of several with a name, the last. -/
def field (value : JsonText.Value) (name : String) : Option JsonText.Value :=
  match value with
  | .obj fields => fields.reverse.lookup (ofString name)
  | _ => none

def text? : Option JsonText.Value → Option Units
  | some (.str text) => some text
  | _ => none

def whole? : Option JsonText.Value → Option Int
  | some (.decimal m k) => if m % 10 ^ k = 0 then some (m / 10 ^ k) else none
  | _ => none

/-- `UUID.test` -/
def isUuidText (text : Units) : Bool :=
  ((Utf16.read text).mapM Sum.getLeft?).any fun cs => isUuid (String.ofList cs)

def gateMax : Nat := 60

def hasRole (value : JsonText.Value) (role : RelayRole) : Bool :=
  text? (field value "role") == some (ofString role.name)

def validClaims (value : JsonText.Value) : Bool :=
  whole? (field value "v") == some 1 && (hasRole value .gate || hasRole value .server) &&
    (text? (field value "eventId")).any isUuidText && (whole? (field value "exp")).isSome &&
    (!hasRole value .gate ||
      (text? (field value "passId")).any isUuidText &&
        (text? (field value "gate")).any fun gate => gate.length != 0 && gate.length ≤ gateMax)

end Claims

section Codec

def urlChar (c : Char) : Char := if c = '+' then '-' else if c = '/' then '_' else c

def plainChar (c : Char) : Char := if c = '-' then '+' else if c = '_' then '/' else c

/-- `[A-Za-z0-9_-]` -/
def isUrlChar (c : Char) : Bool :=
  ('A' ≤ c && c ≤ 'Z') || ('a' ≤ c && c ≤ 'z') || c.isDigit || c == '_' || c == '-'

def toBase64Url (bytes : List UInt8) : List Char :=
  ((Base64.btoa bytes).map urlChar).rdropWhile (· == '=')

def fromBase64Url (text : List Char) : Option (List UInt8) :=
  if text.all isUrlChar then Base64.atob (text.map plainChar) else none

/-- `TextEncoder`: a surrogate alone is replaced. -/
def encodeText (text : Units) : List UInt8 :=
  Utf8.encode ((Utf16.read text).map fun x => x.elim id fun _ => Utf8.replacement)

/-- `TextDecoder`: a byte order mark is left out. -/
def decodeText (bytes : List UInt8) : List Char :=
  match Utf8.decode bytes with
  | c :: text => if c = Char.ofNat 0xFEFF then text else c :: text
  | [] => []

end Codec

section Passes

variable (mac : List UInt8 → List UInt8 → List UInt8)

def secretMinLength : Nat := 32

def hmacKey (secret : Units) : Except String (List UInt8) :=
  if secret.length < secretMinLength then
    .error ("relay secret must be at least " ++ toString secretMinLength ++ " characters")
  else .ok (encodeText secret)

def body (claims : JsonText.Value) : List Char :=
  toBase64Url (Utf8.encode (JsonText.text claims))

def signRelayPass (claims : RelayClaims) (secret : Units) : Except String String :=
  if validClaims claims.json then do
    let key ← hmacKey secret
    .ok (String.ofList (body claims.json ++
      '.' :: toBase64Url (mac key (Utf8.encode (body claims.json)))))
  else .error "relay pass: invalid claims"

/-- `JSON.parse` of the body, if it holds claims that last. -/
def openBody (bytes : List UInt8) (nowMs : Time) : Option JsonText.Value :=
  match JsonText.parse (decodeText bytes) with
  | none => none
  | some claims =>
    if !validClaims claims then none
    else (whole? (field claims "exp")).bind fun exp =>
      if nowMs < exp * 1000 then some claims else none

def verifyRelayPass (token : String) (secret : Units) (nowMs : Time) :
    Except String (Option JsonText.Value) :=
  match token.toList.splitOn '.' with
  | [body, sig] =>
    if body = [] ∨ sig = [] then .ok none
    else match fromBase64Url sig, fromBase64Url body with
      | some sigBytes, some bodyBytes => do
        let key ← hmacKey secret
        if sigBytes = mac key (Utf8.encode body) then .ok (openBody bodyBytes nowMs) else .ok none
      | _, _ => .ok none
  | _ => .ok none

end Passes

section Worker

structure RelayEnv where
  secret : Units
  allowedOrigins : String

/-- What the Worker reads of a request.  `after` is what its parameter is as a number, if whole. -/
structure RelayRequest where
  pathname : String
  method : String
  authorization : Option String
  upgrade : Option String
  origin : Option String
  protocol : Option String
  after : Option Int
  epoch : Option String

/-- What the room is told of a phone that joins. -/
structure JoinHeaders where
  passId : Units
  gate : String
  exp : Int
  after : Int
  epoch : String
  deriving DecidableEq

/-- An answer of the Worker's own, or the room a request is handed to. -/
inductive RelayResponse
  | text (status : Nat) (body : String)
  | announce (eventId : String)
  | join (eventId : String) (headers : JoinHeaders)
  deriving DecidableEq

inductive RelayRoute
  | ws
  | announce
  deriving DecidableEq

def relayProtocol : String := "ea-relay.v1"

def isDashedHex (cs : List Char) : Bool := cs.length == 36 && cs.all fun c => isHex c || c == '-'

/-- `/^\/events\/([0-9a-f-]{36})\/(ws|announce)$/` -/
def routeOf (pathname : String) : Option (String × RelayRoute) :=
  let path := pathname.toList
  let id := (path.drop 8).take 36
  if "/events/".toList.isPrefixOf path ∧ isDashedHex id then
    if path.drop 44 = "/ws".toList then some (String.ofList id, .ws)
    else if path.drop 44 = "/announce".toList then some (String.ofList id, .announce)
    else none
  else none

/-- `Authorization` without its `Bearer `. -/
def bearerToken (request : RelayRequest) : String :=
  let header := (request.authorization.getD "").toList
  String.ofList (if "Bearer ".toList.isPrefixOf header then header.drop 7 else header)

def splitComma (text : String) : List String :=
  (text.toList.splitOn ',').map fun part => trim (String.ofList part)

/-- The pass after our protocol's name. -/
def offeredToken (request : RelayRequest) : String :=
  match splitComma (request.protocol.getD "") with
  | name :: token :: _ => if name = relayProtocol then token else ""
  | _ => ""

def isUnreserved (c : Char) : Bool :=
  c.isAlphanum || ['-', '_', '.', '!', '~', '*', '\'', '(', ')'].contains c

def percent (b : UInt8) : List Char :=
  ['%', (Nat.digitChar (b.toNat / 16)).toUpper, (Nat.digitChar (b.toNat % 16)).toUpper]

def encodeURIComponent (text : Units) : Except String String :=
  match (Utf16.read text).mapM Sum.getLeft? with
  | none => .error "URI malformed"
  | some cs => .ok (String.ofList (cs.flatMap fun c =>
      if isUnreserved c then [c] else (String.utf8EncodeChar c).flatMap percent))

variable (mac : List UInt8 → List UInt8 → List UInt8)

/-- A pass of the role and the event, or none. -/
def passFor (token : String) (secret : Units) (now : Time) (role : RelayRole) (eventId : String) :
    Except String (Option JsonText.Value) := do
  let claims ← verifyRelayPass mac token secret now
  return claims.filter fun claims =>
    hasRole claims role && text? (field claims "eventId") == some (ofString eventId)

def fetchAnnounce (env : RelayEnv) (request : RelayRequest) (eventId : String) (now : Time) :
    Except String RelayResponse :=
  if request.method ≠ "POST" then .ok (.text 405 "method not allowed")
  else do
    match ← passFor mac (bearerToken request) env.secret now .server eventId with
    | none => return .text 401 "unauthorized"
    | some _ => return .announce eventId

def fetchWs (env : RelayEnv) (request : RelayRequest) (eventId : String) (now : Time) :
    Except String RelayResponse :=
  if request.upgrade.map String.toLower ≠ some "websocket" then
    .ok (.text 426 "websocket expected")
  else if request.origin.getD "" ∉ splitComma env.allowedOrigins then .ok (.text 403 "origin")
  else do
    match ← passFor mac (offeredToken request) env.secret now .gate eventId with
    | none => return .text 401 "unauthorized"
    | some claims =>
      let gate ← encodeURIComponent ((text? (field claims "gate")).getD [])
      return .join eventId
        { passId := (text? (field claims "passId")).getD []
          gate := gate
          exp := (whole? (field claims "exp")).getD 0
          after := (request.after.filter fun n => decide (0 < n)).getD 0
          epoch := (request.epoch.filter fun epoch => isDashedHex epoch.toList).getD "" }

def fetch (env : RelayEnv) (request : RelayRequest) (now : Time) : Except String RelayResponse :=
  if request.pathname = "/health" then .ok (.text 200 "ok")
  else match routeOf request.pathname with
    | none => .ok (.text 404 "not found")
    | some (eventId, route) =>
      if !isUuid eventId then .ok (.text 404 "not found")
      else match route with
        | .announce => fetchAnnounce mac env request eventId now
        | .ws => fetchWs mac env request eventId now

end Worker

end Relay

end EchoAndAura
