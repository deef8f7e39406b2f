import Mathlib.Data.Rat.Cast.Order
import EchoAndAura.Shop

/-!
# The relay's room

`relay/src/room.ts`: one event's room on the gate relay, which spreads check-ins between the door
phones.  A row is a phone's claim, a check-in the server confirmed, or a tombstone.  Messages are
JSON; a string comes with the instant `Date.parse` reads in it, a number with its exact value.
-/

namespace EchoAndAura

/-- A value `JSON.parse` can give.  `infinity` is a number too large for a double. -/
inductive Json
  | null
  | bool (b : Bool)
  | number (x : ℚ)
  | infinity
  | string (s : String) (date : Option Time := none)
  | array (items : List Json)
  | object (fields : List (String × Json))

namespace Json

/-- A property, `none` when undefined; of a repeated key the last one counts. -/
def get (name : String) : Json → Option Json
  | .object fields => fields.reverse.lookup name
  | _ => none

def isObject : Json → Bool
  | .object _ | .array _ => true
  | _ => false

def text? : Option Json → Option String
  | some (.string s _) => some s
  | _ => none

def date? : Option Json → Option Time
  | some (.string _ date) => date
  | _ => none

end Json

/-- A text message as it came in: its length, and what `JSON.parse` makes of it. -/
structure Raw where
  length : Nat
  json : Option Json

def isHex (c : Char) : Bool := c.isDigit || ('a' ≤ c && c ≤ 'f')

def isUuid (s : String) : Bool :=
  let cs := s.toList
  cs.length == 36 &&
    cs.zipIdx.all fun (c, i) => if i ∈ [8, 13, 18, 23] then c == '-' else isHex c

/-- `typeof x === 'string' && UUID.test(x)`. -/
def uuid? (x : Option Json) : Option String := (Json.text? x).filter isUuid

/-- A row as the phones get it. -/
structure RoomCheckIn where
  ticketId : String
  at_ : Time
  gate : Option String
  confirmed : Bool
  seq : Nat
  deriving DecidableEq

inductive Remover
  | gate
  | server
  deriving DecidableEq, Repr

/-- A row of the room; `removed` makes it a tombstone. -/
structure StoredCheckIn where
  ticketId : String
  atMs : ℚ
  gate : Option String
  passId : Option String
  confirmed : Bool
  seq : Nat
  removed : Option Remover
  deriving DecidableEq

/-- The room's SQLite: one row a ticket, in the order they changed. -/
structure RoomStore where
  rows : List StoredCheckIn
  seq : Nat
  epoch : String
  revoked : List String
  unique : (rows.map (·.ticketId)).Nodup
  ordered : rows.Pairwise (·.seq < ·.seq)
  bounded : ∀ r ∈ rows, r.seq ≤ seq

namespace RoomStore

def empty (epoch : String) (revoked : List String) : RoomStore where
  rows := []
  seq := 0
  epoch := epoch
  revoked := revoked
  unique := .nil
  ordered := .nil
  bounded := by simp

def get (s : RoomStore) (ticketId : String) : Option StoredCheckIn :=
  s.rows.find? (·.ticketId == ticketId)

def nextSeq (s : RoomStore) : Nat := s.seq + 1

/-- `INSERT OR REPLACE` of a row that has drawn the next sequence number. -/
def put (s : RoomStore) (row : StoredCheckIn) (drawn : row.seq = s.nextSeq) : RoomStore :=
  { s with
    rows := s.rows.filter (·.ticketId != row.ticketId) ++ [row]
    seq := s.nextSeq
    unique := by
      rw [List.map_append, List.nodup_append]
      refine ⟨s.unique.sublist (List.filter_sublist.map _), by simp, ?_⟩
      intro a ha b hb
      simp only [List.mem_map, List.mem_filter, bne_iff_ne] at ha hb
      obtain ⟨r, ⟨-, hr⟩, rfl⟩ := ha
      simp only [List.mem_singleton, exists_eq_left] at hb
      exact hb ▸ hr
    ordered := by
      refine List.pairwise_append.2 ⟨s.ordered.filter _, List.pairwise_singleton _ _, ?_⟩
      intro a ha b hb
      rw [List.mem_singleton.1 hb, drawn]
      exact Nat.lt_succ_of_le (s.bounded a (List.mem_filter.1 ha).1)
    bounded := by
      intro r hr
      rcases List.mem_append.1 hr with hr | hr
      · exact Nat.le_succ_of_le (s.bounded r (List.mem_filter.1 hr).1)
      · rw [List.mem_singleton.1 hr, drawn] }

/-- What changed after `seq`, in order, at most `limit` rows. -/
def after (s : RoomStore) (seq limit : Nat) : List StoredCheckIn :=
  ((s.rows.filter (seq < ·.seq)).mergeSort fun a b => a.seq ≤ b.seq).take limit

/-- The standing claims of a pass. -/
def claimsOf (s : RoomStore) (passId : String) : List StoredCheckIn :=
  s.rows.filter fun r => r.passId == some passId && !r.confirmed && r.removed.isNone

/-- The rows a pass created, its tombstones too. -/
def rowsOf (s : RoomStore) (passId : String) : Nat := s.rows.countP (·.passId == some passId)

def count (s : RoomStore) : Nat := s.rows.length

def isRevoked (s : RoomStore) (passId : String) : Bool := s.revoked.contains passId

def revoke (s : RoomStore) (passId : String) : RoomStore :=
  { s with revoked := if s.isRevoked passId then s.revoked else passId :: s.revoked }

end RoomStore

/-- Room to phone. -/
inductive RoomMessage
  | hello (epoch : String) (top : Nat)
  | checkins (rows : List RoomCheckIn)
  | undo (ticketId : String) (by_ : Remover) (at_ : Time) (seq : Nat)
  deriving DecidableEq

def RoomMessage.rows : RoomMessage → List RoomCheckIn
  | .checkins rows => rows
  | _ => []

def RoomMessage.isCheckins : RoomMessage → Bool
  | .checkins _ => true
  | _ => false

/-- Who sent a message: from its verified pass. -/
structure Sender where
  passId : String
  gate : String
  deriving DecidableEq, Repr

/-- What an accepted message has the room's sockets do. -/
structure RoomEffect where
  broadcast : List RoomMessage
  skipSender : Bool
  closePass : Option String := none
  keepUntil : Option Time := none
  warn : Option String := none
  deriving DecidableEq

inductive RoomAction
  | reject (reason : String)
  | ok (effect : RoomEffect)
  deriving DecidableEq

def maxMessageBytes : Nat := 1024
def maxBatchBytes : Nat := 32 * 1024
def maxBatchItems : Nat := 300
def backlogPage : Nat := 1000
def roomCap : Nat := 20000
def passClaimCap : Nat := 2000
def undoSlackMs : Int := 5000
def futureSlackMs : Int := 5 * 60000
def pastLimitMs : Int := 36 * 3600000

namespace room

def nothing : RoomEffect where
  broadcast := []
  skipSender := false

/-- The time an ISO string gives: the fraction of a millisecond is cut off. -/
def iso (ms : ℚ) : Time := ms.num.tdiv ms.den

def standing (row : Option StoredCheckIn) : Option StoredCheckIn := row.filter (·.removed.isNone)

def wire (row : StoredCheckIn) : RoomCheckIn where
  ticketId := row.ticketId
  at_ := iso row.atMs
  gate := row.gate
  confirmed := row.confirmed
  seq := row.seq

def undoMessage (row : StoredCheckIn) : RoomMessage :=
  .undo row.ticketId (row.removed.getD .server) (iso row.atMs) row.seq

/-- Many messages as one: rows into a single `checkins`, undos as they are. -/
def merge (messages : List RoomMessage) : List RoomMessage :=
  let rows := messages.flatMap (·.rows)
  (if rows.isEmpty then [] else [.checkins rows]) ++ messages.filter (!·.isCheckins)

def plausibleTime (now : Time) : Option Json → Option ℚ
  | some (.number x) => if x ≤ now + futureSlackMs ∧ now - pastLimitMs ≤ x then some x else none
  | _ => none

/-- A phone's own admission; `none` for a malformed item. -/
def claim (now : Time) (sender : Sender) (ticketId at_ : Option Json) (s : RoomStore) :
    Option (RoomEffect × RoomStore) := do
  let ticketId ← uuid? ticketId
  let atMs ← plausibleTime now at_
  if (standing (s.get ticketId)).isSome then return (nothing, s)
  if roomCap ≤ s.count then return (nothing, s)
  if passClaimCap ≤ s.rowsOf sender.passId then
    return ({ nothing with warn := some s!"pass {sender.passId} reached {passClaimCap} rows" }, s)
  let row : StoredCheckIn := {
    ticketId, atMs, gate := some sender.gate, passId := some sender.passId, confirmed := false
    seq := s.nextSeq, removed := none }
  return ({ broadcast := [.checkins [wire row]], skipSender := true }, s.put row rfl)

/-- A phone taking back its own claim; `none` for a malformed item. -/
def unclaim (sender : Sender) (ticketId : Option Json) (s : RoomStore) :
    Option (RoomEffect × RoomStore) := do
  let ticketId ← uuid? ticketId
  let some row := standing (s.get ticketId) | return (nothing, s)
  if row.confirmed || row.passId ≠ some sender.passId then return (nothing, s)
  let tomb : StoredCheckIn := { row with removed := some .gate, seq := s.nextSeq }
  return ({ broadcast := [undoMessage tomb], skipSender := true }, s.put tomb rfl)

/-- The pages of a catch-up after `cursor`. -/
def pages (s : RoomStore) (cursor : Nat) : Nat → List RoomMessage
  | 0 => []
  | fuel + 1 =>
    let page := s.after cursor backlogPage
    match page.getLast? with
    | none => []
    | some last =>
      let rows := (page.filter (·.removed.isNone)).map wire
      (if rows.isEmpty then [] else [.checkins rows]) ++
        (page.filter (·.removed.isSome)).map undoMessage ++
          if page.length < backlogPage then [] else pages s last.seq fuel

/-- What a phone missed: from the start when its cursor is of another room, or past this one's
end. -/
def backlog (afterSeq : Nat) (epoch : Option String) (s : RoomStore) : List RoomMessage :=
  let from_ := if epoch ≠ some s.epoch || s.seq < afterSeq then 0 else afterSeq
  .hello s.epoch s.seq :: pages s from_ (s.count + 1)

/-- One item of a batch, what it did or `none`. -/
def batchItem (now : Time) (sender : Sender) (item : Json) (s : RoomStore) :
    Option (RoomEffect × RoomStore) :=
  if !item.isObject then none
  else
    match Json.text? (item.get "t") with
    | some "in" => claim now sender (item.get "ticketId") (item.get "at") s
    | some "undo" => unclaim sender (item.get "ticketId") s
    | _ => none

/-- The items of a batch, one after another: what was broadcast, and the first warning. -/
def batch (now : Time) (sender : Sender) :
    List Json → RoomStore → List RoomMessage × Option String × RoomStore
  | [], s => ([], none, s)
  | item :: items, s =>
    match batchItem now sender item s with
    | none => batch now sender items s
    | some (e, s') =>
      let (broadcast, warn, s'') := batch now sender items s'
      (e.broadcast ++ broadcast, e.warn.or warn, s'')

/-- An admission, an undo, or a batch of them sent again when the link opens. -/
def fromPhone (now : Time) (sender : Sender) (raw : Raw) (s : RoomStore) : RoomAction × RoomStore :=
  if maxBatchBytes < raw.length then (.reject "too large", s)
  else
    match raw.json with
    | none => (.reject "not JSON", s)
    | some m =>
      if !m.isObject then (.reject "not an object", s)
      else if Json.text? (m.get "t") = some "claims" then
        match m.get "items" with
        | some (.array items) =>
          if maxBatchItems < items.length then (.reject "bad batch", s)
          else
            let (broadcast, warn, s') := batch now sender items s
            (.ok { broadcast := merge broadcast, skipSender := true, warn }, s')
        | _ => (.reject "bad batch", s)
      else if maxMessageBytes < raw.length then (.reject "too large", s)
      else
        match Json.text? (m.get "t") with
        | some "in" =>
          match claim now sender (m.get "ticketId") (m.get "at") s with
          | some (e, s') => (.ok e, s')
          | none => (.reject "bad claim", s)
        | some "undo" =>
          match unclaim sender (m.get "ticketId") s with
          | some (e, s') => (.ok e, s')
          | none => (.reject "bad undo", s)
        | _ => (.reject "unknown message", s)

/-- The claims of a revoked pass are taken back one by one. -/
def takeBack : List StoredCheckIn → RoomStore → List RoomMessage × RoomStore
  | [], s => ([], s)
  | row :: rows, s =>
    let tomb : StoredCheckIn := { row with removed := some .gate, seq := s.nextSeq }
    let (broadcast, s') := takeBack rows (s.put tomb rfl)
    (undoMessage tomb :: broadcast, s')

def serverRevoke (passId : String) (until_ : Option Time) (s : RoomStore) :
    RoomEffect × RoomStore :=
  let s := s.revoke passId
  let (broadcast, s') := takeBack (s.claimsOf passId) s
  ({ broadcast, skipSender := false, closePass := some passId, keepUntil := until_ }, s')

def serverIn (ticketId : String) (atMs : Time) (gate : Option String) (s : RoomStore) :
    RoomEffect × RoomStore :=
  let existing := s.get ticketId
  if (standing existing).any fun r => r.confirmed && decide (r.atMs = (atMs : ℚ)) then (nothing, s)
  else if existing.any fun r => r.removed == some .server && decide ((atMs : ℚ) ≤ r.atMs) then
    (nothing, s)
  else
    let row : StoredCheckIn := {
      ticketId, atMs, gate := gate.filter (· ≠ ""), passId := none, confirmed := true
      seq := s.nextSeq, removed := none }
    ({ broadcast := [.checkins [wire row]], skipSender := false }, s.put row rfl)

def serverUndo (ticketId : String) (atMs : Time) (s : RoomStore) : RoomEffect × RoomStore :=
  let existing := s.get ticketId
  if (standing existing).any fun r =>
      if r.confirmed then decide (r.atMs ≠ (atMs : ℚ))
      else decide ((atMs + undoSlackMs : ℚ) < r.atMs) then
    (nothing, s)
  else
    let tomb : StoredCheckIn := {
      ticketId, atMs, gate := existing.bind (·.gate), passId := none, confirmed := true
      seq := s.nextSeq, removed := some .server }
    ({ broadcast := [undoMessage tomb], skipSender := false }, s.put tomb rfl)

/-- Our server, after a commit; `none` for a bad body. -/
def fromServer (body : Json) (s : RoomStore) : Option (RoomEffect × RoomStore) :=
  if !body.isObject then none
  else if Json.text? (body.get "kind") = some "revoke" then do
    let passId ← uuid? (body.get "passId")
    return serverRevoke passId (Json.date? (body.get "until")) s
  else do
    let ticketId ← uuid? (body.get "ticketId")
    let atMs ← Json.date? (body.get "at")
    match Json.text? (body.get "kind") with
    | some "in" => return serverIn ticketId atMs (Json.text? (body.get "gate")) s
    | some "undo" => return serverUndo ticketId atMs s
    | _ => none

end room

/-- What a room is fed: the messages of phones and of our server. -/
inductive Incoming
  | phone (now : Time) (sender : Sender) (raw : Raw)
  | server (body : Json)

namespace room

/-- The action a message gets, `none` for a bad body, and the room after it. -/
def take (s : RoomStore) : Incoming → Option RoomAction × RoomStore
  | .phone now sender raw =>
    let (action, s') := fromPhone now sender raw s
    (some action, s')
  | .server body =>
    match fromServer body s with
    | some (e, s') => (some (.ok e), s')
    | none => (none, s)

def runRoom (s : RoomStore) (ms : List Incoming) : RoomStore := ms.foldl (fun s m => (take s m).2) s

end room

end EchoAndAura
