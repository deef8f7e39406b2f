import EchoAndAura.RelayLink
import EchoAndAura.Phone

/-!
# A door phone on its link

The phone's marks (`app/door/offline/use-offline.ts`) run together with its link
(`app/door/use-relay.ts`) and the room.  What the phone tells is sent while its socket is open, and
what the room may not have is sent again when the next one opens.  Messages come in the order they
were sent, each way, until the socket drops.
-/

namespace EchoAndAura

open room

section Messages

/-- What the phone tells, as it sends it. -/
def RelayOwnMark.json : RelayOwnMark String → Json
  | .in_ ticketId at_ =>
    .object [("t", .string "in"), ("ticketId", .string ticketId), ("at", .number at_)]
  | .undo ticketId => .object [("t", .string "undo"), ("ticketId", .string ticketId)]

def claimsPerBatch : Nat := 200

def claimsMessages (claims : List (RelayOwnMark String)) : List Json :=
  (claims.toChunks claimsPerBatch).map fun items =>
    .object [("t", .string "claims"), ("items", .array (items.map (·.json)))]

def PhoneNote.json : PhoneNote String → Option Json
  | .told m => some m.json
  | _ => none

def RoomCheckIn.relayRow (row : RoomCheckIn) : RelayRow String :=
  ⟨row.ticketId, row.at_, row.gate, row.confirmed⟩

def Remover.undoBy : Remover → UndoBy
  | .gate => .gate
  | .server => .server

/-- What a message of the room has the phone do. -/
def RoomMessage.event (now : Time) : RoomMessage → Option (PhoneEvent String)
  | .hello _ _ => none
  | .checkins rows => some (.relayRows now (rows.map (·.relayRow)))
  | .undo ticketId by_ at_ _ => some (.relayUndo ticketId ⟨by_.undoBy, at_⟩)

end Messages

/-- The phone's socket: none, taken in by the room, or open on the phone too. -/
inductive SocketState
  | none
  | accepted
  | live
  deriving DecidableEq, Repr

/-- A phone, the room, and what is on its way between them. -/
structure LinkedPhone where
  phone : Phone String
  link : RelayLink
  room : RoomStore
  socket : SocketState
  down : List RoomMessage
  up : List Json

inductive LinkedEvent
  /-- A stretch of the phone's own, at the door or with the server. -/
  | phone (e : PhoneEvent String)
  /-- The room takes the socket in, and sends the catch-up. -/
  | connect
  /-- `onopen` -/
  | opened
  | drop
  /-- The next message reaches the phone. -/
  | deliver (now : Time)
  /-- The next message reaches the room; its length is that of its text. -/
  | arrive (now : Time) (length : Nat)
  /-- Anything else comes to the room, also on another socket of the phone's pass, or on one of the
  phone's own that it holds for dead. -/
  | other (m : Incoming)

namespace LinkedPhone

def start (phone : Phone String) (room : RoomStore) : LinkedPhone where
  phone := phone
  link := .start
  room := room
  socket := .none
  down := []
  up := []

/-- A stretch of the phone; what it tells is sent if the socket is open. -/
def stretch (g : LinkedPhone) (e : PhoneEvent String) : LinkedPhone :=
  { g with
    phone := (g.phone.step e).1
    up := if g.socket = .live then g.up ++ (g.phone.step e).2.filterMap (·.json) else g.up }

/-- The phone's cursor moves before its marks do. -/
def hear (g : LinkedPhone) (now : Time) (m : RoomMessage) : LinkedPhone :=
  let g := { g with link := g.link.onmessage m }
  match m.event now with
  | some e => g.stretch e
  | none => g

/-- One step; `who` is the phone's pass. -/
def step (who : Sender) (g : LinkedPhone) : LinkedEvent → LinkedPhone
  | .phone e => g.stretch e
  | .connect =>
    if g.socket = .none then { g with socket := .accepted, down := g.link.catchUp g.room } else g
  | .opened =>
    if g.socket = .accepted then
      { g with socket := .live, up := claimsMessages g.phone.ownClaims }
    else g
  | .drop => { g with socket := .none, down := [], up := [] }
  | .deliver now =>
    match g.socket, g.down with
    | .live, m :: down => { g with down }.hear now m
    | _, _ => g
  | .arrive now length =>
    match g.up with
    | [] => g
    | json :: up => { g with room := (take g.room (.phone now who ⟨length, some json⟩)).2, up }
  | .other m =>
    { g with
      room := (take g.room m).2
      down := if g.socket = .none then g.down else g.down ++ LinkEvent.sent g.room (.other m) }

end LinkedPhone

end EchoAndAura
