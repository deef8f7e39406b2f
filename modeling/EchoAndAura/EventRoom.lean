import EchoAndAura.Room

/-!
# The relay's Durable Object

`relay/src/index.ts`: the sockets of one event's room.  A socket the room has closed is still there
until its close completes, and what it sent before still arrives.
-/

namespace EchoAndAura

/-- What a socket carries of its verified pass; `exp` is in seconds. -/
structure Attachment where
  passId : String
  gate : String
  exp : Int
  deriving DecidableEq, Repr

/-- An accepted socket; `closed` once the room closed it. -/
structure Socket where
  who : Attachment
  closed : Bool
  deriving DecidableEq, Repr

structure EventRoom where
  store : RoomStore
  sockets : List (Nat × Socket)
  accepted : Nat
  rate : Table String (Time × Nat)

/-- Messages per pass in a window, and the window. -/
def ratePerWindow : Nat := 50
def rateWindowMs : Int := 10000
def socketsPerPass : Nat := 4

/-- A message sent to a socket. -/
abbrev Sent := Nat × RoomMessage

namespace EventRoom

def empty (store : RoomStore) : EventRoom where
  store := store
  sockets := []
  accepted := 0
  rate := ∅

def socket (e : EventRoom) (ws : Nat) : Option Socket := e.sockets.lookup ws

/-- `getWebSockets(passId)`. -/
def socketsOf (e : EventRoom) (passId : String) : List Nat :=
  (e.sockets.filter (·.2.who.passId == passId)).map (·.1)

def close (e : EventRoom) (which : List Nat) : EventRoom :=
  { e with sockets := e.sockets.map fun s =>
      if which.contains s.1 then (s.1, { s.2 with closed := true }) else s }

def expired (now : Time) (who : Attachment) : Bool := who.exp * 1000 ≤ now

/-- Whether a pass may send one more message in its window. -/
def withinRate (e : EventRoom) (now : Time) (passId : String) : Bool × EventRoom :=
  match e.rate.lookup passId with
  | some (start, n) =>
    if now - start ≤ rateWindowMs then
      (n + 1 ≤ ratePerWindow, { e with rate := e.rate.insert passId (start, n + 1) })
    else (true, { e with rate := e.rate.insert passId (now, 1) })
  | none => (true, { e with rate := e.rate.insert passId (now, 1) })

/-- A broadcast reaches every open socket but the sender's; an expired pass is closed instead. -/
def deliver (e : EventRoom) (now : Time) (skip : Option Nat) (m : RoomMessage) : List Sent :=
  (e.sockets.filter fun s => some s.1 != skip && !s.2.closed && !expired now s.2.who).map
    fun s => (s.1, m)

def apply (e : EventRoom) (now : Time) (sender : Option Nat) : RoomAction → EventRoom × List Sent
  | .reject _ => (e.close sender.toList, [])
  | .ok effect =>
    let skip := if effect.skipSender then sender else none
    let sent := effect.broadcast.flatMap (e.deliver now skip)
    let late := if effect.broadcast.isEmpty then []
      else (e.sockets.filter fun s => some s.1 != skip && expired now s.2.who).map (·.1)
    let revoked := (effect.closePass.map e.socketsOf).getD []
    (e.close (late ++ revoked), sent)

/-- A door phone joins; past four sockets of a pass the oldest make room. -/
def fetch (e : EventRoom) (passId gate : String) (exp : Int) (after : Nat)
    (epoch : Option String) : EventRoom × List Sent :=
  if passId = "" ∨ gate = "" then (e, [])
  else if e.store.isRevoked passId then (e, [])
  else
    let same := e.socketsOf passId
    let e := e.close (same.take (same.length + 1 - socketsPerPass))
    ({ e with
        sockets := e.sockets ++ [(e.accepted, { who := { passId, gate, exp }, closed := false })]
        accepted := e.accepted + 1 },
      (room.backlog after epoch e.store).map fun m => (e.accepted, m))

/-- A message of a socket, `none` for a binary one. -/
def webSocketMessage (e : EventRoom) (now : Time) (ws : Nat) (message : Option Raw) :
    EventRoom × List Sent :=
  match e.socket ws with
  | none => (e, [])
  | some s =>
    if expired now s.who then (e.close [ws], [])
    else
      match message with
      | none => (e.close [ws], [])
      | some raw =>
        let (within, e) := e.withinRate now s.who.passId
        if !within then (e.close [ws], [])
        else
          let (action, store) := room.fromPhone now ⟨s.who.passId, s.who.gate⟩ raw e.store
          { e with store }.apply now (some ws) action

/-- Our server's announcement. -/
def announce (e : EventRoom) (now : Time) (body : Json) : EventRoom × List Sent :=
  match room.fromServer body e.store with
  | none => (e, [])
  | some (effect, store) => { e with store }.apply now none (.ok effect)

end EventRoom

/-- What happens to the object. -/
inductive RelayEvent
  | connect (passId gate : String) (exp : Int) (after : Nat) (epoch : Option String)
  | message (now : Time) (ws : Nat) (message : Option Raw)
  | announce (now : Time) (body : Json)
  | closed (ws : Nat)

/-- One event: the object after it, and what was sent. -/
def EventRoom.step (e : EventRoom) : RelayEvent → EventRoom × List Sent
  | .connect passId gate exp after epoch => e.fetch passId gate exp after epoch
  | .message now ws message => e.webSocketMessage now ws message
  | .announce now body => e.announce now body
  | .closed ws => ({ e with sockets := e.sockets.filter (·.1 != ws) }, [])

def EventRoom.run (e : EventRoom) (events : List RelayEvent) : EventRoom :=
  events.foldl (fun e ev => (e.step ev).1) e

end EchoAndAura
