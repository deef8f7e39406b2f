import EchoAndAura.EventRoom

/-!
# A phone's link to the room

`app/door/use-relay.ts`, what it keeps over its connections: the last number it heard and of which
room, which its next connection asks from.  A socket is not sent what its own messages changed.
-/

namespace EchoAndAura

open room

structure RelayLink where
  heard : Nat
  epoch : String

namespace RelayLink

def start : RelayLink := ⟨0, ""⟩

def seen (l : RelayLink) (seq : Nat) : RelayLink :=
  if l.heard < seq then { l with heard := seq } else l

def onmessage (l : RelayLink) : RoomMessage → RelayLink
  | .hello epoch _ => { heard := if epoch ≠ l.epoch then 0 else l.heard, epoch }
  | .checkins rows => rows.foldl (fun l row => l.seen row.seq) l
  | .undo _ _ _ seq => l.seen seq

/-- What the room sends first when the phone connects; an empty epoch is none. -/
def catchUp (l : RelayLink) (s : RoomStore) : List RoomMessage :=
  backlog l.heard (if l.epoch = "" then none else some l.epoch) s

end RelayLink

/-- What comes to a room while a phone is connected: on the phone's own socket, or not. -/
inductive LinkEvent
  | mine (now : Time) (sender : Sender) (raw : Raw)
  | other (m : Incoming)

namespace LinkEvent

def incoming : LinkEvent → Incoming
  | mine now sender raw => .phone now sender raw
  | other m => m

/-- What the phone's socket is sent of it. -/
def sent (s : RoomStore) (e : LinkEvent) : List RoomMessage :=
  match (take s e.incoming).1, e with
  | some (.ok effect), mine .. => if effect.skipSender then [] else effect.broadcast
  | some (.ok effect), other _ => effect.broadcast
  | _, _ => []

end LinkEvent

/-- One connection: what came to the room while the phone was away before it, what came on it, and
how many of the messages sent on it were delivered. -/
structure Connection where
  away : List Incoming
  events : List LinkEvent
  delivered : Nat

namespace Connection

def roomAfter (s : RoomStore) (events : List LinkEvent) : RoomStore :=
  events.foldl (fun s e => (take s e.incoming).2) s

def broadcasts (s : RoomStore) : List LinkEvent → List RoomMessage
  | [] => []
  | e :: events => e.sent s ++ broadcasts (take s e.incoming).2 events

variable (c : Connection) (s : RoomStore)

/-- The room the phone connects to. -/
def opened : RoomStore := runRoom s c.away

/-- The room when the connection ends. -/
def closed : RoomStore := roomAfter (c.opened s) c.events

def sent (l : RelayLink) : List RoomMessage :=
  l.catchUp (c.opened s) ++ broadcasts (c.opened s) c.events

def got (l : RelayLink) : List RoomMessage := (c.sent s l).take c.delivered

def lost (l : RelayLink) : List RoomMessage := (c.sent s l).drop c.delivered

end Connection

end EchoAndAura
