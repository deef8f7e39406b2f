import EchoAndAura.Effects
import EchoAndAura.EventRoom
import EchoAndAura.System

/-!
# Announcements

What our server tells the room after a commit: `relay.ts` writes it as JSON, the worker's relay
queue delivers it.  A message that failed is tried again later, and one that timed out may have
been applied, so the room can get the messages in any order and more than once.
-/

namespace EchoAndAura

/-- How ids and times are written: as uuids, and as ISO strings that give the time back. -/
structure Wire where
  uuid : Id → String
  iso : Time → String
  valid : ∀ id, isUuid (uuid id) = true

/-- `toWire`, as it is posted to the room. -/
def Announcement.body (w : Wire) : Announcement → Json
  | .checkedIn ticketId t gate => .object [
      ("kind", .string "in"), ("ticketId", .string (w.uuid ticketId)),
      ("at", .string (w.iso t) (some t)), ("gate", .string gate)]
  | .undo ticketId t => .object [
      ("kind", .string "undo"), ("ticketId", .string (w.uuid ticketId)),
      ("at", .string (w.iso t) (some t))]
  | .revoke passId until_ => .object [
      ("kind", .string "revoke"), ("passId", .string (w.uuid passId)),
      ("until", .string (w.iso until_) (some until_))]

/-- The room after a delivery. -/
def deliver (w : Wire) (s : RoomStore) (a : Announcement) : RoomStore :=
  (room.take s (.server (a.body w))).2

def deliverAll (w : Wire) (s : RoomStore) (as : List Announcement) : RoomStore :=
  as.foldl (deliver w) s

/-- What a commit that changed a ticket's check-in announces. -/
def announced (id : Id) (d d' : Db) : List Announcement :=
  match d.checkIn id, d'.checkIn id with
  | none, some c => [.checkedIn id c.checkedInAt c.checkedInBy]
  | some c, none => [.undo id c.checkedInAt]
  | _, _ => []

/-- What a commit of the record announces of a ticket. -/
def announcedBy (id : Id) : Obs → List Announcement
  | .commit _ d d' => announced id d d'
  | _ => []

/-- What the commits of a record announce of a ticket, in the order they were made. -/
def announcements (id : Id) (l : List Entry) : List Announcement :=
  l.flatMap fun e => announcedBy id e.obs

/-- The time of the confirmed check-in a room's row shows. -/
def RoomStore.confirmedAt (s : RoomStore) (ticketId : String) : Option ℚ :=
  ((room.standing (s.get ticketId)).filter (·.confirmed)).map (·.atMs)

/-- The room shows of a ticket what the database has. -/
def Agrees (w : Wire) (id : Id) (s : RoomStore) (d : Db) : Prop :=
  s.confirmedAt (w.uuid id) = (d.checkIn id).map fun c => (c.checkedInAt : ℚ)

end EchoAndAura
