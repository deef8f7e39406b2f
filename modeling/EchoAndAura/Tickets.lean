import EchoAndAura.GateRepositories
import EchoAndAura.Orders

/-!
# Tickets

`tickets.service`: the buyer changes the name on a ticket while registration is open.
-/

namespace EchoAndAura

namespace ticketsService

structure RenameWindow where
  open_ : Bool
  lockedAt : Option Time
  deriving DecidableEq, Repr

/-- No close date means the event was never publishable. -/
def renameWindow (event : Event) (at_ : Time) : RenameWindow :=
  match event.registrationClosesAt with
  | none => { open_ := false, lockedAt := none }
  | some closes => { open_ := at_ < closes, lockedAt := some closes }

def renamedEvent (code : String) (ticket : Ticket) (name : String) : OrderEvent where
  orderId := ticket.orderId
  actor := "buyer"
  action := .ticketRenamed
  fromStatus := none
  toStatus := none
  note := .renamed code ticket.attendeeName name

def renameAttendeeTx (id : Id) (ticket : Ticket) (code name : String) : Tx Ticket := do
  let some _ ← exec (ordersRepository.findByIdForUpdate ticket.orderId)
    | .throw (.missing s!"ticket {code}: order {ticket.orderId} missing")
  let some updated ← exec (ticketsRepository.updateAttendeeName id ticket.attendeeName name)
    | .throw (.ticketRenameConflict code)
  exec (ordersRepository.insertEvent (renamedEvent code ticket name))
  return updated

def renameAttendee (rawCode rawName : String) : Svc Ticket := do
  let code := normaliseTicketCode rawCode
  let some name := normaliseAttendeeName rawName
    | throw (.invalidAttendeeName "Enter the name the guest will give at the door.")
  let some (id, ticket) ← Svc.query (ticketsRepository.findByCode code)
    | throw (.ticketCodeNotFound code)
  if ticket.status == .cancelled then throw (.ticketCancelled code)
  let some event ← Svc.query (eventsRepository.findById ticket.eventId)
    | throw (.missing s!"ticket {code}: event {ticket.eventId} missing")
  let window := renameWindow event (← Svc.now)
  if !window.open_ then throw (.renameLocked window.lockedAt)
  Svc.transaction (renameAttendeeTx id ticket code name)

end ticketsService

end EchoAndAura
