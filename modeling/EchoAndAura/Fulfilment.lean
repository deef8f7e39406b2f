import EchoAndAura.GateRepositories
import EchoAndAura.Orders

/-!
# Fulfilment

`fulfilment.service`: complimentary tickets, approval, rejection and the cancellation of a ticket.
-/

namespace EchoAndAura

def codeAttempts : Nat := 3

/-- What one attempt at issuing tickets draws: their ids and codes, by place in the order. -/
structure TicketDraw where
  ids : List Id
  codes : List String
  deriving DecidableEq, Repr

structure CompDraw where
  order : OrderDraw
  tickets : TicketDraw
  deriving DecidableEq, Repr

namespace fulfilmentService

/-- One ticket per attendee name, in the order of the names. -/
def newTickets (orderId : Id) (o : Order) (draw : TicketDraw) : List (Id × Ticket) :=
  o.attendeeNames.mapIdx fun i attendeeName =>
    (draw.ids.getD i 0,
      { orderId, ticketTypeId := o.ticketTypeId, eventId := o.eventId
        code := draw.codes.getD i "", position := i + 1, attendeeName
        status := .issued, checkIn := none })

structure ComplimentaryInput where
  eventId : Id
  ticketTypeId : Id
  quantity : Int
  guestName : String
  guestEmail : String
  reason : String
  actor : String
  deriving DecidableEq, Repr

def compOrder (input : ComplimentaryInput) (t : TicketType) (totals : OrderTotals)
    (draw : OrderDraw) : Order where
  reference := draw.reference
  eventId := t.eventId
  ticketTypeId := input.ticketTypeId
  quantity := totals.quantity
  unitPricePaisa := totals.unitPricePaisa
  subtotalPaisa := totals.subtotalPaisa
  discountPaisa := totals.discountPaisa
  totalPaisa := totals.totalPaisa
  status := .issued
  buyerName := input.guestName
  buyerEmail := input.guestEmail
  buyerPhone := none
  attendeeNames := List.replicate input.quantity.toNat input.guestName
  bkashTrxId := none
  bkashSenderMsisdn := none
  promoCodeId := none
  rejectionReason := none
  rejectionNote := none
  complimentaryReason := some input.reason
  holdExpiresAt := none

def compEvent (input : ComplimentaryInput) (t : TicketType) (orderId : Id) (o : Order)
    (rows : List (Id × Ticket)) : OrderEvent where
  orderId := orderId
  actor := input.actor
  action := .orderCompIssued
  fromStatus := none
  toStatus := some .issued
  note := .compIssued o.quantity t.name input.reason (ticketsRepository.codes rows)

def issueComplimentaryTx (input : ComplimentaryInput) (t : TicketType) (totals : OrderTotals)
    (draw : CompDraw) : Tx (Id × Order × List (Id × Ticket)) := do
  let held ← inventoryService.hold input.ticketTypeId input.quantity
  if !held then .throw (.soldOut input.ticketTypeId input.quantity)
  inventoryService.convertToSold input.ticketTypeId input.quantity
  let orderId := draw.order.orderId
  let order ← exec (ordersRepository.insert orderId (compOrder input t totals draw.order))
  if (order.attendeeNames.length : Int) ≠ order.quantity then
    .throw (.attendeeNamesMismatch order.quantity order.attendeeNames.length)
  let rows ← ticketsRepository.insertMany (newTickets orderId order draw.tickets)
  exec (ordersRepository.insertEvent (compEvent input t orderId order rows))
  return (orderId, order, rows)

def isCollision : Err → Bool
  | .ticketCodeCollision _ => true
  | .orderReferenceCollision _ => true
  | _ => false

def issueComplimentaryTickets (input : ComplimentaryInput) (draw : Nat → CompDraw) :
    Svc (Id × Order × List (Id × Ticket)) := do
  let some t ← Svc.query (ticketTypesRepository.findById input.ticketTypeId)
    | throw (.ticketTypeNotFound input.ticketTypeId)
  if t.eventId ≠ input.eventId then throw (.ticketTypeNotFound input.ticketTypeId)
  let discount ← Svc.ofExcept (multiplyPaisa t.pricePaisa input.quantity)
  let totals ← Svc.ofExcept (computeOrderTotals t.pricePaisa input.quantity discount)
  let result ← Svc.retry isCollision (issueComplimentaryTx input t totals) draw 1 (codeAttempts - 1)
  Svc.say (.onTicketsIssued result.1)
  return result

structure ApproveInput where
  actor : String
  verifiedTrxId : String
  deriving DecidableEq, Repr

def approvedEvent (orderId : Id) (actor : String) (o : Order) : OrderEvent where
  orderId := orderId
  actor := actor
  action := .paymentApproved
  fromStatus := some .pendingVerification
  toStatus := some .paid
  note := .approved o.bkashTrxId o.totalPaisa

def issuedEvent (orderId : Id) (actor : String) (rows : List (Id × Ticket)) : OrderEvent where
  orderId := orderId
  actor := actor
  action := .ticketsIssued
  fromStatus := some .paid
  toStatus := some .issued
  note := .issued (ticketsRepository.codes rows)

def approveOrderTx (orderId : Id) (input : ApproveInput) (draw : TicketDraw) :
    Tx (Order × List (Id × Ticket)) := do
  let some order ← exec (ordersRepository.findByIdForUpdate orderId)
    | .throw (.orderNotFound orderId)
  if order.status != .pendingVerification then
    .throw (.orderStatusConflict orderId order.status)
  if order.bkashTrxId ≠ some input.verifiedTrxId then
    .throw (.trxIdChanged orderId input.verifiedTrxId order.bkashTrxId)
  Tx.ofExcept (assertOrderTransition order.status .paid)
  Tx.ofExcept (assertOrderTransition .paid .issued)
  let some _ ← exec (ordersRepository.transition orderId [.pendingVerification] .paid {})
    | .throw (.orderStatusConflict orderId order.status)
  exec (ordersRepository.insertEvent (approvedEvent orderId input.actor order))
  inventoryService.convertToSold order.ticketTypeId order.quantity
  if (order.attendeeNames.length : Int) ≠ order.quantity then
    .throw (.attendeeNamesMismatch order.quantity order.attendeeNames.length)
  let rows ← ticketsRepository.insertMany (newTickets orderId order draw)
  let some issued ← exec (ordersRepository.transition orderId [.paid] .issued {})
    | .throw (.orderStatusConflict orderId .paid)
  exec (ordersRepository.insertEvent (issuedEvent orderId input.actor rows))
  return (issued, rows)

def isCodeCollision : Err → Bool
  | .ticketCodeCollision _ => true
  | _ => false

def approveOrder (orderId : Id) (input : ApproveInput) (draw : Nat → TicketDraw) :
    Svc (Order × List (Id × Ticket)) := do
  let result ← Svc.retry isCodeCollision (approveOrderTx orderId input) draw 1 (codeAttempts - 1)
  Svc.say (.onTicketsIssued orderId)
  return result

structure RejectInput where
  actor : String
  reason : String
  note : Option String
  deriving DecidableEq, Repr

def rejectedEvent (orderId : Id) (actor : String) (reason : RejectionReason)
    (note : Option String) : OrderEvent where
  orderId := orderId
  actor := actor
  action := .paymentRejected
  fromStatus := some .pendingVerification
  toStatus := some .rejected
  note := .rejected reason note

def rejectOrderTx (orderId : Id) (actor : String) (reason : RejectionReason)
    (note : Option String) : Tx Order := do
  let some order ← exec (ordersRepository.findByIdForUpdate orderId)
    | .throw (.orderNotFound orderId)
  if order.status != .pendingVerification then
    .throw (.orderStatusConflict orderId order.status)
  Tx.ofExcept (assertOrderTransition order.status .rejected)
  let some rejected ← exec (ordersRepository.transition orderId [.pendingVerification] .rejected
      { rejection := some (reason, note) })
    | .throw (.orderStatusConflict orderId order.status)
  inventoryService.release order.ticketTypeId order.quantity
  exec (ordersRepository.insertEvent (rejectedEvent orderId actor reason note))
  return rejected

def cleanNote (note : Option String) : Option String :=
  (note.map trim).filter fun n => !n.isEmpty

def rejectOrder (orderId : Id) (input : RejectInput) : Svc Order := do
  let some reason := rejectionReason? input.reason | throw (.invalidRejectionReason input.reason)
  let rejected ← Svc.transaction (rejectOrderTx orderId input.actor reason (cleanNote input.note))
  Svc.say (.onOrderRejected orderId)
  return rejected

structure CancelTicketInput where
  orderId : Id
  actor : String
  reason : String
  deriving DecidableEq, Repr

structure CancelTicketResult where
  ticket : Ticket
  order : Order
  orderCancelled : Bool
  deriving DecidableEq, Repr

def ticketCancelledEvent (input : CancelTicketInput) (t : Ticket) : OrderEvent where
  orderId := input.orderId
  actor := input.actor
  action := .ticketCancelled
  fromStatus := none
  toStatus := none
  note := .ticketCancelled t.code t.attendeeName input.reason

def orderCancelledEvent (input : CancelTicketInput) (o : Order) : OrderEvent where
  orderId := input.orderId
  actor := input.actor
  action := .orderCancelled
  fromStatus := some .issued
  toStatus := some .cancelled
  note := .allCancelled o.quantity

/-- A seat goes back on sale; the order follows its last live ticket. -/
def cancelTicketTx (ticketId : Id) (input : CancelTicketInput) : Tx CancelTicketResult := do
  let some order ← exec (ordersRepository.findByIdForUpdate input.orderId)
    | .throw (.orderNotFound input.orderId)
  if order.status != .issued then .throw (.orderStatusConflict input.orderId order.status)
  let some ticket ← exec (ticketsRepository.findByIdForUpdate ticketId)
    | .throw (.ticketNotFound ticketId)
  if ticket.orderId ≠ input.orderId then .throw (.ticketNotFound ticketId)
  if ticket.status == .cancelled then .throw (.ticketCancelled ticket.code)
  if let some c := ticket.checkIn then
    .throw (.ticketCheckedIn ticket.code c.checkedInAt c.checkedInBy)
  let some cancelled ← exec (ticketsRepository.cancel ticketId)
    | .throw (.ticketCancelled ticket.code)
  inventoryService.releaseSold ticket.ticketTypeId 1
  exec (ordersRepository.insertEvent (ticketCancelledEvent input ticket))
  let live ← exec (ticketsRepository.countIssuedByOrder input.orderId)
  if 0 < live then return { ticket := cancelled, order, orderCancelled := false }
  Tx.ofExcept (assertOrderTransition order.status .cancelled)
  let some done ← exec (ordersRepository.transition input.orderId [.issued] .cancelled {})
    | .throw (.orderStatusConflict input.orderId order.status)
  exec (ordersRepository.insertEvent (orderCancelledEvent input order))
  return { ticket := cancelled, order := done, orderCancelled := true }

def cancelTicket (ticketId : Id) (input : CancelTicketInput) : Svc CancelTicketResult :=
  Svc.transaction (cancelTicketTx ticketId input)

end fulfilmentService

end EchoAndAura
