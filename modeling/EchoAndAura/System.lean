import EchoAndAura.Door
import EchoAndAura.Fulfilment
import EchoAndAura.Tickets

/-!
# The running shop

Every request the buyers, the admins, the gates and the expiry job can make, each as the program
its route runs, and the system that runs any number of them at once.
-/

namespace EchoAndAura

/-- What an admin's undo form carries: the order page it was opened on and the ticket clicked. -/
structure UndoForm where
  orderId : Id
  ticketId : Id
  reason : String
  actor : String
  deriving DecidableEq, Repr

inductive Request
  | createOrder (input : ordersService.CreateOrderInput) (draw : Nat → OrderDraw)
  | submitPayment (orderId : Id) (input : ordersService.SubmitPaymentInput)
  | expireLapsedHolds
  | updateTicketType (id : Id) (input : ticketTypesRepository.Patch)
  | issueComplimentaryTickets (input : fulfilmentService.ComplimentaryInput)
      (draw : Nat → CompDraw)
  | approveOrder (orderId : Id) (input : fulfilmentService.ApproveInput) (draw : Nat → TicketDraw)
  | rejectOrder (orderId : Id) (input : fulfilmentService.RejectInput)
  | cancelTicket (ticketId : Id) (input : fulfilmentService.CancelTicketInput)
  | renameAttendee (rawCode rawName : String)
  | scans (passCode : String) (items : List ScanItem)
  | undoScan (passCode : String) (scanId : Id) (reason : DoorUndoReason)
  | undoCheckIn (form : UndoForm)
  | revokePass (eventId passId : Id)
  | revokeAndUndo (eventId passId : Id) (reason actor : String)
  | tick (t : Time)

inductive Answer
  | order (id : Id) (o : Order)
  | updated (o : Order)
  | issued (o : Order) (tickets : List (Id × Ticket))
  | cancelled (r : fulfilmentService.CancelTicketResult)
  | renamed (t : Ticket)
  | expired (n : ordersService.ExpiryCount)
  | scanned (results : List ScanResult)
  | unauthorized
  | notShown
  | undone (code : String)
  | revoked (undone : Nat)
  | ok
  deriving DecidableEq, Repr

/-- The tickets of an order, as its admin page lists them. -/
def ticketsRepository.listByOrder (orderId : Id) : Stmt (List (Id × Ticket)) :=
  .reads "tickets.listByOrder" fun d =>
    (d.tickets.entries.filter fun e => e.2.orderId == orderId).map fun e => (e.1, e.2)

/-- The undo button is bound to the check-in the page showed. -/
def undoCheckInAction (form : UndoForm) : Svc Answer := do
  let page ← Svc.query (ticketsRepository.listByOrder form.orderId)
  let some t := page.find? fun t => t.1 == form.ticketId | return .notShown
  let some shown := t.2.checkIn | return .notShown
  let code ← doorService.undoCheckInAsAdmin form.ticketId form.orderId shown.checkedInScanId
    form.reason form.actor
  return .undone code

/-- `POST /api/door/scans`. -/
def scansRoute (passCode : String) (items : List ScanItem) : Svc Answer := do
  let some ctx ← doorService.authenticate passCode | return .unauthorized
  return .scanned (← doorService.scanBatch ctx items [])

/-- `POST /api/door/undo`. -/
def undoRoute (passCode : String) (scanId : Id) (reason : DoorUndoReason) : Svc Answer := do
  let some ctx ← doorService.authenticate passCode | return .unauthorized
  doorService.undoOwnAdmit ctx scanId reason
  return .ok

def Request.handler : Request → Svc Answer
  | .createOrder input draw => do
    let created ← ordersService.createOrder input draw
    return .order created.1 created.2
  | .submitPayment orderId input => .updated <$> ordersService.submitPayment orderId input
  | .expireLapsedHolds => .expired <$> ordersService.expireLapsedHolds
  | .updateTicketType id input => do
    ticketTypesService.updateTicketType id input
    return .ok
  | .issueComplimentaryTickets input draw => do
    let r ← fulfilmentService.issueComplimentaryTickets input draw
    return .issued r.2.1 r.2.2
  | .approveOrder orderId input draw => do
    let r ← fulfilmentService.approveOrder orderId input draw
    return .issued r.1 r.2
  | .rejectOrder orderId input => .updated <$> fulfilmentService.rejectOrder orderId input
  | .cancelTicket ticketId input => .cancelled <$> fulfilmentService.cancelTicket ticketId input
  | .renameAttendee rawCode rawName => .renamed <$> ticketsService.renameAttendee rawCode rawName
  | .scans passCode items => scansRoute passCode items
  | .undoScan passCode scanId reason => undoRoute passCode scanId reason
  | .undoCheckIn form => undoCheckInAction form
  | .revokePass eventId passId => do
    doorService.revokePass eventId passId
    return .ok
  | .revokeAndUndo eventId passId reason actor =>
    .revoked <$> doorService.revokeAndUndo eventId passId reason actor
  | .tick t => do
    Svc.query (setClock t)
    return .ok

abbrev Obs := Txn.Obs Db Row Say (Except Err Answer)
abbrev Entry := Txn.Entry Request Db Row Say (Except Err Answer)
abbrev Sys := Txn.Sys Request Db Row Write Err Say (Except Err Answer)
abbrev Action := Txn.Action Request

def shop : Txn.Service Db Row Write Err Say (Except Err Answer) Request where
  prog q := q.handler.run
  lost := .lost

/-- The system after a schedule, from the database `d`. -/
def run (d : Db) (sched : List Action) : Sys := Txn.Sys.run shop d sched

section Opening

/-- An event whose doors are open while its registration still is. -/
def gala : Event where
  slug := "gala"
  title := "Gala"
  status := .published
  startsAt := 5 * hourMs
  endsAt := none
  registrationOpensAt := some 0
  registrationClosesAt := some (4 * hourMs)

/-- One place of two sold, nobody in yet, one gate. -/
def openingNight : Db where
  clock := 2 * hourMs
  events := .singleton 1 gala
  ticketTypes := .singleton 1
    { eventId := 1, name := "Floor", pricePaisa := 50000, quantityTotal := 2, quantitySold := 1
      quantityReserved := 0, salesStartsAt := none, salesEndsAt := none }
  promoCodes := ∅
  orders := .singleton 1
    { reference := "EA-1", eventId := 1, ticketTypeId := 1, quantity := 1, unitPricePaisa := 50000
      subtotalPaisa := 50000, discountPaisa := 0, totalPaisa := 50000, status := .issued
      buyerName := "Rumi", buyerEmail := "rumi@example.com", buyerPhone := some "01700000001"
      attendeeNames := ["Rumi"], bkashTrxId := some "TRX1"
      bkashSenderMsisdn := some "01700000001", promoCodeId := none, rejectionReason := none
      rejectionNote := none, complimentaryReason := none, holdExpiresAt := none }
  orderReferences := .singleton "EA-1" 1
  orderTrxIds := .singleton "TRX1" 1
  orderEvents := []
  tickets := .singleton 1
    { orderId := 1, ticketTypeId := 1, eventId := 1, code := "TKT-4H8ZP2XQ", position := 1
      attendeeName := "Rumi", status := .issued, checkIn := none }
  ticketCodes := .singleton "TKT-4H8ZP2XQ" 1
  ticketPositions := .singleton (1, 1) 1
  doorPasses := .singleton 1
    { eventId := 1, label := "Gate A", code := "K7QM4XPDR2TW", revokedAt := none }
  doorScans := ∅

/-- A request from its start to its end, with nobody in between. -/
def alone (pid : Nat) (q : Request) (steps : Nat) : List Action :=
  .start q :: List.replicate steps (.step pid)

/-- The gate scans the ticket by its id. -/
def scanOf (scanId ticketId : Id) : Request :=
  .scans "K7QM4XPDR2TW" [{
    scanId, input := none, ticketId := some ticketId, phoneLast3 := none, method := .qr
    scannedAt := none, offline := none }]

end Opening

end EchoAndAura
