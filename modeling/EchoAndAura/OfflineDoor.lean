import EchoAndAura.Phone

/-!
# The list of an event's door phones

`door.repository` and `door.service`, `offlineList`: what a phone downloads, and how it sends a scan
it answered without signal.  `nameLe` is the database's order of texts, `salt` the one drawn for the
download.
-/

namespace EchoAndAura

variable (digest : String → String → String) (nameLe : String → String → Bool)

structure OfflineListRow where
  id : Id
  code : String
  status : TicketStatus
  attendeeName : String
  ticketTypeName : String
  position : Int
  orderQuantity : Int
  checkIn : Option CheckIn
  deriving DecidableEq, Repr

/-- A ticket with the names of its type and its order, where both are there. -/
def Db.offlineRow (d : Db) (e : Sigma fun _ : Id => Ticket) : Option OfflineListRow := do
  let ticketType ← d.ticketTypes.lookup e.2.ticketTypeId
  let order ← d.orders.lookup e.2.orderId
  some {
    id := e.1, code := e.2.code, status := e.2.status, attendeeName := e.2.attendeeName
    ticketTypeName := ticketType.name, position := e.2.position, orderQuantity := order.quantity
    checkIn := e.2.checkIn }

/-- By name, then by place in the order. -/
def OfflineListRow.before (a b : OfflineListRow) : Bool :=
  nameLe a.attendeeName b.attendeeName &&
    (!nameLe b.attendeeName a.attendeeName || a.position ≤ b.position)

/-- Every ticket of the event, all statuses. -/
def doorRepository.offlineList (eventId : Id) : Stmt (List OfflineListRow) :=
  .reads "door.offlineList" fun d =>
    ((d.tickets.entries.filter (·.2.eventId == eventId)).filterMap d.offlineRow).insertionSort
      fun a b => a.before nameLe b

def OfflineListRow.entry (salt : String) (r : OfflineListRow) : OfflineEntry Id where
  d := digest salt r.code
  id := r.id
  name := r.attendeeName
  type := r.ticketTypeName
  pos := r.position
  of := r.orderQuantity
  status := r.status
  inAt := r.checkIn.map (·.checkedInAt)
  inBy := r.checkIn.map (·.checkedInBy)

/-- The time is taken before the read. -/
def doorService.offlineList (salt : String) (ctx : DoorContext) : Svc (OfflineList Id) := do
  let asOf ← Svc.now
  let rows ← Svc.query (doorRepository.offlineList nameLe ctx.eventId)
  return {
    eventId := ctx.eventId, passId := ctx.passId, salt, serverTime := asOf
    validFrom := ctx.window.validFrom, validUntil := ctx.window.validUntil
    entries := rows.map (·.entry digest salt) }

/-- A scan the phone kept, as it sends it. -/
def OutboxItem.syncScan {κ : Type} (i : OutboxItem κ) : ScanItem where
  scanId := i.scanId
  input := some i.input
  ticketId := none
  phoneLast3 := none
  method := i.method
  scannedAt := some i.scannedAt
  offline := some ⟨i.verdict, i.supersedesScanId⟩

end EchoAndAura
