import EchoAndAura.System

/-!
# Effects

Everything a transaction of the shop can commit, as the writes it makes and what it found in the
database it committed to.  The proofs about whole runs go by cases on `Effect`, so that none of
them looks into a program again.
-/

namespace EchoAndAura

open Txn (Lock writeAll)

/-- The committed check-in of a ticket, if it is in. -/
def Db.checkIn (d : Db) (ticketId : Id) : Option CheckIn := (d.tickets.lookup ticketId).bind (·.checkIn)

/-- The pass whose gate made a scan. -/
def Db.scanPass (d : Db) (scanId : Id) : Option Id := (d.doorScans.lookup scanId).map (·.passId)

/-- A ticket the door can find, by its id and its code. -/
def Db.HasTicket (d : Db) (id : Id) (code : String) : Prop :=
  ∃ t, d.doorTicket id = some t ∧ t.code = code

def TicketType.reserve (t : TicketType) (quantity : Int) : TicketType :=
  { t with quantityReserved := t.quantityReserved + quantity }

def TicketType.release (t : TicketType) (quantity : Int) : TicketType :=
  { t with quantityReserved := t.quantityReserved - quantity }

def TicketType.convertToSold (t : TicketType) (quantity : Int) : TicketType :=
  { t with
    quantityReserved := t.quantityReserved - quantity
    quantitySold := t.quantitySold + quantity }

def TicketType.releaseSold (t : TicketType) (quantity : Int) : TicketType :=
  { t with quantitySold := t.quantitySold - quantity }

/-- A check-in as an undo found it: listed for its pass, with the row it stands on. -/
structure Undone where
  listed : PassCheckIn
  row : Ticket
  checkIn : CheckIn

/-- The writes that undo check-ins one by one, each with its audit row. -/
def undoWrites (event : PassCheckIn → OrderEvent) (undone : List Undone) : List Write :=
  undone.flatMap fun u =>
    [.ticket u.listed.id { u.row with checkIn := none }, .orderEvent (event u.listed)]

/-- The check-ins `undone` stand on their tickets in `d`, each ticket named once. -/
structure Standing (d : Db) (undone : List Undone) : Prop where
  nodup : (undone.map (·.listed.id)).Nodup
  row : ∀ u ∈ undone, d.tickets.lookup u.listed.id = some u.row
  checkIn : ∀ u ∈ undone, u.row.checkIn = some u.checkIn
  scan : ∀ u ∈ undone, u.checkIn.checkedInScanId = u.listed.checkedInScanId

/-- The gate that holds `K` lets the ticket `id` in with the scan `s`. -/
structure Admission (K : List (Lock Row)) (d : Db) (id : Id) (t : Ticket) (c : CheckIn)
    (s : DoorScan) : Prop where
  row : d.tickets.lookup id = some t
  status : t.status = .issued
  out : t.checkIn = none
  fresh : d.doorScans.lookup c.checkedInScanId = none
  result : s.result = .admitted
  ticket : s.ticketId = some id
  pass : ∃ p, d.doorPasses.lookup s.passId = some p ∧ p.revokedAt = none ∧ p.label = c.checkedInBy
  lock : (Row.pass s.passId, .share) ∈ K

/-- The tickets an order is issued with: one a name, and nothing of theirs is taken. -/
structure NewTickets (d : Db) (orderId : Id) (o : Order) (rows : List (Id × Ticket)) : Prop where
  drawn : ∃ draw, rows = fulfilmentService.newTickets orderId o draw
  names : (o.attendeeNames.length : Int) = o.quantity
  free : ∃ e, ticketsRepository.insertViolation d e [] rows = none

/-- A ticket of the order that stands. -/
def Db.IssuedOf (d : Db) (orderId id : Id) : Prop :=
  ∃ t, d.tickets.lookup id = some t ∧ t.orderId = orderId ∧ t.status = .issued

/-- What an audit row records, its actor and note apart. -/
def OrderEvent.Is (e : OrderEvent) (orderId : Id) (action : OrderAction)
    (fromStatus toStatus : Option OrderStatus) : Prop :=
  e.orderId = orderId ∧ e.action = action ∧ e.fromStatus = fromStatus ∧ e.toStatus = toStatus

/-- The writes of a transaction that commits to `d` holding `K`, and the check-ins it undoes. -/
inductive Effect (K : List (Lock Row)) (d : Db) : List Write → List (Id × CheckIn) → Prop
  | nothing : Effect K d [] []
  | tick (t) : Effect K d [.clock t] []
  | edit {id t t'} (row : d.ticketTypes.lookup id = some t) (ok : t'.broken = none)
      (eventId : t'.eventId = t.eventId) (sold : t'.quantitySold = t.quantitySold)
      (reserved : t'.quantityReserved = t.quantityReserved) :
      Effect K d [.ticketType id t'] []
  | hold {id o t e phone} (fresh : d.orders.lookup id = none)
      (reference : d.orderReferences.lookup o.reference = none)
      (type : d.ticketTypes.lookup o.ticketTypeId = some t)
      (available : o.quantity ≤ t.available) (ok : o.broken = none)
      (status : o.status = .pendingPayment) (trxId : o.bkashTrxId = none)
      (buyer : o.buyerPhone = some phone) (lock : (Row.buyer o.eventId phone, .excl) ∈ K)
      (audit : e.Is id .orderCreated none (some .pendingPayment)) :
      Effect K d [.ticketType o.ticketTypeId (t.reserve o.quantity), .order id o,
        .reference o.reference id, .orderEvent e] []
  | submit {id o e} {patch : OrderPatch} (row : d.orders.lookup id = some o)
      (status : o.status = .pendingPayment ∨ o.status = .pendingVerification)
      (rejection : patch.rejection = none)
      (ok : (patch.apply .pendingVerification o).broken = none)
      (free : ∀ t, (patch.trxIds o).head? = some t → d.orderTrxIds.lookup t = none)
      (audit : ∃ action ∈ [OrderAction.paymentSubmitted, .paymentUpdated],
        e.Is id action (some o.status) (some .pendingVerification)) :
      Effect K d (.order id (patch.apply .pendingVerification o) :: patch.trxWrites id o ++
        [.orderEvent e]) []
  | release {id o t e} {patch : OrderPatch} {toStatus : OrderStatus}
      (row : d.orders.lookup id = some o)
      (status : (o.status = .pendingPayment ∧ toStatus = .expired) ∨
        (o.status = .pendingVerification ∧ toStatus = .rejected))
      (bkash : patch.bkash = none)
      (type : d.ticketTypes.lookup o.ticketTypeId = some t)
      (held : o.quantity ≤ t.quantityReserved) (quantity : 0 < o.quantity)
      (audit : ∃ action ∈ [OrderAction.orderExpired, .paymentRejected],
        e.Is id action (some o.status) (some toStatus)) :
      Effect K d [.order id (patch.apply toStatus o),
        .ticketType o.ticketTypeId (t.release o.quantity), .orderEvent e] []
  | approve {id o t rows e e'} (row : d.orders.lookup id = some o)
      (status : o.status = .pendingVerification) (lock : (Row.order id, .excl) ∈ K)
      (type : d.ticketTypes.lookup o.ticketTypeId = some t)
      (held : o.quantity ≤ t.quantityReserved) (quantity : 0 < o.quantity)
      (tickets : NewTickets d id o rows)
      (audit : e.Is id .paymentApproved (some .pendingVerification) (some .paid))
      (audit' : e'.Is id .ticketsIssued (some .paid) (some .issued)) :
      Effect K d ([.order id { o with status := .paid }, .orderEvent e,
          .ticketType o.ticketTypeId (t.convertToSold o.quantity)] ++
        ticketsRepository.insertWrites rows ++
        [.order id { o with status := .issued }] ++ [.orderEvent e']) []
  | comp {id o t rows e} (fresh : d.orders.lookup id = none)
      (reference : d.orderReferences.lookup o.reference = none)
      (type : d.ticketTypes.lookup o.ticketTypeId = some t)
      (available : o.quantity ≤ t.available) (quantity : 0 < o.quantity)
      (status : o.status = .issued) (trxId : o.bkashTrxId = none)
      (reason : o.complimentaryReason.isSome)
      (tickets : NewTickets d id o rows) (audit : e.Is id .orderCompIssued none (some .issued)) :
      Effect K d ([.ticketType o.ticketTypeId (t.reserve o.quantity),
          .ticketType o.ticketTypeId ((t.reserve o.quantity).convertToSold o.quantity),
          .order id o, .reference o.reference id] ++
        ticketsRepository.insertWrites rows ++ [.orderEvent e]) []
  | cancelTicket {id t ty e} {last : Option (Order × OrderEvent)}
      (row : d.tickets.lookup id = some t) (status : t.status = .issued)
      (out : t.checkIn = none) (type : d.ticketTypes.lookup t.ticketTypeId = some ty)
      (sold : 1 ≤ ty.quantitySold) (lock : (Row.order t.orderId, .excl) ∈ K)
      (live : last = none ↔ ∃ id' ≠ id, d.IssuedOf t.orderId id')
      (holder : ∃ o, d.orders.lookup t.orderId = some o ∧ o.status = .issued)
      (audit : e.Is t.orderId .ticketCancelled none none)
      (order : ∀ l ∈ last, d.orders.lookup t.orderId = some l.1 ∧ l.1.status = .issued ∧
        l.2.Is t.orderId .orderCancelled (some .issued) (some .cancelled)) :
      Effect K d ([.ticket id { t with status := .cancelled },
          .ticketType t.ticketTypeId (ty.releaseSold 1), .orderEvent e] ++
        (last.map fun l => [Write.order t.orderId { l.1 with status := .cancelled },
          .orderEvent l.2]).getD []) []
  | rename {id t name e} (row : d.tickets.lookup id = some t) (status : t.status = .issued)
      (audit : e.Is t.orderId .ticketRenamed none none) :
      Effect K d [.ticket id { t with attendeeName := name }, .orderEvent e] []
  | letIn {id t c s e} (admission : Admission K d id t c s)
      (audit : e.Is t.orderId .ticketCheckedIn none none)
      (note : e.note = .checkedIn t.code c.checkedInBy s.method (s.mode == .offline))
      (names : d.HasTicket id s.input) :
      Effect K d [.ticket id { t with checkIn := some c }, .orderEvent e,
        .scan c.checkedInScanId s] []
  | log {scanId s} (scan : d.doorScans.lookup scanId = none) (result : s.result ≠ .admitted)
      (pass : (d.doorPasses.lookup s.passId).isSome)
      (names : ∀ id, s.ticketId = some id → d.HasTicket id s.input) :
      Effect K d [.scan scanId s] []
  | undo {id t c e} (row : d.tickets.lookup id = some t) (checkIn : t.checkIn = some c)
      (audit : e.Is t.orderId .ticketCheckInUndone none none)
      (note : (∃ reason, e.note = .undoneAtDoor t.code reason) ∨
        ∃ reason, e.note = .undoneByAdmin t.code (some (c.checkedInAt, c.checkedInBy)) reason) :
      Effect K d [.ticket id { t with checkIn := none }, .orderEvent e] [(id, c)]
  | revoke {id p time} (row : d.doorPasses.lookup id = some p)
      (active : p.revokedAt = none) (lock : (Row.pass id, .excl) ∈ K) :
      Effect K d [.pass id { p with revokedAt := some time }] []
  | undoAll {undone event} (standing : Standing d undone)
      (audit : ∀ u ∈ undone,
        (event u.listed).Is u.row.orderId .ticketCheckInUndone none none ∧
          ∃ label reason, (event u.listed).note = .undoneByRevoke u.row.code label reason) :
      Effect K d (undoWrites event undone) (undone.map fun u => (u.listed.id, u.checkIn))
  | revokeAndUndo {id p time undone event} (row : d.doorPasses.lookup id = some p)
      (active : p.revokedAt = none) (lock : (Row.pass id, .excl) ∈ K)
      (standing : Standing d undone)
      (audit : ∀ u ∈ undone,
        (event u.listed).Is u.row.orderId .ticketCheckInUndone none none ∧
          ∃ label reason, (event u.listed).note = .undoneByRevoke u.row.code label reason) :
      Effect K d (.pass id { p with revokedAt := some time } :: undoWrites event undone)
        (undone.map fun u => (u.listed.id, u.checkIn))

/-- What a commit that undoes the check-ins `undone` does to one ticket. -/
inductive TicketMove (K : List (Lock Row)) (d d' : Db) (undone : List (Id × CheckIn)) (id : Id) : Prop
  | same (row : d'.tickets.lookup id = d.tickets.lookup id) (kept : ∀ c, (id, c) ∉ undone)
  | issued {t} (fresh : d.tickets.lookup id = none) (row : d'.tickets.lookup id = some t)
      (status : t.status = .issued) (out : t.checkIn = none) (kept : ∀ c, (id, c) ∉ undone)
  | cancelled {t} (row : d.tickets.lookup id = some t) (status : t.status = .issued)
      (out : t.checkIn = none) (row' : d'.tickets.lookup id = some { t with status := .cancelled })
      (kept : ∀ c, (id, c) ∉ undone)
  | renamed {t name} (row : d.tickets.lookup id = some t) (status : t.status = .issued)
      (row' : d'.tickets.lookup id = some { t with attendeeName := name })
      (kept : ∀ c, (id, c) ∉ undone)
  | admitted {t c s} (admission : Admission K d id t c s)
      (row' : d'.tickets.lookup id = some { t with checkIn := some c })
      (scan : d'.doorScans.lookup c.checkedInScanId = some s) (kept : ∀ c, (id, c) ∉ undone)
  | undone {t c} (row : d.tickets.lookup id = some t) (checkIn : t.checkIn = some c)
      (row' : d'.tickets.lookup id = some { t with checkIn := none })
      (taken : ∀ c', (id, c') ∈ undone ↔ c' = c)

/-- What a commit does to the scan log. -/
inductive ScanMove (K : List (Lock Row)) (d d' : Db) : Prop
  | same (scans : d'.doorScans = d.doorScans)
  | logged {scanId s} (fresh : d.doorScans.lookup scanId = none) (result : s.result ≠ .admitted)
      (pass : (d.doorPasses.lookup s.passId).isSome)
      (names : ∀ id, s.ticketId = some id → d.HasTicket id s.input)
      (scans : d'.doorScans = d.doorScans.insert scanId s) (tickets : d'.tickets = d.tickets)
  | admitted {id t c s} (admission : Admission K d id t c s) (names : d.HasTicket id s.input)
      (scans : d'.doorScans = d.doorScans.insert c.checkedInScanId s)
      (tickets : d'.tickets = d.tickets.insert id { t with checkIn := some c })

/-- What no transaction ever changes, from one committed database to a later one. -/
structure Grows (d d' : Db) : Prop where
  order : ∀ {id o}, d.orders.lookup id = some o → ∃ o', d'.orders.lookup id = some o' ∧
    o'.ticketTypeId = o.ticketTypeId ∧ o'.quantity = o.quantity
  ticket : ∀ {id t}, d.tickets.lookup id = some t → ∃ t', d'.tickets.lookup id = some t' ∧
    t'.orderId = t.orderId ∧ t'.ticketTypeId = t.ticketTypeId ∧ t'.code = t.code
  pass : ∀ {id p}, d.doorPasses.lookup id = some p → ∃ p', d'.doorPasses.lookup id = some p' ∧
    p'.label = p.label ∧ (p.revokedAt.isSome → p' = p)
  scan : ∀ {id s}, d.doorScans.lookup id = some s → d'.doorScans.lookup id = some s
  /-- A scan in the log checks nobody in any more. -/
  checkIn : ∀ {id c s}, d'.checkIn id = some c → d.doorScans.lookup c.checkedInScanId = some s →
    d.checkIn id = some c

end EchoAndAura
