import EchoAndAura.Table
import EchoAndAura.Transaction

/-!
# The shop's database

The rows of `db/schema.ts` that orders, fulfilment and the gate work on, with the unique indexes
as tables of their own, and the rows a statement can lock.  Times are milliseconds, ids stand for
uuids, amounts are paisa.
-/

namespace EchoAndAura

abbrev Id := Nat
abbrev Time := Int

inductive EventStatus
  | draft
  | published
  | archived
  deriving DecidableEq, Repr

structure Event where
  slug : String
  title : String
  status : EventStatus
  startsAt : Time
  endsAt : Option Time
  registrationOpensAt : Option Time
  registrationClosesAt : Option Time
  deriving DecidableEq, Repr

structure TicketType where
  eventId : Id
  name : String
  pricePaisa : Int
  quantityTotal : Int
  quantitySold : Int
  quantityReserved : Int
  salesStartsAt : Option Time
  salesEndsAt : Option Time
  deriving DecidableEq, Repr

inductive PromoType
  | percentage
  | fixed
  deriving DecidableEq, Repr

structure PromoCode where
  code : String
  type : PromoType
  value : Int
  active : Bool
  ticketTypeIds : List Id
  deriving DecidableEq, Repr

inductive OrderStatus
  | pendingPayment
  | pendingVerification
  | paid
  | issued
  | rejected
  | expired
  | cancelled
  deriving DecidableEq, Repr

inductive RejectionReason
  | noMatchingCredit
  | amountMismatch
  | trxIdAlreadyUsed
  | senderMismatch
  | duplicateOrder
  | buyerCancelled
  deriving DecidableEq, Repr

structure Order where
  reference : String
  eventId : Id
  ticketTypeId : Id
  quantity : Int
  unitPricePaisa : Int
  subtotalPaisa : Int
  discountPaisa : Int
  totalPaisa : Int
  status : OrderStatus
  buyerName : String
  buyerEmail : String
  buyerPhone : Option String
  attendeeNames : List String
  bkashTrxId : Option String
  bkashSenderMsisdn : Option String
  promoCodeId : Option Id
  rejectionReason : Option RejectionReason
  rejectionNote : Option String
  complimentaryReason : Option String
  holdExpiresAt : Option Time
  deriving DecidableEq, Repr

inductive TicketStatus
  | issued
  | cancelled
  deriving DecidableEq, Repr

/-- What a check-in leaves on its ticket: when, at which gate, by which scan.  The three columns
are set and cleared together (`tickets_check_in_consistent`). -/
structure CheckIn where
  checkedInAt : Time
  checkedInBy : String
  checkedInScanId : Id
  deriving DecidableEq, Repr

structure Ticket where
  orderId : Id
  ticketTypeId : Id
  eventId : Id
  code : String
  position : Int
  attendeeName : String
  status : TicketStatus
  checkIn : Option CheckIn
  deriving DecidableEq, Repr

structure DoorPass where
  eventId : Id
  label : String
  code : String
  revokedAt : Option Time
  deriving DecidableEq, Repr

inductive ScanResultKind
  | admitted
  | alreadyIn
  | cancelled
  | wrongEvent
  | unknown
  | practiceOk
  | phoneMismatch
  | turnedAway
  deriving DecidableEq, Repr

inductive ScanMethod
  | qr
  | typed
  | search
  deriving DecidableEq, Repr

inductive ScanMode
  | online
  | offline
  | practice
  deriving DecidableEq, Repr

inductive DoorVerdict
  | admitted
  | refused
  | practice
  | undone
  deriving DecidableEq, Repr

structure DoorScan where
  passId : Id
  eventId : Id
  ticketId : Option Id
  input : String
  result : ScanResultKind
  method : ScanMethod
  mode : ScanMode
  priorCheckedInAt : Option Time
  priorCheckedInBy : Option String
  scannedAt : Option Time
  receivedAt : Time
  doorVerdict : Option DoorVerdict
  supersedesScanId : Option Id
  deriving DecidableEq, Repr

inductive DoorUndoReason
  | wrongPerson
  | misTap
  | other
  deriving DecidableEq, Repr

section OrderEvents

inductive OrderAction
  | orderCreated
  | orderCompIssued
  | orderExpired
  | orderCancelled
  | paymentSubmitted
  | paymentUpdated
  | paymentApproved
  | paymentRejected
  | ticketsIssued
  | ticketCancelled
  | ticketRenamed
  | ticketCheckedIn
  | ticketCheckInUndone
  deriving DecidableEq, Repr

/-- What the note of an audit row says; `Note.text` is its wording. -/
inductive Note
  | created (quantity : Int) (ticketType : String) (promo : Option (String × Int))
      (holdUntil : Option Time)
  | compIssued (quantity : Int) (ticketType reason : String) (codes : List String)
  | holdLapsed (quantity : Int)
  | allCancelled (quantity : Int)
  | submitted (trxId sender : String)
  | updated (previous : Option String) (trxId sender : String)
  | approved (trxId : Option String) (totalPaisa : Int)
  | rejected (reason : RejectionReason) (note : Option String)
  | issued (codes : List String)
  | ticketCancelled (code attendeeName reason : String)
  | renamed (code before name : String)
  | checkedIn (code gate : String) (method : ScanMethod) (offline : Bool)
  | undoneByRevoke (code label reason : String)
  | undoneAtDoor (code : String) (reason : DoorUndoReason)
  | undoneByAdmin (code : String) (was : Option (Time × String)) (reason : String)
  deriving DecidableEq, Repr

structure OrderEvent where
  orderId : Id
  actor : String
  action : OrderAction
  fromStatus : Option OrderStatus
  toStatus : Option OrderStatus
  note : Note
  deriving DecidableEq, Repr

def OrderAction.text : OrderAction → String
  | .orderCreated => "order.created"
  | .orderCompIssued => "order.comp_issued"
  | .orderExpired => "order.expired"
  | .orderCancelled => "order.cancelled"
  | .paymentSubmitted => "payment.submitted"
  | .paymentUpdated => "payment.updated"
  | .paymentApproved => "payment.approved"
  | .paymentRejected => "payment.rejected"
  | .ticketsIssued => "tickets.issued"
  | .ticketCancelled => "ticket.cancelled"
  | .ticketRenamed => "ticket.renamed"
  | .ticketCheckedIn => "ticket.checked_in"
  | .ticketCheckInUndone => "ticket.check_in_undone"

def ScanMethod.text : ScanMethod → String
  | .qr => "qr"
  | .typed => "typed"
  | .search => "search"

/-- `DOOR_UNDO_REASONS`. -/
def DoorUndoReason.text : DoorUndoReason → String
  | .wrongPerson => "Wrong person"
  | .misTap => "Tapped by mistake"
  | .other => "Other"

/-- `REJECTION_REASONS`. -/
def RejectionReason.text : RejectionReason → String
  | .noMatchingCredit => "No matching credit in the bKash statement"
  | .amountMismatch => "The amount sent does not match the order total"
  | .trxIdAlreadyUsed => "This transaction ID belongs to another payment"
  | .senderMismatch => "The sending number does not match the statement"
  | .duplicateOrder => "Duplicate of another order"
  | .buyerCancelled => "Cancelled at the buyer’s request"

/-- `isRejectionReason`, by the key of the fixed list. -/
def rejectionReason? : String → Option RejectionReason
  | "no_matching_credit" => some .noMatchingCredit
  | "amount_mismatch" => some .amountMismatch
  | "trx_id_already_used" => some .trxIdAlreadyUsed
  | "sender_mismatch" => some .senderMismatch
  | "duplicate_order" => some .duplicateOrder
  | "buyer_cancelled" => some .buyerCancelled
  | _ => none

/-- How the notes print a moment in full, the Dhaka clock and an amount. -/
structure Printer where
  iso : Time → String
  dhakaClock : Time → String
  bdt : Int → String

def Note.text (p : Printer) : Note → String
  | .created q name promo hold =>
    let code := (promo.map fun c => s!" · {c.1} −{p.bdt c.2}").getD ""
    let until_ := (hold.map p.iso).getD "undefined"
    s!"{q} × {name}{code}, hold until {until_}"
  | .compIssued q name reason codes =>
    let list := String.intercalate ", " codes
    s!"{q} × {name} · complimentary — {reason} · {list}"
  | .holdLapsed q => s!"20-minute hold lapsed; {q} released"
  | .allCancelled q => s!"all {q} tickets cancelled"
  | .submitted trxId sender => s!"trxID {trxId} from {sender}"
  | .updated previous trxId sender =>
    let before := previous.getD "—"
    s!"trxID {before} → {trxId} from {sender}"
  | .approved trxId total =>
    let id := trxId.getD "—"
    s!"trxID {id} · {total} paisa"
  | .rejected reason none => reason.text
  | .rejected reason (some note) => s!"{reason.text} — {note}"
  | .issued codes => String.intercalate ", " codes
  | .ticketCancelled code name reason => s!"{code} ({name}): {reason}"
  | .renamed code before name => s!"{code}: {before} → {name}"
  | .checkedIn code gate method offline =>
    let suffix := if offline then " · offline" else ""
    s!"{code} · {gate} · {method.text}{suffix}"
  | .undoneByRevoke code label reason => s!"{code} · pass {label} revoked: {reason}"
  | .undoneAtDoor code reason => s!"{code} · {reason.text}"
  | .undoneByAdmin code was reason =>
    let before := (was.map fun w => s!" (in {p.dhakaClock w.1} · {w.2})").getD ""
    s!"{code}{before}: {reason}"

end OrderEvents

/-- Everything committed.  `clock` is what a server reads as the time; it is moved by nobody's
statement but its own. -/
structure Db where
  clock : Time
  events : Table Id Event
  ticketTypes : Table Id TicketType
  promoCodes : Table Id PromoCode
  orders : Table Id Order
  orderReferences : Table String Id
  orderTrxIds : Table String Id
  orderEvents : List OrderEvent
  tickets : Table Id Ticket
  ticketCodes : Table String Id
  ticketPositions : Table (Id × Int) Id
  doorPasses : Table Id DoorPass
  doorScans : Table Id DoorScan

/-- What a transaction can lock: rows, entries of the unique indexes, the advisory lock of one
buyer on one event. -/
inductive Row
  | clock
  | ticketType (id : Id)
  | order (id : Id)
  | reference (reference : String)
  | trxId (trxId : String)
  | buyer (eventId : Id) (phone : String)
  | ticket (id : Id)
  | code (code : String)
  | position (orderId : Id) (position : Int)
  | pass (id : Id)
  | scan (scanId : Id)
  deriving DecidableEq, Repr

inductive Write
  | clock (t : Time)
  | ticketType (id : Id) (row : TicketType)
  | order (id : Id) (row : Order)
  | reference (reference : String) (id : Id)
  | trxId (trxId : String) (id : Id)
  | freeTrxId (trxId : String)
  | orderEvent (row : OrderEvent)
  | ticket (id : Id) (row : Ticket)
  | code (code : String) (id : Id)
  | position (orderId : Id) (position : Int) (id : Id)
  | pass (id : Id) (row : DoorPass)
  | scan (scanId : Id) (row : DoorScan)
  deriving DecidableEq, Repr

namespace Write

def row : Write → Option Row
  | .clock _ => some .clock
  | .ticketType id _ => some (.ticketType id)
  | .order id _ => some (.order id)
  | .reference r _ => some (.reference r)
  | .trxId t _ => some (.trxId t)
  | .freeTrxId t => some (.trxId t)
  | .orderEvent _ => none
  | .ticket id _ => some (.ticket id)
  | .code c _ => some (.code c)
  | .position o p _ => some (.position o p)
  | .pass id _ => some (.pass id)
  | .scan s _ => some (.scan s)

def apply (w : Write) (d : Db) : Db :=
  match w with
  | .clock t => { d with clock := t }
  | .ticketType id v => { d with ticketTypes := d.ticketTypes.insert id v }
  | .order id v => { d with orders := d.orders.insert id v }
  | .reference r id => { d with orderReferences := d.orderReferences.insert r id }
  | .trxId t id => { d with orderTrxIds := d.orderTrxIds.insert t id }
  | .freeTrxId t => { d with orderTrxIds := d.orderTrxIds.erase t }
  | .orderEvent e => { d with orderEvents := d.orderEvents ++ [e] }
  | .ticket id v => { d with tickets := d.tickets.insert id v }
  | .code c id => { d with ticketCodes := d.ticketCodes.insert c id }
  | .position o p id => { d with ticketPositions := d.ticketPositions.insert (o, p) id }
  | .pass id v => { d with doorPasses := d.doorPasses.insert id v }
  | .scan s v => { d with doorScans := d.doorScans.insert s v }

end Write

/-- The two databases agree on a row. -/
def Row.Same (r : Row) (d d' : Db) : Prop :=
  match r with
  | .clock => d.clock = d'.clock
  | .ticketType id => d.ticketTypes.lookup id = d'.ticketTypes.lookup id
  | .order id => d.orders.lookup id = d'.orders.lookup id
  | .reference r => d.orderReferences.lookup r = d'.orderReferences.lookup r
  | .trxId t => d.orderTrxIds.lookup t = d'.orderTrxIds.lookup t
  | .buyer _ _ => True
  | .ticket id => d.tickets.lookup id = d'.tickets.lookup id
  | .code c => d.ticketCodes.lookup c = d'.ticketCodes.lookup c
  | .position o p => d.ticketPositions.lookup (o, p) = d'.ticketPositions.lookup (o, p)
  | .pass id => d.doorPasses.lookup id = d'.doorPasses.lookup id
  | .scan s => d.doorScans.lookup s = d'.doorScans.lookup s

theorem Row.same_equiv (r : Row) : Equivalence (Row.Same r) := by
  refine ⟨fun d => ?_, fun {d d'} h => ?_, fun {a b c} h h' => ?_⟩ <;> cases r <;>
    simp_all [Row.Same]

theorem Write.same_apply {w : Write} {r : Row} (d : Db) (h : w.row ≠ some r) :
    r.Same d (w.apply d) := by
  cases w <;> cases r <;> simp_all [Write.row, Write.apply, Row.Same, eq_comm]

theorem Write.apply_congr {r : Row} {d d' : Db} (w : Write) (h : r.Same d d') :
    r.Same (w.apply d) (w.apply d') := by
  cases w <;> cases r <;> simp_all [Write.apply, Row.Same, Table.lookup_insert_eq,
    Table.lookup_erase_eq]

instance : Txn.Rows Db Row Write where
  Same := Row.Same
  same_equiv := Row.same_equiv
  row := Write.row
  write := Write.apply
  same_write := Write.same_apply
  write_congr := Write.apply_congr

end EchoAndAura
