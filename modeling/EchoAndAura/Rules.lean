import EchoAndAura.Shop
import EchoAndAura.Text

/-!
# The pure rules

What `server/lib` decides without a database: the sale state of a ticket type, the phase of an
event, the hold clock, money, promo codes, the order's transitions and the gate's window.
-/

namespace EchoAndAura

inductive TicketTypeSaleState
  | soldOut
  | opensLater
  | windowEnded
  deriving DecidableEq, Repr

inductive EventPhase
  | notOpen
  | open
  | closingSoon
  | soldOut
  | closed
  | past
  deriving DecidableEq, Repr

inductive PromoRefusal
  | unknown
  | notForTicketType
  | makesTicketFree
  deriving DecidableEq, Repr

inductive InventoryOp
  | release
  | convertToSold
  | releaseSold
  deriving DecidableEq, Repr

inductive UndoRefusal
  | notFound
  | notYours
  | tooLate
  | notCheckedIn
  deriving DecidableEq, Repr

/-- The errors of `lib/errors.ts` these services throw, the ones the database raises by itself,
and a lost connection. -/
inductive Err
  | eventNotFound (ref : String)
  | registrationClosed (phase : EventPhase)
  | ticketTypeNotFound (id : Id)
  | ticketTypeNotOnSale (id : Id) (state : TicketTypeSaleState)
  | ticketTypeCapacityTooLow (id : Id)
  | attendeeNamesMismatch (quantity : Int) (names : Nat)
  | promoCodeNotValid (code : String) (refusal : PromoRefusal)
  | invalidQuantity (quantity : Int)
  | soldOut (ticketTypeId : Id) (requested : Int)
  | inventoryState (ticketTypeId : Id) (op : InventoryOp)
  | tooManyOpenOrders (limit : Nat)
  | orderReferenceCollision (reference : String)
  | orderNotFound (id : Id)
  | orderStatusConflict (id : Id) (status : OrderStatus)
  | invalidOrderTransition (fromStatus toStatus : OrderStatus)
  | holdLapsed (id : Id)
  | trxIdAlreadyUsed (trxId : String)
  | trxIdChanged (id : Id) (verified : String) (actual : Option String)
  | invalidRejectionReason (reason : String)
  | ticketCodeCollision (codes : String)
  | ticketNotFound (id : Id)
  | ticketCodeNotFound (code : String)
  | ticketCancelled (code : String)
  | ticketCheckedIn (code : String) (at_ : Time) (gate : String)
  | renameLocked (lockedAt : Option Time)
  | invalidAttendeeName (reason : String)
  | ticketRenameConflict (code : String)
  | missing (message : String)
  | doorPassNotFound (id : Id)
  | doorPassRevoked (id : Id)
  | doorScanIdTaken (scanId : Id)
  | checkInUndoRefused (reason : UndoRefusal)
  | range (message : String)
  | check (constraint : String)
  | unique (constraint : String)
  | lost
  deriving DecidableEq, Repr

section Clock

def minuteMs : Int := 60000
def hourMs : Int := 3600000

def holdMinutes : Int := 20
def holdGraceMinutes : Int := 2

/-- When a hold made at `createdAt` ends on the buyer's clock. -/
def holdEndsAt (createdAt : Time) : Time := createdAt + holdMinutes * minuteMs

/-- The moment the server stops accepting a trxID and may release the seats. -/
def holdCutoff (holdExpiresAt : Time) : Time := holdExpiresAt + holdGraceMinutes * minuteMs

/-- Holds that expired at or before this have lapsed. -/
def lapsedBefore (t : Time) : Time := t - holdGraceMinutes * minuteMs

def holdLapsed (o : Order) (t : Time) : Bool :=
  o.status == .pendingPayment && o.holdExpiresAt.any fun e => holdCutoff e ≤ t

end Clock

section Sale

namespace TicketType

def available (t : TicketType) : Int := t.quantityTotal - t.quantitySold - t.quantityReserved

end TicketType

def ticketTypeSaleState (t : TicketType) (now : Time) : Option TicketTypeSaleState :=
  if t.available ≤ 0 then some .soldOut
  else if t.salesStartsAt.any fun s => now < s then some .opensLater
  else if t.salesEndsAt.any fun e => e ≤ now then some .windowEnded
  else none

def closingSoonHours : Int := 48

def eventPhase (event : Event) (availableTotal : Int) (now : Time) : EventPhase :=
  if event.startsAt ≤ now then .past
  else
    match event.registrationOpensAt, event.registrationClosesAt with
    | some opens, some closes =>
      if closes ≤ now then .closed
      else if now < opens then .notOpen
      else if availableTotal ≤ 0 then .soldOut
      else if closes - now < closingSoonHours * hourMs then .closingSoon
      else .open
    | _, _ => .notOpen

def maxTicketsPerOrder : Int := 10
def minTicketsPerOrder : Int := 1

def isValidOrderQuantity (quantity : Int) : Bool :=
  minTicketsPerOrder ≤ quantity && quantity ≤ maxTicketsPerOrder

end Sale

section Money

def maxSafeInteger : Int := 9007199254740991

def assertValidPaisa (paisa : Int) : Except Err Unit :=
  if paisa < 0 then .error (.range s!"paisa must be non-negative, got {paisa}")
  else if maxSafeInteger < paisa then .error (.range s!"paisa exceeds MAX_SAFE_INTEGER: {paisa}")
  else .ok ()

def multiplyPaisa (paisa quantity : Int) : Except Err Int := do
  assertValidPaisa paisa
  if quantity < 0 then
    .error (.range s!"quantity must be a non-negative integer, got {quantity}")
  assertValidPaisa (paisa * quantity)
  return paisa * quantity

/-- `sumPaisa` of one amount. -/
def sumPaisa (amount : Int) : Except Err Int := do
  assertValidPaisa amount
  return amount

/-- `percent` of an amount, rounded down to a whole paisa. -/
def percentOfPaisa (paisa percent : Int) : Except Err Int := do
  assertValidPaisa paisa
  if percent < 0 || 100 < percent then
    .error (.range s!"percent must be an integer from 0 to 100, got {percent}")
  assertValidPaisa (paisa * percent)
  return paisa * percent / 100

structure OrderTotals where
  unitPricePaisa : Int
  quantity : Int
  subtotalPaisa : Int
  discountPaisa : Int
  totalPaisa : Int
  deriving DecidableEq, Repr

def computeOrderTotals (unitPricePaisa quantity discountPaisa : Int) : Except Err OrderTotals := do
  let subtotalPaisa ← multiplyPaisa unitPricePaisa quantity
  assertValidPaisa discountPaisa
  let applied := min discountPaisa subtotalPaisa
  let totalPaisa := (← sumPaisa subtotalPaisa) - applied
  assertValidPaisa totalPaisa
  return { unitPricePaisa, quantity, subtotalPaisa, discountPaisa := applied, totalPaisa }

end Money

section Promo

def promoAppliesTo (rule : PromoCode) (ticketTypeId : Id) : Bool :=
  rule.ticketTypeIds.isEmpty || rule.ticketTypeIds.contains ticketTypeId

def promoDiscountPerTicket (rule : PromoCode) (unitPricePaisa : Int) : Except Err Int :=
  match rule.type with
  | .percentage => percentOfPaisa unitPricePaisa rule.value
  | .fixed => .ok (min rule.value unitPricePaisa)

def promoDiscountPaisa (rule : PromoCode) (unitPricePaisa quantity : Int) : Except Err Int := do
  multiplyPaisa (← promoDiscountPerTicket rule unitPricePaisa) quantity

/-- Why a code cannot be used on a ticket type, or none when it can. -/
def judgePromo (rule : Option PromoCode) (eventTicketTypes : List (Id × TicketType))
    (ticketTypeId : Id) : Except Err (Option PromoRefusal) :=
  match rule with
  | none => .ok (some .unknown)
  | some rule =>
    if !rule.active then .ok (some .unknown)
    else
      let covered := eventTicketTypes.filter fun t => promoAppliesTo rule t.1
      if covered.isEmpty then .ok (some .unknown)
      else
        match covered.find? fun t => t.1 == ticketTypeId with
        | none => .ok (some .notForTicketType)
        | some chosen => do
          let perTicket ← promoDiscountPerTicket rule chosen.2.pricePaisa
          if chosen.2.pricePaisa ≤ perTicket then return some .makesTicketFree
          return none

end Promo

section OrderStatus

/-- `ORDER_TRANSITIONS`. -/
def orderTransitions : OrderStatus → List OrderStatus
  | .pendingPayment => [.pendingVerification, .expired]
  | .pendingVerification => [.paid, .rejected, .expired]
  | .paid => [.issued]
  | .issued => [.cancelled]
  | .rejected => []
  | .expired => []
  | .cancelled => []

def isOrderTransitionAllowed (fromStatus toStatus : OrderStatus) : Bool :=
  (orderTransitions fromStatus).contains toStatus

def assertOrderTransition (fromStatus toStatus : OrderStatus) : Except Err Unit :=
  if isOrderTransitionAllowed fromStatus toStatus then .ok ()
  else .error (.invalidOrderTransition fromStatus toStatus)

end OrderStatus

section Constraints

/-- The first CHECK of `ticket_types` a row breaks. -/
def TicketType.broken (t : TicketType) : Option String :=
  if t.available < 0 then some "ticket_types_availability_nonneg"
  else if t.quantitySold < 0 then some "ticket_types_sold_nonneg"
  else if t.quantityReserved < 0 then some "ticket_types_reserved_nonneg"
  else if t.pricePaisa < 0 then some "ticket_types_price_nonneg"
  else none

/-- `upper(btrim(x))`. -/
def pgNormalised (s : String) : String :=
  toUpperCase (String.ofList
    ((s.toList.dropWhile (· == ' ')).reverse.dropWhile (· == ' ')).reverse)

/-- The first CHECK of `orders` a row breaks. -/
def Order.broken (o : Order) : Option String :=
  if o.quantity < 1 || 10 < o.quantity then some "orders_quantity_range"
  else if o.bkashTrxId.any fun t => t != pgNormalised t then some "orders_bkash_trx_id_normalised"
  else if o.subtotalPaisa < 0 || o.discountPaisa < 0 || o.totalPaisa < 0 then
    some "orders_totals_nonneg"
  else if o.subtotalPaisa != o.unitPricePaisa * o.quantity || o.subtotalPaisa < o.discountPaisa
      || o.totalPaisa != o.subtotalPaisa - o.discountPaisa then some "orders_totals_consistent"
  else if o.complimentaryReason.isSome && (o.discountPaisa != o.subtotalPaisa
      || o.bkashTrxId.isSome || o.promoCodeId.isSome) then some "orders_complimentary_free"
  else if o.complimentaryReason.isSome && !(o.status == .issued || o.status == .cancelled) then
    some "orders_complimentary_status"
  else if o.buyerPhone.isNone && o.complimentaryReason.isNone then some "orders_phone_unless_comp"
  else none

/-- The first CHECK of `tickets` a row breaks; a check-in's columns are one field here. -/
def Ticket.broken (t : Ticket) : Option String :=
  if t.position < 1 then some "tickets_position_positive"
  else if t.checkIn.isSome && t.status != .issued then some "tickets_checked_in_is_issued"
  else none

/-- `door_scans_verdict_offline`. -/
def DoorScan.broken (s : DoorScan) : Option String :=
  if (s.mode == .offline) != s.doorVerdict.isSome then some "door_scans_verdict_offline" else none

end Constraints

section Gate

def doorUndoWindowMs : Int := 2 * minuteMs

structure DoorWindow where
  /-- Before this, scans are practice. -/
  validFrom : Time
  /-- After this, the pass stops working. -/
  validUntil : Time
  deriving DecidableEq, Repr

def doorWindow (event : Event) : DoorWindow :=
  { validFrom := event.startsAt - 4 * hourMs
    validUntil := event.endsAt.getD (event.startsAt + 6 * hourMs) + 6 * hourMs }

/-- The server's side of an offline admission's time: never before doors opened, never later than
now. -/
def clampOfflineTime (scannedAt validFrom now : Time) : Time := min (max scannedAt validFrom) now

/-- When a scan happened: an offline scan's corrected phone clock, else the server's receipt. -/
def scanTime (scan : DoorScan) : Time :=
  match scan.mode, scan.scannedAt with
  | .offline, some t => t
  | _, _ => scan.receivedAt

end Gate

end EchoAndAura
