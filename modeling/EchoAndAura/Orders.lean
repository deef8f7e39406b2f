import EchoAndAura.Repositories

/-!
# Orders

`orders.service`: an order is held, paid for by a transaction id, or lapses.  What is random or
drawn by the database (the reference, the new row's id) comes in as a `draw` for each attempt.
-/

namespace EchoAndAura

/-- A service function: transactions and announcements, ending in a result or an error. -/
abbrev Svc := ExceptT Err Prog

namespace Svc

/-- `runInTransaction`. -/
def transaction {α : Type} (t : Tx α) : Svc α := ExceptT.mk (.tx t .done)

/-- `runInTransaction` inside a `try`. -/
def attempt {α : Type} (t : Tx α) : Svc (Except Err α) := ExceptT.mk (.tx t fun r => .done (.ok r))

/-- A statement outside any transaction. -/
def query {ρ : Type} (s : Stmt ρ) : Svc ρ := transaction (exec s)

/-- The server's own clock. -/
def now : Svc Time := ExceptT.mk (.look "now" (·.clock) fun t => .done (.ok t))

def say (o : Say) : Svc Unit := ExceptT.mk (.say o (.done (.ok ())))

def ofExcept {α : Type} (r : Except Err α) : Svc α := ExceptT.mk (.done r)

/-- `for (let attempt = 1; ; attempt++)` around a transaction that may collide on something it
drew: `more` further attempts, each with a fresh draw. -/
def retry {ι α : Type} (collision : Err → Bool) (t : ι → Tx α) (draw : Nat → ι) :
    Nat → Nat → Svc α
  | attempt, 0 => transaction (t (draw attempt))
  | attempt, more + 1 => do
    match ← Svc.attempt (t (draw attempt)) with
    | .ok a => return a
    | .error e => if collision e then retry collision t draw (attempt + 1) more else throw e

end Svc

def referenceAttempts : Nat := 3
def expiryBatch : Nat := 200
def expiryMaxBatches : Nat := 10
def maxOpenOrdersPerBuyer : Nat := 2

/-- Statuses from which a buyer may submit or correct a transaction id. -/
def submittable : List OrderStatus := [.pendingPayment, .pendingVerification]

structure OrderDraw where
  orderId : Id
  reference : String
  deriving DecidableEq, Repr

namespace ordersService

structure CreateOrderInput where
  eventSlug : String
  ticketTypeId : Id
  quantity : Int
  buyerName : String
  buyerEmail : String
  buyerPhone : String
  attendeeNames : List String
  promoCode : Option String
  deriving DecidableEq, Repr

def resolvePromo (raw : String) (eventTypes : List (Id × TicketType)) (ticketTypeId : Id) :
    Svc (Id × PromoCode) := do
  let code := normalisePromoCode raw
  let rule ← Svc.query (promoCodesRepository.findByCode code)
  let refusal ← Svc.ofExcept (judgePromo (rule.map (·.2)) eventTypes ticketTypeId)
  match refusal, rule with
  | none, some rule => return rule
  | refusal, _ => throw (.promoCodeNotValid code (refusal.getD .unknown))

/-- What `createOrder` has settled before it takes any stock. -/
structure Checked where
  requestedAt : Time
  eventId : Id
  ticketTypeId : Id
  ticketType : TicketType
  promo : Option (Id × PromoCode)
  totals : OrderTotals

def newOrder (input : CreateOrderInput) (c : Checked) (draw : OrderDraw) : Order where
  reference := draw.reference
  eventId := c.eventId
  ticketTypeId := c.ticketTypeId
  quantity := c.totals.quantity
  unitPricePaisa := c.totals.unitPricePaisa
  subtotalPaisa := c.totals.subtotalPaisa
  discountPaisa := c.totals.discountPaisa
  totalPaisa := c.totals.totalPaisa
  status := .pendingPayment
  buyerName := input.buyerName
  buyerEmail := input.buyerEmail
  buyerPhone := some input.buyerPhone
  attendeeNames := input.attendeeNames
  bkashTrxId := none
  bkashSenderMsisdn := none
  promoCodeId := c.promo.map (·.1)
  rejectionReason := none
  rejectionNote := none
  complimentaryReason := none
  holdExpiresAt := some (holdEndsAt c.requestedAt)

def createdEvent (c : Checked) (draw : OrderDraw) (o : Order) : OrderEvent where
  orderId := draw.orderId
  actor := "buyer"
  action := .orderCreated
  fromStatus := none
  toStatus := some .pendingPayment
  note := .created c.totals.quantity c.ticketType.name
    (c.promo.map fun p => (p.2.code, c.totals.discountPaisa)) o.holdExpiresAt

/-- Hold, order and audit row, atomically. -/
def createOrderTx (input : CreateOrderInput) (c : Checked) (draw : OrderDraw) :
    Tx (Id × Order) := do
  exec (ordersRepository.lockBuyer c.eventId input.buyerPhone)
  let openOrders ← exec (ordersRepository.countOpenForBuyer c.eventId input.buyerPhone
    (lapsedBefore c.requestedAt))
  if maxOpenOrdersPerBuyer ≤ openOrders then .throw (.tooManyOpenOrders maxOpenOrdersPerBuyer)
  let held ← inventoryService.hold c.ticketTypeId input.quantity
  if !held then .throw (.soldOut c.ticketTypeId input.quantity)
  let order ← exec (ordersRepository.insert draw.orderId (newOrder input c draw))
  exec (ordersRepository.insertEvent (createdEvent c draw order))
  return (draw.orderId, order)

def isReferenceCollision : Err → Bool
  | .orderReferenceCollision _ => true
  | _ => false

/-- Registration must be open; that it is sold out is left for the hold to say. -/
def assertOpen (event : Event) (allTypes : List (Id × TicketType)) (requestedAt : Time) :
    Except Err Unit :=
  let availableTotal := (allTypes.map fun t => max 0 t.2.available).sum
  let phase := eventPhase event availableTotal requestedAt
  if phase != .open && phase != .closingSoon && phase != .soldOut then
    .error (.registrationClosed phase)
  else .ok ()

def assertOnSale (ticketTypeId : Id) (t : TicketType) (requestedAt : Time) : Except Err Unit :=
  match ticketTypeSaleState t requestedAt with
  | some .opensLater => .error (.ticketTypeNotOnSale ticketTypeId .opensLater)
  | some .windowEnded => .error (.ticketTypeNotOnSale ticketTypeId .windowEnded)
  | _ => .ok ()

def promoOf (promoCode : Option String) (eventTypes : List (Id × TicketType)) (ticketTypeId : Id) :
    Svc (Option (Id × PromoCode)) :=
  match promoCode with
  | none => pure none
  | some raw =>
    if raw.isEmpty then pure none else some <$> resolvePromo raw eventTypes ticketTypeId

def discountOf (promo : Option (Id × PromoCode)) (unitPricePaisa quantity : Int) : Except Err Int :=
  match promo with
  | none => .ok 0
  | some p => promoDiscountPaisa p.2 unitPricePaisa quantity

/-- The snapshot's answer to whether this order may be made at all, and its price. -/
def checkOrder (input : CreateOrderInput) : Svc Checked := do
  let requestedAt ← Svc.now
  let some (eventId, event) ← Svc.query (eventsRepository.findBySlug input.eventSlug)
    | throw (.eventNotFound input.eventSlug)
  if event.status != .published then throw (.eventNotFound input.eventSlug)
  let allTypes ← Svc.query (ticketTypesRepository.listByEvent eventId)
  let some (ticketTypeId, ticketType) := allTypes.find? fun t => t.1 == input.ticketTypeId
    | throw (.ticketTypeNotFound input.ticketTypeId)
  Svc.ofExcept (assertOpen event allTypes requestedAt)
  Svc.ofExcept (assertOnSale ticketTypeId ticketType requestedAt)
  if (input.attendeeNames.length : Int) ≠ input.quantity then
    throw (.attendeeNamesMismatch input.quantity input.attendeeNames.length)
  let promo ← promoOf input.promoCode allTypes ticketTypeId
  let discount ← Svc.ofExcept (discountOf promo ticketType.pricePaisa input.quantity)
  let totals ← Svc.ofExcept (computeOrderTotals ticketType.pricePaisa input.quantity discount)
  return { requestedAt, eventId, ticketTypeId, ticketType, promo, totals }

def createOrder (input : CreateOrderInput) (draw : Nat → OrderDraw) : Svc (Id × Order) := do
  let c ← checkOrder input
  let created ← Svc.retry isReferenceCollision (createOrderTx input c) draw 1
    (referenceAttempts - 1)
  Svc.say (.onOrderCreated created.1)
  return created

structure SubmitPaymentInput where
  trxId : String
  senderMsisdn : String
  deriving DecidableEq, Repr

def submittedEvent (orderId : Id) (order : Order) (trxId sender : String) : OrderEvent :=
  let first := order.status == .pendingPayment
  { orderId, actor := "buyer"
    action := if first then .paymentSubmitted else .paymentUpdated
    fromStatus := some order.status, toStatus := some .pendingVerification
    note := if first then .submitted trxId sender else .updated order.bkashTrxId trxId sender }

def submitPaymentTx (orderId : Id) (trxId sender : String) : Tx Order := do
  let some order ← exec (ordersRepository.findByIdForUpdate orderId)
    | .throw (.orderNotFound orderId)
  if !submittable.contains order.status then .throw (.orderStatusConflict orderId order.status)
  if holdLapsed order (← exec now) then .throw (.holdLapsed orderId)
  if order.status == .pendingPayment then
    Tx.ofExcept (assertOrderTransition order.status .pendingVerification)
  let some updated ← exec (ordersRepository.transition orderId submittable .pendingVerification
      { bkash := some (trxId, sender) })
    | .throw (.orderStatusConflict orderId order.status)
  exec (ordersRepository.insertEvent (submittedEvent orderId order trxId sender))
  return updated

def submitPayment (orderId : Id) (input : SubmitPaymentInput) : Svc Order :=
  Svc.transaction (submitPaymentTx orderId (normaliseTrxId input.trxId) input.senderMsisdn)

section Expiry

open ordersRepository (LapsedHold)

def expiredEvent (hold : LapsedHold) : OrderEvent where
  orderId := hold.id
  actor := "system"
  action := .orderExpired
  fromStatus := some .pendingPayment
  toStatus := some .expired
  note := .holdLapsed hold.quantity

/-- One lapsed hold: false when it was submitted (or expired) in the meantime. -/
def expireHoldTx (hold : LapsedHold) : Tx Bool := do
  let some _ ← exec (ordersRepository.transition hold.id [.pendingPayment] .expired {})
    | return false
  inventoryService.release hold.ticketTypeId hold.quantity
  exec (ordersRepository.insertEvent (expiredEvent hold))
  return true

structure ExpiryCount where
  expired : Nat := 0
  failed : Nat := 0
  deriving DecidableEq, Repr

/-- The holds of one batch, one transaction each; a failure is counted and the hold skipped. -/
def expireHolds : List LapsedHold → ExpiryCount → List Id → Svc (ExpiryCount × List Id)
  | [], n, skipped => return (n, skipped)
  | hold :: holds, n, skipped => do
    match ← Svc.attempt (expireHoldTx hold) with
    | .ok true =>
      Svc.say (.onOrderExpired hold.id)
      expireHolds holds { n with expired := n.expired + 1 } skipped
    | .ok false => expireHolds holds n skipped
    | .error _ => expireHolds holds { n with failed := n.failed + 1 } (hold.id :: skipped)

def expireBatches (t : Time) : Nat → ExpiryCount → List Id → Svc ExpiryCount
  | 0, n, _ => return n
  | batches + 1, n, skipped => do
    let limit := expiryBatch + skipped.length
    let fetched ← Svc.query (ordersRepository.listLapsedHolds (lapsedBefore t) limit)
    let lapsed := fetched.filter fun h => !skipped.contains h.id
    if lapsed.isEmpty then return n
    let (n, skipped) ← expireHolds lapsed n skipped
    if fetched.length < limit then return n
    expireBatches t batches n skipped

def expireLapsedHolds : Svc ExpiryCount := do
  expireBatches (← Svc.now) expiryMaxBatches {} []

end Expiry

end ordersService

/-- `ticket-types.service`. -/
def ticketTypesService.updateTicketType (id : Id) (input : ticketTypesRepository.Patch) : Svc Unit := do
  if !(← Svc.query (ticketTypesRepository.update id input)) then throw (.ticketTypeNotFound id)

end EchoAndAura
