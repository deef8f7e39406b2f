import EchoAndAura.Effects

/-!
# Conduct

What a request may do next, given all it has done so far: the effects it may commit, what it may
announce, and the answers it may give.  `Good` is the condition every step of every request is
shown to meet, and the laws about whole runs are read off it.
-/

namespace EchoAndAura

open Txn (Lock writeAll)

section Traces

/-- Nothing a request has committed changed anything. -/
def Quiet (τ : List Obs) : Prop := ∀ K d d', .commit K d d' ∈ τ → d' = d

/-- How many transactions a request has committed. -/
def committed (τ : List Obs) : Nat :=
  τ.countP fun o => match o with
    | .commit _ _ _ => true
    | _ => false

/-- One commit made all the difference. -/
def OnlyCommit (τ : List Obs) (P : List Obs → Db → Db → Prop) : Prop :=
  ∃ τ₁ K d d' τ₂, τ = τ₁ ++ .commit K d d' :: τ₂ ∧ Quiet τ₁ ∧ Quiet τ₂ ∧ P τ₁ d d'

end Traces

section Undo

/-- The note of an undo names the ticket, and where it gives a check-in it is this one. -/
def Note.undoes (n : Note) (code : String) (c : CheckIn) : Prop :=
  match n with
  | .undoneByRevoke code' _ _ => code' = code
  | .undoneAtDoor code' _ => code' = code
  | .undoneByAdmin code' was _ => code' = code ∧ was = some (c.checkedInAt, c.checkedInBy)
  | _ => False

/-- The audit row of one check-in taken back. -/
def AuditsUndo (d : Db) (u : Id × CheckIn) (e : OrderEvent) : Prop :=
  ∃ t, d.tickets.lookup u.1 = some t ∧ e.Is t.orderId .ticketCheckInUndone none none ∧
    e.note.undoes t.code u.2

/-- A commit takes back these check-ins and touches no other ticket and no scan; each has its one
audit row. -/
structure TakesBack (undone : List (Id × CheckIn)) (d d' : Db) : Prop where
  nodup : (undone.map (·.1)).Nodup
  cleared : ∀ u ∈ undone, ∃ t, d.tickets.lookup u.1 = some t ∧ t.checkIn = some u.2 ∧
    d'.tickets.lookup u.1 = some { t with checkIn := none }
  kept : ∀ id, id ∉ undone.map (·.1) → d'.tickets.lookup id = d.tickets.lookup id
  scans : d'.doorScans = d.doorScans
  audit : ∃ es, d'.orderEvents = d.orderEvents ++ es ∧ List.Forall₂ (AuditsUndo d) undone es

/-- The check-ins an undo names: by its scan, by what the page showed, by the pass that made it. -/
def Request.names (q : Request) (τ : List Obs) (d : Db) (u : Id × CheckIn) : Prop :=
  match q with
  | .undoScan _ scanId _ => u.2.checkedInScanId = scanId
  | .undoCheckIn form => u.1 = form.ticketId ∧
      ∃ page, .read "tickets.listByOrder" page ∈ τ ∧ page.checkIn u.1 = some u.2
  | .revokeAndUndo _ passId _ _ => d.scanPass u.2.checkedInScanId = some passId
  | _ => False

/-- No ticket is in by a scan of the pass, nor ever will be: it is revoked. -/
structure Sealed (passId : Id) (d : Db) : Prop where
  revoked : ∃ p, d.doorPasses.lookup passId = some p ∧ p.revokedAt.isSome
  out : ∀ id c, d.checkIn id = some c → d.scanPass c.checkedInScanId ≠ some passId

end Undo

section Sale

/-- The event takes orders at `at_`. -/
structure Event.Takes (e : Event) (at_ : Time) : Prop where
  published : e.status = .published
  opened : ∃ opens, e.registrationOpensAt = some opens ∧ opens ≤ at_
  closes : ∃ closes, e.registrationClosesAt = some closes ∧ at_ < closes
  starts : at_ < e.startsAt

/-- The ticket type is inside its own sales window at `at_`. -/
structure TicketType.OnSale (t : TicketType) (at_ : Time) : Prop where
  started : ∀ s, t.salesStartsAt = some s → s ≤ at_
  ends : ∀ e, t.salesEndsAt = some e → at_ < e

/-- What an order's request saw before it took any stock: the moment it was made, its event, and
the chosen ticket type, with stock left or not. -/
def Seen (input : ordersService.CreateOrderInput) (τ : List Obs)
    (P : Time → Event → TicketType → Prop) : Prop :=
  ∃ d₁ d₂ d₃ eventId event t, .read "now" d₁ ∈ τ ∧ .read "events.findBySlug" d₂ ∈ τ ∧
    .read "ticketTypes.listByEvent" d₃ ∈ τ ∧ d₂.events.lookup eventId = some event ∧
    event.slug = input.eventSlug ∧ d₃.ticketTypes.lookup input.ticketTypeId = some t ∧
    t.eventId = eventId ∧ P d₁.clock event t

/-- The order was requested inside its windows, the type's own if the snapshot had stock of it. -/
def Requested (input : ordersService.CreateOrderInput) (τ : List Obs) (o : Order) : Prop :=
  o.ticketTypeId = input.ticketTypeId ∧ Seen input τ fun at_ event t =>
    o.holdExpiresAt = some (holdEndsAt at_) ∧ event.Takes at_ ∧ (0 < t.available → t.OnSale at_)

/-- The order's hold had lapsed by `at_`; it was not yet paid for in `d`, and is now. -/
structure Revived (at_ : Time) (d : Db) (id : Id) (o : Order) : Prop where
  paid : o.status = .pendingVerification
  lapsed : ∀ e, o.holdExpiresAt = some e → e ≤ lapsedBefore at_
  unpaid : ∀ o₀, d.orders.lookup id = some o₀ → o₀.status = .pendingPayment

/-- By the count of an order's request there was room for it beside its buyer's other orders that
were open at the request's moment, those paid for since it read the clock apart. -/
def Counted (τ : List Obs) (d : Db) (o : Order) : Prop :=
  ∃ τ₁ d₁ d₂ τ₂, ∃ ids : List Id, τ = τ₁ ++ .commit [] d₂ d₂ :: τ₂ ∧ .read "now" d₁ ∈ τ₁ ∧
    ids.length < maxOpenOrdersPerBuyer ∧
    ∀ id o', d.orders.lookup id = some o' → o'.eventId = o.eventId →
      o'.buyerPhone = o.buyerPhone → ordersRepository.isOpenAt o' (lapsedBefore d₁.clock) →
        id ∈ ids ∨ Revived d₁.clock d₂ id o'

end Sale

section Orders

/-- What a request may make of an order that is there. -/
def Request.mayMove (q : Request) (id : Id) (o o' : Order) : Prop :=
  match q with
  | .submitPayment orderId _ => id = orderId ∧ o'.status = .pendingVerification
  | .expireLapsedHolds => o.status = .pendingPayment ∧ o' = { o with status := .expired }
  | .approveOrder orderId input _ => id = orderId ∧ o.status = .pendingVerification ∧
      o.bkashTrxId = some input.verifiedTrxId ∧ o' = { o with status := .issued }
  | .rejectOrder orderId _ => id = orderId ∧ o.status = .pendingVerification ∧
      o'.status = .rejected
  | .cancelTicket _ input => id = input.orderId ∧ o.status = .issued ∧
      o' = { o with status := .cancelled }
  | _ => False

/-- What a request may put down as a new order. -/
def Request.mayMake (q : Request) (o : Order) : Prop :=
  match q with
  | .createOrder .. => o.status = .pendingPayment
  | .issueComplimentaryTickets .. => o.status = .issued
  | _ => False

/-- A commit leaves the orders as they are, but for what the request may make of them, and adds
none but what it may make. -/
structure Request.moves (q : Request) (d d' : Db) : Prop where
  row : ∀ {id o o'}, d.orders.lookup id = some o → d'.orders.lookup id = some o' →
    o' = o ∨ q.mayMove id o o'
  new : ∀ {id o'}, d.orders.lookup id = none → d'.orders.lookup id = some o' → q.mayMake o'

/-- One lapsed hold given back, with its one audit row. -/
structure Expires (id : Id) (d d' : Db) : Prop where
  order : ∃ o, d.orders.lookup id = some o ∧ o.status = .pendingPayment ∧
    d'.orders = d.orders.insert id { o with status := .expired }
  audit : ∃ e, e.Is id .orderExpired (some .pendingPayment) (some .expired) ∧
    d'.orderEvents = d.orderEvents ++ [e]

/-- A trace that has given back `n` holds, one commit each, and committed nothing else. -/
inductive Expiries : List Obs → Nat → Prop
  | nil : Expiries [] 0
  | idle {τ n o} (h : Expiries τ n) (idle : ∀ K d d', o = .commit K d d' → d' = d) :
      Expiries (τ ++ [o]) n
  | expired {τ n K d d' id} (h : Expiries τ n) (expires : Expires id d d') :
      Expiries (τ ++ [.commit K d d']) (n + 1)

end Orders

section Good

/-- Beyond being an effect, what a commit of a request is.  A revocation first reads the pass; its
second transaction revokes and undoes. -/
def Request.mayCommit (q : Request) (τ : List Obs) (d d' : Db) (undone : List (Id × CheckIn)) :
    Prop :=
  match q with
  | .createOrder input _ => undone = [] ∧
      ∀ id o, d.orders.lookup id = none → d'.orders.lookup id = some o →
        Requested input τ o ∧ Counted τ d o
  | .undoScan .. | .undoCheckIn .. =>
      TakesBack undone d d' ∧ ∀ u ∈ undone, q.names τ d u
  | .revokeAndUndo _ passId _ _ =>
      TakesBack undone d d' ∧ (∀ u ∈ undone, q.names τ d u) ∧ (committed τ = 1 → Sealed passId d')
  | _ => undone = []

/-- What is announced to the relay has been committed. -/
def Told (τ : List Obs) : Say → Prop
  | .announce _ (.checkedIn id at_ gate) => ∃ K d d' c, .commit K d d' ∈ τ ∧
      d.checkIn id = none ∧ d'.checkIn id = some c ∧ c.checkedInAt = at_ ∧ c.checkedInBy = gate
  | .announce _ (.undo id at_) => ∃ K d d' c, .commit K d d' ∈ τ ∧
      d.checkIn id = some c ∧ d'.checkIn id = none ∧ c.checkedInAt = at_
  | _ => True

/-- The one commit of an undo that took back `n` check-ins, all of them named. -/
def Request.tookBack (q : Request) (n : Nat) (τ : List Obs) (d d' : Db) : Prop :=
  ∃ undone, TakesBack undone d d' ∧ undone.length = n ∧ ∀ u ∈ undone, q.names τ d u

/-- An undo that answers well has taken back what it says; any other answer means nothing was.  A
sale that fails has changed nothing; the expiry job counts the holds it has given back. -/
def Request.mayAnswer (q : Request) (τ : List Obs) (a : Except Err Answer) : Prop :=
  match q with
  | .createOrder .. | .submitPayment .. | .issueComplimentaryTickets .. | .approveOrder ..
  | .rejectOrder .. | .cancelTicket .. | .renameAttendee .. =>
    match a with
    | .error _ => Quiet τ
    | _ => True
  | .expireLapsedHolds =>
    match a with
    | .ok (.expired n) => Expiries τ n.expired
    | _ => ∃ n, Expiries τ n
  | .undoScan .. | .undoCheckIn .. =>
    match a with
    | .ok .ok | .ok (.undone _) => OnlyCommit τ (q.tookBack 1)
    | _ => Quiet τ
  | .revokeAndUndo .. =>
    match a with
    | .ok (.revoked n) => OnlyCommit τ fun τ d d' => committed τ = 1 ∧ q.tookBack n τ d d'
    | _ => Quiet τ
  | _ => True

/-- What the request `q`, having done `τ`, may do next. -/
def Good (q : Request) (τ : List Obs) : Obs → Prop
  | .read _ _ => True
  | .commit K d d' => ∃ ws undone, Effect K d ws undone ∧ d' = writeAll ws d ∧
      q.mayCommit τ d d' undone ∧ q.moves d d'
  | .say o => Told τ o
  | .done a => q.mayAnswer τ a

end Good

end EchoAndAura
