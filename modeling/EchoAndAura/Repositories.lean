import Mathlib.Data.List.Sort
import EchoAndAura.Rules

/-!
# The repositories

Each function of `server/repositories` as the statements it sends.  A conditional UPDATE is one
statement about one row; an INSERT locks the keys of its unique indexes; a SELECT locks nothing
unless it says so.  A time the database stamps by itself is read from the clock just before.
-/

namespace EchoAndAura

/-- What the gate relay is told after a commit. -/
inductive Announcement
  | checkedIn (ticketId : Id) (at_ : Time) (gate : String)
  | undo (ticketId : Id) (at_ : Time)
  | revoke (passId : Id) (until_ : Time)
  deriving DecidableEq, Repr

/-- What a request tells the world outside the database: the relay, and the jobs it enqueues. -/
inductive Say
  | announce (eventId : Id) (a : Announcement)
  | onOrderCreated (orderId : Id)
  | onOrderExpired (orderId : Id)
  | onTicketsIssued (orderId : Id)
  | onOrderRejected (orderId : Id)
  deriving DecidableEq, Repr

abbrev Stmt := Txn.Stmt Db Row Write Err
abbrev Tx := Txn.Tx Db Row Write Err
abbrev Prog := Txn.Prog Db Row Write Err Say
abbrev Change := Txn.Change Write Err

/-- One statement. -/
abbrev exec {ρ : Type} (s : Stmt ρ) : Tx ρ := .ofStmt s

def Tx.ofExcept {α : Type} : Except Err α → Tx α
  | .ok a => .pure a
  | .error e => .throw e

/-- The clock, as a server or the database reads it. -/
def now : Stmt Time := .reads "now" (·.clock)

def setClock (t : Time) : Stmt Unit :=
  .onRow "setClock" .clock (·.clock) (fun _ => .write (.clock t) ())
    (fun h => h) (by rintro _ _ _ ⟨⟩; rfl)

namespace eventsRepository

def findBySlug (slug : String) : Stmt (Option (Id × Event)) :=
  .reads "events.findBySlug" fun d =>
    (d.events.entries.find? fun e => e.2.slug == slug).map fun e => (e.1, e.2)

def findById (id : Id) : Stmt (Option Event) := .reads "events.findById" (·.events.lookup id)

end eventsRepository

section TicketTypes

def Db.ticketTypesOf (d : Db) (eventId : Id) : List (Id × TicketType) :=
  (d.ticketTypes.entries.filter fun e => e.2.eventId == eventId).map fun e => (e.1, e.2)

/-- An UPDATE of a ticket type, refused by the CHECKs; `caught` are the ones the repository turns
into an error of its own. -/
def setTicketType {ρ : Type} (id : Id) (t : TicketType) (caught : List String) (e : Err) (r : ρ) :
    Change ρ :=
  match t.broken with
  | some c => if caught.contains c then .refuse e else .refuse (.check c)
  | none => .write (.ticketType id t) r

theorem setTicketType_row {ρ : Type} {id : Id} {t : TicketType} {caught : List String} {e : Err}
    {r r' : ρ} {w : Write} (h : setTicketType id t caught e r = .write w r') :
    w.row = some (.ticketType id) := by
  simp only [setTicketType] at h
  split at h
  · split_ifs at h
  · cases h
    rfl

/-- `UPDATE ticket_types SET … WHERE id = $id AND …`: whether a row matched. -/
def updateTicketType (name : String) (id : Id) (cond : TicketType → Bool)
    (set : TicketType → TicketType) (caught : List String) (e : Err) : Stmt Bool :=
  .onRow name (.ticketType id) (·.ticketTypes.lookup id)
    (fun
      | some t => if cond t then setTicketType id (set t) caught e true else .miss false
      | none => .miss false)
    (fun h => h)
    (fun {c w r} h => by
      rcases c with _ | t
      · cases h
      · simp only at h
        split_ifs at h
        exact setTicketType_row h)

namespace ticketTypesRepository

def listByEvent (eventId : Id) : Stmt (List (Id × TicketType)) :=
  .reads "ticketTypes.listByEvent" fun d => d.ticketTypesOf eventId

def findById (id : Id) : Stmt (Option TicketType) :=
  .reads "ticketTypes.findById" (·.ticketTypes.lookup id)

structure Patch where
  name : String
  pricePaisa : Int
  quantityTotal : Int
  salesStartsAt : Option Time
  salesEndsAt : Option Time
  deriving DecidableEq, Repr

def update (id : Id) (p : Patch) : Stmt Bool :=
  updateTicketType "ticketTypes.update" id (fun _ => true)
    (fun t => { t with
      name := p.name, pricePaisa := p.pricePaisa, quantityTotal := p.quantityTotal,
      salesStartsAt := p.salesStartsAt, salesEndsAt := p.salesEndsAt })
    ["ticket_types_availability_nonneg"] (.ticketTypeCapacityTooLow id)

end ticketTypesRepository

namespace inventoryRepository

def assertPositiveInteger (quantity : Int) : Except Err Unit :=
  if quantity ≤ 0 then .error (.invalidQuantity quantity) else .ok ()

def reserve (id : Id) (quantity : Int) : Tx Bool := do
  Tx.ofExcept (assertPositiveInteger quantity)
  exec (updateTicketType "inventory.reserve" id (fun t => quantity ≤ t.available)
    (fun t => { t with quantityReserved := t.quantityReserved + quantity }) [] .lost)

def release (id : Id) (quantity : Int) : Tx Unit := do
  Tx.ofExcept (assertPositiveInteger quantity)
  let matched ← exec (updateTicketType "inventory.release" id
    (fun t => quantity ≤ t.quantityReserved)
    (fun t => { t with quantityReserved := t.quantityReserved - quantity })
    ["ticket_types_reserved_nonneg"] (.inventoryState id .release))
  if !matched then .throw (.inventoryState id .release)

def convertToSold (id : Id) (quantity : Int) : Tx Unit := do
  Tx.ofExcept (assertPositiveInteger quantity)
  let matched ← exec (updateTicketType "inventory.convertToSold" id
    (fun t => quantity ≤ t.quantityReserved)
    (fun t => { t with
      quantityReserved := t.quantityReserved - quantity
      quantitySold := t.quantitySold + quantity })
    ["ticket_types_reserved_nonneg", "ticket_types_availability_nonneg"]
    (.inventoryState id .convertToSold))
  if !matched then .throw (.inventoryState id .convertToSold)

def releaseSold (id : Id) (quantity : Int) : Tx Unit := do
  Tx.ofExcept (assertPositiveInteger quantity)
  let matched ← exec (updateTicketType "inventory.releaseSold" id
    (fun t => quantity ≤ t.quantitySold)
    (fun t => { t with quantitySold := t.quantitySold - quantity })
    ["ticket_types_sold_nonneg"] (.inventoryState id .releaseSold))
  if !matched then .throw (.inventoryState id .releaseSold)

end inventoryRepository

/-- `inventory.service`: the per-order limits in front of the repository. -/
def assertQuantity (quantity : Int) : Except Err Unit :=
  if isValidOrderQuantity quantity then .ok () else .error (.invalidQuantity quantity)

namespace inventoryService

def hold (id : Id) (quantity : Int) : Tx Bool := do
  Tx.ofExcept (assertQuantity quantity)
  inventoryRepository.reserve id quantity

def release (id : Id) (quantity : Int) : Tx Unit := do
  Tx.ofExcept (assertQuantity quantity)
  inventoryRepository.release id quantity

def convertToSold (id : Id) (quantity : Int) : Tx Unit := do
  Tx.ofExcept (assertQuantity quantity)
  inventoryRepository.convertToSold id quantity

def releaseSold (id : Id) (quantity : Int) : Tx Unit := do
  Tx.ofExcept (assertQuantity quantity)
  inventoryRepository.releaseSold id quantity

end inventoryService

end TicketTypes

section Promo

namespace promoCodesRepository

def findByCode (code : String) : Stmt (Option (Id × PromoCode)) :=
  .reads "promoCodes.findByCode" fun d =>
    (d.promoCodes.entries.find? fun e => e.2.code == code).map fun e => (e.1, e.2)

end promoCodesRepository

end Promo

section Orders

/-- Columns a status transition may set alongside the new status. -/
structure OrderPatch where
  bkash : Option (String × String) := none
  rejection : Option (RejectionReason × Option String) := none
  deriving DecidableEq, Repr

def OrderPatch.apply (p : OrderPatch) (toStatus : OrderStatus) (o : Order) : Order :=
  let o := match p.bkash with
    | some (trxId, sender) => { o with bkashTrxId := some trxId, bkashSenderMsisdn := some sender }
    | none => o
  let o := match p.rejection with
    | some (reason, note) => { o with rejectionReason := some reason, rejectionNote := note }
    | none => o
  { o with status := toStatus }

/-- The entries of the trxID index a transition touches: the new one, and the one it gives up. -/
def OrderPatch.trxIds (p : OrderPatch) (o : Order) : List String :=
  match p.bkash with
  | none => []
  | some (trxId, _) => if o.bkashTrxId = some trxId then [] else trxId :: o.bkashTrxId.toList

def OrderPatch.trxWrites (p : OrderPatch) (id : Id) (o : Order) : List Write :=
  match p.trxIds o with
  | [] => []
  | trxId :: old => .trxId trxId id :: old.map .freeTrxId

def transitionOutcome (id : Id) (fromStatuses : List OrderStatus) (toStatus : OrderStatus)
    (patch : OrderPatch) (d : Db) : Txn.Outcome Row Write Err (Option Order) :=
  match d.orders.lookup id with
  | none => .read none
  | some o =>
    if !fromStatuses.contains o.status then .read none
    else
      match (patch.apply toStatus o).broken with
      | some c => .fail (.check c)
      | none =>
        if (patch.trxIds o).head?.any fun t => (d.orderTrxIds.lookup t).isSome then
          .fail (.trxIdAlreadyUsed ((patch.trxIds o).headD ""))
        else
          .hit ((.order id, .excl) :: (patch.trxIds o).map fun t => (.trxId t, .excl))
            (.order id (patch.apply toStatus o) :: patch.trxWrites id o) (some (patch.apply toStatus o))

theorem transitionOutcome_hit {id : Id} {fromStatuses : List OrderStatus} {toStatus : OrderStatus}
    {patch : OrderPatch} {d : Db} {K : List (Txn.Lock Row)} {ws : List Write} {r : Option Order}
    (h : transitionOutcome id fromStatuses toStatus patch d = .hit K ws r) :
    ∃ o, d.orders.lookup id = some o ∧ o.status ∈ fromStatuses ∧
      (patch.apply toStatus o).broken = none ∧
      (∀ t, (patch.trxIds o).head? = some t → d.orderTrxIds.lookup t = none) ∧
      K = (.order id, .excl) :: (patch.trxIds o).map (fun t => (.trxId t, .excl)) ∧
      ws = .order id (patch.apply toStatus o) :: patch.trxWrites id o ∧
      r = some (patch.apply toStatus o) := by
  simp only [transitionOutcome] at h
  split at h
  · cases h
  rename_i o ho
  split_ifs at h with hs ht
  · split at h <;> cases h
  · split at h
    · cases h
    · rename_i hb
      cases h
      exact ⟨o, ho, by simpa using hs, hb, fun t hh => by simpa [hh] using ht, rfl, rfl, rfl⟩

theorem OrderPatch.trxWrites_row {p : OrderPatch} {id : Id} {o : Order} {w : Write}
    (hw : w ∈ p.trxWrites id o) : ∃ t ∈ p.trxIds o, w.row = some (.trxId t) := by
  simp only [OrderPatch.trxWrites] at hw
  split at hw
  · simp at hw
  · rename_i trxId old heq
    rw [heq]
    rcases List.mem_cons.1 hw with rfl | hw
    · exact ⟨trxId, by simp, rfl⟩
    · obtain ⟨t, ht, rfl⟩ := List.mem_map.1 hw
      exact ⟨t, by simp [ht], rfl⟩

namespace ordersRepository

/-- The one status write: applies only while the row is still in one of `fromStatuses`. -/
def transition (id : Id) (fromStatuses : List OrderStatus) (toStatus : OrderStatus)
    (patch : OrderPatch) : Stmt (Option Order) where
  name := "orders.transition"
  exec := transitionOutcome id fromStatuses toStatus patch
  covered h w hw x hx := by
    obtain ⟨o, -, -, -, -, rfl, rfl, -⟩ := transitionOutcome_hit h
    rcases List.mem_cons.1 hw with rfl | hw
    · cases hx
      simp
    · obtain ⟨t, ht, hr⟩ := OrderPatch.trxWrites_row hw
      cases hx.symm.trans hr
      simp [ht]
  stable {d d' K ws r} h hs := by
    obtain ⟨o, ho, hst, hb, ht, rfl, rfl, rfl⟩ := transitionOutcome_hit h
    have ho' : d'.orders.lookup id = some o := by
      have := hs (.order id, .excl) (by simp)
      exact this.symm.trans ho
    have ht' : ∀ t, (patch.trxIds o).head? = some t → d'.orderTrxIds.lookup t = none := by
      intro t hh
      have := hs (.trxId t, .excl) (by simpa using List.mem_of_mem_head? hh)
      exact this.symm.trans (ht t hh)
    have hany : ((patch.trxIds o).head?.any fun t => (d'.orderTrxIds.lookup t).isSome) = false := by
      rcases hh : (patch.trxIds o).head? with _ | t
      · rfl
      · simp [ht' t hh]
    simp [transitionOutcome, ho', hst, hb, hany]

def insertViolation (id : Id) (o : Order) (d : Db) : Option Err :=
  match o.broken with
  | some c => some (.check c)
  | none =>
    if (d.orders.lookup id).isSome then some (.unique "orders_pkey")
    else if (d.orderReferences.lookup o.reference).isSome then
      some (.orderReferenceCollision o.reference)
    else none

/-- An order is inserted before it has a trxID. -/
def insert (id : Id) (o : Order) : Stmt Order :=
  .insert "orders.insert" [.order id, .reference o.reference] (insertViolation id o)
    [.order id o, .reference o.reference id] o
    (fun {d d'} h => by
      have h₁ : d.orders.lookup id = d'.orders.lookup id := h (.order id) (by simp)
      have h₂ : d.orderReferences.lookup o.reference = d'.orderReferences.lookup o.reference :=
        h (.reference o.reference) (by simp)
      simp only [insertViolation, h₁, h₂])
    (by rintro w hw x hx; simp at hw; rcases hw with rfl | rfl <;> cases hx <;> simp)

def insertEvent (e : OrderEvent) : Stmt Unit :=
  .append "orders.insertEvent" (.orderEvent e) () rfl

def findByIdForUpdate (id : Id) : Stmt (Option Order) :=
  .onRow "orders.findByIdForUpdate" (.order id) (·.orders.lookup id)
    (fun
      | some o => .lock (some o)
      | none => .miss none)
    (fun h => h) (fun {c _ _} h => by cases c <;> cases h)

/-- A transaction-scoped advisory lock. -/
def lockBuyer (eventId : Id) (phone : String) : Stmt Unit :=
  .onRow "orders.lockBuyer" (.buyer eventId phone) (fun _ => ()) (fun _ => .lock ())
    (fun _ => rfl) (fun h => by cases h)

/-- Awaiting verification, or awaiting payment with a hold past `now`. -/
def isOpenAt (o : Order) (now : Time) : Bool :=
  o.status == .pendingVerification ||
    (o.status == .pendingPayment && o.holdExpiresAt.any fun e => now < e)

def countOpenForBuyer (eventId : Id) (phone : String) (now : Time) : Stmt Nat :=
  .reads "orders.countOpenForBuyer" fun d =>
    (d.orders.rows.filter fun o =>
      o.eventId == eventId && o.buyerPhone == some phone && isOpenAt o now).length

/-- What the expiry job needs per lapsed hold. -/
structure LapsedHold where
  id : Id
  ticketTypeId : Id
  quantity : Int
  deriving DecidableEq, Repr

def lapsedHolds (d : Db) (now : Time) (limit : Nat) : List LapsedHold :=
  (((d.orders.entries.filter fun e =>
      e.2.status == .pendingPayment && e.2.holdExpiresAt.any fun t => t ≤ now).insertionSort
        fun a b => a.2.holdExpiresAt.getD 0 ≤ b.2.holdExpiresAt.getD 0).take limit).map
    fun e => ⟨e.1, e.2.ticketTypeId, e.2.quantity⟩

def listLapsedHolds (now : Time) (limit : Nat) : Stmt (List LapsedHold) :=
  .reads "orders.listLapsedHolds" fun d => lapsedHolds d now limit

end ordersRepository

end Orders

end EchoAndAura
