import EchoAndAura.Proofs.Conduct

/-!
# The ledger of a sale

What one commit does to the tables a sale is kept in: the orders, the index of transaction ids and
the tickets.  Every effect makes one of seven steps (`Effect.sale`), and the laws about orders and
their tickets go by cases on them.
-/

namespace EchoAndAura

open Txn (Lock writeAll Rely)

variable {K : List (Lock Row)} {d d' : Db} {ws : List Write} {undone : List (Id × CheckIn)}

section Faces

/-- A ticket but for the name on it and its check-in. -/
def Ticket.face (t : Ticket) : Ticket := { t with attendeeName := "", checkIn := none }

def Db.face (d : Db) (id : Id) : Option Ticket := (d.tickets.lookup id).map Ticket.face

theorem face_eq (h : d'.tickets = d.tickets) (id : Id) : d'.face id = d.face id := by
  rw [Db.face, h, Db.face]

theorem face_insert {id : Id} {t t' : Ticket} (h : d'.tickets = d.tickets.insert id t')
    (ht : d.tickets.lookup id = some t) (hf : t'.face = t.face) (id' : Id) :
    d'.face id' = d.face id' := by
  unfold Db.face
  rw [h, Table.lookup_insert_eq]
  split_ifs with heq
  · subst heq
    rw [ht, Option.map_some, Option.map_some, hf]
  · rfl

theorem Standing.face {undone : List Undone} (h : Standing d undone)
    (ht : d'.tickets = .insertAll (undoneRows undone) d.tickets) (id : Id) :
    d'.face id = d.face id := by
  unfold Db.face
  by_cases hm : id ∈ undone.map (·.listed.id)
  · obtain ⟨u, hu, rfl⟩ := List.mem_map.1 hm
    rw [ht, h.lookup hu, h.row u hu]
    rfl
  · rw [ht, lookup_undone_of_notMem hm]

end Faces

section Sale

/-- Its tickets have been issued, at some time. -/
def Order.WasIssued (o : Order) : Prop := o.status = .issued ∨ o.status = .cancelled

/-- What a commit that holds `K` does to the orders, their transaction ids and their tickets. -/
inductive SaleStep (K : List (Lock Row)) (d d' : Db) : Prop
  | aside (orders : d'.orders = d.orders) (trxIds : d'.orderTrxIds = d.orderTrxIds)
      (faces : ∀ id, d'.face id = d.face id)
  | held {id o phone} (fresh : d.orders.lookup id = none) (status : o.status = .pendingPayment)
      (trxId : o.bkashTrxId = none) (buyer : o.buyerPhone = some phone)
      (lock : (Row.buyer o.eventId phone, .excl) ∈ K) (orders : d'.orders = d.orders.insert id o)
      (trxIds : d'.orderTrxIds = d.orderTrxIds) (tickets : d'.tickets = d.tickets)
  | submitted {id o} {patch : OrderPatch} (row : d.orders.lookup id = some o)
      (status : o.status = .pendingPayment ∨ o.status = .pendingVerification)
      (free : ∀ t, (patch.trxIds o).head? = some t → d.orderTrxIds.lookup t = none)
      (orders : d'.orders = d.orders.insert id (patch.apply .pendingVerification o))
      (trxIds : d'.orderTrxIds = patch.reindex id o d.orderTrxIds) (tickets : d'.tickets = d.tickets)
  | released {id o} {patch : OrderPatch} {toStatus : OrderStatus}
      (row : d.orders.lookup id = some o)
      (status : (o.status = .pendingPayment ∧ toStatus = .expired) ∨
        (o.status = .pendingVerification ∧ toStatus = .rejected))
      (bkash : patch.bkash = none) (orders : d'.orders = d.orders.insert id (patch.apply toStatus o))
      (trxIds : d'.orderTrxIds = d.orderTrxIds) (tickets : d'.tickets = d.tickets)
  | approved {id o rows} (row : d.orders.lookup id = some o)
      (status : o.status = .pendingVerification) (quantity : 0 < o.quantity)
      (new : NewTickets d id o rows) (orders : d'.orders = d.orders.insert id { o with status := .issued })
      (trxIds : d'.orderTrxIds = d.orderTrxIds) (tickets : d'.tickets = .insertAll rows d.tickets)
  | comped {id o rows} (fresh : d.orders.lookup id = none) (status : o.status = .issued)
      (trxId : o.bkashTrxId = none) (reason : o.complimentaryReason.isSome)
      (quantity : 0 < o.quantity) (new : NewTickets d id o rows)
      (orders : d'.orders = d.orders.insert id o) (trxIds : d'.orderTrxIds = d.orderTrxIds)
      (tickets : d'.tickets = .insertAll rows d.tickets)
  | cancelled {id t o} {last : Bool} (row : d.tickets.lookup id = some t) (status : t.status = .issued)
      (order : d.orders.lookup t.orderId = some o) (issued : o.status = .issued)
      (live : last = false ↔ ∃ id' ≠ id, d.IssuedOf t.orderId id')
      (orders : d'.orders = if last then d.orders.insert t.orderId { o with status := .cancelled }
        else d.orders)
      (trxIds : d'.orderTrxIds = d.orderTrxIds)
      (tickets : d'.tickets = d.tickets.insert id { t with status := .cancelled })

theorem Effect.sale (h : Effect K d ws undone) : SaleStep K d (writeAll ws d) := by
  cases h with
  | nothing | tick | edit | log | revoke => exact .aside rfl rfl (face_eq rfl)
  | hold fresh _ _ _ _ status trxId buyer lock =>
    exact .held fresh status trxId buyer lock rfl rfl rfl
  | submit row status _ _ free =>
    refine .submitted row status free ?_ ?_ ?_
    all_goals simp [Txn.writeAll_append, writeAll_trxWrites, Write.apply]
  | release row status bkash => exact .released row status bkash rfl rfl rfl
  | approve row status _ _ _ quantity new =>
    refine .approved row status quantity new ?_ ?_ ?_
    all_goals simp [Txn.writeAll_append, writeAll_insertWrites, Write.apply]
  | comp fresh _ _ _ quantity status trxId reason new =>
    refine .comped fresh status trxId reason quantity new ?_ ?_ ?_
    all_goals simp [Txn.writeAll_append, writeAll_insertWrites, Write.apply]
  | @cancelTicket id t ty e last row status _ _ _ _ live holder _ order =>
    obtain ⟨o, ho, hs⟩ := holder
    refine @SaleStep.cancelled _ _ _ id t o last.isSome row status ho hs ?_ ?_ ?_ ?_
    · rw [← live, Option.isSome_eq_false_iff, Option.isNone_iff_eq_none]
    · cases last with
      | none => rfl
      | some l =>
        obtain rfl := Option.some.inj (ho.symm.trans (order l rfl).1)
        rfl
    · cases last <;> rfl
    · cases last <;> rfl
  | rename row => exact .aside rfl rfl (face_insert rfl row rfl)
  | letIn admission => exact .aside rfl rfl (face_insert rfl admission.row rfl)
  | undo row => exact .aside rfl rfl (face_insert rfl row rfl)
  | undoAll standing =>
    rw [writeAll_undoWrites]
    exact .aside rfl rfl (standing.face rfl)
  | revokeAndUndo _ _ _ standing =>
    rw [writeAll_cons, writeAll_undoWrites]
    exact .aside rfl rfl (standing.face rfl)

theorem Good.sale {q : Request} {τ : List Obs} (h : Good q τ (.commit K d d')) :
    SaleStep K d d' := by
  obtain ⟨ws, undone, he, rfl, -⟩ := h
  exact he.sale

end Sale

section Orders

variable {id : Id} {o o' : Order}

/-- An order that was issued changes no more, but that it may be cancelled. -/
theorem SaleStep.wasIssued (h : SaleStep K d d') (ho : d.orders.lookup id = some o)
    (hs : o.status = .issued ∨ o.status = .cancelled ∨ o.status = .paid) :
    d'.orders.lookup id = some o ∨
      o.status = .issued ∧ d'.orders.lookup id = some { o with status := .cancelled } := by
  have other : ∀ {id' o₁}, d'.orders = d.orders.insert id' o₁ →
      (∀ o₂, d.orders.lookup id' = some o₂ → o₂.status ≠ o.status) →
        d'.orders.lookup id = some o := by
    intro id' o₁ h' hne
    have : id ≠ id' := by
      rintro rfl
      exact hne o ho rfl
    rw [h', AList.lookup_insert_ne this, ho]
  cases h with
  | aside orders => exact .inl (by rw [orders, ho])
  | held fresh _ _ _ _ orders | comped fresh _ _ _ _ _ orders =>
    exact .inl (other orders fun o₂ h₂ => by simp [fresh] at h₂)
  | submitted row status _ orders =>
    refine .inl (other orders fun o₂ h₂ => ?_)
    obtain rfl := Option.some.inj (row.symm.trans h₂)
    rintro heq
    rw [← heq] at hs
    rcases status with h | h <;> simp [h] at hs
  | released row status _ orders =>
    refine .inl (other orders fun o₂ h₂ => ?_)
    obtain rfl := Option.some.inj (row.symm.trans h₂)
    rintro heq
    rw [← heq] at hs
    rcases status with ⟨h, -⟩ | ⟨h, -⟩ <;> simp [h] at hs
  | approved row status _ _ orders =>
    refine .inl (other orders fun o₂ h₂ => ?_)
    obtain rfl := Option.some.inj (row.symm.trans h₂)
    rintro heq
    rw [← heq, status] at hs
    simp at hs
  | @cancelled tid t o₁ last row status order issued live orders =>
    cases last with
    | false => exact .inl (by rw [orders]; exact ho)
    | true =>
      by_cases heq : id = t.orderId
      · subst heq
        obtain rfl := Option.some.inj (order.symm.trans ho)
        exact .inr ⟨issued, by rw [orders]; exact AList.lookup_insert _⟩
      · refine .inl ?_
        rw [orders, if_pos rfl, AList.lookup_insert_ne heq, ho]

/-- The event, the buyer and the hold of an order, which nobody changes. -/
def Order.sale (o : Order) : Id × Option String × Option Time :=
  (o.eventId, o.buyerPhone, o.holdExpiresAt)

@[simp] theorem OrderPatch.apply_sale (p : OrderPatch) (st : OrderStatus) (o : Order) :
    (p.apply st o).sale = o.sale := by
  unfold OrderPatch.apply
  split <;> split <;> rfl

/-- Where an order found after a commit comes from. -/
inductive OrderStep (K : List (Lock Row)) (d : Db) (id : Id) (o' : Order) : Prop
  | kept {o : Order} (row : d.orders.lookup id = some o) (sale : o'.sale = o.sale)
      (status : o'.status = o.status)
  | paid {o : Order} (row : d.orders.lookup id = some o) (sale : o'.sale = o.sale)
      (status : o.status = .pendingPayment) (status' : o'.status = .pendingVerification)
  | closed {o : Order} (row : d.orders.lookup id = some o) (sale : o'.sale = o.sale)
      (status' : o'.status ≠ .pendingPayment ∧ o'.status ≠ .pendingVerification)
  | held {phone : String} (fresh : d.orders.lookup id = none) (status : o'.status = .pendingPayment)
      (buyer : o'.buyerPhone = some phone) (lock : (Row.buyer o'.eventId phone, .excl) ∈ K)
  | given (fresh : d.orders.lookup id = none) (status : o'.status = .issued)

theorem SaleStep.order (h : SaleStep K d d') (ho' : d'.orders.lookup id = some o') :
    OrderStep K d id o' := by
  have one : ∀ {id' o₁}, d'.orders = d.orders.insert id' o₁ →
      id = id' ∧ o' = o₁ ∨ OrderStep K d id o' := by
    intro id' o₁ h'
    rw [h', Table.lookup_insert_eq] at ho'
    split_ifs at ho' with heq
    · exact .inl ⟨heq, (Option.some.inj ho').symm⟩
    · exact .inr (.kept ho' rfl rfl)
  cases h with
  | aside orders =>
    rw [orders] at ho'
    exact .kept ho' rfl rfl
  | held fresh status _ buyer lock orders =>
    rcases one orders with ⟨rfl, rfl⟩ | h
    · exact .held fresh status buyer lock
    · exact h
  | @submitted _ o _ row status _ orders =>
    rcases one orders with ⟨rfl, rfl⟩ | h
    · rcases status with hs | hs
      · exact .paid row (by simp) hs (by simp)
      · exact .kept row (by simp) (by simp [hs])
    · exact h
  | released row status _ orders =>
    rcases one orders with ⟨rfl, rfl⟩ | h
    · refine .closed row (by simp) ?_
      rcases status with ⟨-, ht⟩ | ⟨-, ht⟩ <;> simp [ht]
    · exact h
  | approved row _ _ _ orders =>
    rcases one orders with ⟨rfl, rfl⟩ | h
    · exact .closed row rfl (by simp)
    · exact h
  | comped fresh status _ _ _ _ orders =>
    rcases one orders with ⟨rfl, rfl⟩ | h
    · exact .given fresh status
    · exact h
  | @cancelled _ _ _ last _ _ order _ _ orders =>
    cases last with
    | false =>
      rw [orders, if_neg (by simp)] at ho'
      exact .kept ho' rfl rfl
    | true =>
      rcases one orders with ⟨rfl, rfl⟩ | h
      · exact .closed order rfl (by simp)
      · exact h

/-- An order past its payment is never unpaid again. -/
theorem SaleStep.unpaid (h : SaleStep K d d') (hg : Grows d d')
    (hd : ∃ o, d.orders.lookup id = some o ∧ o.status ≠ .pendingPayment) :
    ∃ o, d'.orders.lookup id = some o ∧ o.status ≠ .pendingPayment := by
  obtain ⟨o, ho, hs⟩ := hd
  obtain ⟨o', ho', -⟩ := hg.order ho
  refine ⟨o', ho', fun hs' => ?_⟩
  rcases h.order ho' with ⟨row, -, status⟩ | ⟨row, -, -, status⟩ | ⟨row, -, status⟩ |
    ⟨fresh, -, -, -⟩ | ⟨fresh, -⟩
  · obtain rfl := Option.some.inj (row.symm.trans ho)
    exact hs (status ▸ hs')
  · simp [status] at hs'
  · exact status.1 hs'
  · simp [fresh] at ho
  · simp [fresh] at ho

/-- An order of the buyer on the event that a commit leaves pending was so before. -/
structure PendsFrom (d₁ d : Db) (eventId : Id) (phone : String) : Prop where
  order : ∀ {id o}, d.orders.lookup id = some o → o.eventId = eventId → o.buyerPhone = some phone →
    (o.status = .pendingPayment → ∃ o₁, d₁.orders.lookup id = some o₁ ∧ o.sale = o₁.sale ∧
      o₁.status = .pendingPayment) ∧
    (o.status = .pendingVerification → ∃ o₁, d₁.orders.lookup id = some o₁ ∧ o.sale = o₁.sale ∧
      (o₁.status = .pendingPayment ∨ o₁.status = .pendingVerification))

theorem SaleStep.pends (h : SaleStep K d d') {d₁ : Db} {eventId : Id} {phone : String}
    (hK : (Row.buyer eventId phone, Txn.Mode.excl) ∉ K) (hd : PendsFrom d₁ d eventId phone) :
    PendsFrom d₁ d' eventId phone := by
  refine ⟨fun {id o'} ho' he hp => ?_⟩
  have old : ∀ {o : Order}, o'.sale = o.sale → o.eventId = eventId ∧ o.buyerPhone = some phone := by
    intro o hsale
    simp only [Order.sale, Prod.mk.injEq] at hsale
    exact ⟨hsale.1 ▸ he, hsale.2.1 ▸ hp⟩
  rcases h.order ho' with ⟨row, hsale, status⟩ | ⟨row, hsale, status, status'⟩ |
    ⟨-, -, status'⟩ | ⟨-, -, buyer, lock⟩ | ⟨-, status⟩
  · have := hd.order row (old hsale).1 (old hsale).2
    rw [status, hsale]
    exact this
  · refine ⟨fun hs => by simp [status'] at hs, fun _ => ?_⟩
    obtain ⟨o₁, ho₁, hsale₁, hs₁⟩ := (hd.order row (old hsale).1 (old hsale).2).1 status
    exact ⟨o₁, ho₁, hsale.trans hsale₁, .inl hs₁⟩
  · exact ⟨fun hs => absurd hs status'.1, fun hs => absurd hs status'.2⟩
  · obtain rfl := Option.some.inj (buyer.symm.trans hp)
    exact absurd (he ▸ lock) hK
  · exact ⟨fun hs => by simp [status] at hs, fun hs => by simp [status] at hs⟩

end Orders

section Count

variable {d₀ d₁ : Db} {eventId : Id} {phone : String}

theorem unpaid_of_rely (h : Rely Good K d d') {id : Id}
    (hd : ∃ o, d.orders.lookup id = some o ∧ o.status ≠ .pendingPayment) :
    ∃ o, d'.orders.lookup id = some o ∧ o.status ≠ .pendingPayment :=
  h.preserves (I := fun d => ∃ o, d.orders.lookup id = some o ∧ o.status ≠ .pendingPayment)
    (fun _ _ _ _ _ hg hd => hg.sale.unpaid hg.grows hd) hd

theorem pends_of_rely (h : Rely Good [(.buyer eventId phone, .excl)] d₁ d) :
    PendsFrom d₁ d eventId phone := by
  refine h.preserves_beside (I := fun d => PendsFrom d₁ d eventId phone)
    (fun q τ L d d' hg hc _ hd => hg.sale.pends (fun hm => ?_) hd) ⟨fun {id o} ho _ _ => ?_⟩
  · exact ⟨fun hs => ⟨o, ho, rfl, hs⟩, fun hs => ⟨o, ho, rfl, .inr hs⟩⟩
  · exact hc _ (List.mem_singleton_self _) _ hm ⟨rfl, by simp⟩

theorem mem_openOrders {t : Time} {id : Id} {o : Order} (ho : d.orders.lookup id = some o)
    (he : o.eventId = eventId) (hp : o.buyerPhone = some phone)
    (h : ordersRepository.isOpenAt o t = true) :
    id ∈ (d.orders.entries.filter fun e => e.2.eventId == eventId && e.2.buyerPhone == some phone &&
      ordersRepository.isOpenAt e.2 t).map (·.1) := by
  refine List.mem_map.2 ⟨⟨id, o⟩, List.mem_filter.2 ⟨AList.mem_lookup_iff.1 ho, ?_⟩, rfl⟩
  simp [he, hp, h]

theorem Db.openOrders_length (d : Db) (eventId : Id) (phone : String) (t : Time) :
    (d.openOrders eventId phone t).length = (d.orders.entries.filter fun e =>
      e.2.eventId == eventId && e.2.buyerPhone == some phone &&
        ordersRepository.isOpenAt e.2 t).length := by
  rw [Db.openOrders, Table.rows, List.filter_map, List.length_map]
  rfl

/-- What the count of an order's request says of the orders beside it when it commits. -/
theorem counted_of_rely {at_ : Time} {o : Order} (hl : Rely Good [] d₀ d₁)
    (he : o.eventId = eventId) (hp : o.buyerPhone = some phone)
    (h : CountedFrom (Rely Good) eventId phone (lapsedBefore at_) d₁ d) :
    ∃ ids : List Id, ids.length < maxOpenOrdersPerBuyer ∧
      ∀ id o', d.orders.lookup id = some o' → o'.eventId = o.eventId →
        o'.buyerPhone = o.buyerPhone → ordersRepository.isOpenAt o' (lapsedBefore at_) →
          id ∈ ids ∨ Revived at_ d₀ id o' := by
  obtain ⟨d₂, h₁, h₂, hcount⟩ := h
  rw [Db.openOrders_length, ← List.length_map] at hcount
  refine ⟨_, hcount, fun id o' ho' he' hp' hopen => ?_⟩
  have hev := he'.trans he
  have hph := hp'.trans hp
  have hpends := (pends_of_rely h₂).order ho' hev hph
  have listed : ∀ {o₂ : Order}, d₂.orders.lookup id = some o₂ → o'.sale = o₂.sale →
      ordersRepository.isOpenAt o₂ (lapsedBefore at_) = true →
        id ∈ (d₂.orders.entries.filter fun e => e.2.eventId == eventId &&
          e.2.buyerPhone == some phone && ordersRepository.isOpenAt e.2 (lapsedBefore at_)).map
            (·.1) := by
    intro o₂ ho₂ hsale
    simp only [Order.sale, Prod.mk.injEq] at hsale
    exact mem_openOrders ho₂ (hsale.1 ▸ hev) (hsale.2.1 ▸ hph)
  have hold : ∀ {o₂ : Order}, o'.sale = o₂.sale → o'.holdExpiresAt = o₂.holdExpiresAt := by
    intro o₂ hsale
    simp only [Order.sale, Prod.mk.injEq] at hsale
    exact hsale.2.2
  simp only [ordersRepository.isOpenAt, Bool.or_eq_true, beq_iff_eq, Bool.and_eq_true] at hopen
  rcases hopen with hs | ⟨hs, hlive⟩
  · obtain ⟨o₂, ho₂, hsale, hs₂⟩ := hpends.2 hs
    by_cases hopen₂ : ordersRepository.isOpenAt o₂ (lapsedBefore at_) = true
    · exact .inl (listed ho₂ hsale hopen₂)
    · rcases hs₂ with hs₂ | hs₂
      · refine .inr ⟨hs, fun e hexp => ?_, fun o₀ ho₀ => ?_⟩
        · rw [hold hsale] at hexp
          simpa [ordersRepository.isOpenAt, hs₂, hexp] using hopen₂
        · by_contra hs₀
          obtain ⟨o₃, ho₃, hs₃⟩ := unpaid_of_rely (hl.trans h₁) ⟨o₀, ho₀, hs₀⟩
          obtain rfl := Option.some.inj (ho₃.symm.trans ho₂)
          exact hs₃ hs₂
      · simp [ordersRepository.isOpenAt, hs₂] at hopen₂
  · obtain ⟨o₂, ho₂, hsale, hs₂⟩ := hpends.1 hs
    refine .inl (listed ho₂ hsale ?_)
    rw [hold hsale] at hlive
    simp [ordersRepository.isOpenAt, hs₂, hlive]

end Count

end EchoAndAura
