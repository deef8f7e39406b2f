import EchoAndAura.Proofs.Runs

/-!
# Inventory

Every order that holds tickets holds them in `quantityReserved`, every ticket that stands is in
`quantitySold`, and no type is oversold.  Each effect moves the counters as it moves its order and
its tickets (`Effect.balanced`).
-/

namespace EchoAndAura

open Txn (Lock writeAll)

variable {K : List (Lock Row)} {d d' : Db} {ws : List Write} {undone : List (Id × CheckIn)}
  {id : Id}

section Counts

/-- The order waits for its payment, or for an admin to verify it. -/
def Order.isPending (o : Order) : Bool :=
  o.status == .pendingPayment || o.status == .pendingVerification

/-- The quantities of the pending orders of a ticket type. -/
def Db.pendingQuantity (d : Db) (ticketTypeId : Id) : Int :=
  ((d.orders.rows.filter fun o => o.ticketTypeId == ticketTypeId && o.isPending).map
    (·.quantity)).sum

/-- How many tickets of a type stand. -/
def Db.standingTickets (d : Db) (ticketTypeId : Id) : Nat :=
  (d.tickets.rows.filter fun t => t.ticketTypeId == ticketTypeId && t.status != .cancelled).length

/-- The counters are in bounds, and together they are within the total. -/
structure TicketType.InStock (t : TicketType) : Prop where
  sold : 0 ≤ t.quantitySold
  reserved : 0 ≤ t.quantityReserved
  total : t.quantitySold + t.quantityReserved ≤ t.quantityTotal

/-- A ticket type's counters say what its orders and its tickets say. -/
structure TicketType.Conserved (t : TicketType) (id : Id) (d : Db) : Prop where
  reserved : t.quantityReserved = d.pendingQuantity id
  sold : t.quantitySold = d.standingTickets id
  inStock : t.InStock

def Db.Conserved (d : Db) : Prop := ∀ id t, d.ticketTypes.lookup id = some t → t.Conserved id d

/-- What an order holds of a ticket type. -/
def Order.holds (id : Id) (o : Order) : Int :=
  if o.ticketTypeId == id && o.isPending then o.quantity else 0

/-- Whether a ticket stands as one of a type. -/
def Ticket.counts (id : Id) (t : Ticket) : Int :=
  if t.ticketTypeId == id && t.status != .cancelled then 1 else 0

theorem pendingQuantity_eq (d : Db) (id : Id) :
    d.pendingQuantity id = d.orders.total (Order.holds id) :=
  (Table.total_ite _ _ _).symm

theorem standingTickets_eq (d : Db) (id : Id) :
    (d.standingTickets id : Int) = d.tickets.total (Ticket.counts id) := by
  refine (?_ : _ = _).trans (Table.total_ite _ _ _).symm
  simp [Db.standingTickets]

theorem Order.holds_eq_zero {o : Order} (h : o.isPending = false) : o.holds id = 0 := by
  simp [Order.holds, h]

theorem Order.holds_of_pending {o : Order} (h : o.isPending = true) :
    o.holds id = if id = o.ticketTypeId then o.quantity else 0 := by
  unfold Order.holds
  by_cases hid : id = o.ticketTypeId
  · simp [h, hid]
  · simp [h, hid, Ne.symm hid]

theorem Ticket.counts_of_issued {t : Ticket} (h : t.status = .issued) :
    t.counts id = if id = t.ticketTypeId then 1 else 0 := by
  unfold Ticket.counts
  by_cases hid : id = t.ticketTypeId
  · simp [h, hid]
  · simp [h, hid, Ne.symm hid]

theorem Ticket.counts_of_cancelled {t : Ticket} (h : t.status = .cancelled) : t.counts id = 0 := by
  simp [Ticket.counts, h]

theorem NewTickets.counts {orderId : Id} {o : Order} {rows : List (Id × Ticket)}
    (h : NewTickets d orderId o rows) :
    (rows.map fun r => r.2.counts id).sum = if id = o.ticketTypeId then o.quantity else 0 := by
  have : rows.map (fun r => r.2.counts id) =
      List.replicate rows.length (if id = o.ticketTypeId then (1 : Int) else 0) := by
    refine List.eq_replicate_iff.2 ⟨by simp, fun x hx => ?_⟩
    obtain ⟨r, hr, rfl⟩ := List.mem_map.1 hx
    obtain ⟨-, hty, hs, -⟩ := h.of_mem hr
    rw [Ticket.counts_of_issued hs, hty]
  rw [this, List.sum_replicate, ← h.length]
  split_ifs <;> simp

end Counts

section Balance

/-- The counters of every ticket type move as its orders and its tickets do. -/
def Balanced (d d' : Db) : Prop :=
  ∀ id t', d'.ticketTypes.lookup id = some t' → ∃ t, d.ticketTypes.lookup id = some t ∧
    t'.quantityReserved - t.quantityReserved =
      d'.orders.total (Order.holds id) - d.orders.total (Order.holds id) ∧
    t'.quantitySold - t.quantitySold =
      d'.tickets.total (Ticket.counts id) - d.tickets.total (Ticket.counts id) ∧
    (t.InStock → t'.InStock)

theorem Balanced.conserved (h : Balanced d d') (hd : d.Conserved) : d'.Conserved := by
  intro id t' ht'
  obtain ⟨t, ht, hr, hs, hok⟩ := h id t' ht'
  obtain ⟨hr₀, hs₀, hok₀⟩ := hd id t ht
  rw [pendingQuantity_eq] at hr₀
  rw [standingTickets_eq] at hs₀
  refine ⟨?_, ?_, hok hok₀⟩
  · rw [pendingQuantity_eq]
    omega
  · rw [standingTickets_eq]
    omega

theorem Balanced.same (htypes : d'.ticketTypes = d.ticketTypes)
    (horders : ∀ id, d'.orders.total (Order.holds id) = d.orders.total (Order.holds id))
    (htickets : ∀ id, d'.tickets.total (Ticket.counts id) = d.tickets.total (Ticket.counts id)) :
    Balanced d d' := by
  intro id t ht
  rw [htypes] at ht
  exact ⟨t, ht, by rw [horders, sub_self, sub_self], by rw [htickets, sub_self, sub_self], fun h => h⟩

/-- One ticket type's counters move. -/
theorem Balanced.one {t t' : TicketType} (htypes : d'.ticketTypes = d.ticketTypes.insert id t')
    (ht : d.ticketTypes.lookup id = some t)
    (horders : ∀ id', d'.orders.total (Order.holds id') = d.orders.total (Order.holds id') +
      if id' = id then t'.quantityReserved - t.quantityReserved else 0)
    (htickets : ∀ id', d'.tickets.total (Ticket.counts id') = d.tickets.total (Ticket.counts id') +
      if id' = id then t'.quantitySold - t.quantitySold else 0)
    (hok : t.InStock → t'.InStock) : Balanced d d' := by
  intro id' t₁ ht₁
  rw [htypes, Table.lookup_insert_eq] at ht₁
  have ho := horders id'
  have htk := htickets id'
  split_ifs at ht₁ ho htk with hid
  · subst hid
    obtain rfl := Option.some.inj ht₁
    exact ⟨t, ht, by omega, by omega, hok⟩
  · exact ⟨t₁, ht₁, by omega, by omega, fun h => h⟩

theorem total_order_new {o : Order} (h : d.orders.lookup id = none) (id' : Id) :
    Table.total (Order.holds id') (d.orders.insert id o) =
      d.orders.total (Order.holds id') + o.holds id' := by
  rw [Table.total_insert_new _ h, add_comm]

theorem total_order_update {o : Order} (h : d.orders.lookup id = some o) (o' : Order) (id' : Id) :
    Table.total (Order.holds id') (d.orders.insert id o') =
      d.orders.total (Order.holds id') + (o'.holds id' - o.holds id') := by
  have := Table.total_update (Order.holds id') h o'
  omega

theorem total_ticket_update {t : Ticket} (h : d.tickets.lookup id = some t) (t' : Ticket)
    (id' : Id) : Table.total (Ticket.counts id') (d.tickets.insert id t') =
      d.tickets.total (Ticket.counts id') + (t'.counts id' - t.counts id') := by
  have := Table.total_update (Ticket.counts id') h t'
  omega

theorem NewTickets.total {orderId : Id} {o : Order} {rows : List (Id × Ticket)}
    (h : NewTickets d orderId o rows) (id : Id) :
    Table.total (Ticket.counts id) (.insertAll rows d.tickets) =
      d.tickets.total (Ticket.counts id) + if id = o.ticketTypeId then o.quantity else 0 := by
  rw [Table.total_insertAll_new _ h.nodup fun r hr => (h.fresh hr).1, ← h.counts]
  exact add_comm _ _

theorem Standing.total {undone : List Undone} (h : Standing d undone) (id : Id) :
    Table.total (Ticket.counts id) (.insertAll (undoneRows undone) d.tickets) =
      d.tickets.total (Ticket.counts id) := by
  refine Table.total_insertAll_same _ (undoneRows_keys undone ▸ h.nodup) fun e he => ?_
  obtain ⟨u, hu, rfl⟩ := List.mem_map.1 he
  exact ⟨u.row, h.row u hu, rfl⟩

theorem TicketType.inStock_of_broken {t : TicketType} (h : t.broken = none) : t.InStock := by
  unfold TicketType.broken TicketType.available at h
  split_ifs at h
  exact ⟨by omega, by omega, by omega⟩

theorem TicketType.InStock.reserve {t : TicketType} {q : Int} (h : t.InStock) (hq : 0 ≤ q)
    (ha : q ≤ t.available) : (t.reserve q).InStock := by
  obtain ⟨hs, hr, ht⟩ := h
  unfold TicketType.available at ha
  exact ⟨hs, by simp only [TicketType.reserve]; omega, by simp only [TicketType.reserve]; omega⟩

theorem TicketType.InStock.release {t : TicketType} {q : Int} (h : t.InStock) (hq : 0 ≤ q)
    (hr : q ≤ t.quantityReserved) : (t.release q).InStock := by
  obtain ⟨hs, -, ht⟩ := h
  exact ⟨hs, by simp only [TicketType.release]; omega, by simp only [TicketType.release]; omega⟩

theorem TicketType.InStock.convertToSold {t : TicketType} {q : Int} (h : t.InStock) (hq : 0 ≤ q)
    (hr : q ≤ t.quantityReserved) : (t.convertToSold q).InStock := by
  obtain ⟨hs, -, ht⟩ := h
  exact ⟨by simp only [TicketType.convertToSold]; omega,
    by simp only [TicketType.convertToSold]; omega, by simp only [TicketType.convertToSold]; omega⟩

theorem TicketType.InStock.releaseSold {t : TicketType} {q : Int} (h : t.InStock) (hq : 0 ≤ q)
    (hs : q ≤ t.quantitySold) : (t.releaseSold q).InStock := by
  obtain ⟨-, hr, ht⟩ := h
  exact ⟨by simp only [TicketType.releaseSold]; omega, hr,
    by simp only [TicketType.releaseSold]; omega⟩

theorem Order.quantity_pos {o : Order} (h : o.broken = none) : 0 < o.quantity := by
  unfold Order.broken at h
  split_ifs at h with h₁
  simp only [Bool.or_eq_true, decide_eq_true_eq, not_or] at h₁
  omega

theorem Effect.balanced (h : Effect K d ws undone) : Balanced d (writeAll ws d) := by
  cases h with
  | nothing | tick | log | revoke => exact .same rfl (fun _ => rfl) fun _ => rfl
  | letIn admission =>
    exact .same rfl (fun _ => rfl) fun _ => Table.total_update_same _ admission.row rfl
  | rename row => exact .same rfl (fun _ => rfl) fun _ => Table.total_update_same _ row rfl
  | undo row => exact .same rfl (fun _ => rfl) fun _ => Table.total_update_same _ row rfl
  | undoAll standing =>
    rw [writeAll_undoWrites]
    exact .same rfl (fun _ => rfl) standing.total
  | revokeAndUndo _ _ _ standing =>
    rw [writeAll_cons, writeAll_undoWrites]
    exact .same rfl (fun _ => rfl) standing.total
  | edit row ok _ sold reserved =>
    exact .one rfl row (by simp [Write.apply, reserved]) (by simp [Write.apply, sold])
      fun _ => TicketType.inStock_of_broken ok
  | @hold _ o t _ _ fresh _ type available ok status =>
    have hq := Order.quantity_pos ok
    refine .one rfl type (fun id' => ?_) (by simp [Write.apply, TicketType.reserve])
      fun h => h.reserve hq.le available
    refine (total_order_new fresh id').trans ?_
    rw [Order.holds_of_pending (by simp [Order.isPending, status])]
    simp [TicketType.reserve]
  | @submit _ o _ patch row status =>
    have hpending : o.isPending = true := by simpa [Order.isPending] using status
    simp only [Txn.writeAll_append, writeAll_cons, writeAll_trxWrites, writeAll_nil]
    refine .same rfl (fun id' => ?_) fun _ => rfl
    refine (total_order_update row (patch.apply .pendingVerification o) id').trans ?_
    rw [Order.holds_of_pending hpending, Order.holds_of_pending (by simp [Order.isPending])]
    simp
  | @release _ o t _ patch toStatus row status _ type held quantity =>
    have hpending : o.isPending = true := by
      rcases status with ⟨h, -⟩ | ⟨h, -⟩ <;> simp [Order.isPending, h]
    have hover : (patch.apply toStatus o).isPending = false := by
      rcases status with ⟨-, h⟩ | ⟨-, h⟩ <;> simp [Order.isPending, h]
    refine .one rfl type (fun id' => ?_) (by simp [Write.apply, TicketType.release])
      fun h => h.release quantity.le held
    refine (total_order_update row _ id').trans ?_
    rw [Order.holds_of_pending hpending, Order.holds_eq_zero hover]
    split_ifs <;> simp [TicketType.release]
  | @approve _ o t rows _ _ row status _ type held quantity tickets =>
    simp only [Txn.writeAll_append, writeAll_insertWrites, writeAll_cons, writeAll_nil, Write.apply,
      AList.insert_insert]
    refine .one rfl type (fun id' => ?_) (fun id' => ?_) fun h => h.convertToSold quantity.le held
    · have hpending : o.isPending = true := by simp [Order.isPending, status]
      refine (total_order_update row _ id').trans ?_
      rw [Order.holds_of_pending hpending, Order.holds_eq_zero (o := { o with status := .issued }) rfl]
      split_ifs <;> simp [TicketType.convertToSold]
    · refine (tickets.total id').trans ?_
      simp [TicketType.convertToSold]
  | @comp _ o t rows _ fresh _ type available quantity status _ _ tickets =>
    simp only [Txn.writeAll_append, writeAll_insertWrites, writeAll_cons, writeAll_nil, Write.apply,
      AList.insert_insert]
    refine .one rfl type (fun id' => ?_) (fun id' => ?_) fun h =>
      (h.reserve quantity.le available).convertToSold quantity.le
        (by have := h.reserved; simp only [TicketType.reserve]; omega)
    · refine (total_order_new fresh id').trans ?_
      rw [Order.holds_eq_zero (by simp [Order.isPending, status])]
      simp [TicketType.convertToSold, TicketType.reserve]
    · refine (tickets.total id').trans ?_
      simp [TicketType.convertToSold, TicketType.reserve]
  | @cancelTicket id' t ty _ last row status _ type sold _ _ _ _ order =>
    have hone : ∀ d' : Db, d'.ticketTypes = d.ticketTypes.insert t.ticketTypeId (ty.releaseSold 1) →
        d'.tickets = d.tickets.insert id' { t with status := .cancelled } →
        (∀ id, d'.orders.total (Order.holds id) = d.orders.total (Order.holds id)) →
        Balanced d d' := by
      intro d' htypes htickets horders
      refine .one htypes type (fun id => ?_) (fun id => ?_) fun h => h.releaseSold (by omega) sold
      · simp [horders, TicketType.releaseSold]
      · rw [htickets, total_ticket_update row, Ticket.counts_of_issued status,
          Ticket.counts_of_cancelled (t := { t with status := .cancelled }) rfl]
        split_ifs <;> simp [TicketType.releaseSold]
    cases last with
    | none => exact hone _ rfl rfl fun _ => rfl
    | some l =>
      obtain ⟨hl, hs, -⟩ := order l rfl
      refine hone _ rfl rfl fun id => Table.total_update_same _ hl ?_
      rw [Order.holds_eq_zero rfl, Order.holds_eq_zero (by simp [Order.isPending, hs])]

theorem Effect.conserved (h : Effect K d ws undone) (hd : d.Conserved) : (writeAll ws d).Conserved :=
  h.balanced.conserved hd

end Balance

section Runs

/-- What the tables say of one another: the counters of the orders and the tickets, the check-ins
of the scan log. -/
structure Db.Consistent (d : Db) : Prop where
  conserved : d.Conserved
  logged : Logged d

/-- Whatever commits in whatever order, no counter is off and no type is oversold. -/
theorem inventory_conserved (hd : d.Consistent) (sched : List Action) :
    (run d sched).db.Conserved :=
  (shop_history hd.logged sched).preserves (I := Db.Conserved)
    (fun _ _ _ _ _ ⟨_, _, he, h, _⟩ hd => h ▸ he.conserved hd) hd.conserved

theorem openingNight_consistent : openingNight.Consistent where
  conserved id t ht := by
    obtain ⟨rfl, rfl⟩ := Table.lookup_singleton.1 ht
    exact ⟨by decide, by decide, by decide, by decide, by decide⟩
  logged id c hc := by
    obtain ⟨t, ht, hc⟩ := Db.checkIn_eq_some.1 hc
    obtain ⟨-, rfl⟩ := Table.lookup_singleton.1 ht
    cases hc

/-- The last place is held for Tara. -/
def lastPlaceHeld (pid n : Nat) (reference : String) : List Action :=
  alone pid (.createOrder
    { eventSlug := "gala", ticketTypeId := 1, quantity := 1, buyerName := "Tara"
      buyerEmail := "tara@example.com", buyerPhone := "01700000003", attendeeNames := ["Tara"]
      promoCode := none }
    fun _ => ⟨n, reference⟩) 40

/-- The hold lapses and is swept. -/
def lastPlaceFreed : List Action :=
  lastPlaceHeld 0 4 "EA-4" ++ alone 1 (.tick (3 * hourMs)) 20 ++ alone 2 .expireLapsedHolds 40

/-- She asks again, pays in time and is approved. -/
def lastPlaceSold : List Action :=
  lastPlaceFreed ++ lastPlaceHeld 3 5 "EA-5" ++
  alone 4 (.submitPayment 5 ⟨"TRX5", "01700000003"⟩) 20 ++
  alone 5 (.approveOrder 5 ⟨"admin", "TRX5"⟩ fun _ => ⟨[6], ["TKT-7K2MW9RD"]⟩) 40

/-- The places of the one type that are held and that are sold. -/
def Db.heldAndSold (d : Db) : Option (Int × Int) :=
  (d.ticketTypes.lookup 1).map fun t => (t.quantityReserved, t.quantitySold)

theorem inventory_conserved_openingNight :
    (run openingNight (lastPlaceHeld 0 4 "EA-4")).db.heldAndSold = some (1, 1) ∧
    (run openingNight lastPlaceFreed).db.heldAndSold = some (0, 1) ∧
    (run openingNight lastPlaceSold).db.heldAndSold = some (0, 2) ∧
    (run openingNight lastPlaceSold).db.Conserved :=
  ⟨by decide +kernel, by decide +kernel, by decide +kernel,
    inventory_conserved openingNight_consistent lastPlaceSold⟩

end Runs

end EchoAndAura
