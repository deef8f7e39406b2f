import EchoAndAura.Proofs.Admissions
import EchoAndAura.Proofs.OrderLog
import EchoAndAura.Proofs.Ledger

/-!
# The tickets of an order

An order that was issued has one ticket a position, from 1 to its quantity, for good
(`TicketSet`); it is cancelled by the cancellation of the last of them that stood
(`tickets_of_order`).
-/

namespace EchoAndAura

open Txn (Lock writeAll)

variable {K : List (Lock Row)} {d d' : Db} {ws : List Write} {undone : List (Id × CheckIn)}

section Stub

/-- What nobody ever changes on a ticket. -/
structure Stub where
  ticketTypeId : Id
  eventId : Id
  code : String
  position : Int
  deriving DecidableEq, Repr

def Ticket.stub (t : Ticket) : Stub := ⟨t.ticketTypeId, t.eventId, t.code, t.position⟩

/-- The stub of a ticket, if it is one of this order. -/
def Db.stub (d : Db) (orderId id : Id) : Option Stub :=
  (d.tickets.lookup id).bind fun t => if t.orderId = orderId then some t.stub else none

theorem Db.stub_of_lookup {orderId id : Id} {t : Ticket} (h : d.tickets.lookup id = some t) :
    d.stub orderId id = if t.orderId = orderId then some t.stub else none := by
  rw [Db.stub, h, Option.bind_some]

theorem Db.stub_face (d : Db) (orderId id : Id) :
    d.stub orderId id = (d.face id).bind fun t => if t.orderId = orderId then some t.stub else none := by
  unfold Db.stub Db.face
  cases d.tickets.lookup id <;> rfl

theorem stub_of_face (h : ∀ id, d'.face id = d.face id) (orderId id : Id) :
    d'.stub orderId id = d.stub orderId id := by
  rw [d'.stub_face, d.stub_face, h]

theorem issuedOf_of_face (h : ∀ id, d'.face id = d.face id) (orderId id : Id) :
    d'.IssuedOf orderId id ↔ d.IssuedOf orderId id := by
  refine issuedOf_congr ?_
  have hface : ∀ d : Db, (d.tickets.lookup id).map (fun t => (t.orderId, t.status)) =
      (d.face id).map fun t => (t.orderId, t.status) := by
    intro d
    unfold Db.face
    cases d.tickets.lookup id <;> rfl
  rw [hface, hface, h]

theorem stub_cancel {orderId id id' : Id} {t : Ticket} (ht : d.tickets.lookup id = some t)
    (h : d'.tickets = d.tickets.insert id { t with status := .cancelled }) :
    d'.stub orderId id' = d.stub orderId id' := by
  unfold Db.stub
  rw [h, Table.lookup_insert_eq]
  split_ifs with heq
  · subst heq
    rw [ht]
    rfl
  · rfl

variable {orderId orderId' : Id} {o : Order} {rows : List (Id × Ticket)}

theorem NewTickets.stub_other (h : NewTickets d orderId o rows)
    (ht : d'.tickets = .insertAll rows d.tickets) (hne : orderId' ≠ orderId) (id : Id) :
    d'.stub orderId' id = d.stub orderId' id := by
  unfold Db.stub
  by_cases hm : id ∈ rows.map (·.1)
  · obtain ⟨r, hr, rfl⟩ := List.mem_map.1 hm
    rw [ht, Table.lookup_insertAll_of_mem _ h.nodup hr, (h.fresh hr).1]
    simp [(h.of_mem hr).1, Ne.symm hne]
  · rw [ht, Table.lookup_insertAll_of_notMem _ hm]

end Stub

section Sets

/-- `ids` are the tickets of the order, in the order of their positions. -/
structure TicketSet (d : Db) (orderId : Id) (o : Order) (ids : List Id) : Prop where
  nodup : ids.Nodup
  length : (ids.length : Int) = o.quantity
  all : ∀ id s, d.stub orderId id = some s → id ∈ ids
  stub : ∀ (i : Nat) id, ids[i]? = some id → ∃ code,
    d.stub orderId id = some ⟨o.ticketTypeId, o.eventId, code, i + 1⟩
  codes : ∀ id id' s s', d.stub orderId id = some s → d.stub orderId id' = some s' →
    s.code = s'.code → id = id'

/-- The tickets carry the names of the order's attendees, in that order. -/
def TicketSet.Named (d : Db) (o : Order) (ids : List Id) : Prop :=
  List.Forall₂ (fun id name => ∃ t, d.tickets.lookup id = some t ∧ t.attendeeName = name)
    ids o.attendeeNames

theorem TicketSet.congr {orderId : Id} {o o' : Order} {ids : List Id} (h : TicketSet d orderId o ids)
    (hd : ∀ id, d'.stub orderId id = d.stub orderId id) (hq : o'.quantity = o.quantity)
    (ht : o'.ticketTypeId = o.ticketTypeId) (he : o'.eventId = o.eventId) :
    TicketSet d' orderId o' ids where
  nodup := h.nodup
  length := hq ▸ h.length
  all id s hs := h.all id s (hd id ▸ hs)
  stub i id hi := by
    rw [hd, ht, he]
    exact h.stub i id hi
  codes id id' s s' hs hs' := h.codes id id' s s' (hd id ▸ hs) (hd id' ▸ hs')

variable {orderId : Id} {o : Order} {rows : List (Id × Ticket)}

theorem NewTickets.status (h : NewTickets d orderId o rows) (st : OrderStatus) :
    NewTickets d orderId { o with status := st } rows := by
  obtain ⟨draw, hdraw⟩ := h.drawn
  exact ⟨⟨draw, hdraw⟩, h.names, h.free⟩

theorem NewTickets.row (h : NewTickets d orderId o rows) {i : Nat} {r : Id × Ticket}
    (hr : rows[i]? = some r) : r.2.orderId = orderId ∧
      r.2.stub = ⟨o.ticketTypeId, o.eventId, r.2.code, i + 1⟩ ∧
      o.attendeeNames[i]? = some r.2.attendeeName := by
  obtain ⟨draw, rfl⟩ := h.drawn
  rw [fulfilmentService.newTickets, List.getElem?_mapIdx, Option.map_eq_some_iff] at hr
  obtain ⟨name, hname, rfl⟩ := hr
  exact ⟨rfl, rfl, hname⟩

theorem NewTickets.lookup (h : NewTickets d orderId o rows)
    (ht : d'.tickets = .insertAll rows d.tickets) {r : Id × Ticket} (hr : r ∈ rows) :
    d'.tickets.lookup r.1 = some r.2 := by
  rw [ht]
  exact Table.lookup_insertAll_of_mem _ h.nodup hr

/-- The tickets an order is issued with, when it had none. -/
theorem NewTickets.set (h : NewTickets d orderId o rows) (ht : d'.tickets = .insertAll rows d.tickets)
    (hnone : ∀ id, d.stub orderId id = none) : TicketSet d' orderId o (rows.map (·.1)) := by
  have hstub : ∀ r ∈ rows, d'.stub orderId r.1 = some r.2.stub := by
    intro r hr
    rw [Db.stub_of_lookup (h.lookup ht hr), if_pos (h.of_mem hr).1]
  have hmem : ∀ id s, d'.stub orderId id = some s → ∃ r ∈ rows, r.1 = id ∧ r.2.stub = s := by
    intro id s hs
    by_cases hm : id ∈ rows.map (·.1)
    · obtain ⟨r, hr, rfl⟩ := List.mem_map.1 hm
      exact ⟨r, hr, rfl, Option.some.inj ((hstub r hr).symm.trans hs)⟩
    · have : d'.stub orderId id = d.stub orderId id := by
        rw [Db.stub, ht, Table.lookup_insertAll_of_notMem _ hm]
        rfl
      rw [this, hnone] at hs
      cases hs
  refine ⟨h.nodup, by rw [List.length_map, h.length], fun id s hs => ?_, fun i id hi => ?_,
    fun id id' s s' hs hs' hcode => ?_⟩
  · obtain ⟨r, hr, rfl, -⟩ := hmem id s hs
    exact List.mem_map.2 ⟨r, hr, rfl⟩
  · rw [List.getElem?_map, Option.map_eq_some_iff] at hi
    obtain ⟨r, hr, rfl⟩ := hi
    exact ⟨r.2.code, by rw [hstub r (List.mem_of_getElem? hr), (h.row hr).2.1]⟩
  · obtain ⟨r, hr, rfl, rfl⟩ := hmem id s hs
    obtain ⟨r', hr', rfl, rfl⟩ := hmem id' s' hs'
    exact congrArg Prod.fst (List.inj_on_of_nodup_map h.nodup_codes hr hr' hcode)

theorem NewTickets.named (h : NewTickets d orderId o rows)
    (ht : d'.tickets = .insertAll rows d.tickets) : TicketSet.Named d' o (rows.map (·.1)) := by
  have hlen : rows.length = o.attendeeNames.length := by
    have := h.length
    have := h.names
    omega
  refine List.forall₂_iff_get.2 ⟨by rw [List.length_map, hlen], fun i hi hi' => ?_⟩
  rw [List.length_map] at hi
  have hr : rows[i]? = some rows[i] := List.getElem?_eq_getElem hi
  refine ⟨rows[i].2, ?_, ?_⟩
  · rw [List.get_eq_getElem, List.getElem_map]
    exact h.lookup ht (List.mem_of_getElem? hr)
  · have := (h.row hr).2.2
    rw [List.getElem?_eq_getElem hi'] at this
    simpa using (Option.some.inj this).symm

theorem NewTickets.issued (h : NewTickets d orderId o rows)
    (ht : d'.tickets = .insertAll rows d.tickets) (hq : 0 < o.quantity) :
    ∃ id, d'.IssuedOf orderId id := by
  have hlen := h.length
  rcases rows with _ | ⟨r, rows⟩
  · simp only [List.length_nil] at hlen
    omega
  · exact ⟨r.1, r.2, h.lookup ht (by simp), (h.of_mem (by simp)).1, (h.of_mem (by simp)).2.2.1⟩

end Sets

section Law

/-- What orders and their tickets say of one another. -/
structure Db.Ticketed (d : Db) : Prop where
  set : ∀ id o, d.orders.lookup id = some o → o.WasIssued → ∃ ids, TicketSet d id o ids
  none : ∀ id, (∀ o, d.orders.lookup id = some o → ¬o.WasIssued) → ∀ tid, d.stub id tid = none
  cancelled : ∀ id o, d.orders.lookup id = some o → o.WasIssued →
    (o.status = .cancelled ↔ ∀ tid, ¬d.IssuedOf id tid)

/-- Orders that are issued stay as they are, and so do the tickets of all. -/
theorem Db.Ticketed.congr (h : d.Ticketed)
    (ho : ∀ id o, o.WasIssued → (d'.orders.lookup id = some o ↔ d.orders.lookup id = some o))
    (hf : ∀ id, d'.face id = d.face id) : d'.Ticketed where
  set id o hid hs := by
    obtain ⟨ids, hset⟩ := h.set id o ((ho id o hs).1 hid) hs
    exact ⟨ids, hset.congr (stub_of_face hf id) rfl rfl rfl⟩
  none id hn tid := by
    rw [stub_of_face hf]
    exact h.none id (fun o hid hs => hn o ((ho id o hs).2 hid) hs) tid
  cancelled id o hid hs := by
    rw [h.cancelled id o ((ho id o hs).1 hid) hs]
    exact forall_congr' fun tid => not_congr (issuedOf_of_face hf id tid).symm

/-- An order that is issued for the first time, with its tickets. -/
theorem Db.Ticketed.issue (h : d.Ticketed) {id : Id} {o : Order} {rows : List (Id × Ticket)}
    (hnot : ∀ o₀, d.orders.lookup id = some o₀ → ¬o₀.WasIssued) (hs : o.status = .issued)
    (hq : 0 < o.quantity) (new : NewTickets d id o rows)
    (horders : d'.orders = d.orders.insert id o) (ht : d'.tickets = .insertAll rows d.tickets) :
    d'.Ticketed := by
  have hother : ∀ id', id' ≠ id → d'.orders.lookup id' = d.orders.lookup id' := by
    intro id' hne
    rw [horders, AList.lookup_insert_ne hne]
  have hself : d'.orders.lookup id = some o := by rw [horders, AList.lookup_insert]
  refine ⟨fun id' o' ho' hw => ?_, fun id' hn tid => ?_, fun id' o' ho' hw => ?_⟩
  · by_cases hid : id' = id
    · subst hid
      obtain rfl := Option.some.inj (hself.symm.trans ho')
      exact ⟨_, new.set ht (h.none _ hnot)⟩
    · obtain ⟨ids, hset⟩ := h.set id' o' ((hother id' hid).symm.trans ho') hw
      exact ⟨ids, hset.congr (new.stub_other ht hid) rfl rfl rfl⟩
  · by_cases hid : id' = id
    · subst hid
      exact absurd (.inl hs) (hn o hself)
    · rw [new.stub_other ht hid]
      exact h.none id' (fun o' ho' => hn o' ((hother id' hid).trans ho')) tid
  · by_cases hid : id' = id
    · subst hid
      obtain rfl := Option.some.inj (hself.symm.trans ho')
      obtain ⟨tid, htid⟩ := new.issued ht hq
      rw [hs]
      exact ⟨nofun, fun hall => absurd htid (hall tid)⟩
    · rw [h.cancelled id' o' ((hother id' hid).symm.trans ho') hw]
      exact forall_congr' fun tid => not_congr (new.issuedOf ht hid).symm

/-- A ticket cancelled, and its order with the last one. -/
theorem Db.Ticketed.cancel (h : d.Ticketed) {id : Id} {t : Ticket} {o : Order} {last : Bool}
    (row : d.tickets.lookup id = some t) (order : d.orders.lookup t.orderId = some o)
    (issued : o.status = .issued)
    (live : last = false ↔ ∃ id' ≠ id, d.IssuedOf t.orderId id')
    (orders : d'.orders = if last then d.orders.insert t.orderId { o with status := .cancelled }
      else d.orders)
    (tickets : d'.tickets = d.tickets.insert id { t with status := .cancelled }) : d'.Ticketed := by
  have hother : ∀ id', id' ≠ t.orderId → d'.orders.lookup id' = d.orders.lookup id' := by
    intro id' hne
    rw [orders]
    split_ifs
    · exact AList.lookup_insert_ne hne
    · rfl
  have hself : d'.orders.lookup t.orderId =
      some (if last then { o with status := .cancelled } else o) := by
    rw [orders]
    split_ifs
    · exact AList.lookup_insert _
    · exact order
  have hstub : ∀ id' tid, d'.stub id' tid = d.stub id' tid := fun id' tid => stub_cancel row tickets
  have hlive : (∀ tid, ¬d'.IssuedOf t.orderId tid) ↔ last = true := by
    rw [← Bool.not_eq_false, live]
    simp only [issuedOf_cancel tickets, not_and, not_exists]
  refine ⟨fun id' o' ho' hw => ?_, fun id' hn tid => ?_, fun id' o' ho' hw => ?_⟩
  · by_cases hid : id' = t.orderId
    · subst hid
      obtain rfl := Option.some.inj (hself.symm.trans ho')
      obtain ⟨ids, hset⟩ := h.set _ o order (.inl issued)
      refine ⟨ids, hset.congr (hstub _) ?_ ?_ ?_⟩
      all_goals split_ifs <;> rfl
    · obtain ⟨ids, hset⟩ := h.set id' o' ((hother id' hid).symm.trans ho') hw
      exact ⟨ids, hset.congr (hstub _) rfl rfl rfl⟩
  · rw [hstub]
    refine h.none id' (fun o' ho' hw => ?_) tid
    by_cases hid : id' = t.orderId
    · subst hid
      refine hn _ hself ?_
      split_ifs
      · exact .inr rfl
      · exact .inl issued
    · exact hn o' ((hother id' hid).trans ho') hw
  · by_cases hid : id' = t.orderId
    · subst hid
      obtain rfl := Option.some.inj (hself.symm.trans ho')
      rw [hlive]
      cases last <;> simp [issued]
    · rw [h.cancelled id' o' ((hother id' hid).symm.trans ho') hw]
      refine forall_congr' fun tid => not_congr ?_
      rw [issuedOf_cancel tickets]
      refine ⟨fun hi => ⟨?_, hi⟩, fun hi => hi.2⟩
      rintro rfl
      obtain ⟨t', ht', horder, -⟩ := hi
      obtain rfl := Option.some.inj (row.symm.trans ht')
      exact hid horder.symm

theorem lookup_insert_unissued {id : Id} {o₁ : Order}
    (h₀ : ∀ o, d.orders.lookup id = some o → ¬o.WasIssued) (h₁ : ¬o₁.WasIssued)
    (h : d'.orders = d.orders.insert id o₁) (id' : Id) (o : Order) (ho : o.WasIssued) :
    d'.orders.lookup id' = some o ↔ d.orders.lookup id' = some o := by
  rw [h, Table.lookup_insert_eq]
  split_ifs with heq
  · subst heq
    constructor
    · rintro h
      exact absurd ho (Option.some.inj h ▸ h₁)
    · exact fun h => absurd ho (h₀ o h)
  · rfl

theorem SaleStep.ticketed (h : SaleStep K d d') (hd : d.Ticketed) : d'.Ticketed := by
  have only : ∀ {id : Id} {o : Order}, d.orders.lookup id = some o → ¬o.WasIssued →
      ∀ o₀, d.orders.lookup id = some o₀ → ¬o₀.WasIssued := by
    intro id o ho hw o₀ h₀
    obtain rfl := Option.some.inj (ho.symm.trans h₀)
    exact hw
  have fresh : ∀ {id : Id}, d.orders.lookup id = none →
      ∀ o₀, d.orders.lookup id = some o₀ → ¬o₀.WasIssued := by
    intro id h o₀ h₀
    rw [h] at h₀
    cases h₀
  cases h with
  | aside orders _ faces => exact hd.congr (fun _ _ _ => by rw [orders]) faces
  | held new status _ _ _ orders _ tickets =>
    exact hd.congr (lookup_insert_unissued (fresh new) (by simp [Order.WasIssued, status]) orders)
      (face_eq tickets)
  | submitted row status _ orders _ tickets =>
    refine hd.congr (lookup_insert_unissued (only row ?_) (by simp [Order.WasIssued]) orders)
      (face_eq tickets)
    rcases status with hs | hs <;> simp [Order.WasIssued, hs]
  | released row status _ orders _ tickets =>
    refine hd.congr (lookup_insert_unissued (only row ?_) ?_ orders) (face_eq tickets)
    all_goals rcases status with ⟨hs, ht⟩ | ⟨hs, ht⟩ <;> simp [Order.WasIssued, hs, ht]
  | @approved id o rows row status quantity new orders _ tickets =>
    exact @Db.Ticketed.issue _ _ hd id { o with status := .issued } rows
      (only row (by simp [Order.WasIssued, status])) rfl quantity (new.status .issued) orders tickets
  | comped new status _ _ quantity rows orders _ tickets =>
    exact hd.issue (fresh new) status quantity rows orders tickets
  | cancelled row _ order issued live orders _ tickets =>
    exact hd.cancel row order issued live orders tickets

end Law

section Runs

/-- What an order's row and its tickets say of one another. -/
structure Order.HasTickets (o : Order) (id : Id) (d : Db) : Prop where
  set : o.WasIssued → ∃ ids, TicketSet d id o ids
  none : ¬o.WasIssued → ∀ tid t, d.tickets.lookup tid = some t → t.orderId ≠ id
  live : o.status = .issued → ∃ tid, d.IssuedOf id tid
  cancelled : o.WasIssued → (o.status = .cancelled ↔
    ∀ tid t, d.tickets.lookup tid = some t → t.orderId = id → t.status = .cancelled)

theorem not_issuedOf {id tid : Id} : ¬d.IssuedOf id tid ↔
    ∀ t, d.tickets.lookup tid = some t → t.orderId = id → t.status = .cancelled := by
  simp only [Db.IssuedOf, not_exists, not_and]
  refine forall_congr' fun t => forall_congr' fun _ => forall_congr' fun _ => ?_
  cases t.status <;> simp

theorem Db.Ticketed.hasTickets (h : d.Ticketed) {id : Id} {o : Order}
    (ho : d.orders.lookup id = some o) : o.HasTickets id d where
  set hw := h.set id o ho hw
  none hw tid t ht hid := by
    have := h.none id (fun o' ho' => Option.some.inj (ho.symm.trans ho') ▸ hw) tid
    rw [Db.stub_of_lookup ht, if_pos hid] at this
    cases this
  live hs := by
    by_contra hno
    have := (h.cancelled id o ho (.inl hs)).2 (not_exists.1 hno)
    rw [hs] at this
    cases this
  cancelled hw := by
    rw [h.cancelled id o ho hw]
    exact forall_congr' fun _ => not_issuedOf

/-- A cancelled ticket is not in. -/
def Db.CancelledOut (d : Db) : Prop :=
  ∀ id t, d.tickets.lookup id = some t → t.status = .cancelled → t.checkIn = none

theorem Good.cancelledOut {q : Request} {τ : List Obs} (h : Good q τ (.commit K d d'))
    (hd : d.CancelledOut) : d'.CancelledOut := by
  obtain ⟨ws, undone, he, rfl, -⟩ := h
  exact fun id t ht hs => (he.ticket id).cancelled_out ht hs (hd id)

/-- Where a commit issues an order, it issues it with its tickets, a name to each. -/
def IssuesNamed (d d' : Db) : Prop :=
  ∀ id o, d'.orders.lookup id = some o → o.WasIssued →
    (∀ o₀, d.orders.lookup id = some o₀ → ¬o₀.WasIssued) →
      o.status = .issued ∧ ∃ ids, TicketSet d' id o ids ∧ TicketSet.Named d' o ids

/-- Where a commit cancels an order, it cancels the one ticket of it that stood. -/
def CancelsLast (d d' : Db) : Prop :=
  ∀ id o o', d.orders.lookup id = some o → d'.orders.lookup id = some o' →
    o.status ≠ .cancelled → o'.status = .cancelled →
      (∃ tid, ∀ tid', d.IssuedOf id tid' ↔ tid' = tid) ∧ ∀ tid, ¬d'.IssuedOf id tid

theorem SaleStep.issuesNamed (h : SaleStep K d d') (hd : d.Ticketed) : IssuesNamed d d' := by
  intro id o ho hw hold
  have other : ∀ {id' o₁}, d'.orders = d.orders.insert id' o₁ →
      id = id' ∧ o = o₁ := by
    intro id' o₁ h'
    rw [h', Table.lookup_insert_eq] at ho
    split_ifs at ho with heq
    · exact ⟨heq, (Option.some.inj ho).symm⟩
    · exact absurd hw (hold o ho)
  cases h with
  | aside orders => exact absurd hw (hold o (orders ▸ ho))
  | held _ status _ _ _ orders =>
    obtain ⟨-, rfl⟩ := other orders
    simp [Order.WasIssued, status] at hw
  | submitted _ _ _ orders =>
    obtain ⟨-, rfl⟩ := other orders
    simp [Order.WasIssued] at hw
  | released _ status _ orders =>
    obtain ⟨-, rfl⟩ := other orders
    rcases status with ⟨-, ht⟩ | ⟨-, ht⟩ <;> simp [Order.WasIssued, ht] at hw
  | approved row _ _ new orders _ tickets =>
    obtain ⟨rfl, rfl⟩ := other orders
    exact ⟨rfl, _, (new.status .issued).set tickets (hd.none _ hold),
      (new.status .issued).named tickets⟩
  | comped _ status _ _ _ new orders _ tickets =>
    obtain ⟨rfl, rfl⟩ := other orders
    exact ⟨status, _, new.set tickets (hd.none _ hold), new.named tickets⟩
  | @cancelled _ _ _ last _ _ order issued _ orders =>
    cases last with
    | false =>
      rw [orders, if_neg (by simp)] at ho
      exact absurd hw (hold o ho)
    | true =>
      obtain ⟨rfl, -⟩ := other orders
      exact absurd (.inl issued) (hold _ order)

theorem SaleStep.cancelsLast (h : SaleStep K d d') (hd : d.Ticketed) : CancelsLast d d' := by
  intro id o o' ho ho' hs hs'
  have hd' := h.ticketed hd
  refine ⟨?_, (hd'.cancelled id o' ho' (.inr hs')).1 hs'⟩
  have other : ∀ {id' o₁}, d'.orders = d.orders.insert id' o₁ → id = id' ∧ o' = o₁ := by
    intro id' o₁ h'
    rw [h', Table.lookup_insert_eq] at ho'
    split_ifs at ho' with heq
    · exact ⟨heq, (Option.some.inj ho').symm⟩
    · obtain rfl := Option.some.inj (ho.symm.trans ho')
      exact absurd hs' hs
  cases h with
  | aside orders =>
    obtain rfl := Option.some.inj (ho.symm.trans (orders ▸ ho'))
    exact absurd hs' hs
  | held _ status _ _ _ orders | comped _ status _ _ _ _ orders =>
    obtain ⟨-, rfl⟩ := other orders
    simp [status] at hs'
  | submitted _ _ _ orders | approved _ _ _ _ orders =>
    obtain ⟨-, rfl⟩ := other orders
    simp at hs'
  | released _ status _ orders =>
    obtain ⟨-, rfl⟩ := other orders
    rcases status with ⟨-, ht⟩ | ⟨-, ht⟩ <;> simp [ht] at hs'
  | @cancelled tid t o₁ last row status order issued live orders _ tickets =>
    cases last with
    | false =>
      rw [orders, if_neg (by simp), ho] at ho'
      obtain rfl := Option.some.inj ho'
      exact absurd hs' hs
    | true =>
      obtain ⟨rfl, -⟩ := other orders
      refine ⟨tid, fun tid' => ⟨fun hi => ?_, ?_⟩⟩
      · by_contra hne
        exact absurd (live.2 ⟨tid', hne, hi⟩) (by simp)
      · rintro rfl
        exact ⟨t, row, rfl, status⟩

/-- Whatever interleaves, every order has its tickets, and no cancelled ticket is in. -/
theorem tickets_of_order (hd : Logged d) (ht : d.Ticketed) (ho : d.CancelledOut)
    (sched : List Action) :
    (∀ id o, (run d sched).db.orders.lookup id = some o → o.HasTickets id (run d sched).db) ∧
    (run d sched).db.CancelledOut ∧
    ∀ l₁ l₂ pid q K d₁ d₂, (run d sched).log = l₁ ++ ⟨pid, q, .commit K d₁ d₂⟩ :: l₂ →
      IssuesNamed d₁ d₂ ∧ CancelsLast d₁ d₂ := by
  have hist := shop_history hd sched
  have step : ∀ q τ K d d', Good q τ (.commit K d d') → d.Ticketed → d'.Ticketed :=
    fun _ _ _ _ _ hg => hg.sale.ticketed
  refine ⟨fun id o h => (hist.preserves step ht).hasTickets h,
    hist.preserves (fun _ _ _ _ _ hg => hg.cancelledOut) ho, ?_⟩
  intro l₁ l₂ pid q K d₁ d₂ hl
  obtain ⟨e, ⟨h₁, hg, -⟩, -⟩ := (hl ▸ hist).entry
  have hd₁ := h₁.preserves step ht
  exact ⟨hg.sale.issuesNamed hd₁, hg.sale.cancelsLast hd₁⟩

/-- Two tickets of one order, a rename, and two admins who cancel one each at the same time. -/
def lastTwo : List Action :=
  alone 0 (.issueComplimentaryTickets ⟨1, 1, 2, "Mina", "mina@example.com", "press", "admin"⟩
    fun n => ⟨⟨3 + n, "EA-3"⟩, ⟨[5, 6], ["TKT-4H8ZP2XQ", "TKT-7K2MW9RD"]⟩⟩) 40 ++
  [.start (.cancelTicket 5 ⟨4, "admin", "ill"⟩), .start (.cancelTicket 6 ⟨4, "admin", "ill"⟩)] ++
  alone 3 (.renameAttendee "TKT-7K2MW9RD" "Tara") 40 ++
  (List.replicate 40 [.step 1, .step 2]).flatten

theorem emptyHouse_ticketed : emptyHouse.Ticketed where
  set id o ho := by cases ho
  none id _ tid := rfl
  cancelled id o ho := by cases ho

theorem tickets_of_order_lastTwo :
    ((run emptyHouse lastTwo).db.orders.lookup 4).map (·.status) = some .cancelled ∧
    (∀ id o, (run emptyHouse lastTwo).db.orders.lookup id = some o →
      o.HasTickets id (run emptyHouse lastTwo).db) ∧
    (run emptyHouse lastTwo).db.CancelledOut ∧
    ∀ l₁ l₂ pid q K d₁ d₂,
      (run emptyHouse lastTwo).log = l₁ ++ ⟨pid, q, .commit K d₁ d₂⟩ :: l₂ →
      IssuesNamed d₁ d₂ ∧ CancelsLast d₁ d₂ :=
  ⟨by decide +kernel,
    tickets_of_order emptyHouse_logged emptyHouse_ticketed (fun _ _ ht => nomatch ht) lastTwo⟩

end Runs

end EchoAndAura
