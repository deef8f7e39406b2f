import EchoAndAura.Proofs.Exactness
import EchoAndAura.Trail

/-!
# The order log

The audit rows of an order that carry a status are the path the order has taken.  Each effect logs
the very moves it makes (`Effect.logStep`); the path law of a run follows by induction.
-/

namespace EchoAndAura

open Txn (Lock writeAll)

variable {K : List (Lock Row)} {d d' : Db} {ws : List Write} {undone : List (Id × CheckIn)} {id : Id}

section Log

/-- The move an audit row tells of, if it is a row of this order and carries a status. -/
def OrderEvent.move (id : Id) (e : OrderEvent) : Option (Option OrderStatus × OrderStatus) :=
  if e.orderId = id then e.toStatus.map fun s => (e.fromStatus, s) else none

/-- The moves an order's audit rows tell of, in the order written. -/
def Db.statusLog (d : Db) (id : Id) : List (Option OrderStatus × OrderStatus) :=
  d.orderEvents.filterMap (·.move id)

/-- An order is held for a buyer, or issued as complimentary. -/
def Created (s : OrderStatus) : Prop := s = .pendingPayment ∨ s = .issued

/-- An edge of `ORDER_TRANSITIONS`, or a corrected transaction id. -/
def Walks (s s' : OrderStatus) : Prop :=
  s' ∈ orderTransitions s ∨ s = .pendingVerification ∧ s' = .pendingVerification

/-- What a commit adds to the log of one order. -/
inductive LogStep (d d' : Db) (id : Id) : Prop
  | absent (order : d.orders.lookup id = none) (order' : d'.orders.lookup id = none)
      (log : d'.statusLog id = d.statusLog id)
  | created {o'} (order : d.orders.lookup id = none) (order' : d'.orders.lookup id = some o')
      (status : Created o'.status) (log : d'.statusLog id = d.statusLog id ++ [(none, o'.status)])
  | moved {o o' moves} (order : d.orders.lookup id = some o)
      (order' : d'.orders.lookup id = some o') (walks : Trail.Steps Walks o.status moves o'.status)
      (log : d'.statusLog id = d.statusLog id ++ moves)

/-- The log of every order is its path, from nothing to the status it has now. -/
def Db.LogIsPath (d : Db) : Prop :=
  ∀ id, match d.orders.lookup id with
    | none => d.statusLog id = []
    | some o => Trail Created Walks (d.statusLog id) o.status

end Log

section Step

variable {e : OrderEvent} {orderId : Id} {action : OrderAction} {fromStatus : Option OrderStatus}
  {o o' : Order}

theorem OrderEvent.Is.move_none (h : e.Is orderId action fromStatus none) : e.move id = none := by
  obtain ⟨-, -, -, h⟩ := h
  simp [OrderEvent.move, h]

theorem OrderEvent.Is.move {s : OrderStatus} (h : e.Is orderId action fromStatus (some s)) :
    e.move id = if id = orderId then some (fromStatus, s) else none := by
  obtain ⟨rfl, -, rfl, h⟩ := h
  simp [OrderEvent.move, h, eq_comm]

theorem statusLog_append {es : List OrderEvent} (h : d'.orderEvents = d.orderEvents ++ es) :
    d'.statusLog id = d.statusLog id ++ es.filterMap (·.move id) := by
  rw [Db.statusLog, h, List.filterMap_append]
  rfl

theorem statusLog_none {es : List OrderEvent} (h : d'.orderEvents = d.orderEvents ++ es)
    (hes : ∀ e ∈ es, e.move id = none) : d'.statusLog id = d.statusLog id := by
  rw [statusLog_append h, List.filterMap_eq_nil_iff.2 hes, List.append_nil]

theorem LogStep.same {es : List OrderEvent} (horders : d'.orders = d.orders)
    (h : d'.orderEvents = d.orderEvents ++ es) (hes : ∀ e ∈ es, ∀ id, e.move id = none) (id : Id) :
    LogStep d d' id := by
  have hlog : d'.statusLog id = d.statusLog id := statusLog_none h fun e he => hes e he id
  rcases ho : d.orders.lookup id with _ | o
  · exact .absent ho (by rw [horders, ho]) hlog
  · exact @LogStep.moved _ _ _ o o [] ho (by rw [horders, ho]) .nil (by rw [hlog, List.append_nil])

/-- A commit that changes one order tells of its moves and of no other's. -/
theorem LogStep.of_insert {id' : Id} {es : List OrderEvent}
    (horders : d'.orders = d.orders.insert id o')
    (h : d'.orderEvents = d.orderEvents ++ es) (hes : ∀ e ∈ es, id' ≠ id → e.move id' = none)
    (hid : LogStep d d' id) : LogStep d d' id' := by
  by_cases hne : id' = id
  · exact hne ▸ hid
  have hlookup : d'.orders.lookup id' = d.orders.lookup id' := by
    rw [horders, AList.lookup_insert_ne hne]
  have hlog : d'.statusLog id' = d.statusLog id' := statusLog_none h fun e he => hes e he hne
  rcases ho : d.orders.lookup id' with _ | o
  · exact .absent ho (hlookup.trans ho) hlog
  · exact @LogStep.moved _ _ _ o o [] ho (hlookup.trans ho) .nil (by rw [hlog, List.append_nil])

theorem LogStep.of_created (hnone : d.orders.lookup id = none)
    (horders : d'.orders = d.orders.insert id o') (status : Created o'.status)
    (h : d'.orderEvents = d.orderEvents ++ [e]) (he : e.Is id action none (some o'.status)) (id' : Id) :
    LogStep d d' id' := by
  refine .of_insert horders h (fun e' he' hne => ?_)
    (.created hnone (by rw [horders, AList.lookup_insert]) status ?_)
  · obtain rfl := List.mem_singleton.1 he'
    rw [he.move, if_neg hne]
  · rw [statusLog_append h, List.filterMap_cons, he.move, if_pos rfl]
    rfl

theorem LogStep.of_moved (ho : d.orders.lookup id = some o)
    (horders : d'.orders = d.orders.insert id o') (walks : Walks o.status o'.status)
    (h : d'.orderEvents = d.orderEvents ++ [e])
    (he : e.Is id action (some o.status) (some o'.status)) (id' : Id) : LogStep d d' id' := by
  refine .of_insert horders h (fun e' he' hne => ?_)
    (.moved ho (by rw [horders, AList.lookup_insert]) (.one walks) ?_)
  · obtain rfl := List.mem_singleton.1 he'
    rw [he.move, if_neg hne]
  · rw [statusLog_append h, List.filterMap_cons, he.move, if_pos rfl]
    rfl

theorem Effect.logStep (h : Effect K d ws undone) (id : Id) : LogStep d (writeAll ws d) id := by
  cases h with
  | nothing | tick | edit | log | revoke =>
    refine @LogStep.same _ _ [] ?_ ?_ (by simp) id
    · rfl
    · exact (List.append_nil _).symm
  | hold fresh _ _ _ _ status _ _ _ audit =>
    exact .of_created fresh rfl (.inl status) rfl (by rwa [status]) id
  | @submit id' o e patch row status _ _ _ audit =>
    obtain ⟨action, -, audit⟩ := audit
    simp only [Txn.writeAll_append, writeAll_cons, writeAll_trxWrites, writeAll_nil]
    refine @LogStep.of_moved _ _ _ _ _ o (patch.apply .pendingVerification o) row rfl ?_ rfl
      (by simpa using audit) id
    rcases status with hs | hs <;> simp [Walks, orderTransitions, hs]
  | @release id' o t e patch toStatus row status _ _ _ _ audit =>
    obtain ⟨action, -, audit⟩ := audit
    refine @LogStep.of_moved _ _ _ _ _ o (patch.apply toStatus o) row rfl ?_ rfl
      (by simpa using audit) id
    rcases status with ⟨hs, ht⟩ | ⟨hs, ht⟩ <;> simp [Walks, orderTransitions, hs, ht]
  | @approve id' o t rows e e' row status _ _ _ _ _ audit audit' =>
    simp only [Txn.writeAll_append, writeAll_insertWrites, writeAll_cons, writeAll_nil, Write.apply,
      AList.insert_insert]
    have hes : ∀ id, [e, e'].filterMap (·.move id) = if id = id' then
        [(some .pendingVerification, .paid), (some .paid, .issued)] else [] := by
      intro id
      simp only [List.filterMap_cons, List.filterMap_nil, audit.move, audit'.move]
      split_ifs <;> rfl
    refine @LogStep.of_insert _ _ id' { o with status := .issued } id [e, e'] rfl
      (List.append_assoc _ _ _) (fun e₁ he₁ hne => ?_)
      (@LogStep.moved _ _ _ o { o with status := .issued }
        [(some .pendingVerification, .paid), (some .paid, .issued)] row (AList.lookup_insert _) ?_ ?_)
    · exact List.filterMap_eq_nil_iff.1 ((hes id).trans (if_neg hne)) e₁ he₁
    · rw [status]
      exact .cons (.inl (by decide)) (.one (.inl (by decide)))
    · exact (@statusLog_append d _ _ [e, e'] (List.append_assoc _ _ _)).trans
        (by rw [hes, if_pos rfl])
  | @comp id' o _ _ _ fresh _ _ _ _ status _ _ _ audit =>
    simp only [Txn.writeAll_append, writeAll_insertWrites, writeAll_cons, writeAll_nil, Write.apply,
      AList.insert_insert]
    exact @LogStep.of_created _ _ _ _ _ o fresh rfl (.inr status) rfl (by rwa [status]) id
  | @cancelTicket _ t _ e last _ _ _ _ _ _ _ _ audit order =>
    cases last with
    | none =>
      refine @LogStep.same _ _ [e] ?_ ?_ (by simpa using fun id => audit.move_none) id
      all_goals rfl
    | some l =>
      obtain ⟨hl, hs, hle⟩ := order l rfl
      have hes : ∀ id, [e, l.2].filterMap (·.move id) = if id = t.orderId then
          [(some .issued, .cancelled)] else [] := by
        intro id
        simp only [List.filterMap_cons, List.filterMap_nil, audit.move_none, hle.move]
        split_ifs <;> rfl
      have hsteps : Trail.Steps Walks l.1.status [(some .issued, .cancelled)] .cancelled := by
        rw [hs]
        exact .one (.inl (by decide))
      refine @LogStep.of_insert _ _ t.orderId { l.1 with status := .cancelled } id [e, l.2] rfl
        (List.append_assoc _ _ _) (fun e₁ he₁ hne => ?_)
        (@LogStep.moved _ _ _ l.1 { l.1 with status := .cancelled } [(some .issued, .cancelled)] hl
          (AList.lookup_insert _) hsteps ?_)
      · exact List.filterMap_eq_nil_iff.1 ((hes id).trans (if_neg hne)) e₁ he₁
      · exact (@statusLog_append d _ _ [e, l.2] (List.append_assoc _ _ _)).trans
          (by rw [hes, if_pos rfl])
  | rename _ _ audit | letIn _ audit _ | undo _ _ audit _ =>
    refine .same ?_ rfl (by simpa using fun id => audit.move_none) id
    rfl
  | @undoAll undone event _ audit =>
    rw [writeAll_undoWrites]
    refine @LogStep.same d _ (undone.map fun u => event u.listed) ?_ ?_ (fun e he id => ?_) id
    · rfl
    · rfl
    · obtain ⟨u, hu, rfl⟩ := List.mem_map.1 he
      exact (audit u hu).1.move_none
  | @revokeAndUndo _ _ _ undone event _ _ _ _ audit =>
    rw [writeAll_cons, writeAll_undoWrites]
    refine @LogStep.same d _ (undone.map fun u => event u.listed) ?_ ?_ (fun e he id => ?_) id
    · rfl
    · rfl
    · obtain ⟨u, hu, rfl⟩ := List.mem_map.1 he
      exact (audit u hu).1.move_none

end Step

section Path

theorem LogStep.path (h : LogStep d d' id)
    (hp : match d.orders.lookup id with
      | none => d.statusLog id = []
      | some o => Trail Created Walks (d.statusLog id) o.status) :
    match d'.orders.lookup id with
    | none => d'.statusLog id = []
    | some o => Trail Created Walks (d'.statusLog id) o.status := by
  cases h with
  | absent order order' log =>
    rw [order] at hp
    rw [order', log]
    exact hp
  | created order order' status log =>
    rw [order] at hp
    rw [order', log, hp]
    exact .created status
  | moved order order' walks log =>
    rw [order] at hp
    rw [order', log]
    exact hp.append walks

theorem Good.logIsPath {q : Request} {τ : List Obs} (h : Good q τ (.commit K d d'))
    (hp : d.LogIsPath) : d'.LogIsPath := by
  obtain ⟨ws, undone, he, rfl, -⟩ := h
  exact fun id => (he.logStep id).path (hp id)

/-- Requests that fail as a whole or not at all. -/
def Request.isSale : Request → Bool
  | .createOrder .. | .submitPayment .. | .issueComplimentaryTickets .. | .approveOrder ..
  | .rejectOrder .. | .cancelTicket .. | .renameAttendee .. => true
  | _ => false

/-- What a line of a run says of the order log, after what its process has done: a commit logs the
moves it makes, the expiry job lets an order with a payment be, and a request that fails has changed
nothing; the job, that goes on past a hold that fails, has given back the holds it counts. -/
def Request.keepsLog (q : Request) (τ : List Obs) : Obs → Prop
  | .commit _ d d' => (∀ id, LogStep d d' id) ∧
      (q = .expireLapsedHolds → ∀ id o, d.orders.lookup id = some o →
        o.status = .pendingVerification → d'.orders.lookup id = some o)
  | .done (.error _) => (q.isSale = true → Quiet τ) ∧ (q = .expireLapsedHolds → ∃ n, Expiries τ n)
  | .done (.ok (.expired n)) => q = .expireLapsedHolds → Expiries τ n.expired
  | _ => True

theorem Good.keepsLog {q : Request} {τ : List Obs} {o : Obs} (h : Good q τ o) : q.keepsLog τ o := by
  cases o with
  | read => trivial
  | say => trivial
  | commit K d d' =>
    have hgrows := h.grows
    obtain ⟨ws, undone, he, rfl, -, hmoves⟩ := h
    refine ⟨he.logStep, ?_⟩
    rintro rfl id o ho hs
    obtain ⟨o', ho', -⟩ := hgrows.order ho
    rcases hmoves.row ho ho' with rfl | ⟨hs', -⟩
    · exact ho'
    · rw [hs] at hs'
      cases hs'
  | done a =>
    cases a with
    | error e =>
      refine ⟨fun hq => ?_, ?_⟩
      · cases q with
        | createOrder | submitPayment | issueComplimentaryTickets | approveOrder | rejectOrder
        | cancelTicket | renameAttendee => exact h
        | _ => cases hq
      · rintro rfl
        exact h
    | ok a =>
      cases a with
      | expired n =>
        rintro rfl
        exact h
      | _ => trivial

/-- In every run the log of every order is its path, whichever requests interleave, and a request
that fails leaves nothing behind. -/
theorem orderLog_isPath (hd : Logged d) (hp : d.LogIsPath) (sched : List Action) :
    (run d sched).db.LogIsPath ∧ ∀ l₁ e l₂, (run d sched).log = l₁ ++ e :: l₂ →
      e.req.keepsLog (Txn.trace e.pid l₁) e.obs :=
  ⟨(shop_history hd sched).preserves (fun _ _ _ _ _ hg => hg.logIsPath) hp,
    fun _ _ _ hl => (good_of_history (hl ▸ shop_history hd sched)).keepsLog⟩

end Path

section OnSale

/-- The gala on sale, and no order yet. -/
def emptyHouse : Db :=
  { openingNight with
    ticketTypes := .singleton 1
      { eventId := 1, name := "Floor", pricePaisa := 50000, quantityTotal := 2, quantitySold := 0
        quantityReserved := 0, salesStartsAt := none, salesEndsAt := none }
    orders := ∅
    orderReferences := ∅
    orderTrxIds := ∅
    tickets := ∅
    ticketCodes := ∅
    ticketPositions := ∅ }

def taraOrders : Request :=
  .createOrder
    { eventSlug := "gala", ticketTypeId := 1, quantity := 1, buyerName := "Tara"
      buyerEmail := "tara@example.com", buyerPhone := "01700000003", attendeeNames := ["Tara"]
      promoCode := none }
    fun n => ⟨3 + n, "EA-3"⟩

/-- An order paid, its transaction id corrected, approved, and its one ticket cancelled; then the
admin who cancels it again is refused. -/
def throughTheDesk : List Action :=
  alone 0 taraOrders 40 ++
  alone 1 (.submitPayment 4 ⟨"TRX7", "01700000003"⟩) 20 ++
  alone 2 (.submitPayment 4 ⟨"TRX8", "01700000003"⟩) 20 ++
  alone 3 (.approveOrder 4 ⟨"admin", "TRX8"⟩ fun n => ⟨[5 + n], ["TKT-4H8ZP2XQ"]⟩) 40 ++
  alone 4 (.cancelTicket 6 ⟨4, "admin", "refund"⟩) 40 ++
  alone 5 (.cancelTicket 6 ⟨4, "admin", "refund"⟩) 40

theorem emptyHouse_logIsPath : emptyHouse.LogIsPath := fun _ => rfl

theorem emptyHouse_logged : Logged emptyHouse := by
  intro id c hc
  cases hc

theorem orderLog_isPath_throughTheDesk :
    (run emptyHouse throughTheDesk).db.statusLog 4 = [(none, .pendingPayment),
      (some .pendingPayment, .pendingVerification),
      (some .pendingVerification, .pendingVerification), (some .pendingVerification, .paid),
      (some .paid, .issued), (some .issued, .cancelled)] ∧
    (run emptyHouse throughTheDesk).db.LogIsPath ∧
    ∀ l₁ e l₂, (run emptyHouse throughTheDesk).log = l₁ ++ e :: l₂ →
      e.req.keepsLog (Txn.trace e.pid l₁) e.obs :=
  ⟨by decide +kernel, orderLog_isPath emptyHouse_logged emptyHouse_logIsPath throughTheDesk⟩

end OnSale

end EchoAndAura
