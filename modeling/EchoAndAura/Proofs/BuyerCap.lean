import EchoAndAura.Proofs.Exactness
import EchoAndAura.Proofs.OrderLog
import EchoAndAura.Proofs.Ledger

/-!
# The cap on a buyer's open orders

A new order is counted against its buyer's open orders under the buyer's lock, by the clock its
request read.  The count holds at the commit unless an order it took for lapsed is paid for after
all; where every payment commits before its hold's cutoff, none is, and no buyer ever has more
than `maxOpenOrdersPerBuyer` orders open on an event (`buyer_cap`).
-/

namespace EchoAndAura

open Txn (Lock writeAll)

variable {K : List (Lock Row)} {d d' : Db} {q : Request} {τ : List Obs} {eventId : Id}
  {phone : String}

section Cap

/-- No buyer has more orders open on an event than the cap. -/
def Db.Capped (d : Db) : Prop :=
  ∀ eventId phone, (d.openOrders eventId phone (lapsedBefore d.clock)).length ≤ maxOpenOrdersPerBuyer

/-- Every order that awaits payment has a hold. -/
def Db.Held (d : Db) : Prop :=
  ∀ id o, d.orders.lookup id = some o → o.status = .pendingPayment → o.holdExpiresAt.isSome

/-- The clock as a line of the record shows it. -/
def clocks (e : Entry) : List Time :=
  match e.obs with
  | .read _ d => [d.clock]
  | .commit _ d d' => [d.clock, d'.clock]
  | _ => []

/-- Time advances along the record. -/
def Onward (l : List Entry) : Prop := (l.flatMap clocks).Pairwise (· ≤ ·)

/-- No order is paid for by a commit at or past its hold's cutoff. -/
def PaidInTime (d d' : Db) : Prop :=
  ∀ id o o', d.orders.lookup id = some o → d'.orders.lookup id = some o' →
    o.status = .pendingPayment → o'.status = .pendingVerification → holdLapsed o d.clock = false

/-- Every payment commits before its hold's cutoff. -/
def InTime (l : List Entry) : Prop :=
  ∀ l₁ pid q K d d' l₂, l = l₁ ++ ⟨pid, q, .commit K d d'⟩ :: l₂ → PaidInTime d d'

theorem isOpenAt_mono {o : Order} {t t' : Time} (h : t ≤ t')
    (ho : ordersRepository.isOpenAt o (lapsedBefore t') = true) :
    ordersRepository.isOpenAt o (lapsedBefore t) = true := by
  simp only [ordersRepository.isOpenAt, Bool.or_eq_true, beq_iff_eq, Bool.and_eq_true,
    Option.any_eq_true] at ho ⊢
  rcases ho with hs | ⟨hs, e, he, hlt⟩
  · exact .inl hs
  · have hle : lapsedBefore t ≤ lapsedBefore t' := Int.sub_le_sub_right h _
    exact .inr ⟨hs, e, he, decide_eq_true (lt_of_le_of_lt hle (of_decide_eq_true hlt))⟩

theorem lapsedBefore_lt {o : Order} {e t : Time} (hs : o.status = .pendingPayment)
    (he : o.holdExpiresAt = some e) (h : holdLapsed o t = false) : lapsedBefore t < e := by
  have hcut : decide (holdCutoff e ≤ t) = false := by simpa [holdLapsed, hs, he] using h
  exact Int.sub_right_lt_of_lt_add (not_le.1 (of_decide_eq_false hcut))

theorem isOpenAt_pending {o : Order} {t : Time} (h : ordersRepository.isOpenAt o t = true) :
    o.status = .pendingPayment ∨ o.status = .pendingVerification := by
  simp only [ordersRepository.isOpenAt, Bool.or_eq_true, beq_iff_eq, Bool.and_eq_true] at h
  exact h.symm.imp_left (·.1)

theorem openOrders_le (ids : List Id) {t : Time}
    (h : ∀ id o, d.orders.lookup id = some o → o.eventId = eventId → o.buyerPhone = some phone →
      ordersRepository.isOpenAt o t = true → id ∈ ids) :
    (d.openOrders eventId phone t).length ≤ ids.length := by
  rw [Db.openOrders_length, ← List.length_map Sigma.fst]
  refine List.Subperm.length_le (List.subperm_of_subset ?_ fun id hid => ?_)
  · exact d.orders.nodupKeys.sublist List.filter_sublist
  · obtain ⟨e, he, rfl⟩ := List.mem_map.1 hid
    obtain ⟨he, hp⟩ := List.mem_filter.1 he
    simp only [Bool.and_eq_true, beq_iff_eq] at hp
    exact h e.1 e.2 (AList.mem_lookup_iff.2 he) hp.1.1 hp.1.2 hp.2

end Cap

section Step

/-- An order open after a commit was open before, or is new. -/
theorem SaleStep.open_before (h : SaleStep K d d') (hin : PaidInTime d d') (hh : d.Held)
    (ht : d.clock ≤ d'.clock) {id : Id} {o' : Order} (ho' : d'.orders.lookup id = some o')
    (hopen : ordersRepository.isOpenAt o' (lapsedBefore d'.clock) = true) :
    (∃ o, d.orders.lookup id = some o ∧ o'.sale = o.sale ∧
      ordersRepository.isOpenAt o (lapsedBefore d.clock) = true) ∨
    d.orders.lookup id = none ∧ o'.status = .pendingPayment := by
  have hopen' := isOpenAt_mono ht hopen
  rcases h.order ho' with ⟨row, hsale, status⟩ | ⟨row, hsale, status, status'⟩ |
    ⟨-, -, status'⟩ | ⟨fresh, status, -, -⟩ | ⟨-, status⟩
  · refine .inl ⟨_, row, hsale, ?_⟩
    simp only [Order.sale, Prod.mk.injEq] at hsale
    rw [ordersRepository.isOpenAt, status, hsale.2.2] at hopen'
    exact hopen'
  · obtain ⟨e, he⟩ := Option.isSome_iff_exists.1 (hh _ _ row status)
    refine .inl ⟨_, row, hsale, ?_⟩
    have := lapsedBefore_lt status he (hin _ _ _ row ho' status status')
    simp [ordersRepository.isOpenAt, status, he, this]
  · exact absurd (isOpenAt_pending hopen) (by simp [status'])
  · exact .inr ⟨fresh, status⟩
  · exact absurd (isOpenAt_pending hopen) (by simp [status])

theorem SaleStep.new_unique (h : SaleStep K d d') {id id' : Id} {o o' : Order}
    (h₀ : d.orders.lookup id = none) (h₁ : d'.orders.lookup id = some o)
    (h₀' : d.orders.lookup id' = none) (h₁' : d'.orders.lookup id' = some o') : id' = id := by
  have one : ∀ {i o₁}, d'.orders = d.orders.insert i o₁ → id' = id := by
    intro i o₁ horders
    rw [horders, Table.lookup_insert_eq] at h₁ h₁'
    split_ifs at h₁ with hi
    · split_ifs at h₁' with hi'
      · exact hi'.trans hi.symm
      · simp [h₀'] at h₁'
    · simp [h₀] at h₁
  cases h with
  | aside orders => simp [orders, h₀] at h₁
  | held _ _ _ _ _ orders | submitted _ _ _ orders | released _ _ _ orders
  | approved _ _ _ _ orders | comped _ _ _ _ _ _ orders => exact one orders
  | @cancelled _ _ _ last _ _ _ _ _ orders =>
    cases last with
    | false =>
      rw [orders, if_neg (by simp), h₀] at h₁
      cases h₁
    | true => exact one orders

/-- The count of a new order's request took no order for lapsed that was then paid for. -/
def NoneRevived (τ : List Obs) (d : Db) : Prop :=
  ∀ τ₁ d₁ d₂ τ₂, τ = τ₁ ++ .commit [] d₂ d₂ :: τ₂ → .read "now" d₁ ∈ τ₁ → d₁.clock ≤ d.clock ∧
    ∀ id o, d.orders.lookup id = some o → ¬Revived d₁.clock d₂ id o

theorem Good.new (h : Good q τ (.commit K d d')) {id : Id} {o : Order}
    (h₀ : d.orders.lookup id = none) (h₁ : d'.orders.lookup id = some o)
    (hs : o.status = .pendingPayment) :
    o.holdExpiresAt.isSome ∧ Counted τ d o := by
  obtain ⟨ws, undone, -, -, hmay, hmoves⟩ := h
  have hmake := hmoves.new h₀ h₁
  cases q with
  | createOrder input draw =>
    obtain ⟨⟨-, _, _, _, _, _, _, -, -, -, -, -, -, -, hhold, -⟩, hcount⟩ := hmay.2 id o h₀ h₁
    exact ⟨by rw [hhold]; rfl, hcount⟩
  | issueComplimentaryTickets =>
    rw [show o.status = .issued from hmake] at hs
    cases hs
  | _ => cases hmake

theorem Good.held (h : Good q τ (.commit K d d')) (hh : d.Held) : d'.Held := by
  intro id o' ho' hs
  rcases h.sale.order ho' with ⟨row, hsale, status⟩ | ⟨-, -, -, status'⟩ | ⟨-, -, status'⟩ |
    ⟨fresh, -, -, -⟩ | ⟨-, status⟩
  · simp only [Order.sale, Prod.mk.injEq] at hsale
    rw [hsale.2.2]
    exact hh _ _ row (status ▸ hs)
  · simp [status'] at hs
  · exact absurd hs status'.1
  · exact (h.new fresh ho' hs).1
  · simp [status] at hs

theorem Good.capped (h : Good q τ (.commit K d d')) (hin : PaidInTime d d') (hh : d.Held)
    (ht : d.clock ≤ d'.clock) (hr : NoneRevived τ d) (hd : d.Capped) : d'.Capped := by
  intro eventId phone
  have before : ∀ {id o'}, d'.orders.lookup id = some o' →
      ordersRepository.isOpenAt o' (lapsedBefore d'.clock) = true →
      (∃ o, d.orders.lookup id = some o ∧ o'.sale = o.sale ∧
        ordersRepository.isOpenAt o (lapsedBefore d.clock) = true) ∨
      d.orders.lookup id = none ∧ o'.status = .pendingPayment :=
    fun ho' hopen => h.sale.open_before hin hh ht ho' hopen
  by_cases hnew : ∃ id o, d.orders.lookup id = none ∧ d'.orders.lookup id = some o ∧
      o.status = .pendingPayment ∧ o.eventId = eventId ∧ o.buyerPhone = some phone
  · obtain ⟨id, o, h₀, h₁, hs, rfl, hp⟩ := hnew
    obtain ⟨-, τ₁, d₁, d₂, τ₂, ids, hτ, hnow, hlen, hids⟩ := h.new h₀ h₁ hs
    obtain ⟨hclock, hnone⟩ := hr τ₁ d₁ d₂ τ₂ hτ hnow
    refine (openOrders_le (id :: ids) fun id' o' ho' he' hp' hopen => ?_).trans hlen
    rcases before ho' hopen with ⟨o₁, ho₁, hsale, hopen₁⟩ | ⟨h₀', -⟩
    · simp only [Order.sale, Prod.mk.injEq] at hsale
      refine List.mem_cons_of_mem _ ((hids id' o₁ ho₁ (hsale.1.symm.trans he') ?_
        (isOpenAt_mono hclock hopen₁)).resolve_right (hnone id' o₁ ho₁))
      rw [← hsale.2.1, hp', hp]
    · rw [h.sale.new_unique h₀ h₁ h₀' ho']
      exact List.mem_cons_self
  · refine le_trans ?_ (hd eventId phone)
    rw [d.openOrders_length, ← List.length_map Sigma.fst]
    refine openOrders_le _ fun id o' ho' he hp hopen => ?_
    rcases before ho' hopen with ⟨o, ho, hsale, hopen'⟩ | ⟨h₀, hs⟩
    · simp only [Order.sale, Prod.mk.injEq] at hsale
      exact mem_openOrders ho (hsale.1 ▸ he) (hsale.2.1 ▸ hp) hopen'
    · exact absurd ⟨id, o', h₀, ho', hs, he, hp⟩ hnew

end Step

section Runs

variable {d₀ : Db} {l l' : List Entry} {pid : Nat}

/-- What a process read of the clock comes before whatever the record shows later. -/
theorem Onward.le {t t' : Time} (h : Onward (l ++ l')) (ht : t ∈ l.flatMap clocks)
    (ht' : t' ∈ l'.flatMap clocks) : t ≤ t' := by
  rw [Onward, List.flatMap_append] at h
  exact (List.pairwise_append.1 h).2.2 t ht t' ht'

theorem mem_clocks_of_trace {o : Obs} {t : Time} (h : o ∈ Txn.trace pid l)
    (ht : ∀ e : Entry, e.obs = o → t ∈ clocks e) : t ∈ l.flatMap clocks := by
  obtain ⟨e, he, rfl⟩ := List.mem_map.1 h
  exact List.mem_flatMap.2 ⟨e, List.mem_of_mem_filter he, ht e rfl⟩

/-- Where every payment commits in time, none is made for an order past its cutoff. -/
theorem noneRevived (h : Txn.History Good d₀ l d) (hh : d₀.Held) (hin : InTime l)
    (hon : Onward (l ++ l')) (hd : d.clock ∈ l'.flatMap clocks) :
    NoneRevived (Txn.trace pid l) d := by
  intro τ₁ d₁ d₂ τ₂ hτ hnow
  obtain ⟨l₁, q, l₂, rfl, rfl, rfl⟩ := Txn.trace_split hτ
  have hread : d₁.clock ∈ l₁.flatMap clocks :=
    mem_clocks_of_trace hnow fun e he => by simp [clocks, he]
  have hclock : d₁.clock ≤ d.clock := by
    refine hon.le ?_ hd
    rw [List.flatMap_append]
    exact List.mem_append_left _ hread
  refine ⟨hclock, fun id o ho hrev => ?_⟩
  rw [← List.singleton_append, ← List.append_assoc] at h hon hin
  obtain ⟨d₃, h₃, hsince⟩ := h.since
  obtain ⟨h₂, -, rfl⟩ := h₃.last rfl
  have hheld : d₃.Held := h₃.preserves (fun _ _ _ _ _ hg => hg.held) hh
  have hlast := hsince (fun d => d.Held ∧ ∀ o, d.orders.lookup id = some o →
    o.status = .pendingVerification → ∃ e, o.holdExpiresAt = some e ∧ lapsedBefore d₁.clock < e)
    ?_ ⟨hheld, fun o ho hs => ?_⟩
  · obtain ⟨e, he, hlt⟩ := hlast.2 o ho hrev.paid
    exact absurd hlt (not_lt.2 (hrev.lapsed e he))
  · rintro l₃ pid' q' K a b l₄ rfl - hg ⟨ha, hlive⟩
    refine ⟨hg.held ha, fun o' ho' hs => ?_⟩
    rcases hg.sale.order ho' with ⟨row, hsale, status⟩ | ⟨row, hsale, status, -⟩ |
      ⟨-, -, status'⟩ | ⟨-, status, -, -⟩ | ⟨-, status⟩
    · simp only [Order.sale, Prod.mk.injEq] at hsale
      rw [hsale.2.2]
      exact hlive _ row (status ▸ hs)
    · obtain ⟨e, he⟩ := Option.isSome_iff_exists.1 (ha _ _ row status)
      have hin' : PaidInTime a b := hin (_ ++ l₃) pid' q' K a b l₄ (List.append_assoc _ _ _).symm
      have hlt := lapsedBefore_lt status he (hin' _ _ _ row ho' status hs)
      have hle : d₁.clock ≤ a.clock := by
        rw [List.append_assoc, List.append_assoc] at hon
        refine hon.le hread ?_
        simp [clocks]
      simp only [Order.sale, Prod.mk.injEq] at hsale
      exact ⟨e, hsale.2.2.trans he, lt_of_le_of_lt (Int.sub_le_sub_right hle _) hlt⟩
    · exact absurd hs status'.2
    · simp [status] at hs
    · simp [status] at hs
  · rw [hrev.unpaid o ho] at hs
    cases hs

/-- While time advances and every payment commits before its hold's cutoff, no buyer ever has more
than `maxOpenOrdersPerBuyer` orders open on an event. -/
theorem buyer_cap (hd : Logged d) (hh : d.Held) (hc : d.Capped) (sched : List Action)
    (hon : Onward (run d sched).log) (hin : InTime (run d sched).log) :
    (run d sched).db.Capped := by
  refine ((shop_history hd sched).along (I := fun d => d.Held ∧ d.Capped) ?_ ⟨hh, hc⟩).2
  rintro l₁ pid q K a b l₂ hl hist hg ⟨ha, hcap⟩
  have hin' : InTime l₁ := fun l₃ pid q K d d' l₄ h =>
    hin l₃ pid q K d d' (l₄ ++ _) (by rw [hl, h, List.append_assoc]; rfl)
  rw [hl] at hon
  have hclock : a.clock ≤ b.clock := by
    rw [Onward, List.flatMap_append, List.flatMap_cons] at hon
    have := (List.pairwise_append.1 (List.pairwise_append.1 hon).2.1).1
    simpa [clocks] using this
  exact ⟨hg.held ha, hg.capped (hin l₁ pid q K a b l₂ hl) ha hclock
    (noneRevived hist hh hin' hon (by simp [clocks])) hcap⟩

end Runs

section LatePayment

/-- The gala on sale in a bigger hall, and no order yet. -/
def bigHall : Db :=
  { emptyHouse with
    ticketTypes := .singleton 1
      { eventId := 1, name := "Floor", pricePaisa := 50000, quantityTotal := 9, quantitySold := 0
        quantityReserved := 0, salesStartsAt := none, salesEndsAt := none } }

theorem bigHall_logged : Logged bigHall := by
  intro id c hc
  cases hc

theorem bigHall_held : bigHall.Held := by
  intro id o ho
  cases ho

theorem bigHall_capped : bigHall.Capped := by
  intro eventId phone
  exact Nat.zero_le _

/-- Tara's `n`-th order. -/
def taraOrdersAgain (n : Nat) (reference : String) : Request :=
  .createOrder
    { eventSlug := "gala", ticketTypeId := 1, quantity := 1, buyerName := "Tara"
      buyerEmail := "tara@example.com", buyerPhone := "01700000003", attendeeNames := ["Tara"]
      promoCode := none }
    fun _ => ⟨n, reference⟩

/-- Two orders, both paid for at once; a third is refused. -/
def twoPaid : List Action :=
  alone 0 (taraOrdersAgain 1 "EA-1") 40 ++ alone 1 (taraOrdersAgain 2 "EA-2") 40 ++
  alone 2 (.submitPayment 1 ⟨"TRX1", "01700000003"⟩) 20 ++
  alone 3 (.submitPayment 2 ⟨"TRX2", "01700000003"⟩) 20 ++
  alone 4 (.tick (3 * hourMs)) 20 ++ alone 5 (taraOrdersAgain 3 "EA-3") 40

/-- The payment of the first order has looked at the clock and waits; its hold lapses, a third
order is made, and the payment commits. -/
def paidTooLate : List Action :=
  alone 0 (taraOrdersAgain 1 "EA-1") 40 ++ alone 1 (taraOrdersAgain 2 "EA-2") 40 ++
  alone 2 (.submitPayment 2 ⟨"TRX2", "01700000003"⟩) 20 ++
  (.start (.submitPayment 1 ⟨"TRX1", "01700000003"⟩) :: List.replicate 3 (.step 3)) ++
  alone 4 (.tick (3 * hourMs)) 20 ++ alone 5 (taraOrdersAgain 3 "EA-3") 40 ++
  List.replicate 20 (.step 3)

def Db.paysInTime (d d' : Db) : Bool :=
  d.orders.entries.all fun e => (d'.orders.lookup e.1).all fun o' =>
    !(e.2.status == .pendingPayment && o'.status == .pendingVerification && holdLapsed e.2 d.clock)

theorem paidInTime_of_paysInTime (h : d.paysInTime d' = true) : PaidInTime d d' := by
  intro id o o' ho ho' hs hs'
  have := List.all_eq_true.1 h ⟨id, o⟩ (AList.mem_lookup_iff.1 ho)
  simpa [ho', hs, hs'] using this

def paysInTime (e : Entry) : Bool :=
  match e.obs with
  | .commit _ d d' => d.paysInTime d'
  | _ => true

theorem inTime_of_all {l : List Entry} (h : l.all paysInTime = true) : InTime l := by
  rintro l₁ pid q K d d' l₂ rfl
  exact paidInTime_of_paysInTime (List.all_eq_true.1 h ⟨pid, q, .commit K d d'⟩ (by simp))

instance (l : List Entry) : Decidable (Onward l) := inferInstanceAs (Decidable (List.Pairwise _ _))

theorem buyer_cap_twoPaid :
    ((run bigHall twoPaid).db.openOrders 1 "01700000003" (lapsedBefore (3 * hourMs))).length = 2 ∧
    (run bigHall twoPaid).db.Capped :=
  ⟨by decide +kernel, buyer_cap bigHall_logged bigHall_held bigHall_capped twoPaid
    (by decide +kernel) (inTime_of_all (by decide +kernel))⟩

/-- A payment that looked at the clock in time and commits late brings back an order the cap no
longer counted. -/
theorem buyer_overCap : Logged bigHall ∧ bigHall.Held ∧ bigHall.Capped ∧
    ∃ sched, Onward (run bigHall sched).log ∧ ¬(run bigHall sched).db.Capped := by
  refine ⟨bigHall_logged, bigHall_held, bigHall_capped, paidTooLate, by decide +kernel, ?_⟩
  intro h
  have hcap := h 1 "01700000003"
  revert hcap
  decide +kernel

end LatePayment

end EchoAndAura
