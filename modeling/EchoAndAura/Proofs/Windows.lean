import EchoAndAura.Proofs.Exactness

/-!
# Sales windows

An order is made inside its event's window.  Inside its ticket type's own window it is made only
where the window was looked at: a type that the snapshot shows sold out is refused later, by the
hold, or not at all (`createOrder_inWindows`).
-/

namespace EchoAndAura

open Txn (Lock)

variable {d : Db}

section Windows

/-- The order was requested at an instant inside every window it is sold in. -/
def InWindows (input : ordersService.CreateOrderInput) (τ : List Obs) (o : Order) : Prop :=
  o.ticketTypeId = input.ticketTypeId ∧ Seen input τ fun at_ event t =>
    o.holdExpiresAt = some (holdEndsAt at_) ∧ event.Takes at_ ∧ t.OnSale at_

/-- The request did not find its ticket type sold out at an instant outside the type's window. -/
def SoldOutInWindow (input : ordersService.CreateOrderInput) (τ : List Obs) : Prop :=
  ∀ d₁ d₃ t, .read "now" d₁ ∈ τ → .read "ticketTypes.listByEvent" d₃ ∈ τ →
    d₃.ticketTypes.lookup input.ticketTypeId = some t → t.available ≤ 0 → t.OnSale d₁.clock

theorem Requested.inWindows {input : ordersService.CreateOrderInput} {τ : List Obs} {o : Order}
    (h : Requested input τ o) (hs : SoldOutInWindow input τ) : InWindows input τ o := by
  obtain ⟨hty, d₁, d₂, d₃, eventId, event, t, m₁, m₂, m₃, he, hslug, ht, hte, hat, htakes, hsale⟩ := h
  refine ⟨hty, d₁, d₂, d₃, eventId, event, t, m₁, m₂, m₃, he, hslug, ht, hte, hat, htakes, ?_⟩
  rcases le_or_gt t.available 0 with ha | ha
  · exact hs d₁ d₃ t m₁ m₃ ht ha
  · exact hsale ha

/-- Every order `createOrder` commits was requested inside its windows, when its request did not
find the type sold out outside the type's own. -/
theorem createOrder_inWindows (hd : Logged d) (sched : List Action) :
    ∀ l₁ l₂ pid input draw K d₁ d₂,
      (run d sched).log = l₁ ++ ⟨pid, .createOrder input draw, .commit K d₁ d₂⟩ :: l₂ →
      SoldOutInWindow input (Txn.trace pid l₁) →
      ∀ id o, d₁.orders.lookup id = none → d₂.orders.lookup id = some o →
        InWindows input (Txn.trace pid l₁) o := by
  intro l₁ l₂ pid input draw K d₁ d₂ hl hs id o h₀ h₁
  obtain ⟨ws, undone, -, -, ⟨-, hnew⟩, -⟩ := good_of_history (hl ▸ shop_history hd sched)
  exact (hnew id o h₀ h₁).1.inWindows hs

/-- An order for the second place, made while its event takes orders. -/
def earlyOrder : List Action :=
  alone 0 (.createOrder
    { eventSlug := "gala", ticketTypeId := 1, quantity := 1, buyerName := "Tara"
      buyerEmail := "tara@example.com", buyerPhone := "01700000003", attendeeNames := ["Tara"]
      promoCode := none }
    fun n => ⟨3 + n, "EA-3"⟩) 40

theorem createOrder_inWindows_earlyOrder :
    ((run openingNight earlyOrder).db.orders.lookup 4).isSome = true ∧
    ∀ l₁ l₂ pid input draw K d₁ d₂,
      (run openingNight earlyOrder).log =
        l₁ ++ ⟨pid, .createOrder input draw, .commit K d₁ d₂⟩ :: l₂ →
      SoldOutInWindow input (Txn.trace pid l₁) →
      ∀ id o, d₁.orders.lookup id = none → d₂.orders.lookup id = some o →
        InWindows input (Txn.trace pid l₁) o :=
  ⟨by decide +kernel, createOrder_inWindows openingNight_consistent.logged earlyOrder⟩

end Windows

section SoldOutAfterHours

/-- The night before, the last place of a type whose sale has ended is held by an order whose
payment never came. -/
def boxOffice : Db :=
  { openingNight with
    ticketTypes := .singleton 1
      { eventId := 1, name := "Floor", pricePaisa := 50000, quantityTotal := 2, quantitySold := 1
        quantityReserved := 1, salesStartsAt := none, salesEndsAt := some hourMs }
    orders := openingNight.orders.insert 2
      { reference := "EA-2", eventId := 1, ticketTypeId := 1, quantity := 1, unitPricePaisa := 50000
        subtotalPaisa := 50000, discountPaisa := 0, totalPaisa := 50000, status := .pendingPayment
        buyerName := "Mina", buyerEmail := "mina@example.com", buyerPhone := some "01700000002"
        attendeeNames := ["Mina"], bkashTrxId := none, bkashSenderMsisdn := none
        promoCodeId := none, rejectionReason := none, rejectionNote := none
        complimentaryReason := none, holdExpiresAt := some 0 }
    orderReferences := openingNight.orderReferences.insert "EA-2" 2 }

def lateOrder : Request :=
  .createOrder
    { eventSlug := "gala", ticketTypeId := 1, quantity := 1, buyerName := "Tara"
      buyerEmail := "tara@example.com", buyerPhone := "01700000003", attendeeNames := ["Tara"]
      promoCode := none }
    fun n => ⟨3 + n, "EA-3"⟩

/-- The order is checked while the type is sold out, the lapsed hold expires, and the order goes
on to its own hold. -/
def freedInBetween : List Action :=
  .start lateOrder :: List.replicate 7 (.step 0) ++ alone 1 .expireLapsedHolds 40 ++
    List.replicate 30 (.step 0)

theorem boxOffice_consistent : boxOffice.Consistent where
  conserved id t ht := by
    obtain ⟨rfl, rfl⟩ := Table.lookup_singleton.1 ht
    exact ⟨by decide, by decide, by decide, by decide, by decide⟩
  logged := openingNight_consistent.logged

/-- Every way to take one line out of a record, with what stood before it. -/
def lines : List Entry → List Entry → List (List Entry × Entry × List Entry)
  | _, [] => []
  | before, e :: l => (before, e, l) :: lines (before ++ [e]) l

theorem of_mem_lines {x : List Entry × Entry × List Entry} :
    ∀ {before l : List Entry}, x ∈ lines before l → before ++ l = x.1 ++ x.2.1 :: x.2.2
  | _, [], h => by simp [lines] at h
  | before, e :: l, h => by
    rcases List.mem_cons.1 h with rfl | h
    · rfl
    · rw [← of_mem_lines h, List.append_assoc, List.singleton_append]

/-- What the late order read: the clock at two, and a type whose sale ended at one. -/
def readsLate : Obs → Bool
  | .read name d =>
    (name != "now" || d.clock == 2 * hourMs) &&
      (name != "ticketTypes.listByEvent" ||
        (d.ticketTypes.lookup 1).all fun t => t.salesEndsAt == some hourMs)
  | _ => true

/-- The line is the commit of the late order, made after reading all that. -/
def isLate (l : List Entry) (e : Entry) : Bool :=
  match e.req, e.obs with
  | .createOrder input _, .commit _ d₁ d₂ =>
    input.ticketTypeId == 1 && (d₁.orders.lookup 4).isNone && (d₂.orders.lookup 4).isSome &&
      (Txn.trace e.pid l).all readsLate
  | _, _ => false

theorem not_inWindows_of_reads {input : ordersService.CreateOrderInput} {τ : List Obs} {o : Order}
    (hin : input.ticketTypeId = 1) (h : τ.all readsLate = true) : ¬InWindows input τ o := by
  rintro ⟨-, d₁, d₂, d₃, -, -, t, m₁, -, m₃, -, -, ht, -, -, -, hsale⟩
  rw [List.all_eq_true] at h
  have h₁ := h _ m₁
  have h₃ := h _ m₃
  rw [hin] at ht
  simp [readsLate] at h₁
  simp [readsLate, ht] at h₃
  have := hsale.ends _ h₃
  rw [h₁] at this
  exact absurd this (by decide)

/-- Sold out goes before the window, and by the hold there is stock again. -/
theorem createOrder_outsideWindow : boxOffice.Consistent ∧
    ∃ l₁ l₂ pid input draw K d₁ d₂,
      (run boxOffice freedInBetween).log =
        l₁ ++ ⟨pid, .createOrder input draw, .commit K d₁ d₂⟩ :: l₂ ∧
      ∃ id o, d₁.orders.lookup id = none ∧ d₂.orders.lookup id = some o ∧
        ¬InWindows input (Txn.trace pid l₁) o := by
  refine ⟨boxOffice_consistent, ?_⟩
  have h : (lines [] (run boxOffice freedInBetween).log).any (fun x => isLate x.1 x.2.1) = true := by
    decide +kernel
  obtain ⟨⟨l₁, ⟨pid, q, obs⟩, l₂⟩, hm, hlate⟩ := List.any_eq_true.1 h
  have hlog := of_mem_lines hm
  rw [List.nil_append] at hlog
  cases q with
  | createOrder input draw =>
    cases obs with
    | commit K d₁ d₂ =>
      simp only [isLate, Bool.and_eq_true, beq_iff_eq, Option.isNone_iff_eq_none,
        Option.isSome_iff_exists] at hlate
      obtain ⟨⟨⟨hin, hnone⟩, o, ho⟩, hreads⟩ := hlate
      exact ⟨l₁, l₂, pid, input, draw, K, d₁, d₂, hlog, 4, o, hnone, ho,
        not_inWindows_of_reads hin hreads⟩
    | _ => cases hlate
  | _ => cases hlate

end SoldOutAfterHours

end EchoAndAura
