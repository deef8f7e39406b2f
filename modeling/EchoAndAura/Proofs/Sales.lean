import EchoAndAura.Proofs.Services
import EchoAndAura.Proofs.Ledger

/-!
# Orders among others

The requests of buyers, admins and the expiry job are walked with the rules for service functions.
An order is requested inside its windows (`createOrder_wp`); a sale that fails has changed nothing
(`Svc.calm`), and the expiry job counts what it gives back (`expireLapsedHolds_wp`).
-/

namespace EchoAndAura

open Txn (Lock writeAll Rely)

variable {α β γ : Type} {q : Request} {τ : List Obs} {d : Db}

section Orders

open ordersService

/-- What `checkOrder` has settled, and what it saw, by the time the database is `d`. -/
structure CheckedFrom (input : CreateOrderInput) (c : Checked) (τ : List Obs) (d : Db) : Prop where
  quantity : c.totals.quantity = input.quantity
  ticketTypeId : c.ticketTypeId = input.ticketTypeId
  seen : Seen input τ fun at_ event t =>
    c.requestedAt = at_ ∧ event.Takes at_ ∧ (0 < t.available → t.OnSale at_)
  since : ∃ τ₁ d₁ d₂ τ₂, τ = τ₁ ++ .commit [] d₂ d₂ :: τ₂ ∧ .read "now" d₁ ∈ τ₁ ∧
    c.requestedAt = d₁.clock ∧ Later d₂ d

theorem resolvePromo_wp {raw : String} {types : List (Id × TicketType)} {ticketTypeId : Id}
    {Q : Id × PromoCode → List Obs → Db → Prop} {E : Err → List Obs → Db → Prop}
    (hq : ∀ τ, q.closed τ) (error : ∀ e τ' d', Idled τ d τ' d' → E e τ' d')
    (ok : ∀ r τ' d', Idled τ d τ' d' → Q r τ' d') :
    (resolvePromo raw types ticketTypeId).wp q Q E τ d := by
  refine Svc.wp_bind (Svc.wp_query (hq _) error fun d₁ τ₁ e₁ _ _ _ i₁ => ?_)
  have fails : ∀ e d', Later e₁ d' → E e τ₁ d' := fun e d' h' => error _ _ _ (i₁.trans (.wait h'))
  refine Svc.wp_ofExcept (fun refusal _ => ?_) fails
  split
  · exact Svc.wp_pure fun d' h' => ok _ _ _ (i₁.trans (.wait h'))
  · exact Svc.wp_throw (fails _)

theorem promoOf_wp {raw : Option String} {types : List (Id × TicketType)} {ticketTypeId : Id}
    {Q : Option (Id × PromoCode) → List Obs → Db → Prop} {E : Err → List Obs → Db → Prop}
    (hq : ∀ τ, q.closed τ) (error : ∀ e τ' d', Idled τ d τ' d' → E e τ' d')
    (ok : ∀ r τ' d', Idled τ d τ' d' → Q r τ' d') :
    (promoOf raw types ticketTypeId).wp q Q E τ d := by
  rcases raw with _ | raw
  · exact Svc.wp_pure fun d' h' => ok _ _ _ (.wait h')
  refine Svc.wp_ite (fun _ => Svc.wp_pure fun d' h' => ok _ _ _ (.wait h')) fun _ => ?_
  exact Svc.wp_map (resolvePromo_wp hq error fun r τ' d' hi d'' h'' =>
    ok _ _ _ (hi.trans (.wait h'')))

theorem takes_of_eventPhase {event : Event} (available : Int) {at_ : Time}
    (hs : event.status = .published) (hp : eventPhase event available at_ = .open ∨
      eventPhase event available at_ = .closingSoon ∨ eventPhase event available at_ = .soldOut) :
    event.Takes at_ := by
  unfold eventPhase at hp
  by_cases hstart : event.startsAt ≤ at_
  · simp [hstart] at hp
  rcases ho : event.registrationOpensAt with _ | opens
  · simp [hstart, ho] at hp
  rcases hc : event.registrationClosesAt with _ | closes
  · simp [hstart, ho, hc] at hp
  by_cases hcloses : closes ≤ at_
  · simp [hstart, ho, hc, hcloses] at hp
  by_cases hopens : at_ < opens
  · simp [hstart, ho, hc, hcloses, hopens] at hp
  exact ⟨hs, ⟨opens, ho, not_lt.1 hopens⟩, ⟨closes, hc, not_le.1 hcloses⟩, not_le.1 hstart⟩

theorem takes_of_assertOpen {event : Event} {types : List (Id × TicketType)} {at_ : Time}
    (hs : event.status = .published) (h : assertOpen event types at_ = .ok ()) :
    event.Takes at_ := by
  simp only [assertOpen] at h
  split_ifs at h with hp
  refine takes_of_eventPhase (types.map fun t => max 0 t.2.available).sum hs ?_
  simp only [Bool.and_eq_true, bne_iff_ne, ne_eq, not_and, not_not] at hp
  tauto

theorem onSale_of_assertOnSale {id : Id} {t : TicketType} {at_ : Time}
    (h : assertOnSale id t at_ = .ok ()) (ha : 0 < t.available) : t.OnSale at_ := by
  unfold assertOnSale ticketTypeSaleState at h
  rw [if_neg (by omega)] at h
  split_ifs at h with h₁ h₂
  exact ⟨fun s hs => by simpa [hs] using h₁, fun e he => by simpa [he] using h₂⟩

theorem computeOrderTotals_quantity {price quantity discount : Int} {r : OrderTotals}
    (h : computeOrderTotals price quantity discount = .ok r) : r.quantity = quantity := by
  simp only [computeOrderTotals, bind, Except.bind] at h
  repeat' split at h
  all_goals cases h
  rfl

theorem checkOrder_wp {input : CreateOrderInput} {Q : Checked → List Obs → Db → Prop}
    {E : Err → List Obs → Db → Prop} (hq : ∀ τ, q.closed τ)
    (error : ∀ e τ' d', Idled τ d τ' d' → E e τ' d')
    (ok : ∀ c τ' d', Idled τ d τ' d' → CheckedFrom input c τ' d' → Q c τ' d') :
    (checkOrder input).wp q Q E τ d := by
  have fails : ∀ e {τ₁ e₁}, Idled τ d τ₁ e₁ → ∀ d', Later e₁ d' → E e τ₁ d' :=
    fun e _ _ hi d' h' => error e _ _ (hi.trans (.wait h'))
  unfold checkOrder
  refine Svc.wp_bind (Svc.wp_now fun d₁ τ₁ e₁ m₁ i₁ => ?_)
  refine Svc.wp_bind (Svc.wp_autocommit (hq _) (fun e _ _ hi => error e _ _ (i₁.trans hi))
    fun d₂ τ₂ e₂ m₂ i₂ since => ?_)
  have h₂ := i₁.trans i₂
  split
  swap
  · exact Svc.wp_throw (fails _ h₂)
  rename_i eventId event hev
  refine Svc.wp_ite (fun _ => Svc.wp_throw_bind (fails _ h₂)) fun hpub => ?_
  refine Svc.wp_bind (Svc.wp_query (hq _) (fun e _ _ hi => error e _ _ (h₂.trans hi))
    fun d₃ τ₃ e₃ _ _ m₃ i₃ => ?_)
  have h₃ := h₂.trans i₃
  split
  swap
  · exact Svc.wp_throw (fails _ h₃)
  rename_i ticketTypeId t hty
  refine Svc.wp_ofExcept (fun _ hopen => ?_) fun e => fails e h₃
  refine Svc.wp_ofExcept (fun _ hsale => ?_) fun e => fails e h₃
  refine Svc.wp_ite (fun _ => Svc.wp_throw_bind (fails _ h₃)) fun _ => ?_
  refine Svc.wp_bind (promoOf_wp hq (fun e _ _ hi => error e _ _ (h₃.trans hi))
    fun promo τ₄ e₄ i₄ => ?_)
  refine Svc.wp_ofExcept (fun discount _ => ?_) fun e => fails e (h₃.trans i₄)
  refine Svc.wp_ofExcept (fun totals htotals => ?_) fun e => fails e (h₃.trans i₄)
  refine Svc.wp_pure fun d' h' => ok _ _ _
    (i₁.trans (i₂.trans (i₃.trans (i₄.trans (.wait h'))))) ?_
  obtain ⟨e, he, heq⟩ := Option.map_eq_some_iff.1 hev
  cases heq
  have hslug := List.find?_some he
  have hmem := List.mem_of_find?_eq_some he
  have hid := List.find?_some hty
  have htypes := List.mem_of_find?_eq_some hty
  simp only [Db.ticketTypesOf, List.mem_map, List.mem_filter, Prod.mk.injEq] at htypes
  obtain ⟨row, ⟨hrow, hevent⟩, rfl, rfl⟩ := htypes
  refine ⟨computeOrderTotals_quantity htotals, by simpa using hid, ⟨d₁, d₂, d₃, e.1, e.2, row.2, i₄.mem (i₃.mem (i₂.mem m₁)), i₄.mem (i₃.mem m₂), i₄.mem m₃,
    AList.mem_lookup_iff.2 hmem, by simpa using hslug, ?_, by simpa using hevent, rfl,
    takes_of_assertOpen (by simpa using hpub) hopen, onSale_of_assertOnSale hsale⟩, ?_⟩
  · have hid : row.1 = input.ticketTypeId := by simpa using hid
    exact hid ▸ AList.mem_lookup_iff.2 hrow
  · obtain ⟨d₄, rs, rfl, hl⟩ := since
    obtain ⟨⟨rs', rfl, -⟩, hl'⟩ := i₃.trans (i₄.trans (.wait h'))
    exact ⟨τ₁ ++ rs, d₁, d₄, rs', by simp, List.mem_append_left _ m₁, rfl, hl.trans hl'⟩

theorem createOrder_wp {input : CreateOrderInput} {draw : Nat → OrderDraw} (hτ : Quiet τ) :
    (Request.createOrder input draw).handler.wp (.createOrder input draw) (fun _ _ _ => True)
      (fun _ τ' _ => Quiet τ') τ d := by
  refine Svc.wp_bind (Svc.wp_bind (checkOrder_wp (fun _ => trivial) (fun _ _ _ hi => hi.quiet hτ)
    fun c τ₁ e₁ i₁ hc => ?_))
  refine Svc.wp_bind (Svc.wp_retry (fun _ undone d d'' => undone = [] ∧
      (Request.createOrder input draw).moves d d'' ∧
      (∃ d₀, Later e₁ d₀ ∧
        CountedFrom (Rely Good) c.eventId input.buyerPhone (lapsedBefore c.requestedAt) d₀ d) ∧
      ∃ x, ∀ id o,
      d.orders.lookup id = none → d''.orders.lookup id = some o → o = newOrder input c x)
    (fun x d₀ d' hl => ?_) (fun τ' d' _ undone d'' hi hnew => ?_)
    (fun _ _ _ hi => (i₁.trans hi).quiet hτ) (fun τ' d' K a _ d₁ d'' _ _ _ _ => ?_) _ _ (.refl _ _))
  · exact Txn.Tx.commits_mono
      (fun _ _ _ _ h => ⟨[], h.1, rfl, h.2.1 _, ⟨d₀, hl, h.2.2.1⟩, x, h.2.2.2⟩)
      (createOrderTx_commits hc.quantity)
  · obtain ⟨rfl, hmoves, ⟨d₀, hl, hcount⟩, x, hx⟩ := hnew
    refine ⟨⟨rfl, fun id o h₀ h₁ => ?_⟩, hmoves⟩
    obtain rfl := hx id o h₀ h₁
    refine ⟨?_, ?_⟩
    · obtain ⟨a₁, a₂, a₃, eventId, event, t, m₁, m₂, m₃, he, hs, ht, hte, hat, hw, hsale⟩ := hc.seen
      exact ⟨hc.ticketTypeId, a₁, a₂, a₃, eventId, event, t, hi.mem m₁, hi.mem m₂, hi.mem m₃, he,
        hs, ht, hte, hat ▸ rfl, hw, hsale⟩
    · obtain ⟨τ₁', a₁, a₂, τ₂, rfl, hnow, hat, hl'⟩ := hc.since
      obtain ⟨⟨rs, rfl, -⟩, -⟩ := hi
      rw [hat] at hcount
      obtain ⟨ids, hlen, hids⟩ := counted_of_rely (o := newOrder input c x) (hl'.trans hl) rfl rfl
        hcount
      exact ⟨τ₁', a₁, a₂, τ₂ ++ rs, ids, by simp, hnow, hlen, hids⟩
  · exact Svc.wp_say_bind trivial (Svc.wp_pure fun _ _ => Svc.wp_pure fun _ _ => trivial)

end Orders

section Plain

/-- A request of which nothing is asked but that its commits are effects that undo no check-in. -/
structure Request.Plain (q : Request) : Prop where
  closed : ∀ τ, q.closed τ
  commit : ∀ τ d d', q.mayCommit τ d d' []

variable {Q : α → List Obs → Db → Prop} {E : Err → List Obs → Db → Prop}

/-- The commits of a transaction that only makes effects of its request. -/
theorem commits_effect {t : Tx α} {R : List (Lock Row) → Db → Db → Prop} {d₀ : Db}
    (ht : t.commits R d (fun _ _ K ws => EffectOf q K d ws) d₀ [] []) :
    t.commits R d (fun _ _ K ws => ∃ undone, Effect K d ws undone ∧ undone = [] ∧
      q.moves d (writeAll ws d)) d₀ [] [] :=
  Txn.Tx.commits_mono (fun _ _ _ _ h => ⟨[], h.1, rfl, h.2⟩) ht

theorem Request.Plain.may (hq : q.Plain) {d' : Db} {undone : List (Id × CheckIn)}
    (h : undone = [] ∧ q.moves d d') : q.mayCommit τ d d' undone ∧ q.moves d d' :=
  ⟨h.1 ▸ hq.commit _ _ _, h.2⟩

theorem Svc.wp_effect {t : Tx α} (hq : q.Plain)
    (ht : ∀ d', Later d d' → t.commits (Rely Good) d' (fun _ _ K ws => EffectOf q K d' ws) d [] [])
    (error : ∀ e τ' d', Idled τ d τ' d' → E e τ' d') (ok : ∀ a τ' d', Q a τ' d') :
    (Svc.transaction t).wp q Q E τ d :=
  Svc.wp_transaction (fun _ undone d d' => undone = [] ∧ q.moves d d')
    (fun d' h' => commits_effect (ht d' h')) (fun _ _ _ _ _ _ _ hu => hq.may hu)
    (fun _ _ _ hrs h' => error _ _ _ (.reads hrs h')) fun _ _ _ _ _ _ _ _ _ _ _ _ => ok _ _ _

theorem Svc.wp_retryEffect {ι : Type} {collision : Err → Bool} {t : ι → Tx α} {draw : Nat → ι}
    {attempt more : Nat} (hq : q.Plain)
    (ht : ∀ x d₀ d', (t x).commits (Rely Good) d' (fun _ _ K ws => EffectOf q K d' ws) d₀ [] [])
    (error : ∀ e τ' d', Idled τ d τ' d' → E e τ' d') (ok : ∀ a τ' d', Q a τ' d') :
    (Svc.retry collision t draw attempt more).wp q Q E τ d :=
  Svc.wp_retry (fun _ undone d d' => undone = [] ∧ q.moves d d')
    (fun x d₀ d' _ => commits_effect (ht x d₀ d')) (fun _ _ _ _ _ _ hu => hq.may hu) error
    (fun _ _ _ a _ _ _ _ _ _ _ => ok a _ _) _ _ (.refl _ _)

end Plain

section Expiry

open ordersService

theorem Expiries.append {n : Nat} (h : Expiries τ n) :
    ∀ {rs : List Obs}, Quiet rs → Expiries (τ ++ rs) n := by
  intro rs
  induction rs using List.reverseRecOn with
  | nil => exact fun _ => by simpa using h
  | append_singleton rs o ih =>
    intro hq
    rw [← List.append_assoc]
    obtain ⟨hrs, ho⟩ := quiet_append.1 hq
    exact .idle (ih hrs) fun K d d' heq => ho K d d' (heq ▸ List.mem_singleton_self _)

theorem Expiries.idled {n : Nat} {τ' : List Obs} {d' : Db} (h : Expiries τ n)
    (hi : Idled τ d τ' d') : Expiries τ' n := by
  obtain ⟨⟨rs, rfl, hrs⟩, -⟩ := hi
  exact h.append hrs

theorem lapsedFrom_of_mem {t : Time} {limit : Nat} {hold : ordersRepository.LapsedHold}
    (h : hold ∈ ordersRepository.lapsedHolds d t limit) : LapsedFrom hold d := by
  obtain ⟨e, he, rfl⟩ := List.mem_map.1 h
  have he := List.mem_of_mem_take he
  simp only [List.mem_insertionSort, List.mem_filter] at he
  exact ⟨e.2, AList.mem_lookup_iff.2 he.1, rfl, rfl⟩

theorem LapsedFrom.grows {hold : ordersRepository.LapsedHold} {d' : Db} (h : LapsedFrom hold d)
    (hg : Grows d d') : LapsedFrom hold d' := by
  obtain ⟨o, ho, ht, hq⟩ := h
  obtain ⟨o', ho', ht', hq'⟩ := hg.order ho
  exact ⟨o', ho', ht'.trans ht, hq'.trans hq⟩

/-- The expiry job has given back some number of holds, and committed nothing else. -/
abbrev Svc.expires (s : Svc α) (n : α → Nat) (τ : List Obs) (d : Db) : Prop :=
  s.wp .expireLapsedHolds (fun a τ' d' => Logged d' ∧ Expiries τ' (n a))
    (fun _ τ' _ => ∃ n, Expiries τ' n) τ d

theorem expireHolds_wp :
    ∀ {holds : List ordersRepository.LapsedHold} {n : ExpiryCount} {skipped : List Id}
      {τ : List Obs} {d : Db}, Logged d → Expiries τ n.expired → (∀ h ∈ holds, LapsedFrom h d) →
      (expireHolds holds n skipped).expires (·.1.expired) τ d
  | [], n, skipped, τ, d, hd, hn, _ => Svc.wp_pure fun d' h' => ⟨logged_of_rely h' hd, hn⟩
  | hold :: holds, n, skipped, τ, d, hd, hn, hl => by
    have rest : ∀ {d'}, Grows d d' → ∀ h ∈ holds, LapsedFrom h d' :=
      fun hg h hh => (hl h (by simp [hh])).grows hg
    refine Svc.wp_bind (Svc.wp_attempt (fun done undone d d' => (undone = [] ∧
        Request.expireLapsedHolds.moves d d') ∧ if done then Expires hold.id d d' else d' = d)
      (fun d' h' => Txn.Tx.commits_mono (fun done _ K ws h => ?_)
        (expireHoldTx_commits ((hl hold (by simp)).grows (grows_of_rely h'))))
      (fun _ _ _ _ _ _ _ hu => ⟨hu.1.1, hu.1.2⟩) (fun e rs d' hrs h' => ?_)
      fun rs d' K done undone d₁ d'' hrs h' hg hp h'' => ?_)
    · refine ⟨[], h.1.1, ⟨rfl, h.1.2⟩, ?_⟩
      split_ifs with hdone
      · simpa [hdone] using h.2
      · have hws : ws = [] := by simpa [hdone] using h.2
        rw [hws]
        rfl
    · exact expireHolds_wp (logged_of_rely h' hd) (hn.append (quiet_of_reads hrs))
        (rest (grows_of_rely h'))
    · have hd'' := logged_of_rely h'' (hg.logged (logged_of_rely h' hd))
      have hrest := rest ((grows_of_rely h').trans (hg.grows.trans (grows_of_rely h'')))
      have hreads := hn.append (quiet_of_reads hrs)
      cases done with
      | true =>
        refine Svc.wp_say_bind trivial (expireHolds_wp hd'' ?_ hrest)
        exact .idle (.expired hreads (by simpa using hp.2)) fun _ _ _ h => nomatch h
      | false =>
        obtain rfl : d₁ = d' := by simpa using hp.2
        refine expireHolds_wp hd'' (.idle hreads fun K d d' heq => ?_) hrest
        cases heq
        rfl

theorem expireBatches_wp {t : Time} :
    ∀ {batches : Nat} {n : ExpiryCount} {skipped : List Id} {τ : List Obs} {d : Db}, Logged d →
      Expiries τ n.expired → (expireBatches t batches n skipped).expires (·.expired) τ d
  | 0, _, _, _, _, hd, hn => Svc.wp_pure fun _ h' => ⟨logged_of_rely h' hd, hn⟩
  | batches + 1, n, skipped, τ, d, hd, hn => by
    refine Svc.wp_bind (Svc.wp_query trivial (fun _ _ _ hi => ⟨_, hn.idled hi⟩)
      fun d₁ τ₁ d' _ h₁' _ hi => ?_)
    have hd' := logged_of_rely hi.later hd
    have hn' := hn.idled hi
    refine Svc.wp_ite (fun _ => Svc.wp_pure fun _ h' => ⟨logged_of_rely h' hd', hn'⟩) fun _ => ?_
    refine Svc.wp_bind (Svc.wp_mono (fun r τ₂ d₂ h₂ => ?_) (fun _ _ _ h => h)
      (expireHolds_wp hd' hn' fun h hh =>
        (lapsedFrom_of_mem (List.mem_of_mem_filter hh)).grows (grows_of_rely h₁')))
    exact Svc.wp_ite (fun _ => Svc.wp_pure fun _ h' => ⟨logged_of_rely h' h₂.1, h₂.2⟩)
      fun _ => expireBatches_wp h₂.1 h₂.2

theorem expireLapsedHolds_wp (hd : Logged d) : expireLapsedHolds.expires (·.expired) [] d :=
  Svc.wp_bind (Svc.wp_now fun _ _ _ _ hi =>
    expireBatches_wp (logged_of_rely hi.later hd) (Expiries.nil.idled hi))

end Expiry

section Requests

open ordersService fulfilmentService

/-- Nothing is asked of what a request ends in. -/
abbrev Svc.safe (q : Request) (s : Svc α) (τ : List Obs) (d : Db) : Prop :=
  s.wp q (fun _ _ _ => True) (fun _ _ _ => True) τ d

/-- A request that fails has changed nothing. -/
abbrev Svc.calm (q : Request) (s : Svc α) (τ : List Obs) (d : Db) : Prop :=
  s.wp q (fun _ _ _ => True) (fun _ τ' _ => Quiet τ') τ d

theorem updateTicketType_safe {id : Id} {input : ticketTypesRepository.Patch} (hq : q.Plain) :
    (ticketTypesService.updateTicketType id input).safe q τ d :=
  Svc.wp_bind (Svc.wp_effect hq
    (fun _ _ => Txn.Tx.commits_mono (fun _ _ _ _ => Aside.of) updateTicketType_commits)
    (fun _ _ _ _ => trivial) fun _ _ _ =>
    Svc.wp_ite (fun _ => Svc.wp_throw fun _ _ => trivial) fun _ => Svc.wp_pure fun _ _ => trivial)

theorem submitPayment_calm {orderId : Id} {input : SubmitPaymentInput} (hτ : Quiet τ) :
    (submitPayment orderId input).calm (.submitPayment orderId input) τ d :=
  Svc.wp_effect ⟨fun _ => trivial, fun _ _ _ => rfl⟩ (fun _ _ => submitPaymentTx_commits)
    (fun _ _ _ hi => hi.quiet hτ) fun _ _ _ => trivial

theorem issueComplimentaryTickets_calm {input : ComplimentaryInput} {draw : Nat → CompDraw}
    (hτ : Quiet τ) : (issueComplimentaryTickets input draw).calm
      (.issueComplimentaryTickets input draw) τ d := by
  refine Svc.wp_bind (Svc.wp_query trivial (fun _ _ _ hi => hi.quiet hτ)
    fun d₁ τ₁ d' _ _ _ hi => ?_)
  have hτ₁ := hi.quiet hτ
  split
  swap
  · exact Svc.wp_throw fun _ _ => hτ₁
  refine Svc.wp_ite (fun _ => Svc.wp_throw_bind fun _ _ => hτ₁) fun _ => ?_
  refine Svc.wp_ofExcept (fun discount _ => ?_) fun _ _ _ => hτ₁
  refine Svc.wp_ofExcept (fun totals htotals => ?_) fun _ _ _ => hτ₁
  refine Svc.wp_bind (Svc.wp_retryEffect ⟨fun _ => trivial, fun _ _ _ => rfl⟩
    (fun _ _ _ => issueComplimentaryTx_commits (computeOrderTotals_quantity htotals))
    (fun _ _ _ hi => hi.quiet hτ₁) fun _ _ _ => ?_)
  exact Svc.wp_say_bind trivial (Svc.wp_pure fun _ _ => trivial)

theorem approveOrder_calm {orderId : Id} {input : ApproveInput} {draw : Nat → TicketDraw}
    (hτ : Quiet τ) : (approveOrder orderId input draw).calm (.approveOrder orderId input draw) τ d :=
  Svc.wp_bind (Svc.wp_retryEffect ⟨fun _ => trivial, fun _ _ _ => rfl⟩
    (fun _ _ _ => approveOrderTx_commits) (fun _ _ _ hi => hi.quiet hτ) fun _ _ _ =>
    Svc.wp_say_bind trivial (Svc.wp_pure fun _ _ => trivial))

theorem rejectOrder_calm {orderId : Id} {input : RejectInput} (hτ : Quiet τ) :
    (rejectOrder orderId input).calm (.rejectOrder orderId input) τ d := by
  unfold rejectOrder
  split
  · exact Svc.wp_bind (Svc.wp_effect ⟨fun _ => trivial, fun _ _ _ => rfl⟩
      (fun _ _ => rejectOrderTx_commits) (fun _ _ _ hi => hi.quiet hτ) fun _ _ _ =>
      Svc.wp_say_bind trivial (Svc.wp_pure fun _ _ => trivial))
  · exact Svc.wp_throw fun _ _ => hτ

/-- While an order is locked, nobody issues or cancels a ticket of its. -/
theorem issuedOf_rely {K : List (Lock Row)} {orderId : Id} {d' : Db}
    (hK : (Row.order orderId, Txn.Mode.excl) ∈ K) (h : Rely Good K d d') {o : Order}
    (ho : d'.orders.lookup orderId = some o) (id : Id) :
    d.IssuedOf orderId id ↔ d'.IssuedOf orderId id := by
  have hthere : d.orders.lookup orderId = some o := (h.same hK).trans ho
  have hkept := h.preserves_beside (I := fun d' => d'.orders.lookup orderId = some o ∧
    (d'.IssuedOf orderId id ↔ d.IssuedOf orderId id)) ?_ ⟨hthere, .rfl⟩
  · exact hkept.2.symm
  · rintro q τ L d₁ d₂ ⟨ws, undone, he, rfl, -⟩ hbeside hsame ⟨ho₁, hiff⟩
    have hL : (Row.order orderId, Txn.Mode.excl) ∉ L := by
      intro hm
      exact hbeside _ hK _ hm ⟨rfl, by simp⟩
    have hrow : (writeAll ws d₁).orders.lookup orderId = some o := (hsame _ hK).symm.trans ho₁
    exact ⟨hrow, (he.issuedOf ho₁ hL id).trans hiff⟩

theorem cancelTicket_calm {ticketId : Id} {input : CancelTicketInput} (hτ : Quiet τ) :
    (cancelTicket ticketId input).calm (.cancelTicket ticketId input) τ d :=
  Svc.wp_effect ⟨fun _ => trivial, fun _ _ _ => rfl⟩
    (fun _ _ => cancelTicketTx_commits fun _ _ _ id hK h ho => issuedOf_rely hK h ho id)
    (fun _ _ _ hi => hi.quiet hτ) fun _ _ _ => trivial

theorem renameAttendee_calm {rawCode rawName : String} (hτ : Quiet τ) :
    (ticketsService.renameAttendee rawCode rawName).calm (.renameAttendee rawCode rawName) τ d := by
  unfold ticketsService.renameAttendee
  dsimp only
  split
  swap
  · exact Svc.wp_throw fun _ _ => hτ
  refine Svc.wp_bind (Svc.wp_query trivial (fun _ _ _ hi => hi.quiet hτ)
    fun d₁ τ₁ e₁ _ h₁ _ i₁ => ?_)
  have hτ₁ := i₁.quiet hτ
  split
  swap
  · exact Svc.wp_throw fun _ _ => hτ₁
  rename_i id ticket hfound
  refine Svc.wp_ite (fun _ => Svc.wp_throw_bind fun _ _ => hτ₁) fun _ => ?_
  refine Svc.wp_bind (Svc.wp_query trivial (fun _ _ _ hi => hi.quiet hτ₁)
    fun d₂ τ₂ e₂ h₂ h₂' _ i₂ => ?_)
  have hτ₂ := i₂.quiet hτ₁
  split
  swap
  · exact Svc.wp_throw fun _ _ => hτ₂
  refine Svc.wp_bind (Svc.wp_now fun d₃ τ₃ e₃ _ i₃ => ?_)
  have hτ₃ := i₃.quiet hτ₂
  refine Svc.wp_ite (fun _ => Svc.wp_throw_bind fun _ _ => hτ₃) fun _ => ?_
  refine Svc.wp_effect ⟨fun _ => trivial, fun _ _ _ => rfl⟩ (fun d' h' => ?_)
    (fun _ _ _ hi => hi.quiet hτ₃) fun _ _ _ => trivial
  refine renameAttendeeTx_commits fun t' ht' => ?_
  obtain ⟨e, he, heq⟩ := Option.map_eq_some_iff.1 hfound
  cases heq
  have hrow := AList.mem_lookup_iff.2 (List.mem_of_find?_eq_some he)
  obtain ⟨t'', ht'', horder, -⟩ :=
    (grows_of_rely (h₁.trans (h₂.trans (h₂'.trans (i₃.later.trans h'))))).ticket hrow
  rw [Option.some.inj (ht'.symm.trans ht'')]
  exact horder

end Requests

end EchoAndAura
