import EchoAndAura.Proofs.Settling

/-!
# What the buyer is told

Which moves a commit of the sale makes is read off its writes, and each is mailed before its request
goes on.
-/

namespace EchoAndAura

open Txn (Lock writeAll Rely Telling)

variable {α β γ : Type} {q : Request} {d d' : Db}

section Commits

/-- A commit that checks nobody in or out: no scan is logged, no check-in taken back. -/
theorem Request.commits.checkIn (h : q.commits d d') (hq : q.isUndo = false)
    (hs : d'.doorScans = d.doorScans) (id : Id) : d'.checkIn id = d.checkIn id := by
  obtain ⟨τ, K, ws, undone, he, rfl, hm, -⟩ := h
  obtain rfl : undone = [] := by
    cases q with
    | createOrder => exact hm.1
    | undoScan | undoCheckIn | revokeAndUndo => cases hq
    | _ => exact hm
  cases he.ticket id with
  | same row => rw [Db.checkIn, Db.checkIn, row]
  | issued fresh row _ out => simp [Db.checkIn, fresh, row, out]
  | cancelled row _ out row' => simp [Db.checkIn, row, row', out]
  | renamed row _ row' => simp [Db.checkIn, row, row']
  | admitted admission _ scan =>
    rw [hs, admission.fresh] at scan
    cases scan
  | undone _ _ _ taken => exact absurd ((taken _).2 rfl) (by simp)

/-- The requests that write to the buyer. -/
def Request.mails : Request → Bool
  | .createOrder .. | .expireLapsedHolds | .issueComplimentaryTickets .. | .approveOrder ..
  | .rejectOrder .. => true
  | _ => false

theorem Db.status_of_lookup {id : Id} {o : Order} (h : d.orders.lookup id = some o) :
    d.status id = some o.status := by
  rw [Db.status, h]
  rfl

theorem Db.status_ne {id : Id} {o : Order} {s : OrderStatus} (h : d.orders.lookup id = some o)
    (hne : o.status ≠ s) : d.status id ≠ some s := by
  rw [Db.status_of_lookup h]
  exact fun he => hne (Option.some.inj he)

/-- No other request brings an order to a status a mail goes out for. -/
theorem Request.commits.order (h : q.commits d d') (hq : q.mails = false) (id : Id)
    (s : OrderStatus) : ¬(Move.order id s).made d d' := by
  rintro ⟨hs, hne, heq⟩
  obtain ⟨τ, K, hg⟩ := h
  obtain ⟨ws, undone, -, -, -, hmoves⟩ := hg
  obtain ⟨o', ho', rfl⟩ := Option.map_eq_some_iff.1 heq
  rcases ho : d.orders.lookup id with _ | o
  · have := hmoves.new ho ho'
    cases q <;> simp_all [Request.mayMake, Request.mails]
  · rcases hmoves.row ho ho' with rfl | hm
    · exact hne (Db.status_of_lookup ho)
    · cases q with
      | submitPayment =>
        rw [hm.2] at hs
        simp [mailedStatuses] at hs
      | cancelTicket =>
        rw [hm.2.2] at hs
        simp [mailedStatuses] at hs
      | createOrder | expireLapsedHolds | issueComplimentaryTickets | approveOrder | rejectOrder =>
        cases hq
      | _ => exact hm

/-- A commit that logs no scan, of a request that writes to nobody, makes no move. -/
theorem Request.commits.quiet (h : q.commits d d') (hu : q.isUndo = false) (hq : q.mails = false)
    (hs : d'.doorScans = d.doorScans) (m : Move) : ¬telling.makes m d d' := by
  cases m with
  | order id s => exact h.order hq id s
  | checkedIn id =>
    rintro ⟨hout, hin⟩
    rw [h.checkIn hu hs, hout] at hin
    cases hin
  | undone id =>
    rintro ⟨hin, hout⟩
    rw [← h.checkIn hu hs, hout] at hin
    cases hin

/-- A commit that puts one order in a status and logs no scan. -/
structure Turns (id : Id) (s : OrderStatus) (d d' : Db) : Prop where
  before : d.status id ≠ some s
  after : ∃ o, d'.orders = d.orders.insert id o ∧ o.status = s
  scans : d'.doorScans = d.doorScans

theorem Turns.made {id : Id} {s : OrderStatus} (h : Turns id s d d') (hs : s ∈ mailedStatuses)
    (hc : q.commits d d') (hu : q.isUndo = false) (m : Move) :
    telling.makes m d d' ↔ m = .order id s := by
  obtain ⟨o, ho, rfl⟩ := h.after
  have hstatus : ∀ id', d'.status id' = if id' = id then some o.status else d.status id' := by
    intro id'
    rw [Db.status, ho, Table.lookup_insert_eq]
    split_ifs
    · rfl
    · rfl
  refine ⟨fun hm => ?_, ?_⟩
  · cases m with
    | order id' s' =>
      obtain ⟨-, hne, heq⟩ := hm
      rw [hstatus] at heq
      split_ifs at heq with hid
      · rw [hid, Option.some.inj heq]
      · exact absurd heq hne
    | checkedIn id' =>
      obtain ⟨hout, hin⟩ := hm
      rw [hc.checkIn hu h.scans, hout] at hin
      cases hin
    | undone id' =>
      obtain ⟨hin, hout⟩ := hm
      rw [← hc.checkIn hu h.scans, hout] at hin
      cases hin
  · rintro rfl
    exact ⟨hs, h.before, by rw [hstatus, if_pos rfl]⟩

/-- One move is owed. -/
theorem after_one {m : Move} (h : ∀ m', telling.makes m' d d' ↔ m' = m) :
    0 < (telling.after Telling.clear d d').may m ∧
      Telling.less (telling.after Telling.clear d d') m = Telling.clear := by
  have hdue : ∀ m', m' ≠ m → ¬telling.due m' d d' := fun m' hne hm =>
    hne ((h m').1 (telling.due_makes hm))
  refine ⟨by simp [Telling.after, Telling.clear, h], ?_⟩
  simp only [Telling.less, Telling.after, Telling.clear, Txn.Debt.mk.injEq]
  refine ⟨funext fun m' => ?_, funext fun m' => ?_⟩
  · by_cases hm : m' = m
    · simp [hm, h]
    · simp [hm, h]
  · by_cases hm : m' = m
    · subst hm
      rw [if_pos rfl]
      split_ifs
      · rfl
      · rfl
    · rw [if_neg hm, if_neg (hdue m' hm)]

/-- One move made is told at once. -/
theorem Svc.pays_say {o : Say} {m : Move} (ho : o.move = some m)
    (h : ∀ m', telling.makes m' d d' ↔ m' = m) :
    (Svc.say o).pays q (telling.after Telling.clear d d') d' :=
  Svc.tells_say ho (after_one h).1 (after_one h).2

end Commits

section Sales

open ordersService fulfilmentService

variable {R : List (Lock Row) → Db → Db → Prop} {d₀ : Db}

theorem createOrderTx_turns {input : CreateOrderInput} {c : Checked} {draw : OrderDraw} :
    (createOrderTx input c draw).commits R d
      (fun a _ _ ws => Turns a.1 .pendingPayment d (writeAll ws d)) d₀ [] [] := by
  refine commits_onRow (fun _ _ _ _ h => nomatch h) (fun _ _ => ?_) (fun _ h => nomatch h)
    fun _ _ h => nomatch h
  refine commits_reads fun d₁ _ _ => ?_
  dsimp only
  split
  · exact commits_throw _ _
  refine commits_hold (fun _ => trivial) fun t ht _ _ => ?_
  refine commits_insertOrder fun _ hn _ K' => commits_append ?_
  refine ⟨?_, ⟨newOrder input c draw, rfl, rfl⟩, rfl⟩
  rw [Db.status, show d.orders.lookup draw.orderId = none from hn]
  nofun

theorem expireHoldTx_turns {hold : ordersRepository.LapsedHold} :
    (expireHoldTx hold).commits R d (fun done _ _ ws =>
      if done then Turns hold.id .expired d (writeAll ws d) else writeAll ws d = d) d₀ [] [] := by
  refine commits_transition (fun _ => rfl) fun o ho hs _ _ K' => ?_
  have hs : o.status = .pendingPayment := by simpa using hs
  refine commits_release fun t _ _ _ => commits_append
    ⟨Db.status_ne ho (by simp [hs]), ⟨_, rfl, rfl⟩, rfl⟩

theorem rejectOrderTx_turns {orderId : Id} {actor : String} {reason : RejectionReason}
    {note : Option String} : (rejectOrderTx orderId actor reason note).commits R d
      (fun _ _ _ ws => Turns orderId .rejected d (writeAll ws d)) d₀ [] [] := by
  refine commits_orderForUpdate (fun _ => trivial) fun o _ => ?_
  dsimp only
  split
  · exact commits_throw _ _
  refine commits_ofExcept fun _ _ => ?_
  refine commits_transition (fun _ => trivial) fun o' ho' hs _ _ K' => ?_
  have hs : o'.status = .pendingVerification := by simpa using hs
  refine commits_release fun t _ _ _ => commits_append
    ⟨Db.status_ne ho' (by simp [hs]), ⟨_, rfl, rfl⟩, rfl⟩

theorem approveOrderTx_turns {orderId : Id} {input : ApproveInput} {draw : TicketDraw} :
    (approveOrderTx orderId input draw).commits R d
      (fun _ _ _ ws => Turns orderId .issued d (writeAll ws d)) d₀ [] [] := by
  refine commits_orderForUpdate (fun _ => trivial) fun o _ => ?_
  dsimp only
  split
  · exact commits_throw _ _
  split
  · exact commits_throw _ _
  refine commits_ofExcept fun _ _ => commits_ofExcept fun _ _ => ?_
  refine commits_transition (fun _ => trivial) fun o' ho' hs _ _ K' => commits_append ?_
  have hs : o'.status = .pendingVerification := by simpa using hs
  refine commits_convertToSold fun t _ _ _ => ?_
  split
  · exact commits_throw _ _
  refine commits_insertMany fun e _ K' => ?_
  refine commits_transition (fun _ => trivial) fun o₂ _ _ _ _ K' => commits_append ?_
  refine ⟨Db.status_ne ho' (by simp [hs]), ⟨OrderPatch.apply {} .issued o₂, ?_, rfl⟩, ?_⟩
  all_goals
    simp [Txn.writeAll_append, writeAll_insertWrites, Write.apply, OrderPatch.trxWrites,
      OrderPatch.trxIds, AList.insert_insert]

theorem issueComplimentaryTx_turns {input : ComplimentaryInput} {t : TicketType}
    {totals : OrderTotals} {draw : CompDraw} :
    (issueComplimentaryTx input t totals draw).commits R d
      (fun a _ _ ws => Turns a.1 .issued d (writeAll ws d)) d₀ [] [] := by
  refine commits_hold (fun _ => trivial) fun t₁ _ _ _ => ?_
  refine commits_convertToSold fun t₂ _ _ _ => ?_
  refine commits_insertOrder fun _ hn _ K' => ?_
  dsimp only
  split
  · exact commits_throw _ _
  refine commits_insertMany fun e _ K' => commits_append ?_
  refine ⟨?_, ⟨compOrder input t totals draw.order, ?_, rfl⟩, ?_⟩
  · rw [Db.status, show d.orders.lookup draw.order.orderId = none from hn]
    nofun
  all_goals
    simp [Txn.writeAll_append, writeAll_insertWrites, Write.apply]

/-- A transaction that logs no scan. -/
abbrev ScansNone (t : Txn.Tx Db Row Write Err α) : Prop :=
  ∀ d₀ d, t.commits (Rely Good) d (fun _ _ _ ws => (writeAll ws d).doorScans = d.doorScans) d₀ [] []

theorem submitPaymentTx_scans {orderId : Id} {trxId sender : String} :
    ScansNone (submitPaymentTx orderId trxId sender) := by
  intro d₀ d
  refine commits_orderForUpdate (fun _ => trivial) fun o _ => ?_
  dsimp only
  split
  · exact commits_throw _ _
  refine commits_now fun t _ => ?_
  split
  · exact commits_throw _ _
  split
  on_goal 1 => refine commits_ofExcept fun _ _ => ?_
  all_goals
    refine commits_transition (fun _ => trivial) fun o' _ _ _ _ K' => commits_append ?_
    change (writeAll _ d).doorScans = _
    simp [Txn.writeAll_append, writeAll_trxWrites, Write.apply]

theorem cancelTicketTx_scans {ticketId : Id} {input : CancelTicketInput} :
    ScansNone (cancelTicketTx ticketId input) := by
  intro d₀ d
  refine commits_orderForUpdate (fun _ => trivial) fun o _ => ?_
  dsimp only
  split
  · exact commits_throw _ _
  refine commits_ticketForUpdate (fun _ => trivial) fun t _ => ?_
  dsimp only
  split
  · exact commits_throw _ _
  split
  · exact commits_throw _ _
  split
  · exact commits_throw _ _
  refine commits_updateTicket (fun _ _ _ _ => trivial) fun t' _ _ _ => ?_
  refine commits_releaseSold fun ty _ _ => commits_append (commits_reads fun d₁ _ _ => ?_)
  split
  · rfl
  refine commits_ofExcept fun _ _ => ?_
  exact commits_transition (fun _ => trivial) fun o' _ _ _ _ K' => commits_append rfl

theorem renameAttendeeTx_scans {id : Id} {t : Ticket} {code name : String} :
    ScansNone (ticketsService.renameAttendeeTx id t code name) := by
  intro d₀ d
  refine commits_orderForUpdate (fun _ => trivial) fun o _ => ?_
  exact commits_updateTicket (fun _ _ _ _ => trivial) fun t' _ _ _ => commits_append rfl

theorem updateTicketType_scans {id : Id} {patch : ticketTypesRepository.Patch} :
    ScansNone (exec (ticketTypesRepository.update id patch)) :=
  fun _ _ => commits_updateTicketType (k := pure) (fun _ => rfl) fun _ _ _ _ => rfl

theorem setClock_scans {t : Time} : ScansNone (exec (setClock t)) := by
  intro d₀ d
  refine commits_onRow (k := pure) (fun _ _ _ _ h => nomatch h) (fun _ h => nomatch h)
    (fun _ h => nomatch h) fun w r h => ?_
  cases h
  rfl

end Sales

section Desk

open ordersService fulfilmentService

/-- A request that writes to nobody, and a transaction of its that logs no scan. -/
theorem Svc.settles_scansNone {t : Txn.Tx Db Row Write Err α} (ht : ScansNone t)
    (hu : q.isUndo = false) (hq : q.mails = false) : (Svc.transaction t).settles q :=
  Svc.settles_transaction (P := fun _ d d' => d'.doorScans = d.doorScans) ht
    fun _ _ _ hc hs => hc.quiet hu hq hs

theorem promoOf_settles {promoCode : Option String} {eventTypes : List (Id × TicketType)}
    {ticketTypeId : Id} : (promoOf promoCode eventTypes ticketTypeId).settles q := by
  unfold promoOf
  split
  · exact Svc.settles_pure _
  refine Svc.settles_ite (fun _ => Svc.settles_pure _) fun _ => Svc.settles_map ?_
  refine Svc.settles_bind Svc.settles_query fun rule => ?_
  refine Svc.settles_bind (Svc.settles_ofExcept _) fun refusal => ?_
  split
  · exact Svc.settles_pure _
  · exact Svc.settles_throw _

theorem checkOrder_settles {input : CreateOrderInput} : (checkOrder input).settles q := by
  refine Svc.settles_bind Svc.settles_now fun requestedAt => ?_
  refine Svc.settles_bind Svc.settles_query fun found => ?_
  split
  swap
  · exact Svc.settles_throw _
  refine Svc.settles_ite (fun _ => Svc.settles_bind (Svc.settles_throw _) fun _ => ?_) fun _ => ?_
  all_goals
    refine Svc.settles_bind Svc.settles_query fun allTypes => ?_
    split
    swap
    · exact Svc.settles_throw _
    refine Svc.settles_bind (Svc.settles_ofExcept _) fun _ => ?_
    refine Svc.settles_bind (Svc.settles_ofExcept _) fun _ => ?_
    refine Svc.settles_ite (fun _ => Svc.settles_bind (Svc.settles_throw _) fun _ => ?_) fun _ => ?_
    all_goals
      refine Svc.settles_bind promoOf_settles fun promo => ?_
      refine Svc.settles_bind (Svc.settles_ofExcept _) fun _ => ?_
      exact Svc.settles_bind (Svc.settles_ofExcept _) fun _ => Svc.settles_pure _

theorem createOrder_settles {input : CreateOrderInput} {draw : Nat → OrderDraw}
    (hu : q.isUndo = false) : (createOrder input draw).settles q := by
  refine Svc.settles_bind checkOrder_settles fun c d => Svc.tells_bind (Svc.tells_retry
    (P := fun a d d' => Turns a.1 .pendingPayment d d') (fun _ _ _ => createOrderTx_turns)
    (fun _ => rfl) (fun a d₁ d₂ hc h => ?_) _ _ d)
  exact Svc.pays_bind (Svc.pays_say rfl (h.made (by decide) hc hu)) fun _ => Svc.settles_pure _

theorem issueComplimentaryTickets_settles {input : ComplimentaryInput} {draw : Nat → CompDraw}
    (hu : q.isUndo = false) : (issueComplimentaryTickets input draw).settles q := by
  refine Svc.settles_bind Svc.settles_query fun found => ?_
  split
  swap
  · exact Svc.settles_throw _
  refine Svc.settles_ite (fun _ => Svc.settles_bind (Svc.settles_throw _) fun _ => ?_) fun _ => ?_
  all_goals
    refine Svc.settles_bind (Svc.settles_ofExcept _) fun discount => ?_
    refine Svc.settles_bind (Svc.settles_ofExcept _) fun totals d => ?_
    refine Svc.tells_bind (Svc.tells_retry (P := fun a d d' => Turns a.1 .issued d d')
      (fun _ _ _ => issueComplimentaryTx_turns) (fun _ => rfl) (fun a d₁ d₂ hc h => ?_) _ _ d)
    exact Svc.pays_bind (Svc.pays_say rfl (h.made (by decide) hc hu)) fun _ => Svc.settles_pure _

theorem approveOrder_settles {orderId : Id} {input : ApproveInput} {draw : Nat → TicketDraw}
    (hu : q.isUndo = false) : (approveOrder orderId input draw).settles q :=
  fun d => Svc.tells_bind (Svc.tells_retry (P := fun _ d d' => Turns orderId .issued d d')
    (fun _ _ _ => approveOrderTx_turns) (fun _ => rfl) (fun _ _ _ hc h => Svc.pays_bind
      (Svc.pays_say rfl (h.made (by decide) hc hu)) fun _ => Svc.settles_pure _) _ _ d)

theorem rejectOrder_settles {orderId : Id} {input : RejectInput} (hu : q.isUndo = false) :
    (rejectOrder orderId input).settles q := by
  unfold rejectOrder
  split
  swap
  · exact Svc.settles_throw _
  exact Svc.settles_transaction_bind (P := fun _ d d' => Turns orderId .rejected d d')
    (fun _ _ => rejectOrderTx_turns) fun _ _ _ hc h =>
      Svc.pays_bind (Svc.pays_say rfl (h.made (by decide) hc hu)) fun _ => Svc.settles_pure _

theorem expireHolds_settles (hu : q.isUndo = false) :
    ∀ (holds : List ordersRepository.LapsedHold) (n : ExpiryCount) (skipped : List Id),
      (expireHolds holds n skipped).settles q
  | [], n, skipped => Svc.settles_pure _
  | hold :: holds, n, skipped => by
    intro d
    refine Svc.tells_bind (Svc.tells_attempt
      (fun done d d' => if done then Turns hold.id .expired d d' else d' = d)
      (fun _ _ => expireHoldTx_turns) (fun e d' _ => expireHolds_settles hu holds _ _ d')
      fun done d₁ d₂ _ hc h => ?_)
    cases done with
    | true =>
      exact Svc.pays_bind (Svc.pays_say rfl (Turns.made h (by decide) hc hu)) fun _ =>
        expireHolds_settles hu holds _ _
    | false =>
      obtain rfl : d₂ = d₁ := h
      rw [Telling.after_idle]
      exact expireHolds_settles hu holds _ _ d₂

theorem expireBatches_settles (hu : q.isUndo = false) {t : Time} :
    ∀ (batches : Nat) (n : ExpiryCount) (skipped : List Id),
      (expireBatches t batches n skipped).settles q
  | 0, n, _ => Svc.settles_pure n
  | batches + 1, n, skipped => by
    refine Svc.settles_bind Svc.settles_query fun fetched => ?_
    refine Svc.settles_ite (fun _ => Svc.settles_pure n) fun _ => ?_
    refine Svc.settles_bind (expireHolds_settles hu _ _ _) fun r => ?_
    exact Svc.settles_ite (fun _ => Svc.settles_pure _) fun _ =>
      expireBatches_settles hu batches _ _

theorem renameAttendee_settles {rawCode rawName : String} (hu : q.isUndo = false)
    (hq : q.mails = false) : (ticketsService.renameAttendee rawCode rawName).settles q := by
  unfold ticketsService.renameAttendee
  dsimp only
  split
  swap
  · exact Svc.settles_throw _
  refine Svc.settles_bind Svc.settles_query fun found => ?_
  split
  swap
  · exact Svc.settles_throw _
  refine Svc.settles_ite (fun _ => Svc.settles_bind (Svc.settles_throw _) fun _ => ?_) fun _ => ?_
  all_goals
    refine Svc.settles_bind Svc.settles_query fun event => ?_
    split
    swap
    · exact Svc.settles_throw _
    refine Svc.settles_bind Svc.settles_now fun t => ?_
    refine Svc.settles_ite (fun _ => Svc.settles_bind (Svc.settles_throw _) fun _ => ?_) fun _ => ?_
    all_goals exact Svc.settles_scansNone renameAttendeeTx_scans hu hq

end Desk

end EchoAndAura
