import EchoAndAura.Proofs.Announced
import EchoAndAura.Proofs.OrderLog

/-!
# Told exactly once

Whatever interleaves, a request tells of a move only once it has committed it, and of every move it
is due to tell before it answers; and no status of an order is mailed twice in a run (`told_once`).
-/

namespace EchoAndAura

open Txn (Lock writeAll Rely Telling)

variable {α β : Type} {q : Request} {d d' : Db}

section Shop

theorem Svc.owesNothing_map {s : Svc α} {f : α → β} {owed : Txn.Debt Move}
    (h : s.owesNothing q owed d) : (f <$> s).owesNothing q owed d :=
  Svc.tells_bind (Svc.tells_mono (fun _ _ _ ho => Svc.tells_pure ho) (fun _ _ ho => ho) h)

theorem handler_owesNothing (q : Request) (hd : Logged d) (hl : d.Linked) :
    q.handler.owesNothing q Telling.clear d := by
  cases q with
  | createOrder =>
    exact Svc.settles.owesNothing (Svc.settles_bind (createOrder_settles rfl) fun _ =>
      Svc.settles_pure _)
  | submitPayment =>
    exact Svc.settles.owesNothing (Svc.settles_map (Svc.settles_scansNone submitPaymentTx_scans
      rfl rfl))
  | expireLapsedHolds =>
    exact Svc.settles.owesNothing (Svc.settles_map (Svc.settles_bind Svc.settles_now fun _ =>
      expireBatches_settles rfl _ _ _))
  | updateTicketType =>
    refine Svc.settles.owesNothing (Svc.settles_bind (Svc.settles_bind
      (Svc.settles_scansNone updateTicketType_scans rfl rfl) fun _ => ?_) fun _ =>
      Svc.settles_pure _)
    exact Svc.settles_ite (fun _ => Svc.settles_throw _) fun _ => Svc.settles_pure _
  | issueComplimentaryTickets =>
    exact Svc.settles.owesNothing (Svc.settles_bind (issueComplimentaryTickets_settles rfl)
      fun _ => Svc.settles_pure _)
  | approveOrder =>
    exact Svc.settles.owesNothing (Svc.settles_bind (approveOrder_settles rfl) fun _ =>
      Svc.settles_pure _)
  | rejectOrder => exact Svc.settles.owesNothing (Svc.settles_map (rejectOrder_settles rfl))
  | cancelTicket =>
    exact Svc.settles.owesNothing (Svc.settles_map (Svc.settles_scansNone cancelTicketTx_scans
      rfl rfl))
  | renameAttendee =>
    exact Svc.settles.owesNothing (Svc.settles_map (renameAttendee_settles rfl rfl))
  | scans => exact Svc.settles.owesNothing (scansRoute_settles rfl)
  | undoScan => exact undoRoute_owesNothing rfl hl
  | undoCheckIn => exact undoCheckInAction_owesNothing rfl hd
  | revokePass =>
    exact Svc.settles.owesNothing (Svc.settles_bind (revokePass_settles rfl rfl) fun _ =>
      Svc.settles_pure _)
  | revokeAndUndo => exact Svc.owesNothing_map (revokeAndUndo_owesNothing rfl hd)
  | tick =>
    exact Svc.settles.owesNothing (Svc.settles_bind (Svc.settles_scansNone setClock_scans rfl rfl)
      fun _ => Svc.settles_pure _)

/-- Every run keeps the books of what it tells. -/
theorem shop_keeps (hd : Logged d) (hl : d.Linked) (sched : List Action) :
    Txn.History (telling.Keeps Good) d (run d sched).log (run d sched).db :=
  Txn.History.of_tells (I := fun d => Logged d ∧ d.Linked)
    (fun _ _ _ _ _ hg h => ⟨hg.logged h.1, hg.linked h.2⟩)
    (fun q _ h => Svc.wp_run (handler_answers q h.1))
    (fun q _ h => Svc.tells_run (handler_owesNothing q h.1 h.2)) ⟨hd, hl⟩ sched

end Shop

section Stages

/-- How far along a status is. -/
def OrderStatus.stage : OrderStatus → Nat
  | .pendingPayment => 0
  | .pendingVerification => 1
  | .paid => 2
  | .issued => 3
  | .rejected | .expired | .cancelled => 4

variable {s s' : OrderStatus} {id : Id}

theorem Walks.stage (h : Walks s s') : s' = s ∨ s.stage < s'.stage := by
  rcases h with h | ⟨rfl, rfl⟩
  · refine .inr ?_
    cases s <;> simp only [orderTransitions, List.mem_cons, List.not_mem_nil, or_false] at h
    · rcases h with rfl | rfl <;> decide
    · rcases h with rfl | rfl | rfl <;> decide
    · subst h
      decide
    · subst h
      decide
  · exact .inl rfl

/-- An order never comes back to a status it has left. -/
theorem stage_of_steps {l : List (Option OrderStatus × OrderStatus)}
    (h : Trail.Steps Walks s l s') : s' = s ∨ s.stage < s'.stage := by
  induction h with
  | nil => exact .inl rfl
  | cons step _ ih =>
    rcases step.stage, ih with ⟨rfl | hlt, rfl | hlt'⟩
    · exact .inl rfl
    · exact .inr hlt'
    · exact .inr hlt
    · exact .inr (hlt.trans hlt')

/-- The order has come as far as `s`. -/
def Db.reached (d : Db) (id : Id) (s : OrderStatus) : Prop :=
  ∃ s', d.status id = some s' ∧ s.stage ≤ s'.stage

theorem LogStep.reached (h : LogStep d d' id) (hm : (Move.order id s).made d d') :
    ¬d.reached id s ∧ d'.reached id s := by
  obtain ⟨-, hne, heq⟩ := hm
  refine ⟨?_, s, heq, Nat.le_refl _⟩
  rintro ⟨t, ht, hle⟩
  cases h with
  | absent order | created order =>
    rw [Db.status, order] at ht
    cases ht
  | moved order order' walks =>
    obtain rfl := Option.some.inj ((Db.status_of_lookup order).symm.trans ht)
    obtain rfl := Option.some.inj ((Db.status_of_lookup order').symm.trans heq)
    rcases stage_of_steps walks with he | hlt
    · exact hne (by rw [he, ht])
    · omega

theorem LogStep.stays (h : LogStep d d' id) (hr : d.reached id s) : d'.reached id s := by
  obtain ⟨t, ht, hle⟩ := hr
  cases h with
  | absent order | created order =>
    rw [Db.status, order] at ht
    cases ht
  | moved order order' walks =>
    obtain rfl := Option.some.inj ((Db.status_of_lookup order).symm.trans ht)
    refine ⟨_, Db.status_of_lookup order', ?_⟩
    rcases stage_of_steps walks with he | hlt
    · rw [he]
      exact hle
    · omega

end Stages

section Once

/-- What a line of a run says of what its request tells, after what it has done: a move is told only
when it is committed and not yet told, and an answer leaves none untold that is due. -/
def toldRight (τ : List Obs) : Obs → Prop
  | .say o => ∀ m, o.move = some m → telling.toldIn m τ < telling.madeIn m τ
  | .done _ => ∀ m, telling.dueIn m τ ≤ telling.toldIn m τ ∧
      telling.toldIn m τ ≤ telling.madeIn m τ ∧
      ((∀ id, m ≠ .undone id) → telling.toldIn m τ = telling.madeIn m τ)
  | _ => True

/-- Every mail and every check-in is due. -/
theorem dueIn_eq_madeIn {m : Move} (hm : ∀ id, m ≠ .undone id) (τ : List Obs) :
    telling.dueIn m τ = telling.madeIn m τ := by
  cases m with
  | undone id => exact absurd rfl (hm id)
  | order | checkedIn => rfl

theorem toldRight_of_history {l₁ l₂ : List Entry} {e : Entry} {d₀ : Db}
    (h : Txn.History (telling.Keeps Good) d₀ (l₁ ++ e :: l₂) d) :
    toldRight (Txn.trace e.pid l₁) e.obs := by
  obtain ⟨d₁, hafter, -⟩ := h.entry
  obtain ⟨d₂, hpast, -⟩ := h.past
  obtain ⟨pid, q, o⟩ := e
  cases o with
  | read | commit => trivial
  | say o => exact hafter.2.2
  | done a =>
    intro m
    have hle := hpast.told_le pid m
    have hdue := hafter.2.2 m
    refine ⟨hdue, hle, fun hm => ?_⟩
    rw [dueIn_eq_madeIn hm] at hdue
    exact Nat.le_antisymm hle hdue

/-- An order is mailed at most once for each status. -/
theorem mailed_le_one {l : List Entry} {d₀ : Db}
    (h : Txn.History (telling.Keeps Good) d₀ l d) (id : Id) (s : OrderStatus) :
    telling.toldIn (.order id s) (l.map (·.obs)) ≤ 1 := by
  refine (h.told_le_made _).trans (h.made_le_one (P := fun d => d.reached id s)
    (fun q τ K d₁ d₂ hg hm => ?_) fun q τ K d₁ d₂ hg hr => ?_).1
  · exact (hg.keepsLog.1 id).reached hm
  · exact (hg.keepsLog.1 id).stays hr

/-- Whatever interleaves: a request tells of a move only once it has committed it, no oftener than
it has, and of every move due before it answers; so no status of an order is mailed twice. -/
theorem told_once (hd : Logged d) (hl : d.Linked) (sched : List Action) :
    (∀ l₁ e l₂, (run d sched).log = l₁ ++ e :: l₂ → toldRight (Txn.trace e.pid l₁) e.obs) ∧
    (∀ m, telling.toldIn m ((run d sched).log.map (·.obs)) ≤
      telling.madeIn m ((run d sched).log.map (·.obs))) ∧
    ∀ id s, telling.toldIn (.order id s) ((run d sched).log.map (·.obs)) ≤ 1 :=
  ⟨fun _ _ _ heq => toldRight_of_history (heq ▸ shop_keeps hd hl sched),
    (shop_keeps hd hl sched).told_le_made, mailed_le_one (shop_keeps hd hl sched)⟩

/-- What a run says, in order. -/
def sayings (l : List Entry) : List Say :=
  l.filterMap fun e => match e.obs with
    | .say o => some o
    | _ => none

/-- A ticket bought, let in at the gate, and taken back there. -/
def throughTheDoor : List Action :=
  alone 0 taraOrders 40 ++
  alone 1 (.submitPayment 4 ⟨"TRX7", "01700000003"⟩) 20 ++
  alone 2 (.approveOrder 4 ⟨"admin", "TRX7"⟩ fun n => ⟨[5 + n], ["TKT-4H8ZP2XQ"]⟩) 40 ++
  alone 3 (scanOf 7 6) 40 ++
  alone 4 (.undoScan "K7QM4XPDR2TW" 7 .misTap) 40

theorem told_once_throughTheDoor :
    sayings (run emptyHouse throughTheDoor).log = [.onOrderCreated 4, .onTicketsIssued 4,
      .announce 1 (.checkedIn 6 (2 * hourMs) "Gate A"), .announce 1 (.undo 6 (2 * hourMs))] ∧
    (∀ l₁ e l₂, (run emptyHouse throughTheDoor).log = l₁ ++ e :: l₂ →
      toldRight (Txn.trace e.pid l₁) e.obs) ∧
    (∀ m, telling.toldIn m ((run emptyHouse throughTheDoor).log.map (·.obs)) ≤
      telling.madeIn m ((run emptyHouse throughTheDoor).log.map (·.obs))) ∧
    ∀ id s, telling.toldIn (.order id s)
      ((run emptyHouse throughTheDoor).log.map (·.obs)) ≤ 1 :=
  ⟨by decide +kernel, told_once emptyHouse_logged (fun _ _ ht => nomatch ht) throughTheDoor⟩

end Once

end EchoAndAura
