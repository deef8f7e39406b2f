import EchoAndAura.Proofs.Ledger
import EchoAndAura.Proofs.OrderLog

/-!
# One payment, one order

The unique index says which order carries a transaction id (`Db.TrxIndexed`), so no two orders ever
carry the same one.  An order is issued for the payment its admin verified and keeps its transaction
id from then on (`payment_settles_one`).
-/

namespace EchoAndAura

open Txn (Lock writeAll)

variable {K : List (Lock Row)} {d d' : Db} {id : Id} {o : Order}

section Index

/-- The trxID index is that of the orders. -/
def Db.TrxIndexed (d : Db) : Prop :=
  ∀ t id, d.orderTrxIds.lookup t = some id ↔
    ∃ o, d.orders.lookup id = some o ∧ o.bkashTrxId = some t

theorem OrderPatch.apply_bkashTrxId (p : OrderPatch) (st : OrderStatus) (o : Order) :
    (p.apply st o).bkashTrxId = (p.bkash.map (·.1)).or o.bkashTrxId := by
  unfold OrderPatch.apply
  split <;> split <;> simp [*]

/-- A transition changes no entry of the index, or gives up the order's own for a new one. -/
theorem OrderPatch.trxIds_cases (p : OrderPatch) (st : OrderStatus) (o : Order) :
    p.trxIds o = [] ∧ (p.apply st o).bkashTrxId = o.bkashTrxId ∨
    ∃ t, p.trxIds o = t :: o.bkashTrxId.toList ∧ (p.apply st o).bkashTrxId = some t ∧
      o.bkashTrxId ≠ some t := by
  rw [p.apply_bkashTrxId]
  unfold OrderPatch.trxIds
  rcases p.bkash with _ | ⟨t, sender⟩
  · exact .inl ⟨rfl, rfl⟩
  · simp only
    split_ifs with h
    · exact .inl ⟨rfl, by simp [h]⟩
    · exact .inr ⟨t, rfl, by simp, h⟩

theorem OrderPatch.lookup_reindex {p : OrderPatch} {t : String}
    (h : p.trxIds o = t :: o.bkashTrxId.toList) (tbl : Table String Id) (t' : String) :
    (p.reindex id o tbl).lookup t' =
      if o.bkashTrxId = some t' then none else if t' = t then some id else tbl.lookup t' := by
  simp only [OrderPatch.reindex, h]
  rcases o.bkashTrxId with _ | old
  · simp [Table.lookup_insert_eq]
  · simp [Table.lookup_erase_eq, Table.lookup_insert_eq, eq_comm]

/-- An order that keeps its transaction id keeps its entry. -/
theorem Db.TrxIndexed.insert (hi : d.TrxIndexed) (horders : d'.orders = d.orders.insert id o)
    (htrx : d'.orderTrxIds = d.orderTrxIds)
    (ho : (d.orders.lookup id).bind (·.bkashTrxId) = o.bkashTrxId) : d'.TrxIndexed := by
  intro t id'
  rw [htrx, horders, Table.lookup_insert_eq, hi t id']
  split_ifs with heq
  · subst heq
    rw [← Option.bind_eq_some_iff, ho]
    simp
  · rfl

theorem Db.TrxIndexed.eq (hi : d.TrxIndexed) {id' : Id} {o' : Order} {t : String}
    (ho : d.orders.lookup id = some o) (ht : o.bkashTrxId = some t)
    (ho' : d.orders.lookup id' = some o') (ht' : o'.bkashTrxId = some t) : id = id' :=
  Option.some.inj (((hi t id).2 ⟨o, ho, ht⟩).symm.trans ((hi t id').2 ⟨o', ho', ht'⟩))

theorem Db.TrxIndexed.submit (hi : d.TrxIndexed) {patch : OrderPatch}
    (row : d.orders.lookup id = some o)
    (free : ∀ t, (patch.trxIds o).head? = some t → d.orderTrxIds.lookup t = none)
    (orders : d'.orders = d.orders.insert id (patch.apply .pendingVerification o))
    (trxIds : d'.orderTrxIds = patch.reindex id o d.orderTrxIds) : d'.TrxIndexed := by
  rcases patch.trxIds_cases .pendingVerification o with ⟨hnil, hsame⟩ | ⟨t, hcons, hnew, hne⟩
  · refine hi.insert orders ?_ (by rw [row, hsame]; rfl)
    rw [trxIds, OrderPatch.reindex, hnil]
  · have hfree : d.orderTrxIds.lookup t = none := free t (by rw [hcons]; rfl)
    intro t' id'
    rw [trxIds, OrderPatch.lookup_reindex hcons, orders, Table.lookup_insert_eq]
    by_cases hid : id' = id
    · subst hid
      simp only [if_true, Option.some.injEq, exists_eq_left', hnew]
      split_ifs with h₁ h₂
      · simpa [h₁] using fun h => hne (h₁.trans (congrArg some h.symm))
      · simp [h₂]
      · rw [hi t' id']
        simp [row, h₁, Ne.symm h₂]
    · rw [if_neg hid]
      split_ifs with h₁ h₂
      · -- What the order gives up was its own.
        simp only [false_iff, not_exists, not_and]
        exact fun o' ho' ht' => hid (hi.eq ho' ht' row h₁)
      · rw [← hi t' id', h₂, hfree]
        simp [Ne.symm hid]
      · exact hi t' id'

theorem SaleStep.trxIndexed (h : SaleStep K d d') (hi : d.TrxIndexed) : d'.TrxIndexed := by
  cases h with
  | aside orders trxIds =>
    intro t id
    rw [trxIds, orders]
    exact hi t id
  | held fresh _ trxId _ _ orders trxIds | comped fresh _ trxId _ _ _ orders trxIds =>
    exact hi.insert orders trxIds (by rw [fresh, trxId]; rfl)
  | submitted row _ free orders trxIds => exact hi.submit row free orders trxIds
  | released row _ bkash orders trxIds =>
    refine hi.insert orders trxIds ?_
    rw [row, OrderPatch.apply_bkashTrxId, bkash]
    rfl
  | approved row _ _ _ orders trxIds => exact hi.insert orders trxIds (by rw [row]; rfl)
  | @cancelled _ _ _ last _ _ order _ _ orders trxIds =>
    cases last with
    | false =>
      intro t id
      rw [trxIds, orders]
      exact hi t id
    | true => exact hi.insert orders trxIds (by rw [order]; rfl)

end Index

section Paid

/-- The order is or was paid for, or given away. -/
def Order.WasPaid (o : Order) : Prop :=
  o.status = .issued ∨ o.status = .cancelled ∨ o.status = .paid

/-- The order is still there, paid for as it was. -/
def Db.KeepsPaid (d : Db) (id : Id) (trxId : Option String) : Prop :=
  ∃ o, d.orders.lookup id = some o ∧ o.WasPaid ∧ o.bkashTrxId = trxId

theorem SaleStep.keepsPaid (h : SaleStep K d d') {trxId : Option String}
    (hk : d.KeepsPaid id trxId) : d'.KeepsPaid id trxId := by
  obtain ⟨o, ho, hs, ht⟩ := hk
  rcases h.wasIssued ho hs with h' | ⟨-, h'⟩
  · exact ⟨o, h', hs, ht⟩
  · exact ⟨_, h', .inr (.inl rfl), ht⟩

/-- The request approves this order, whose transaction id is the one its admin verified. -/
def Request.settles (q : Request) (d d' : Db) (id : Id) : Prop :=
  ∃ input draw o trxId, q = .approveOrder id input draw ∧ trxId = some input.verifiedTrxId ∧
    d.orders.lookup id = some o ∧ o.status = .pendingVerification ∧ o.bkashTrxId = trxId ∧
    d'.orders.lookup id = some { o with status := .issued }

theorem SaleStep.new (h : SaleStep K d d') (h₀ : d.orders.lookup id = none)
    (ho : d'.orders.lookup id = some o) :
    o.status = .pendingPayment ∨ o.complimentaryReason.isSome := by
  have inserted : ∀ {id' o'}, d'.orders = d.orders.insert id' o' → id = id' ∧ o' = o := by
    intro id' o' h'
    rw [h', Table.lookup_insert_eq, h₀] at ho
    split_ifs at ho with heq
    exact ⟨heq, Option.some.inj ho⟩
  have absent : ∀ {id' o'}, d.orders.lookup id' = some o' → id ≠ id' := by
    rintro id' o' h' rfl
    simp [h₀] at h'
  cases h with
  | aside orders => simp [orders, h₀] at ho
  | held _ status _ _ _ orders =>
    obtain ⟨-, rfl⟩ := inserted orders
    exact .inl status
  | comped _ _ _ reason _ _ orders =>
    obtain ⟨-, rfl⟩ := inserted orders
    exact .inr reason
  | submitted row _ _ orders => exact absurd (inserted orders).1 (absent row)
  | released row _ _ orders => exact absurd (inserted orders).1 (absent row)
  | approved row _ _ _ orders => exact absurd (inserted orders).1 (absent row)
  | @cancelled _ _ _ last _ _ order _ _ orders =>
    cases last with
    | false =>
      rw [orders, if_neg (by simp), h₀] at ho
      cases ho
    | true => exact absurd (inserted orders).1 (absent order)

theorem Good.settles {q : Request} {τ : List Obs} (h : Good q τ (.commit K d d'))
    (ho : d'.orders.lookup id = some o) (hs : o.WasPaid) (hc : o.complimentaryReason = none)
    (hold : ∀ o₀, d.orders.lookup id = some o₀ → ¬o₀.WasPaid) : q.settles d d' id := by
  have hsale := h.sale
  obtain ⟨ws, undone, -, -, -, hmoves⟩ := h
  rcases h₀ : d.orders.lookup id with _ | o₀
  · rcases hsale.new h₀ ho with hp | hr
    · simp [Order.WasPaid, hp] at hs
    · simp [hc] at hr
  · have hnot := hold o₀ h₀
    rcases hmoves.row h₀ ho with rfl | hm
    · exact absurd hs hnot
    · cases q with
      | submitPayment =>
        obtain ⟨-, hst⟩ := hm
        simp [Order.WasPaid, hst] at hs
      | expireLapsedHolds =>
        obtain ⟨-, rfl⟩ := hm
        simp [Order.WasPaid] at hs
      | approveOrder orderId input draw =>
        obtain ⟨rfl, hst, ht, rfl⟩ := hm
        exact ⟨input, draw, o₀, _, rfl, rfl, h₀, hst, ht, ho⟩
      | rejectOrder =>
        obtain ⟨-, -, hst⟩ := hm
        simp [Order.WasPaid, hst] at hs
      | cancelTicket =>
        obtain ⟨-, hst, -⟩ := hm
        exact absurd (.inl hst) hnot
      | _ => cases hm

/-- No two orders carry one transaction id. -/
def Db.OnePerPayment (d : Db) : Prop :=
  ∀ id id' o o' t, d.orders.lookup id = some o → d.orders.lookup id' = some o' →
    o.bkashTrxId = some t → o'.bkashTrxId = some t → id = id'

/-- Whatever buyers and admins do at once, a payment settles one order: the one an admin verified
it for.  From then on the order keeps its transaction id, which no other order ever carries. -/
theorem payment_settles_one (hd : Logged d) (hi : d.TrxIndexed) (sched : List Action) :
    (run d sched).db.OnePerPayment ∧
    ∀ l₁ l₂ pid q K d₁ d₂, (run d sched).log = l₁ ++ ⟨pid, q, .commit K d₁ d₂⟩ :: l₂ →
      ∀ id o, d₂.orders.lookup id = some o → o.WasPaid →
        (o.complimentaryReason = none → (∀ o₀, d₁.orders.lookup id = some o₀ → ¬o₀.WasPaid) →
          q.settles d₁ d₂ id) ∧
        (run d sched).db.KeepsPaid id o.bkashTrxId := by
  have hist := shop_history hd sched
  refine ⟨fun id id' o o' t ho ho' ht ht' => ?_, ?_⟩
  · have : (run d sched).db.TrxIndexed :=
      hist.preserves (fun _ _ _ _ _ hg => hg.sale.trxIndexed) hi
    exact this.eq ho ht ho' ht'
  · intro l₁ l₂ pid q K d₁ d₂ hl id o ho hs
    obtain ⟨e, ⟨-, hg, he⟩, hr⟩ := (hl ▸ hist).entry
    rw [he] at hr
    exact ⟨fun hc hold => hg.settles ho hs hc hold,
      hr.preserves (I := fun d => d.KeepsPaid id o.bkashTrxId)
        (fun _ _ _ _ _ hg h => hg.sale.keepsPaid h) ⟨o, ho, hs, rfl⟩⟩

/-- The buyer corrects the transaction id while an admin looks at the old one, and the admin looks
again. -/
def correctedMeanwhile : List Action :=
  alone 0 taraOrders 40 ++ alone 1 (.submitPayment 4 ⟨"TRX7", "01700000003"⟩) 20 ++
  [.start (.approveOrder 4 ⟨"admin", "TRX7"⟩ fun n => ⟨[5 + n], ["TKT-4H8ZP2XQ"]⟩)] ++
  alone 3 (.submitPayment 4 ⟨"TRX8", "01700000003"⟩) 20 ++ List.replicate 20 (.step 2) ++
  alone 4 (.approveOrder 4 ⟨"admin", "TRX8"⟩ fun n => ⟨[5 + n], ["TKT-4H8ZP2XQ"]⟩) 40

theorem emptyHouse_trxIndexed : emptyHouse.TrxIndexed := by
  intro t id
  simp [emptyHouse]

theorem payment_settles_one_correctedMeanwhile :
    ((run emptyHouse correctedMeanwhile).db.orders.lookup 4).map (fun o => (o.status, o.bkashTrxId)) =
      some (.issued, some "TRX8") ∧
    (run emptyHouse correctedMeanwhile).db.OnePerPayment ∧
    ∀ l₁ l₂ pid q K d₁ d₂,
      (run emptyHouse correctedMeanwhile).log = l₁ ++ ⟨pid, q, .commit K d₁ d₂⟩ :: l₂ →
      ∀ id o, d₂.orders.lookup id = some o → o.WasPaid →
        (o.complimentaryReason = none → (∀ o₀, d₁.orders.lookup id = some o₀ → ¬o₀.WasPaid) →
          q.settles d₁ d₂ id) ∧
        (run emptyHouse correctedMeanwhile).db.KeepsPaid id o.bkashTrxId :=
  ⟨by decide +kernel, payment_settles_one emptyHouse_logged emptyHouse_trxIndexed _⟩

end Paid

end EchoAndAura
