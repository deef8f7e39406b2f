import EchoAndAura.Register
import EchoAndAura.Proofs.Alone

/-!
# The money law of a discounted order

A code that is accepted takes less than the whole price off each ticket, so what is left is at least
a paisa a ticket (`MoneyLaw`).  The form goes by the answer to Apply: its cover test is `judgePromo`
over again for every type of the event (`promoCovers_eq`), and its amounts are the order's
(`preview_eq`).
-/

namespace EchoAndAura

theorem except_bind_eq {ε α β : Type} {x : Except ε α} {f : α → Except ε β} {b : β}
    (h : (x >>= f) = .ok b) : ∃ a, x = .ok a ∧ f a = .ok b := by
  rcases x with e | a
  · cases h
  · exact ⟨a, rfl, h⟩

theorem except_bind_failed {ε α β : Type} {x : Except ε α} {f : α → Except ε β} {e : ε}
    (h : (x >>= f) = .error e) : x = .error e ∨ ∃ a, x = .ok a ∧ f a = .error e := by
  rcases x with e' | a
  · cases h
    exact .inl rfl
  · exact .inr ⟨a, rfl, h⟩

section Money

variable {paisa quantity percent discount r : Int}

theorem assertValidPaisa_eq {u : Unit} :
    assertValidPaisa paisa = .ok u ↔ 0 ≤ paisa ∧ paisa ≤ maxSafeInteger := by
  unfold assertValidPaisa
  split_ifs with hneg hbig
  · exact ⟨nofun, fun h => absurd hneg (not_lt.2 h.1)⟩
  · exact ⟨nofun, fun h => absurd hbig (not_lt.2 h.2)⟩
  · exact ⟨fun _ => ⟨not_lt.1 hneg, not_lt.1 hbig⟩, fun _ => rfl⟩

theorem multiplyPaisa_eq : multiplyPaisa paisa quantity = .ok r ↔
    (0 ≤ paisa ∧ paisa ≤ maxSafeInteger) ∧ 0 ≤ quantity ∧
      paisa * quantity ≤ maxSafeInteger ∧ r = paisa * quantity := by
  constructor
  · intro h
    unfold multiplyPaisa at h
    obtain ⟨u, hp, h⟩ := except_bind_eq h
    dsimp only at h
    split_ifs at h with hneg
    · cases h
    obtain ⟨u, hproduct, h⟩ := except_bind_eq h
    cases h
    exact ⟨assertValidPaisa_eq.1 hp, not_lt.1 hneg, (assertValidPaisa_eq.1 hproduct).2, rfl⟩
  · rintro ⟨hp, hq, hbig, rfl⟩
    have hproduct := assertValidPaisa_eq (u := ()).2 ⟨Int.mul_nonneg hp.1 hq, hbig⟩
    rw [multiplyPaisa, assertValidPaisa_eq (u := ()).2 hp]
    simp only [bind, Except.bind, if_neg (not_lt.2 hq), hproduct]
    rfl

theorem percentOfPaisa_eq (h : percentOfPaisa paisa percent = .ok r) :
    0 ≤ paisa ∧ 0 ≤ percent ∧ r = paisa * percent / 100 := by
  unfold percentOfPaisa at h
  obtain ⟨u, hp, h⟩ := except_bind_eq h
  dsimp only at h
  split_ifs at h with hrange
  · cases h
  obtain ⟨u, -, h⟩ := except_bind_eq h
  cases h
  simp only [Bool.or_eq_true, decide_eq_true_eq, not_or, not_lt] at hrange
  exact ⟨(assertValidPaisa_eq.1 hp).1, hrange.1, rfl⟩

/-- What an order is charged, where no amount leaves the safe integers. -/
theorem computeOrderTotals_eq {t : OrderTotals} :
    computeOrderTotals paisa quantity discount = .ok t ↔
      ((0 ≤ paisa ∧ paisa ≤ maxSafeInteger) ∧ 0 ≤ quantity ∧ paisa * quantity ≤ maxSafeInteger) ∧
        (0 ≤ discount ∧ discount ≤ maxSafeInteger) ∧
          t = ⟨paisa, quantity, paisa * quantity, min discount (paisa * quantity),
            paisa * quantity - min discount (paisa * quantity)⟩ := by
  constructor
  · intro h
    unfold computeOrderTotals at h
    obtain ⟨subtotal, hs, h⟩ := except_bind_eq h
    obtain ⟨hp, hq, hbig, rfl⟩ := multiplyPaisa_eq.1 hs
    obtain ⟨u, hd, h⟩ := except_bind_eq h
    obtain ⟨sum, hsum, h⟩ := except_bind_eq h
    obtain ⟨u', -, h⟩ := except_bind_eq h
    obtain ⟨u'', -, hsum⟩ := except_bind_eq hsum
    cases hsum
    cases h
    exact ⟨⟨hp, hq, hbig⟩, assertValidPaisa_eq.1 hd, rfl⟩
  · rintro ⟨⟨hp, hq, hbig⟩, hd, rfl⟩
    have hnonneg := Int.mul_nonneg hp.1 hq
    have hs := (multiplyPaisa_eq (r := paisa * quantity)).2 ⟨hp, hq, hbig, rfl⟩
    have hsum := assertValidPaisa_eq (u := ()).2 ⟨hnonneg, hbig⟩
    have htotal : assertValidPaisa (paisa * quantity - min discount (paisa * quantity)) = .ok () :=
      assertValidPaisa_eq.2 (by omega)
    simp only [computeOrderTotals, hs, assertValidPaisa_eq (u := ()).2 hd, sumPaisa, hsum, htotal,
      bind, Except.bind, pure, Except.pure]

section Failures

variable {e : Err}

theorem assertValidPaisa_failed (h : assertValidPaisa paisa = .error e) :
    ∃ text, e = .range text := by
  unfold assertValidPaisa at h
  split_ifs at h <;> cases h <;> exact ⟨_, rfl⟩

theorem multiplyPaisa_failed (h : multiplyPaisa paisa quantity = .error e) :
    ∃ text, e = .range text := by
  rcases except_bind_failed h with h | ⟨u, -, h⟩
  · exact assertValidPaisa_failed h
  dsimp only at h
  split_ifs at h
  · cases h
    exact ⟨_, rfl⟩
  rcases except_bind_failed h with h | ⟨u, -, h⟩
  · exact assertValidPaisa_failed h
  · cases h

theorem percentOfPaisa_failed (h : percentOfPaisa paisa percent = .error e) :
    ∃ text, e = .range text := by
  rcases except_bind_failed h with h | ⟨u, -, h⟩
  · exact assertValidPaisa_failed h
  dsimp only at h
  split_ifs at h
  · cases h
    exact ⟨_, rfl⟩
  rcases except_bind_failed h with h | ⟨u, -, h⟩
  · exact assertValidPaisa_failed h
  · cases h

theorem computeOrderTotals_failed (h : computeOrderTotals paisa quantity discount = .error e) :
    ∃ text, e = .range text := by
  rcases except_bind_failed h with h | ⟨subtotal, -, h⟩
  · exact multiplyPaisa_failed h
  rcases except_bind_failed h with h | ⟨u, -, h⟩
  · exact assertValidPaisa_failed h
  rcases except_bind_failed h with h | ⟨sum, -, h⟩
  · rcases except_bind_failed h with h | ⟨u, -, h⟩
    · exact assertValidPaisa_failed h
    · cases h
  rcases except_bind_failed h with h | ⟨u, -, h⟩
  · exact assertValidPaisa_failed h
  · cases h

end Failures

end Money

section Rule

variable {rule : PromoCode} {price quantity perTicket discount : Int}
  {types : List (Id × TicketType)} {id : Id}

/-- At most the exact percentage, or the fixed value. -/
def PromoCode.Offers (rule : PromoCode) (price perTicket : Int) : Prop :=
  match rule.type with
  | .percentage => 100 * perTicket ≤ price * rule.value
  | .fixed => perTicket ≤ rule.value

theorem offers_of_perTicket (h : promoDiscountPerTicket rule price = .ok perTicket) :
    rule.Offers price perTicket := by
  unfold promoDiscountPerTicket at h
  unfold PromoCode.Offers
  rcases hr : rule.type with _ | _ <;> simp only [hr] at h ⊢
  · obtain ⟨-, -, rfl⟩ := percentOfPaisa_eq h
    omega
  · obtain rfl := Except.ok.inj h
    exact min_le_left _ _

theorem promoDiscountPaisa_eq (h : promoDiscountPaisa rule price quantity = .ok discount) :
    ∃ perTicket, promoDiscountPerTicket rule price = .ok perTicket ∧ 0 ≤ perTicket ∧
      discount = perTicket * quantity := by
  obtain ⟨perTicket, hper, h⟩ := except_bind_eq h
  obtain ⟨⟨hnonneg, -⟩, -, -, rfl⟩ := multiplyPaisa_eq.1 h
  exact ⟨perTicket, hper, hnonneg, rfl⟩

theorem promoDiscountPerTicket_failed {e : Err}
    (h : promoDiscountPerTicket rule price = .error e) : ∃ text, e = .range text := by
  unfold promoDiscountPerTicket at h
  rcases hr : rule.type with _ | _ <;> simp only [hr] at h
  · exact percentOfPaisa_failed h
  · cases h

theorem promoDiscountPaisa_failed {e : Err}
    (h : promoDiscountPaisa rule price quantity = .error e) : ∃ text, e = .range text := by
  rcases except_bind_failed h with h | ⟨perTicket, -, h⟩
  · exact promoDiscountPerTicket_failed h
  · exact multiplyPaisa_failed h

/-- A code takes nothing negative off. -/
theorem perTicket_nonneg (hvalue : 0 < rule.value) (hprice : 0 ≤ price)
    (h : promoDiscountPerTicket rule price = .ok perTicket) : 0 ≤ perTicket := by
  unfold promoDiscountPerTicket at h
  rcases hr : rule.type with _ | _ <;> simp only [hr] at h
  · obtain ⟨hp, hpercent, rfl⟩ := percentOfPaisa_eq h
    exact Int.ediv_nonneg (Int.mul_nonneg hp hpercent) (by omega)
  · obtain rfl := Except.ok.inj h
    exact le_min (Int.le_of_lt hvalue) hprice

theorem judgePromo_failed {rule : Option PromoCode} {e : Err}
    (h : judgePromo rule types id = .error e) : ∃ text, e = .range text := by
  rcases rule with _ | p
  · cases h
  simp only [judgePromo] at h
  split_ifs at h
  split at h
  · cases h
  rcases except_bind_failed h with h | ⟨perTicket, -, h⟩
  · exact promoDiscountPerTicket_failed h
  · split_ifs at h <;> cases h

/-- What `judgePromo` lets through: the code is live, covers the type, and leaves something to
pay. -/
theorem judgePromo_none {rule : Option PromoCode} (h : judgePromo rule types id = .ok none) :
    ∃ p t perTicket, rule = some p ∧ p.active = true ∧ t ∈ types ∧ t.1 = id ∧
      promoAppliesTo p id = true ∧ promoDiscountPerTicket p t.2.pricePaisa = .ok perTicket ∧
      perTicket < t.2.pricePaisa := by
  rcases rule with _ | p
  · cases h
  simp only [judgePromo] at h
  split_ifs at h with hactive hcovered
  · cases h
  · cases h
  split at h
  · cases h
  · rename_i t ht
    obtain ⟨perTicket, hper, h⟩ := except_bind_eq h
    split_ifs at h with hfree
    · cases h
    obtain ⟨hmem, happ⟩ := List.mem_filter.1 (List.mem_of_find?_eq_some ht)
    have hid : t.1 = id := by simpa using List.find?_some ht
    exact ⟨p, t, perTicket, rfl, by simpa using hactive, hmem, hid, hid ▸ happ, hper, by omega⟩

/-- What an order is charged when each ticket keeps something of its price. -/
theorem totals_of_perTicket {t : OrderTotals} (hlt : perTicket < price)
    (hq : 1 ≤ quantity) (h : computeOrderTotals price quantity (perTicket * quantity) = .ok t) :
    t = ⟨price, quantity, price * quantity, perTicket * quantity,
        price * quantity - perTicket * quantity⟩ ∧
      perTicket * quantity < price * quantity ∧
      quantity ≤ price * quantity - perTicket * quantity := by
  obtain ⟨-, -, rfl⟩ := computeOrderTotals_eq.1 h
  have hdiscount : perTicket * quantity < price * quantity :=
    Int.mul_lt_mul_of_pos_right hlt (by omega)
  have hrest : 1 * quantity ≤ (price - perTicket) * quantity :=
    Int.mul_le_mul_of_nonneg_right (by omega) (by omega)
  rw [Int.sub_mul, Int.one_mul] at hrest
  rw [Int.min_eq_left (Int.le_of_lt hdiscount)]
  exact ⟨rfl, hdiscount, hrest⟩

/-- A price that can be told without the discount can be told with it. -/
theorem totals_with_code {t : OrderTotals} (h : computeOrderTotals price quantity 0 = .ok t)
    (hper : promoDiscountPerTicket rule price = .ok perTicket) (hnonneg : 0 ≤ perTicket)
    (hlt : perTicket < price) :
    promoDiscountPaisa rule price quantity = .ok (perTicket * quantity) ∧
      0 ≤ perTicket * quantity ∧ perTicket * quantity ≤ price * quantity ∧
      computeOrderTotals price quantity (perTicket * quantity) = .ok ⟨price, quantity,
        price * quantity, perTicket * quantity, price * quantity - perTicket * quantity⟩ := by
  obtain ⟨⟨hprice, hq, hbig⟩, -, -⟩ := computeOrderTotals_eq.1 h
  have hdiscount : 0 ≤ perTicket * quantity := Int.mul_nonneg hnonneg hq
  have hcapped : perTicket * quantity ≤ price * quantity :=
    Int.mul_le_mul_of_nonneg_right (Int.le_of_lt hlt) hq
  refine ⟨?_, hdiscount, hcapped, ?_⟩
  · have hmul := (multiplyPaisa_eq (r := perTicket * quantity)).2
      ⟨⟨hnonneg, by omega⟩, hq, by omega, rfl⟩
    rw [promoDiscountPaisa, hper]
    exact hmul
  · refine computeOrderTotals_eq.2 ⟨⟨hprice, hq, hbig⟩, ⟨hdiscount, by omega⟩, ?_⟩
    rw [Int.min_eq_left hcapped]

/-- What an order with a discount is charged. -/
structure MoneyLaw (rule : PromoCode) (price : Int) (o : Order) : Prop where
  unitPrice : o.unitPricePaisa = price
  subtotal : o.subtotalPaisa = price * o.quantity
  discount_nonneg : 0 ≤ o.discountPaisa
  discount_lt : o.discountPaisa < o.subtotalPaisa
  total : o.totalPaisa = o.subtotalPaisa - o.discountPaisa
  quantity_le : o.quantity ≤ o.totalPaisa
  offers : ∃ perTicket, o.discountPaisa = perTicket * o.quantity ∧ rule.Offers price perTicket
  /-- The checks of `orders`. -/
  checks : o.broken = none

end Rule

section Form

variable {p : PromoCode} {types : List (Id × TicketType)} {id : Id} {applied : AppliedPromo}

/-- The answer to Apply is the rule, with this event's covered types for its own. -/
theorem promoCheckOf_ok {rule : Option PromoCode}
    (h : promoCheckOf rule types id = .ok (.ok applied)) :
    ∃ p, rule = some p ∧ judgePromo rule types id = .ok none ∧ applied.type = p.type ∧
      applied.value = p.value ∧ applied.ticketTypeIds =
        if p.ticketTypeIds.isEmpty then [] else (types.map (·.1)).filter (promoAppliesTo p) := by
  obtain ⟨refusal, hj, h⟩ := except_bind_eq h
  split at h
  · obtain ⟨label, -, h⟩ := except_bind_eq h
    cases h
    exact ⟨_, rfl, hj, rfl, rfl, rfl⟩
  · cases h

theorem appliesTo_applied (hj : judgePromo (some p) types id = .ok none)
    (hids : applied.ticketTypeIds =
      if p.ticketTypeIds.isEmpty then [] else (types.map (·.1)).filter (promoAppliesTo p))
    {t : Id × TicketType} (ht : t ∈ types) :
    promoAppliesTo applied.rule t.1 = promoAppliesTo p t.1 := by
  have hrule : applied.rule.ticketTypeIds = applied.ticketTypeIds := rfl
  unfold promoAppliesTo
  rw [hrule, hids]
  by_cases hall : p.ticketTypeIds.isEmpty = true
  · simp [hall]
  obtain ⟨_, t', perTicket, hp, -, hmem, hid, happ, -, -⟩ := judgePromo_none hj
  cases hp
  rw [if_neg hall]
  have here : id ∈ (types.map (·.1)).filter (promoAppliesTo p) :=
    List.mem_filter.2 ⟨List.mem_map.2 ⟨t', hmem, hid⟩, happ⟩
  have hne : ((types.map (·.1)).filter (promoAppliesTo p)).isEmpty = false := by
    rw [List.isEmpty_eq_false_iff]
    exact List.ne_nil_of_mem here
  rw [hne, Bool.false_or, Bool.eq_false_of_not_eq_true hall, Bool.false_or]
  have hcover : promoAppliesTo p t.1 = p.ticketTypeIds.contains t.1 := by
    rw [promoAppliesTo, Bool.eq_false_of_not_eq_true hall, Bool.false_or]
  rw [Bool.eq_iff_iff, ← hcover, List.contains_iff_mem, List.mem_filter]
  exact ⟨fun h => h.2, fun h => ⟨List.mem_map.2 ⟨t, ht, rfl⟩, h⟩⟩

theorem perTicket_applied (htype : applied.type = p.type) (hvalue : applied.value = p.value)
    (price : Int) :
    promoDiscountPerTicket applied.rule price = promoDiscountPerTicket p price := by
  have htype' : applied.rule.type = p.type := htype
  have hvalue' : applied.rule.value = p.value := hvalue
  simp only [promoDiscountPerTicket, htype', hvalue']

/-- The type a list of types has under an id that no other has. -/
theorem find?_covered (hnodup : (types.map (·.1)).Nodup) {t : Id × TicketType} (ht : t ∈ types) :
    (types.filter fun u => promoAppliesTo p u.1).find? (fun u => u.1 == t.1) =
      if promoAppliesTo p t.1 then some t else none := by
  split_ifs with happ
  · have hmem : t ∈ types.filter fun u => promoAppliesTo p u.1 := List.mem_filter.2 ⟨ht, happ⟩
    rcases hf : (types.filter fun u => promoAppliesTo p u.1).find? (fun u => u.1 == t.1) with _ | u
    · exact absurd (beq_self_eq_true t.1) (by simpa using List.find?_eq_none.1 hf t hmem)
    · have hu := (List.mem_filter.1 (List.mem_of_find?_eq_some hf)).1
      have hid : u.1 = t.1 := by simpa using List.find?_some hf
      exact hf.trans (congrArg some (List.inj_on_of_nodup_map hnodup hu ht hid))
  · refine List.find?_eq_none.2 fun u hu hid => happ ?_
    have hid : u.1 = t.1 := by simpa using hid
    exact hid ▸ (List.mem_filter.1 hu).2

/-- The form's cover test is `judgePromo`, whichever of the event's types is chosen. -/
theorem promoCovers_eq (hj : judgePromo (some p) types id = .ok none)
    (happlied : promoCheckOf (some p) types id = .ok (.ok applied))
    (hnodup : (types.map (·.1)).Nodup) (hideAvailability : Bool) (now : Time)
    {t : Id × TicketType} (ht : t ∈ types) :
    promoCovers applied (ticketOption hideAvailability now t) =
      (judgePromo (some p) types t.1).map Option.isNone := by
  obtain ⟨p', hp, -, htype, hvalue, hids⟩ := promoCheckOf_ok happlied
  cases hp
  obtain ⟨_, t', -, hp, hactive, hmem, hid, happ, -, -⟩ := judgePromo_none hj
  cases hp
  have hcovered : (types.filter fun u => promoAppliesTo p u.1).isEmpty = false := by
    rw [List.isEmpty_eq_false_iff]
    exact List.ne_nil_of_mem (List.mem_filter.2 ⟨hmem, hid ▸ happ⟩)
  simp only [judgePromo, hactive, Bool.not_true, Bool.false_eq_true, if_false, hcovered]
  rw [find?_covered hnodup ht]
  unfold promoCovers
  have hoption : (ticketOption hideAvailability now t).id = t.1 := rfl
  have hprice : (ticketOption hideAvailability now t).pricePaisa = t.2.pricePaisa := rfl
  rw [hoption, hprice, appliesTo_applied hj hids ht, perTicket_applied htype hvalue]
  split_ifs with hcov
  · dsimp only
    rcases hper : promoDiscountPerTicket p t.2.pricePaisa with e | perTicket
    · rfl
    · simp only [bind, Except.bind, pure, Except.pure]
      split_ifs with hfree
      · simp [Except.map, hfree]
      · simp [Except.map, not_le.1 hfree]
  · rfl

/-- The form's amounts are those of an order that is priced for the same row. -/
theorem preview_eq {perTicket quantity : Int} {t : Id × TicketType} {totals : OrderTotals}
    (hj : judgePromo (some p) types id = .ok none)
    (happlied : promoCheckOf (some p) types id = .ok (.ok applied)) (ht : t ∈ types)
    (happ : promoAppliesTo p t.1 = true)
    (hper : promoDiscountPerTicket p t.2.pricePaisa = .ok perTicket)
    (hlt : perTicket < t.2.pricePaisa) (hq : 1 ≤ quantity)
    (hdiscount : promoDiscountPaisa p t.2.pricePaisa quantity = .ok (perTicket * quantity))
    (htotals : computeOrderTotals t.2.pricePaisa quantity (perTicket * quantity) = .ok totals)
    (hideAvailability : Bool) (now : Time) :
    preview (some applied) (some (ticketOption hideAvailability now t)) quantity =
      .ok ⟨totals.subtotalPaisa, totals.discountPaisa, totals.totalPaisa⟩ := by
  obtain ⟨p', hp, -, htype, hvalue, hids⟩ := promoCheckOf_ok happlied
  cases hp
  have hoption : (ticketOption hideAvailability now t).id = t.1 := rfl
  have hprice : (ticketOption hideAvailability now t).pricePaisa = t.2.pricePaisa := rfl
  obtain ⟨rfl, hcapped, -⟩ := totals_of_perTicket hlt hq htotals
  have hcovers : promoCovers applied (ticketOption hideAvailability now t) = .ok true := by
    rw [promoCovers, hoption, hprice, appliesTo_applied hj hids ht, if_pos happ,
      perTicket_applied htype hvalue, hper]
    simp [bind, Except.bind, pure, Except.pure, hlt]
  have hform : promoDiscountPaisa applied.rule t.2.pricePaisa quantity =
      .ok (perTicket * quantity) := by
    rw [← hdiscount, promoDiscountPaisa, promoDiscountPaisa, perTicket_applied htype hvalue]
  have hshown : previewDiscount (some applied) (ticketOption hideAvailability now t) quantity =
      .ok (perTicket * quantity) := by
    simp only [previewDiscount, hcovers, hprice, hform, bind, Except.bind, pure, Except.pure,
      if_true]
    rw [Int.min_eq_left (Int.le_of_lt hcapped)]
  simp only [preview, hshown, hprice, bind, Except.bind, pure, Except.pure]

end Form

end EchoAndAura
