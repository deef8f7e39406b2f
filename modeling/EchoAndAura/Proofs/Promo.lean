import EchoAndAura.Register
import EchoAndAura.Proofs.Pricing

/-!
# Promo codes at Apply and in an order

Before any stock is held `createOrder` puts the rows that Apply reads to the same `judgePromo`, and
what it does after that goes the same way with a code or without (`createOrder_alike`).  So Apply
accepts a code just where the code stops no order, and what is stored is what the form has shown.
-/

namespace EchoAndAura

open ordersService
open Txn (writeAll)

variable {d : Db}

section Reads

def Db.eventBySlug (d : Db) (slug : String) : Option (Id × Event) :=
  (d.events.entries.find? fun e => e.2.slug == slug).map fun e => (e.1, e.2)

def Db.promoByCode (d : Db) (code : String) : Option (Id × PromoCode) :=
  (d.promoCodes.entries.find? fun e => e.2.code == code).map fun e => (e.1, e.2)

theorem ticketTypesOf_nodup (d : Db) (eventId : Id) :
    ((d.ticketTypesOf eventId).map (·.1)).Nodup := by
  have hkeys : (d.ticketTypes.entries.map Sigma.fst).Nodup := d.ticketTypes.nodupKeys
  unfold Db.ticketTypesOf
  rw [List.map_map]
  exact hkeys.sublist (List.filter_sublist.map _)

theorem promoByCode_mem {code : String} {r : Id × PromoCode}
    (h : d.promoByCode code = some r) : d.promoCodes.lookup r.1 = some r.2 := by
  obtain ⟨e, he, rfl⟩ := Option.map_eq_some_iff.1 h
  exact AList.mem_lookup_iff.2 (List.mem_of_find?_eq_some he)

theorem mem_ticketTypesOf {eventId : Id} {t : Id × TicketType}
    (h : t ∈ d.ticketTypesOf eventId) : d.ticketTypes.lookup t.1 = some t.2 := by
  obtain ⟨e, he, rfl⟩ := List.mem_map.1 h
  exact AList.mem_lookup_iff.2 (List.mem_filter.1 he).1

theorem findBySlug_alone (d : Db) (slug : String) :
    (Svc.query (eventsRepository.findBySlug slug)).alone d = (.ok (d.eventBySlug slug), d) := rfl

theorem findByCode_alone (d : Db) (code : String) :
    (Svc.query (promoCodesRepository.findByCode code)).alone d = (.ok (d.promoByCode code), d) :=
  rfl

theorem listByEvent_alone (d : Db) (eventId : Id) :
    (Svc.query (ticketTypesRepository.listByEvent eventId)).alone d =
      (.ok (d.ticketTypesOf eventId), d) := rfl

end Reads

/-- The promo codes meet their checks, and no price is beyond the safe integers. -/
structure Db.Admitted (d : Db) : Prop where
  promoCode : ∀ id p, d.promoCodes.lookup id = some p → p.broken = none
  price : ∀ id t, d.ticketTypes.lookup id = some t → t.pricePaisa ≤ maxSafeInteger

theorem value_pos {p : PromoCode} (h : p.broken = none) : 0 < p.value := by
  unfold PromoCode.broken at h
  split_ifs at h with hrange hpos
  omega

/-- Not a refusal of a code. -/
def Err.OtherThanCode (e : Err) : Prop :=
  ∀ code refusal, e ≠ .promoCodeNotValid code refusal

/-- What the judgement of a code goes by. -/
def Db.judge (d : Db) (raw : String) (types : List (Id × TicketType)) (id : Id) :
    Except Err (Option PromoRefusal) :=
  judgePromo ((d.promoByCode (normalisePromoCode raw)).map (·.2)) types id

section Apply

variable {slug raw : String} {eventId id : Id} {event : Event} {types : List (Id × TicketType)}
  {p : PromoCode}

/-- What Apply answers for a published event. -/
theorem checkPromo_alone (he : d.eventBySlug slug = some (eventId, event))
    (hs : event.status = .published) : (checkPromo slug raw id).alone d =
      (promoCheckOf ((d.promoByCode (normalisePromoCode raw)).map (·.2)) (d.ticketTypesOf eventId)
        id, d) := by
  unfold checkPromo
  rw [Svc.alone_bind_ok (findBySlug_alone d slug), he]
  simp only [hs, bne_self_eq_false, Bool.false_eq_true, if_false]
  rw [Svc.alone_bind_ok (findByCode_alone d _), Svc.alone_bind_ok (listByEvent_alone d _)]
  rfl

theorem checkPromo_ok {applied : AppliedPromo} {d' : Db}
    (h : (checkPromo slug raw id).alone d = (.ok (.ok applied), d')) :
    ∃ eventId event, d.eventBySlug slug = some (eventId, event) ∧ event.status = .published ∧
      promoCheckOf ((d.promoByCode (normalisePromoCode raw)).map (·.2)) (d.ticketTypesOf eventId)
        id = .ok (.ok applied) := by
  rcases he : d.eventBySlug slug with _ | ⟨eventId, event⟩
  · unfold checkPromo at h
    rw [Svc.alone_bind_ok (findBySlug_alone d slug), he] at h
    cases h
  by_cases hs : event.status = .published
  · rw [checkPromo_alone he hs, Prod.mk.injEq] at h
    exact ⟨eventId, event, rfl, hs, h.1⟩
  · unfold checkPromo at h
    rw [Svc.alone_bind_ok (findBySlug_alone d slug), he] at h
    dsimp only at h
    rw [if_pos (by simpa using hs)] at h
    cases h

/-- Apply has a label for every code that can be used. -/
theorem promoCheckOf_of_judge (hj : judgePromo (some p) types id = .ok none) (hp : p.broken = none)
    (hprice : ∀ t ∈ types, t.2.pricePaisa ≤ maxSafeInteger) :
    ∃ applied, promoCheckOf (some p) types id = .ok (.ok applied) := by
  obtain ⟨_, t, perTicket, hrule, -, hmem, -, -, hper, hlt⟩ := judgePromo_none hj
  cases hrule
  have hlabel : ∃ label, describePromo p = .ok label := by
    unfold describePromo
    rcases htype : p.type with _ | _
    · exact ⟨_, rfl⟩
    · simp only [promoDiscountPerTicket, htype, Except.ok.injEq] at hper
      have := hprice t hmem
      have hvalid := (assertValidPaisa_eq (u := ())).2
        ⟨Int.le_of_lt (value_pos hp), (by omega : p.value ≤ maxSafeInteger)⟩
      simp only [formatBDT, hvalid, bind, Except.bind, pure, Except.pure]
      exact ⟨_, rfl⟩
  obtain ⟨label, hlabel⟩ := hlabel
  simp only [promoCheckOf, hj, hlabel, bind, Except.bind, pure, Except.pure]
  exact ⟨_, rfl⟩

/-- Apply accepts what the judgement lets through. -/
theorem checkPromo_accepts (hd : d.Admitted) (he : d.eventBySlug slug = some (eventId, event))
    (hs : event.status = .published) :
    (∃ applied, (checkPromo slug raw id).alone d = (.ok (.ok applied), d)) ↔
      d.judge raw (d.ticketTypesOf eventId) id = .ok none := by
  simp only [checkPromo_alone he hs, Prod.mk.injEq, and_true, Db.judge]
  constructor
  · rintro ⟨applied, h⟩
    obtain ⟨p, -, hj, -⟩ := promoCheckOf_ok h
    exact hj
  · intro hj
    obtain ⟨p, -, -, hrule, -⟩ := judgePromo_none hj
    obtain ⟨r, hr, rfl⟩ := Option.map_eq_some_iff.1 hrule
    rw [hr, Option.map_some] at hj ⊢
    exact promoCheckOf_of_judge hj (hd.promoCode _ _ (promoByCode_mem hr))
      fun t ht => hd.price _ _ (mem_ticketTypesOf ht)

/-- Apply refuses what the judgement refuses. -/
theorem checkPromo_refuses (he : d.eventBySlug slug = some (eventId, event))
    (hs : event.status = .published) {refusal : PromoRefusal} :
    (checkPromo slug raw id).alone d = (.ok (.refused refusal), d) ↔
      d.judge raw (d.ticketTypesOf eventId) id = .ok (some refusal) := by
  rw [checkPromo_alone he hs, Prod.mk.injEq, and_iff_left rfl, Db.judge]
  constructor
  · intro h
    obtain ⟨r, hj, h⟩ := except_bind_eq h
    rcases r with _ | refusal'
    · obtain ⟨p, -, -, hrule, -⟩ := judgePromo_none hj
      rw [hrule] at h
      obtain ⟨label, -, h⟩ := except_bind_eq h
      cases h
    · cases h
      exact hj
  · intro hj
    rw [promoCheckOf, hj]
    rfl

/-- `createOrder` puts a code to the same judgement. -/
theorem resolvePromo_alone {r : Id × PromoCode} {d' : Db} :
    (resolvePromo raw types id).alone d = (.ok r, d') ↔ d' = d ∧
      d.promoByCode (normalisePromoCode raw) = some r ∧ d.judge raw types id = .ok none := by
  unfold resolvePromo Db.judge
  dsimp only
  rw [Svc.alone_bind_ok (findByCode_alone d _)]
  rcases hj : judgePromo ((d.promoByCode (normalisePromoCode raw)).map (·.2)) types id with
    e | _ | refusal
  · rw [hj, Svc.alone_bind_error (Svc.alone_ofExcept (r := .error e))]
    exact ⟨nofun, fun h => nomatch h.2.2⟩
  · obtain ⟨p, -, -, hrule, -⟩ := judgePromo_none hj
    obtain ⟨found, hfound, rfl⟩ := Option.map_eq_some_iff.1 hrule
    rw [hj, Svc.alone_bind_ok (Svc.alone_ofExcept (r := .ok none)), hfound]
    constructor
    · intro h
      cases h
      exact ⟨rfl, rfl, rfl⟩
    · rintro ⟨rfl, hr, -⟩
      cases hr
      rfl
  · rw [hj, Svc.alone_bind_ok (Svc.alone_ofExcept (r := .ok (some refusal)))]
    exact ⟨nofun, fun h => nomatch h.2.2⟩

theorem resolvePromo_refused {refusal : PromoRefusal}
    (h : d.judge raw types id = .ok (some refusal)) : (resolvePromo raw types id).alone d =
      (.error (.promoCodeNotValid (normalisePromoCode raw) refusal), d) := by
  unfold resolvePromo
  dsimp only
  rw [Svc.alone_bind_ok (findByCode_alone d _)]
  unfold Db.judge at h
  rw [h, Svc.alone_bind_ok (Svc.alone_ofExcept (r := .ok (some refusal)))]
  rfl

/-- What `resolvePromo` fails with is the refusal, but for an amount that cannot be told. -/
theorem resolvePromo_failed {e : Err} {d' : Db}
    (h : (resolvePromo raw types id).alone d = (.error e, d')) : d' = d ∧
      ((∃ text, e = .range text) ∨ ∃ refusal, d.judge raw types id = .ok (some refusal) ∧
        e = .promoCodeNotValid (normalisePromoCode raw) refusal) := by
  rcases hj : d.judge raw types id with e' | _ | refusal
  · unfold resolvePromo at h
    dsimp only at h
    rw [Svc.alone_bind_ok (findByCode_alone d _)] at h
    unfold Db.judge at hj
    rw [hj, Svc.alone_bind_error (Svc.alone_ofExcept (r := .error e'))] at h
    cases h
    exact ⟨rfl, .inl (judgePromo_failed hj)⟩
  · obtain ⟨p, -, -, hrule, -⟩ := judgePromo_none hj
    obtain ⟨r, hr, -⟩ := Option.map_eq_some_iff.1 hrule
    rw [resolvePromo_alone.2 ⟨rfl, hr, hj⟩] at h
    cases h
  · rw [resolvePromo_refused hj] at h
    cases h
    exact ⟨rfl, .inr ⟨refusal, rfl, rfl⟩⟩

end Apply

section Check

variable {input : CreateOrderInput} {eventId : Id} {t : Id × TicketType}
  {types : List (Id × TicketType)} {requestedAt : Time} {quantity : Int} {raw : String}
  {c c₀ : Checked} {d' : Db}

/-- The published event of an order and the type it is for. -/
structure Offered (d : Db) (input : CreateOrderInput) (eventId : Id) (t : Id × TicketType) :
    Prop where
  event : ∃ event, d.eventBySlug input.eventSlug = some (eventId, event) ∧
    event.status = .published
  ticketType : (d.ticketTypesOf eventId).find? (fun t => t.1 == input.ticketTypeId) = some t

theorem Offered.id_eq (h : Offered d input eventId t) : t.1 = input.ticketTypeId := by
  simpa using List.find?_some h.ticketType

theorem Offered.mem (h : Offered d input eventId t) : t ∈ d.ticketTypesOf eventId :=
  List.mem_of_find?_eq_some h.ticketType

/-- The end of `checkOrder`, once there is something to sell. -/
def priceOrder (requestedAt : Time) (eventId : Id) (t : Id × TicketType)
    (types : List (Id × TicketType)) (quantity : Int) (promoCode : Option String) :
    Svc Checked := do
  let promo ← promoOf promoCode types t.1
  let discount ← Svc.ofExcept (discountOf promo t.2.pricePaisa quantity)
  let totals ← Svc.ofExcept (computeOrderTotals t.2.pricePaisa quantity discount)
  return { requestedAt, eventId, ticketTypeId := t.1, ticketType := t.2, promo, totals }

/-- An order that is turned away before its code is looked at is turned away with any code. -/
theorem checkOrder_cases (input : CreateOrderInput) (d : Db) :
    (∃ e, Err.OtherThanCode e ∧
      ∀ promoCode, (checkOrder { input with promoCode }).alone d = (.error e, d)) ∨
    ∃ eventId t, Offered d input eventId t ∧
      ∀ promoCode, (checkOrder { input with promoCode }).alone d =
        (priceOrder d.clock eventId t (d.ticketTypesOf eventId) input.quantity
          promoCode).alone d := by
  unfold checkOrder
  simp only [Svc.alone_bind_ok (Svc.alone_now d), Svc.alone_bind_ok (findBySlug_alone d _)]
  rcases he : d.eventBySlug input.eventSlug with _ | ⟨eventId, event⟩
  · refine .inl ⟨_, ?_, fun _ => rfl⟩
    nofun
  dsimp only
  by_cases hs : (event.status != .published) = true
  · simp only [if_pos hs]
    refine .inl ⟨_, ?_, fun _ => rfl⟩
    nofun
  simp only [if_neg hs, Svc.alone_bind_ok (listByEvent_alone d _)]
  rcases ht : (d.ticketTypesOf eventId).find? (fun t => t.1 == input.ticketTypeId) with
    _ | t <;> simp only [ht]
  · refine .inl ⟨_, ?_, fun _ => rfl⟩
    nofun
  have hoffered : Offered d input eventId t := ⟨⟨event, he, by simpa using hs⟩, ht⟩
  rcases hopen : assertOpen event (d.ticketTypesOf eventId) d.clock with e | u
  · refine .inl ⟨e, ?_, fun _ => rfl⟩
    unfold assertOpen at hopen
    dsimp only at hopen
    split_ifs at hopen
    cases hopen
    nofun
  simp only [Svc.alone_bind_ok (Svc.alone_ofExcept (r := .ok u))]
  rcases hsale : assertOnSale t.1 t.2 d.clock with e | u'
  · refine .inl ⟨e, ?_, fun _ => rfl⟩
    unfold assertOnSale at hsale
    split at hsale <;> cases hsale <;> nofun
  simp only [Svc.alone_bind_ok (Svc.alone_ofExcept (r := .ok u'))]
  by_cases hnames : (input.attendeeNames.length : Int) ≠ input.quantity
  · simp only [if_pos hnames]
    refine .inl ⟨_, ?_, fun _ => rfl⟩
    nofun
  · simp only [if_neg hnames]
    exact .inr ⟨eventId, t, hoffered, fun _ => rfl⟩

theorem promoOf_some (hne : raw ≠ "") :
    promoOf (some raw) types t.1 = some <$> resolvePromo raw types t.1 := by
  rw [promoOf, if_neg (by simpa using hne)]

theorem promoOf_alone {promoCode : Option String} {id : Id} {r : Option (Id × PromoCode)}
    (h : (promoOf promoCode types id).alone d = (.ok r, d')) :
    d' = d ∧ ∀ raw, promoCode = some raw → raw ≠ "" → ∃ p, r = some p ∧
      (resolvePromo raw types id).alone d = (.ok p, d) := by
  rcases promoCode with _ | raw
  · cases h
    exact ⟨rfl, nofun⟩
  unfold promoOf at h
  dsimp only at h
  split_ifs at h with hempty
  · cases h
    refine ⟨rfl, fun raw' hraw hne => ?_⟩
    cases hraw
    exact absurd (String.isEmpty_iff.1 hempty) hne
  · obtain ⟨p, hp, rfl⟩ := Svc.alone_map_eq h
    obtain ⟨rfl, -, -⟩ := resolvePromo_alone.1 hp
    refine ⟨rfl, fun raw' hraw _ => ?_⟩
    cases hraw
    exact ⟨p, rfl, hp⟩

/-- What an order has been priced with. -/
structure PricedFrom (d : Db) (input : CreateOrderInput) (c : Checked) : Prop
    extends Offered d input c.eventId (c.ticketTypeId, c.ticketType) where
  promo : (promoOf input.promoCode (d.ticketTypesOf c.eventId) c.ticketTypeId).alone d =
    (.ok c.promo, d)
  totals : ∃ discount, discountOf c.promo c.ticketType.pricePaisa input.quantity = .ok discount ∧
    computeOrderTotals c.ticketType.pricePaisa input.quantity discount = .ok c.totals

theorem checkOrder_alone (h : (checkOrder input).alone d = (.ok c, d')) :
    d' = d ∧ PricedFrom d input c := by
  rcases checkOrder_cases input d with ⟨e, -, he⟩ | ⟨eventId, t, ho, hrest⟩
  · cases (he input.promoCode).symm.trans h
  have h := (hrest input.promoCode).symm.trans h
  obtain ⟨promo, d₁, hpromo, h⟩ := Svc.alone_bind_eq h
  obtain ⟨rfl, -⟩ := promoOf_alone hpromo
  obtain ⟨discount, d₂, hask, h⟩ := Svc.alone_bind_eq h
  obtain ⟨hdiscount, rfl⟩ := Svc.alone_ofExcept_eq hask
  obtain ⟨totals, d₃, hsum, h⟩ := Svc.alone_bind_eq h
  obtain ⟨htotals, rfl⟩ := Svc.alone_ofExcept_eq hsum
  cases h
  exact ⟨rfl, ho, hpromo, discount, hdiscount, htotals⟩

theorem discountOf_failed {promo : Option (Id × PromoCode)} {price : Int} {e : Err}
    (h : discountOf promo price quantity = .error e) : ∃ text, e = .range text := by
  rcases promo with _ | p
  · cases h
  · exact promoDiscountPaisa_failed h

/-- No amount stands in the way of a code but one that cannot be told. -/
theorem priceOrder_failed (hne : raw ≠ "") {e : Err}
    (h : (priceOrder requestedAt eventId t types quantity (some raw)).alone d = (.error e, d')) :
    d' = d ∧ ((∃ text, e = .range text) ∨ ∃ refusal, d.judge raw types t.1 = .ok (some refusal) ∧
      e = .promoCodeNotValid (normalisePromoCode raw) refusal) := by
  unfold priceOrder at h
  rcases Svc.alone_bind_failed h with hpromo | ⟨promo, d₁, hpromo, h₁⟩
  · rw [promoOf_some hne] at hpromo
    exact resolvePromo_failed (Svc.alone_map_failed hpromo)
  obtain ⟨rfl, -⟩ := promoOf_alone hpromo
  rcases Svc.alone_bind_failed h₁ with hask | ⟨discount, d₂, hask, h₂⟩
  · obtain ⟨hfailed, rfl⟩ := Svc.alone_ofExcept_failed hask
    exact ⟨rfl, .inl (discountOf_failed hfailed)⟩
  obtain ⟨-, rfl⟩ := Svc.alone_ofExcept_eq hask
  rcases Svc.alone_bind_failed h₂ with hsum | ⟨totals, d₃, hsum, h₃⟩
  · obtain ⟨hfailed, rfl⟩ := Svc.alone_ofExcept_failed hsum
    exact ⟨rfl, .inl (computeOrderTotals_failed hfailed)⟩
  · cases h₃

/-- A refused code is what an order that could be priced without it fails with. -/
theorem priceOrder_refused (hne : raw ≠ "") {refusal : PromoRefusal}
    (hj : d.judge raw types t.1 = .ok (some refusal)) :
    (priceOrder requestedAt eventId t types quantity (some raw)).alone d =
      (.error (.promoCodeNotValid (normalisePromoCode raw) refusal), d) := by
  refine Svc.alone_bind_error ?_
  rw [promoOf_some hne]
  exact Svc.alone_bind_error (resolvePromo_refused hj)

/-- What an order without a code is priced at. -/
theorem priceOrder_plain
    (h : (priceOrder requestedAt eventId t types quantity none).alone d = (.ok c₀, d')) :
    d' = d ∧ ∃ totals, computeOrderTotals t.2.pricePaisa quantity 0 = .ok totals ∧
      c₀ = ⟨requestedAt, eventId, t.1, t.2, none, totals⟩ := by
  obtain ⟨promo, d₁, hpromo, h₁⟩ := Svc.alone_bind_eq h
  cases hpromo
  obtain ⟨discount, d₂, hask, h₂⟩ := Svc.alone_bind_eq h₁
  cases hask
  obtain ⟨totals, d₃, hsum, h₃⟩ := Svc.alone_bind_eq h₂
  obtain ⟨htotals, rfl⟩ := Svc.alone_ofExcept_eq hsum
  cases h₃
  exact ⟨rfl, totals, htotals, rfl⟩

/-- A code that the judgement lets through changes the amounts of an order and nothing else. -/
theorem priceOrder_accepted (hd : d.Admitted) (hne : raw ≠ "") (ho : Offered d input eventId t)
    (hplain : (priceOrder requestedAt eventId t (d.ticketTypesOf eventId) quantity none).alone d =
      (.ok c₀, d'))
    (hj : d.judge raw (d.ticketTypesOf eventId) t.1 = .ok none) :
    ∃ price promo discount, 0 ≤ discount ∧ discount ≤ price * quantity ∧
      c₀.totals = ⟨price, quantity, price * quantity, 0, price * quantity - 0⟩ ∧
      (priceOrder requestedAt eventId t (d.ticketTypesOf eventId) quantity (some raw)).alone d =
        (.ok { c₀ with
          promo := some promo
          totals := ⟨price, quantity, price * quantity, discount,
            price * quantity - discount⟩ }, d) := by
  obtain ⟨-, totals, htotals, rfl⟩ := priceOrder_plain hplain
  obtain ⟨p, t', perTicket, hrule, -, hmem, hid, -, hper, hlt⟩ := judgePromo_none hj
  obtain rfl := List.inj_on_of_nodup_map (ticketTypesOf_nodup d eventId) hmem ho.mem hid
  obtain ⟨promo, hfound, rfl⟩ := Option.map_eq_some_iff.1 hrule
  have hvalue := value_pos (hd.promoCode _ _ (promoByCode_mem hfound))
  obtain ⟨⟨hprice, hq, -⟩, -, rfl⟩ := computeOrderTotals_eq.1 htotals
  obtain ⟨hdiscount, hnonneg, hcapped, hsum⟩ :=
    totals_with_code htotals hper (perTicket_nonneg hvalue hprice.1 hper) hlt
  refine ⟨_, promo, _, hnonneg, hcapped, ?_, ?_⟩
  · rw [Int.min_eq_left (Int.mul_nonneg hprice.1 hq)]
  · have hpromo : (promoOf (some raw) (d.ticketTypesOf eventId) t'.1).alone d =
        (.ok (some promo), d) := by
      rw [promoOf_some hne]
      exact Svc.alone_bind_ok (resolvePromo_alone.2 ⟨rfl, hfound, hj⟩)
    have hask : (Svc.ofExcept (discountOf (some promo) t'.2.pricePaisa quantity)).alone d =
        (.ok (perTicket * quantity), d) := by
      rw [Svc.alone_ofExcept, discountOf, hdiscount]
    have htotal := Svc.alone_ofExcept (d := d)
      (r := computeOrderTotals t'.2.pricePaisa quantity (perTicket * quantity))
    rw [hsum] at htotal
    unfold priceOrder
    rw [Svc.alone_bind_ok hpromo, Svc.alone_bind_ok hask, hsum, Svc.alone_bind_ok htotal]
    rfl

end Check

section Stock

variable {input : CreateOrderInput} {c : Checked} {x : OrderDraw} {price quantity discount : Int}

/-- Only its quantity can make an order break a check. -/
theorem newOrder_broken
    (hc : c.totals = ⟨price, quantity, price * quantity, discount, price * quantity - discount⟩)
    (hnonneg : 0 ≤ discount) (hcapped : discount ≤ price * quantity) :
    (newOrder input c x).broken =
      if quantity < 1 || 10 < quantity then some "orders_quantity_range" else none := by
  have hsubtotal : ¬price * quantity < 0 := by omega
  have htotal : ¬price * quantity - discount < 0 := by omega
  simp [Order.broken, newOrder, hc, hsubtotal, htotal, not_lt.2 hnonneg, not_lt.2 hcapped]

theorem insert_alone {id : Id} {o : Order} {ws : List Write}
    (h : ordersRepository.insertViolation id o (writeAll ws d) = none) :
    (exec (ordersRepository.insert id o)).alone d ws =
      .ok (o, ws ++ [.order id o, .reference o.reference id]) :=
  Tx.alone_insert h

theorem insert_failed {id : Id} {o : Order} {ws : List Write} {e : Err}
    (h : ordersRepository.insertViolation id o (writeAll ws d) = some e) :
    (exec (ordersRepository.insert id o)).alone d ws = .error e := by
  simp only [exec, Txn.Tx.ofStmt, Txn.Tx.alone, ordersRepository.insert, Txn.Stmt.insert, h]

/-- What stands in the way of an insertion is the row's checks and its two keys. -/
theorem insertViolation_congr {id : Id} {o o' : Order} (hbroken : o.broken = o'.broken)
    (href : o.reference = o'.reference) : ordersRepository.insertViolation id o d =
      ordersRepository.insertViolation id o' d := by
  rw [ordersRepository.insertViolation, hbroken, href]
  rfl

/-- Stock is taken alike, whatever the order comes to. -/
theorem createOrderTx_alike {promo : Option (Id × PromoCode)} {totals : OrderTotals}
    (hbroken : (newOrder input c x).broken = (newOrder input { c with promo, totals } x).broken) :
    SameFailure ((createOrderTx input c x).alone d [])
      ((createOrderTx input { c with promo, totals } x).alone d []) := by
  unfold createOrderTx
  simp only [Tx.alone_bind]
  refine .bind fun r => .bind fun r => ?_
  split
  · exact fun _ => Iff.rfl
  simp only [Tx.alone_bind]
  refine .bind fun r => ?_
  split
  · exact fun _ => Iff.rfl
  rcases hv : ordersRepository.insertViolation x.orderId (newOrder input c x) (writeAll r.2 d) with
    _ | e
  · have hv' := (insertViolation_congr hbroken rfl).symm.trans hv
    rw [Tx.alone_bind, Tx.alone_bind, insert_alone hv, insert_alone hv']
    exact fun _ => ⟨nofun, nofun⟩
  · have hv' := (insertViolation_congr hbroken rfl).symm.trans hv
    rw [Tx.alone_bind, Tx.alone_bind, insert_failed hv, insert_failed hv']
    exact fun _ => Iff.rfl

theorem updateTicketType_failed {name : String} {id : Id} {cond : TicketType → Bool}
    {set : TicketType → TicketType} {caught : List String} {e e' : Err} (he : e.OtherThanCode)
    (h : (updateTicketType name id cond set caught e).exec d = .fail e') : e'.OtherThanCode := by
  simp only [updateTicketType, Txn.Stmt.onRow] at h
  rcases ht : d.ticketTypes.lookup id with _ | t <;> simp only [ht] at h
  · cases h
  split_ifs at h
  · unfold setTicketType at h
    rcases hb : (set t).broken with _ | c <;> simp only [hb] at h
    · cases h
    · split_ifs at h <;> cases h
      · exact he
      · exact fun _ _ h => by cases h
  · cases h

theorem hold_failed {id : Id} {quantity : Int} {ws : List Write} {e : Err}
    (h : (inventoryService.hold id quantity).alone d ws = .error e) : e.OtherThanCode := by
  rcases Tx.alone_bind_failed h with hquantity | ⟨u, ws₁, -, h₁⟩
  · have hquantity := Tx.alone_ofExcept_failed hquantity
    unfold assertQuantity at hquantity
    split_ifs at hquantity
    cases hquantity
    exact fun _ _ h => by cases h
  rcases Tx.alone_bind_failed h₁ with hquantity | ⟨u', ws₂, -, h₂⟩
  · have hquantity := Tx.alone_ofExcept_failed hquantity
    unfold inventoryRepository.assertPositiveInteger at hquantity
    split_ifs at hquantity
    cases hquantity
    exact fun _ _ h => by cases h
  · exact updateTicketType_failed (e := .lost) (fun _ _ h => by cases h) (Tx.alone_exec_failed h₂)

/-- No order that is being written is refused for its code. -/
theorem createOrderTx_failed {e : Err} (h : (createOrderTx input c x).alone d [] = .error e) :
    e.OtherThanCode := by
  unfold createOrderTx at h
  rcases Tx.alone_bind_failed h with hlock | ⟨u, ws₁, -, h₁⟩
  · cases Tx.alone_exec_failed hlock
  rcases Tx.alone_bind_failed h₁ with hcount | ⟨openOrders, ws₂, -, h₂⟩
  · cases Tx.alone_exec_failed hcount
  by_cases hmany : maxOpenOrdersPerBuyer ≤ openOrders
  · rw [if_pos hmany] at h₂
    cases h₂
    exact fun _ _ h => by cases h
  rw [if_neg hmany] at h₂
  rcases Tx.alone_bind_failed h₂ with hheld | ⟨held, ws₃, -, h₃⟩
  · exact hold_failed hheld
  dsimp only at h₃
  by_cases hsold : (!held) = true
  · rw [if_pos hsold] at h₃
    cases h₃
    exact fun _ _ h => by cases h
  rw [if_neg hsold] at h₃
  rcases Tx.alone_bind_failed h₃ with hinsert | ⟨o, ws₄, -, h₄⟩
  · rcases hv : ordersRepository.insertViolation x.orderId (newOrder input c x)
      (writeAll ws₃ d) with _ | e'
    · rw [insert_alone hv] at hinsert
      cases hinsert
    · rw [insert_failed hv] at hinsert
      cases hinsert
      unfold ordersRepository.insertViolation at hv
      split at hv
      · cases hv
        exact fun _ _ h => by cases h
      · split_ifs at hv <;> cases hv <;> exact fun _ _ h => by cases h
  rcases Tx.alone_bind_failed h₄ with hevent | ⟨u', ws₅, -, h₅⟩
  · cases Tx.alone_exec_failed hevent
  · cases h₅

end Stock

section Order

variable {input : CreateOrderInput} {draw : Nat → OrderDraw} {raw : String} {d' : Db}

theorem assertQuantity_eq {quantity : Int} {u : Unit} (h : assertQuantity quantity = .ok u) :
    isValidOrderQuantity quantity = true := by
  unfold assertQuantity at h
  split_ifs at h with hvalid
  exact hvalid

theorem createOrderTx_alone {c : Checked} {x : OrderDraw} {r : Id × Order} {ws : List Write}
    (h : (createOrderTx input c x).alone d [] = .ok (r, ws)) :
    r.2 = newOrder input c x ∧ isValidOrderQuantity input.quantity = true ∧ r.2.broken = none ∧
      (writeAll ws d).orders.lookup r.1 = some r.2 := by
  unfold createOrderTx at h
  obtain ⟨u, ws₁, -, h₁⟩ := Tx.alone_bind_eq h
  obtain ⟨openOrders, ws₂, -, h₂⟩ := Tx.alone_bind_eq h₁
  by_cases hmany : maxOpenOrdersPerBuyer ≤ openOrders
  · rw [if_pos hmany] at h₂
    cases h₂
  rw [if_neg hmany] at h₂
  obtain ⟨held, ws₃, hheld, h₃⟩ := Tx.alone_bind_eq h₂
  obtain ⟨u, ws₄, hquantity, -⟩ := Tx.alone_bind_eq hheld
  have hvalid := assertQuantity_eq (Tx.alone_ofExcept_eq hquantity).1
  dsimp only at h₃
  by_cases hsold : (!held) = true
  · rw [if_pos hsold] at h₃
    cases h₃
  rw [if_neg hsold] at h₃
  obtain ⟨o, ws₅, hinsert, h₄⟩ := Tx.alone_bind_eq h₃
  obtain ⟨u', ws₆, hevent, h₅⟩ := Tx.alone_bind_eq h₄
  rcases hv : ordersRepository.insertViolation x.orderId (newOrder input c x) (writeAll ws₃ d) with
    _ | e
  · rw [insert_alone hv] at hinsert
    cases hinsert
    cases hevent
    cases h₅
    refine ⟨rfl, hvalid, ?_, ?_⟩
    · unfold ordersRepository.insertViolation at hv
      split at hv
      · cases hv
      · assumption
    · rw [Txn.writeAll_append, Txn.writeAll_append]
      exact AList.lookup_insert _
  · rw [insert_failed hv] at hinsert
    cases hinsert

/-- An order that is placed is the one `checkOrder` has priced, and it is stored. -/
theorem createOrder_alone {id : Id} {o : Order}
    (h : (createOrder input draw).alone d = (.ok (id, o), d')) :
    ∃ c x, PricedFrom d input c ∧ o = newOrder input c x ∧
      isValidOrderQuantity input.quantity = true ∧ o.broken = none ∧
      d'.orders.lookup id = some o := by
  unfold createOrder at h
  obtain ⟨c, d₁, hchecked, hrest⟩ := Svc.alone_bind_eq h
  obtain ⟨rfl, hc⟩ := checkOrder_alone hchecked
  obtain ⟨created, d₂, hcreated, hend⟩ := Svc.alone_bind_eq hrest
  obtain ⟨u, d₃, hsaid, hend⟩ := Svc.alone_bind_eq hend
  cases hsaid
  cases hend
  obtain ⟨x, ws, hx, rfl⟩ := Svc.alone_retry_eq hcreated
  obtain ⟨ho, hquantity, hchecks, hstored⟩ := createOrderTx_alone hx
  exact ⟨c, x, hc, ho, hquantity, hchecks, hstored⟩

/-- An order refused for its code was refused by the judgement, with nothing done. -/
theorem createOrder_refused {code : String} {refusal : PromoRefusal}
    (hraw : input.promoCode = some raw) (hne : raw ≠ "")
    (h : (createOrder input draw).alone d = (.error (.promoCodeNotValid code refusal), d')) :
    d' = d ∧ code = normalisePromoCode raw ∧ ∃ eventId t, Offered d input eventId t ∧
      d.judge raw (d.ticketTypesOf eventId) t.1 = .ok (some refusal) := by
  unfold createOrder at h
  rcases Svc.alone_bind_failed h with hchecked | ⟨c, d₁, -, hrest⟩
  · rcases checkOrder_cases input d with ⟨e, hother, he⟩ | ⟨eventId, t, ho, hprice⟩
    · cases (he input.promoCode).symm.trans hchecked
      exact absurd rfl (hother code refusal)
    have hpriced := (hprice input.promoCode).symm.trans hchecked
    rw [hraw] at hpriced
    obtain ⟨rfl, ⟨text, hrange⟩ | ⟨refusal', hj, hcode⟩⟩ := priceOrder_failed hne hpriced
    · cases hrange
    · rw [Err.promoCodeNotValid.injEq] at hcode
      obtain ⟨rfl, rfl⟩ := hcode
      exact ⟨rfl, rfl, eventId, t, ho, hj⟩
  · rcases Svc.alone_bind_failed hrest with hretry | ⟨created, d₂, -, hsaid⟩
    · obtain ⟨x, hx⟩ := Svc.alone_retry_failed hretry
      exact absurd rfl (createOrderTx_failed hx code refusal)
    · rcases Svc.alone_bind_failed hsaid with hsay | ⟨u, d₃, -, hend⟩
      · cases hsay
      · cases hend

/-- A refused code stops an order that would have passed `checkOrder` without it. -/
theorem createOrder_refuses {c₀ : Checked} {refusal : PromoRefusal}
    (hraw : input.promoCode = some raw) (hne : raw ≠ "")
    (hplain : (checkOrder { input with promoCode := none }).alone d = (.ok c₀, d'))
    {eventId : Id} {event : Event} (he : d.eventBySlug input.eventSlug = some (eventId, event))
    (hj : d.judge raw (d.ticketTypesOf eventId) input.ticketTypeId = .ok (some refusal)) :
    (createOrder input draw).alone d =
      (.error (.promoCodeNotValid (normalisePromoCode raw) refusal), d) := by
  rcases checkOrder_cases input d with ⟨e, -, hfail⟩ | ⟨eventId', t, ho, hprice⟩
  · cases (hfail none).symm.trans hplain
  obtain ⟨event', he', -⟩ := ho.event
  rw [he, Option.some.injEq, Prod.mk.injEq] at he'
  obtain ⟨rfl, rfl⟩ := he'
  refine Svc.alone_bind_error ((hprice input.promoCode).trans ?_)
  rw [hraw]
  exact priceOrder_refused hne (ho.id_eq ▸ hj)

/-- An order that is placed without a code is placed with one that the judgement lets through. -/
theorem createOrder_accepted (hd : d.Admitted) (hraw : input.promoCode = some raw) (hne : raw ≠ "")
    {r : Id × Order} {d₀ : Db}
    (hplain : (createOrder { input with promoCode := none } draw).alone d = (.ok r, d₀))
    {eventId : Id} {event : Event} (he : d.eventBySlug input.eventSlug = some (eventId, event))
    (hj : d.judge raw (d.ticketTypesOf eventId) input.ticketTypeId = .ok none) :
    ∃ r' d', (createOrder input draw).alone d = (.ok r', d') := by
  rcases checkOrder_cases input d with ⟨e, -, hfail⟩ | ⟨eventId', t, ho, hprice⟩
  · cases (Svc.alone_bind_error (hfail none)).symm.trans hplain
  obtain ⟨event', he', -⟩ := ho.event
  rw [he, Option.some.injEq, Prod.mk.injEq] at he'
  obtain ⟨rfl, rfl⟩ := he'
  obtain ⟨c₀, d₁, hchecked, hrest⟩ := Svc.alone_bind_eq hplain
  have hpriced := (hprice none).symm.trans hchecked
  obtain ⟨rfl, -⟩ := priceOrder_plain hpriced
  obtain ⟨price, promo, discount, hnonneg, hcapped, htotals, haccepted⟩ :=
    priceOrder_accepted hd hne ho hpriced (ho.id_eq ▸ hj)
  have hwith := hprice input.promoCode
  rw [hraw, haccepted] at hwith
  obtain ⟨created, d₂, hcreated, -⟩ := Svc.alone_bind_eq hrest
  have halike : ∀ x, SameFailure ((createOrderTx input c₀ x).alone d₁ [])
      ((createOrderTx input { c₀ with promo := some promo, totals := _ } x).alone d₁ []) :=
    fun x => createOrderTx_alike ((newOrder_broken htotals (Int.le_refl 0) (by omega)).trans
      (newOrder_broken rfl hnonneg hcapped).symm)
  obtain ⟨created', d₃, hcreated'⟩ := Svc.alone_retry_alike halike hcreated
  have hinput : input = { input with promoCode := some raw } := by rw [← hraw]
  rw [hinput]
  exact ⟨created', d₃, (Svc.alone_bind_ok hwith).trans ((Svc.alone_bind_ok hcreated').trans rfl)⟩

end Order

section Law

variable {input : CreateOrderInput} {draw : Nat → OrderDraw} {raw : String} {d' : Db}

/-- An order placed with a code: its amounts, and what the form shows of them once Apply has
answered for any type of the event. -/
def Discounted (d : Db) (input : CreateOrderInput) (raw : String) (o : Order) : Prop :=
  ∃ promo t, d.promoByCode (normalisePromoCode raw) = some promo ∧ o.promoCodeId = some promo.1 ∧
    d.ticketTypes.lookup input.ticketTypeId = some t ∧ o.ticketTypeId = input.ticketTypeId ∧
    o.quantity = input.quantity ∧ MoneyLaw promo.2 t.pricePaisa o ∧
    (∃ applied, (checkPromo input.eventSlug raw input.ticketTypeId).alone d =
      (.ok (.ok applied), d)) ∧
    ∀ applyId applied, (checkPromo input.eventSlug raw applyId).alone d = (.ok (.ok applied), d) →
      ∀ hideAvailability now, preview (some applied)
        (some (ticketOption hideAvailability now (input.ticketTypeId, t))) input.quantity =
          .ok ⟨o.subtotalPaisa, o.discountPaisa, o.totalPaisa⟩

/-- The law of a code, over a database. -/
structure PromoLaw (d : Db) (raw : String) : Prop where
  /-- What is stored is the order that is answered. -/
  order : ∀ input draw id o d', input.promoCode = some raw → raw ≠ "" →
    (createOrder input draw).alone d = (.ok (id, o), d') →
      d'.orders.lookup id = some o ∧ Discounted d input raw o
  /-- Apply accepts the code where `createOrder` places an order with it that it would place
  without. -/
  accepts : ∀ input draw, input.promoCode = some raw → raw ≠ "" →
    (∃ r d₀, (createOrder { input with promoCode := none } draw).alone d = (.ok r, d₀)) →
      ((∃ applied, (checkPromo input.eventSlug raw input.ticketTypeId).alone d =
        (.ok (.ok applied), d)) ↔ ∃ r d', (createOrder input draw).alone d = (.ok r, d'))
  /-- Whatever else is wrong with an order, it is refused for a code only if Apply refuses it. -/
  refuses : ∀ input draw code refusal d', input.promoCode = some raw → raw ≠ "" →
    (createOrder input draw).alone d = (.error (.promoCodeNotValid code refusal), d') →
      d' = d ∧ code = normalisePromoCode raw ∧
        (checkPromo input.eventSlug raw input.ticketTypeId).alone d = (.ok (.refused refusal), d)
  /-- A code that Apply refuses stops an order before it asks for stock. -/
  refused : ∀ input draw refusal, input.promoCode = some raw → raw ≠ "" →
    (∃ c, (checkOrder { input with promoCode := none }).alone d = (.ok c, d)) →
    (checkPromo input.eventSlug raw input.ticketTypeId).alone d = (.ok (.refused refusal), d) →
      (createOrder input draw).alone d =
        (.error (.promoCodeNotValid (normalisePromoCode raw) refusal), d)
  /-- The form's cover test is `judgePromo`, for every type of the event. -/
  covers : ∀ slug id applied, (checkPromo slug raw id).alone d = (.ok (.ok applied), d) →
    ∃ eventId event promo, d.eventBySlug slug = some (eventId, event) ∧
      d.promoByCode (normalisePromoCode raw) = some promo ∧
      ∀ hideAvailability now, ∀ t ∈ d.ticketTypesOf eventId,
        promoCovers applied (ticketOption hideAvailability now t) =
          (judgePromo (some promo.2) (d.ticketTypesOf eventId) t.1).map Option.isNone

theorem promo_covers {slug : String} {id : Id} {applied : AppliedPromo}
    (h : (checkPromo slug raw id).alone d = (.ok (.ok applied), d)) :
    ∃ eventId event promo, d.eventBySlug slug = some (eventId, event) ∧
      d.promoByCode (normalisePromoCode raw) = some promo ∧
      ∀ hideAvailability now, ∀ t ∈ d.ticketTypesOf eventId,
        promoCovers applied (ticketOption hideAvailability now t) =
          (judgePromo (some promo.2) (d.ticketTypesOf eventId) t.1).map Option.isNone := by
  obtain ⟨eventId, event, he, -, h⟩ := checkPromo_ok h
  obtain ⟨p, hrule, hj, -, -, -⟩ := promoCheckOf_ok h
  obtain ⟨promo, hpromo, rfl⟩ := Option.map_eq_some_iff.1 hrule
  rw [hpromo, Option.map_some] at h hj
  exact ⟨eventId, event, promo, he, hpromo, fun hideAvailability now t ht =>
    promoCovers_eq hj h (ticketTypesOf_nodup d eventId) hideAvailability now ht⟩

/-- What the pricing of an order with a code comes to. -/
theorem totals_of_priced {c : Checked} (hc : PricedFrom d input c)
    (hraw : input.promoCode = some raw) (hne : raw ≠ "") :
    ∃ p perTicket, c.promo = some p ∧ d.promoByCode (normalisePromoCode raw) = some p ∧
      judgePromo (some p.2) (d.ticketTypesOf c.eventId) c.ticketTypeId = .ok none ∧
      0 ≤ perTicket ∧ perTicket < c.ticketType.pricePaisa ∧
      promoDiscountPerTicket p.2 c.ticketType.pricePaisa = .ok perTicket ∧
      promoDiscountPaisa p.2 c.ticketType.pricePaisa input.quantity =
        .ok (perTicket * input.quantity) ∧
      computeOrderTotals c.ticketType.pricePaisa input.quantity (perTicket * input.quantity) =
        .ok c.totals := by
  obtain ⟨p, hp, hresolved⟩ := (promoOf_alone hc.promo).2 raw hraw hne
  obtain ⟨-, hfound, hj⟩ := resolvePromo_alone.1 hresolved
  rw [Db.judge, hfound, Option.map_some] at hj
  obtain ⟨_, t, perTicket, hrule, -, hmem, hid, -, hper, hlt⟩ := judgePromo_none hj
  cases hrule
  obtain rfl := List.inj_on_of_nodup_map (ticketTypesOf_nodup d c.eventId) hmem hc.mem hid
  obtain ⟨discount, hdiscount, htotals⟩ := hc.totals
  rw [hp] at hdiscount
  obtain ⟨per, hper', hnonneg, rfl⟩ := promoDiscountPaisa_eq hdiscount
  rw [hper] at hper'
  cases hper'
  exact ⟨p, perTicket, hp, hfound, hj, hnonneg, hlt, hper, hdiscount, htotals⟩

/-- A code with which an order is placed is one that Apply accepts. -/
theorem applied_of_priced (hd : d.Admitted) {c : Checked} (hc : PricedFrom d input c)
    (hraw : input.promoCode = some raw) (hne : raw ≠ "") :
    ∃ applied, (checkPromo input.eventSlug raw input.ticketTypeId).alone d =
      (.ok (.ok applied), d) := by
  obtain ⟨event, he, hs⟩ := hc.event
  obtain ⟨p, hp, hresolved⟩ := (promoOf_alone hc.promo).2 raw hraw hne
  obtain ⟨-, -, hj⟩ := resolvePromo_alone.1 hresolved
  exact (checkPromo_accepts hd he hs).2 (hc.id_eq ▸ hj)

theorem promo_order (hd : d.Admitted) {id : Id} {o : Order} (hraw : input.promoCode = some raw)
    (hne : raw ≠ "") (h : (createOrder input draw).alone d = (.ok (id, o), d')) :
    d'.orders.lookup id = some o ∧ Discounted d input raw o := by
  obtain ⟨c, x, hc, rfl, hquantity, hchecks, hstored⟩ := createOrder_alone h
  have hq : 1 ≤ input.quantity := by
    rw [isValidOrderQuantity, Bool.and_eq_true] at hquantity
    exact of_decide_eq_true hquantity.1
  obtain ⟨p, perTicket, hp, hfound, hj, hnonneg, hlt, hper, hdiscount, htotals⟩ :=
    totals_of_priced hc hraw hne
  obtain ⟨hsum, hcapped, hrest⟩ := totals_of_perTicket hlt hq htotals
  have hid : c.ticketTypeId = input.ticketTypeId := hc.id_eq
  obtain ⟨event, he, hs⟩ := hc.event
  have happ : promoAppliesTo p.2 c.ticketTypeId = true := by
    obtain ⟨_, -, -, hrule, -, -, -, happ, -, -⟩ := judgePromo_none hj
    cases hrule
    exact happ
  refine ⟨hstored, p, c.ticketType, hfound, ?_, hid ▸ mem_ticketTypesOf hc.mem, hid, ?_, ?_,
    applied_of_priced hd hc hraw hne, ?_⟩
  · simp [newOrder, hp]
  · simp [newOrder, hsum]
  · refine ⟨?_, ?_, ?_, ?_, ?_, ?_, ⟨perTicket, ?_, offers_of_perTicket hper⟩, hchecks⟩
    all_goals simp only [newOrder, hsum]
    · exact Int.mul_nonneg hnonneg (by omega)
    · exact hcapped
    · exact hrest
  · intro applyId applied happlied hideAvailability now
    obtain ⟨eventId, event', he', -, hcheck⟩ := checkPromo_ok happlied
    rw [he, Option.some.injEq, Prod.mk.injEq] at he'
    obtain ⟨rfl, rfl⟩ := he'
    rw [hfound, Option.map_some] at hcheck
    obtain ⟨_, hrule, hjApply, -, -, -⟩ := promoCheckOf_ok hcheck
    rw [← hid]
    exact preview_eq hjApply hcheck hc.mem happ hper hlt hq hdiscount htotals hideAvailability now

theorem promo_accepts (hd : d.Admitted) (hraw : input.promoCode = some raw) (hne : raw ≠ "")
    (hplain : ∃ r d₀, (createOrder { input with promoCode := none } draw).alone d = (.ok r, d₀)) :
    (∃ applied, (checkPromo input.eventSlug raw input.ticketTypeId).alone d =
      (.ok (.ok applied), d)) ↔ ∃ r d', (createOrder input draw).alone d = (.ok r, d') := by
  constructor
  · rintro ⟨applied, happlied⟩
    obtain ⟨r, d₀, hplain⟩ := hplain
    obtain ⟨eventId, event, he, hs, -⟩ := checkPromo_ok happlied
    exact createOrder_accepted hd hraw hne hplain he
      ((checkPromo_accepts hd he hs).1 ⟨applied, happlied⟩)
  · rintro ⟨⟨id, o⟩, d', h⟩
    obtain ⟨c, x, hc, -⟩ := createOrder_alone h
    exact applied_of_priced hd hc hraw hne

theorem promo_refuses {code : String} {refusal : PromoRefusal} (hraw : input.promoCode = some raw)
    (hne : raw ≠ "")
    (h : (createOrder input draw).alone d = (.error (.promoCodeNotValid code refusal), d')) :
    d' = d ∧ code = normalisePromoCode raw ∧
      (checkPromo input.eventSlug raw input.ticketTypeId).alone d =
        (.ok (.refused refusal), d) := by
  obtain ⟨rfl, hcode, eventId, t, ho, hj⟩ := createOrder_refused hraw hne h
  obtain ⟨event, he, hs⟩ := ho.event
  exact ⟨rfl, hcode, (checkPromo_refuses he hs).2 (ho.id_eq ▸ hj)⟩

theorem promo_refused {refusal : PromoRefusal} (hraw : input.promoCode = some raw) (hne : raw ≠ "")
    (hplain : ∃ c, (checkOrder { input with promoCode := none }).alone d = (.ok c, d))
    (h : (checkPromo input.eventSlug raw input.ticketTypeId).alone d =
      (.ok (.refused refusal), d)) :
    (createOrder input draw).alone d =
      (.error (.promoCodeNotValid (normalisePromoCode raw) refusal), d) := by
  obtain ⟨c, hplain⟩ := hplain
  obtain ⟨event, he, hs⟩ := (checkOrder_alone hplain).2.event
  exact createOrder_refuses hraw hne hplain he ((checkPromo_refuses he hs).1 h)

/-- Over every database whose promo codes meet their checks: an order placed with a code obeys the
money law and is stored as the form has shown it, Apply accepts the code where the order does, and
the form's cover test is the server's. -/
theorem promo_law (d : Db) (hd : d.Admitted) (raw : String) : PromoLaw d raw :=
  ⟨fun _ _ _ _ _ hraw hne h => promo_order hd hraw hne h,
    fun _ _ hraw hne hplain => promo_accepts hd hraw hne hplain,
    fun _ _ _ _ _ hraw hne h => promo_refuses hraw hne h,
    fun _ _ _ hraw hne hplain h => promo_refused hraw hne hplain h,
    fun _ _ _ h => promo_covers h⟩

section Night

/-- Fifteen percent off the floor. -/
def promoNight : Db :=
  { openingNight with
    promoCodes := .singleton 1
      { code := "FRIENDS-15", type := .percentage, value := 15, active := true
        ticketTypeIds := [1] } }

def friendOrders : CreateOrderInput :=
  { eventSlug := "gala", ticketTypeId := 1, quantity := 1, buyerName := "Tara"
    buyerEmail := "tara@example.com", buyerPhone := "01700000003", attendeeNames := ["Tara"]
    promoCode := some "friends-15" }

def amounts (o : Order) : Preview := ⟨o.subtotalPaisa, o.discountPaisa, o.totalPaisa⟩

theorem promoNight_admitted : promoNight.Admitted := by
  refine ⟨fun id p h => ?_, fun id t h => ?_⟩
  · obtain ⟨-, rfl⟩ := Table.lookup_singleton.1 h
    decide
  · obtain ⟨-, rfl⟩ := Table.lookup_singleton.1 h
    decide

theorem promo_law_friends :
    PromoLaw promoNight "friends-15" ∧
      (((createOrder friendOrders fun _ => ⟨4, "EA-4"⟩).alone promoNight).2.orders.lookup 4).map
        amounts = some ⟨50000, 7500, 42500⟩ ∧
      ((createOrder { friendOrders with promoCode := none } fun _ => ⟨4, "EA-4"⟩).alone
        promoNight).1.toOption.map (amounts ·.2) = some ⟨50000, 0, 50000⟩ :=
  ⟨promo_law promoNight promoNight_admitted "friends-15", by decide +kernel, by decide +kernel⟩

end Night

end Law

end EchoAndAura
