import EchoAndAura.Orders

/-!
# The registration form

What the register page offers for each ticket type, what Apply learns of a promo code
(`checkPromo`), and the amounts the form shows for the type and quantity chosen.
-/

namespace EchoAndAura

section Words

/-- Thousands: a comma wherever a multiple of three digits is left. -/
def groupThousands : List Char → List Char
  | [] => []
  | c :: cs =>
    if cs ≠ [] ∧ cs.length % 3 = 0 then c :: ',' :: groupThousands cs else c :: groupThousands cs

def formatBDT (paisa : Int) : Except Err String := do
  assertValidPaisa paisa
  let taka := String.ofList (groupThousands (toString (paisa / 100)).toList)
  let fraction := toString (paisa % 100)
  return "৳" ++ taka ++ "." ++ (if fraction.length < 2 then "0" ++ fraction else fraction)

def describePromo (rule : PromoCode) : Except Err String :=
  match rule.type with
  | .percentage => .ok (toString rule.value ++ "% off")
  | .fixed => do return (← formatBDT rule.value) ++ " off each ticket"

end Words

section Apply

/-- What Apply learns of a code that can be used. -/
structure AppliedPromo where
  code : String
  type : PromoType
  value : Int
  /-- This event's ticket types the code covers; empty for all of them. -/
  ticketTypeIds : List Id
  label : String
  deriving DecidableEq, Repr

inductive PromoCheck
  | ok (applied : AppliedPromo)
  | refused (reason : PromoRefusal)
  deriving DecidableEq, Repr

/-- The answer to Apply, from the rows. -/
def promoCheckOf (rule : Option PromoCode) (types : List (Id × TicketType)) (ticketTypeId : Id) :
    Except Err PromoCheck := do
  let refusal ← judgePromo rule types ticketTypeId
  match refusal, rule with
  | none, some rule =>
    let covered := (types.map (·.1)).filter (promoAppliesTo rule)
    return .ok {
      code := rule.code, type := rule.type, value := rule.value
      ticketTypeIds := if rule.ticketTypeIds.isEmpty then [] else covered
      label := ← describePromo rule }
  | refusal, _ => return .refused (refusal.getD .unknown)

def ordersService.checkPromo (eventSlug rawCode : String) (ticketTypeId : Id) :
    Svc PromoCheck := do
  let code := normalisePromoCode rawCode
  let some (eventId, event) ← Svc.query (eventsRepository.findBySlug eventSlug)
    | return .refused .unknown
  if event.status != .published then return .refused .unknown
  let rule ← Svc.query (promoCodesRepository.findByCode code)
  let types ← Svc.query (ticketTypesRepository.listByEvent eventId)
  Svc.ofExcept (promoCheckOf (rule.map (·.2)) types ticketTypeId)

/-- The rule the form goes by. -/
def AppliedPromo.rule (p : AppliedPromo) : PromoCode :=
  { code := p.code, type := p.type, value := p.value, active := true
    ticketTypeIds := p.ticketTypeIds }

end Apply

section Form

inductive TicketAvailability
  | left (count : Int)
  | soldOut
  | closed
  | notStarted
  deriving DecidableEq, Repr

def ticketAvailability (t : TicketType) (now : Time) : TicketAvailability :=
  match ticketTypeSaleState t now with
  | some .soldOut => .soldOut
  | some .windowEnded => .closed
  | some .opensLater => .notStarted
  | none => .left t.available

/-- A row of the form. -/
structure TicketOption where
  id : Id
  name : String
  pricePaisa : Int
  /-- None when the event hides its counts. -/
  available : Option Int
  maxPerOrder : Int
  deriving DecidableEq, Repr

def ticketOption (hideAvailability : Bool) (now : Time) (t : Id × TicketType) : TicketOption :=
  let count : Int :=
    match ticketAvailability t.2 now with
    | .left count => count
    | _ => 0
  { id := t.1
    name := t.2.name
    pricePaisa := t.2.pricePaisa
    available := if hideAvailability then none else some count
    maxPerOrder :=
      match ticketAvailability t.2 now with
      | .left count => if hideAvailability then maxTicketsPerOrder else min maxTicketsPerOrder count
      | _ => 0 }

/-- The amounts the form shows. -/
structure Preview where
  subtotal : Int
  discount : Int
  total : Int
  deriving DecidableEq, Repr

/-- The form's own cover test: the code is for this type, and does not take its whole price off. -/
def promoCovers (applied : AppliedPromo) (selected : TicketOption) : Except Err Bool :=
  if promoAppliesTo applied.rule selected.id then do
    return (← promoDiscountPerTicket applied.rule selected.pricePaisa) < selected.pricePaisa
  else .ok false

def previewDiscount (applied : Option AppliedPromo) (selected : TicketOption) (quantity : Int) :
    Except Err Int :=
  match applied with
  | none => .ok 0
  | some applied => do
    if ← promoCovers applied selected then
      return min (← promoDiscountPaisa applied.rule selected.pricePaisa quantity)
        (selected.pricePaisa * quantity)
    else return 0

def preview (applied : Option AppliedPromo) (selected : Option TicketOption) (quantity : Int) :
    Except Err Preview :=
  match selected with
  | none => .ok ⟨0, 0, 0⟩
  | some selected => do
    let subtotal := selected.pricePaisa * quantity
    let discount ← previewDiscount applied selected quantity
    return { subtotal, discount, total := subtotal - discount }

end Form

section Constraints

/-- `^[A-Z0-9][A-Z0-9-]{1,22}[A-Z0-9]$` -/
def isPromoCodeFormat (code : List Char) : Bool :=
  let ends (c : Char) : Bool := c.isUpper || c.isDigit
  3 ≤ code.length && code.length ≤ 24 && code.all (fun c => ends c || c == '-') &&
    code.head?.any ends && code.getLast?.any ends

/-- The first CHECK of `promo_codes` a row breaks. -/
def PromoCode.broken (p : PromoCode) : Option String :=
  if p.type == .percentage && (p.value < 1 || 99 < p.value) then
    some "promo_codes_percentage_range"
  else if p.value ≤ 0 then some "promo_codes_value_positive"
  else if !isPromoCodeFormat p.code.toList then some "promo_codes_code_format"
  else none

end Constraints

end EchoAndAura
