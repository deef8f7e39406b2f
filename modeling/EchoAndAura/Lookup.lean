import EchoAndAura.Shop
import EchoAndAura.Text

/-!
# Finding an order

The reference of an order as a buyer, an admin or the door types it: `findOrderSchema` of
`validation/orders.ts`, `normaliseSearchTerm` of `validation/orders-search.ts` and
`normaliseCheckInQuery` of `server/lib/check-in.ts`, and what each of them then looks up.  `lower`
is JavaScript's `toLowerCase`.
-/

namespace EchoAndAura

section Reference

def orderReferencePrefix : List Char := ['E', 'A', '-']

/-- `ORDER_REFERENCE_PATTERN`. -/
def isOrderReference (s : List Char) : Bool :=
  s.take 3 == orderReferencePrefix && (s.drop 3).length == 6 && (s.drop 3).all codeAlphabet.contains

/-- Drops the letters of a prefix and a dash after them. -/
def dropPrefix (letters s : List Char) : List Char :=
  if s.take letters.length == letters then
    if (s.drop letters.length).head? == some '-' then s.drop (letters.length + 1)
    else s.drop letters.length
  else s

/-- `/^EA-?/`. -/
def dropEa (s : List Char) : List Char := dropPrefix ['E', 'A'] s

/-- A text in capitals, as a reference when it looks like one. -/
def asReference (upper : String) : Option String :=
  let reference := orderReferencePrefix ++ dropEa upper.toList
  if isOrderReference reference then some (String.ofList reference) else none

/-- A text in capitals, as a ticket code when it looks like one. -/
def asCode (upper : String) : Option String :=
  let code := ticketCodePrefix ++ dropTkt upper.toList
  if isTicketCode code then some (String.ofList code) else none

end Reference

section Phone

def bdMobilePrefix : String := "+880"

/-- `/^(\+?880|0)/`. -/
def dropCountry (s : List Char) : List Char :=
  if s.take 4 == ['+', '8', '8', '0'] then s.drop 4
  else if s.take 3 == ['8', '8', '0'] then s.drop 3
  else if s.take 1 == ['0'] then s.drop 1
  else s

/-- `BD_MOBILE_PATTERN`. -/
def isBdMobile (s : List Char) : Bool :=
  match s with
  | '1' :: c :: rest => '3' ≤ c && c ≤ '9' && rest.length == 8 && rest.all (·.isDigit)
  | _ => false

/-- A Bangladeshi mobile in any accepted form, as it is stored. -/
def bdMobile (v : String) : Option String :=
  let digits := dropCountry ((normaliseDigits v).toList.filter fun c => !(isSpace c || c == '-'))
  if isBdMobile digits then some (bdMobilePrefix ++ String.ofList digits) else none

end Phone

section Buyer

/-- An issue: the field it names, and its message. -/
abbrev FormIssue := String × String

def referenceField (v : Option String) : Except FormIssue String :=
  match v with
  | none => .error ("reference", "Enter your order reference.")
  | some v =>
    match asReference (toUpperCase (trim (normaliseDigits v))) with
    | some reference => .ok reference
    | none => .error ("reference", "An order reference looks like EA-7K3M9Q.")

def phoneField (v : Option String) : Except FormIssue String :=
  match v.bind bdMobile with
  | some phone => .ok phone
  | none => .error ("phone", "A bKash number is 10 digits after +880.")

/-- The reference and the phone of a form, or the issues of both. -/
def findOrderSchema (reference phone : Option String) : Except (List FormIssue) (String × String) :=
  match referenceField reference, phoneField phone with
  | .ok reference, .ok phone => .ok (reference, phone)
  | .error e, .error e' => .error [e, e']
  | .error e, .ok _ => .error [e]
  | .ok _, .error e => .error [e]

/-- The order of a reference, if the phone is its buyer's. -/
def findByReferenceAndPhone (d : Db) (reference phone : String) : Option (Id × Order) :=
  let wanted := toUpperCase (trim (normaliseDigits reference))
  ((d.orders.entries.find? fun e => e.2.reference == wanted).filter fun e =>
    e.2.buyerPhone == some phone).map fun e => (e.1, e.2)

end Buyer

section Search

variable (lower : String → String)

structure SearchTerm where
  reference : Option String
  trxId : Option String
  phone : Option String
  email : Option String
  deriving DecidableEq, Repr

/-- `TRX_ID`. -/
def isTrxId (s : List Char) : Bool :=
  s.length == 10 && s.all fun c => ('A' ≤ c && c ≤ 'Z') || c.isDigit

/-- Every interpretation of a term that parses. -/
def normaliseSearchTerm (raw : String) : SearchTerm :=
  let term := trim (normaliseDigits raw)
  if term = "" then { reference := none, trxId := none, phone := none, email := none }
  else
    let upper := toUpperCase term
    { reference := asReference upper
      trxId := if isTrxId upper.toList then some upper else none
      phone := bdMobile term
      email := some (lower term) }

/-- `s` has `t` in it. -/
def includes (s t : String) : Bool := s.toList.tails.any t.toList.isPrefixOf

/-- The alternatives of the orders list's search; an empty term matches all. -/
def SearchTerm.matchesOrder (t : SearchTerm) (o : Order) : Bool :=
  if t.reference.isNone && t.trxId.isNone && t.phone.isNone && t.email.isNone then true
  else
    t.reference == some o.reference || (t.trxId.isSome && t.trxId == o.bkashTrxId) ||
      (t.phone.isSome && t.phone == o.buyerPhone) ||
        t.email.any fun email => includes (lower o.buyerEmail) email

end Search

section Door

variable (lower : String → String)

structure CheckInQuery where
  name : Option String
  code : Option String
  reference : Option String
  deriving DecidableEq, Repr

structure CheckInEntry where
  id : Id
  attendeeName : String
  ticketTypeName : String
  code : String
  orderReference : String
  deriving DecidableEq, Repr

def collapse (s : String) : String := String.ofList (collapseSpaces false (trim s).toList)

/-- Every way a typed term can be read. -/
def normaliseCheckInQuery (raw : String) : CheckInQuery :=
  let term := collapse raw
  if term = "" then { name := none, code := none, reference := none }
  else
    let upper := removeSpaces (toUpperCase term)
    { name := some (lower term), code := asCode upper, reference := asReference upper }

def CheckInQuery.isEmpty (q : CheckInQuery) : Bool :=
  q.name.all (· == "") && q.code.all (· == "") && q.reference.all (· == "")

/-- The rows that match any interpretation; every row when the query is empty. -/
def filterCheckInRows (rows : List CheckInEntry) (query : CheckInQuery) : List CheckInEntry :=
  if query.isEmpty then rows
  else rows.filter fun row =>
    (query.name.any fun name => includes (lower (collapse row.attendeeName)) name) ||
      query.code == some row.code || query.reference == some row.orderReference

end Door

end EchoAndAura
