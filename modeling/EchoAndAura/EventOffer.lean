import EchoAndAura.Rules
import Mathlib.Data.List.Sort

/-!
# What an event offers right now

The price an event starts from, its early bird and the row to highlight (`server/lib/event-offer.ts`).
An early bird is a type whose sales end before registration closes, cheaper than every type that
sells up to the close.
-/

namespace EchoAndAura

structure EarlyBird where
  id : Id
  name : String
  salesEndsAt : Time
  deriving DecidableEq, Repr

structure OfferSummary where
  fromPricePaisa : Option Int
  fromTypeName : Option String
  fromIsEarlyBird : Bool
  earlyBird : Option EarlyBird
  earlyBirdOnSale : Bool
  highlightId : Option Id
  deriving DecidableEq, Repr

section Offer

variable (types : List (Id × TicketType))

def runsToClose (close : Time) (t : Id × TicketType) : Bool := t.2.salesEndsAt.all (close ≤ ·)

/-- `Math.min`; none is its `Infinity` of no numbers. -/
def minPrice : List Int → Option Int
  | [] => none
  | p :: ps => some (ps.foldl min p)

def earlyBirdIds (close : Option Time) : List Id :=
  match close with
  | none => []
  | some close =>
    match minPrice ((types.filter (runsToClose close)).map (·.2.pricePaisa)) with
    | none => []
    | some regularPaisa =>
      (types.filter fun t => !runsToClose close t && t.2.pricePaisa < regularPaisa).map (·.1)

/-- The first of the cheapest. -/
def cheapest : Option (Id × TicketType) :=
  types.foldl (fun best t =>
    if best.all fun b => t.2.pricePaisa < b.2.pricePaisa then some t else best) none

/-- Not sold out, and its window not over. -/
def stillAvailable (now : Time) (t : Id × TicketType) : Bool :=
  ticketTypeSaleState t.2 now == none || ticketTypeSaleState t.2 now == some .opensLater

/-- The end of a type's sales, and the type, of those that have one. -/
def salesEnd (t : Id × TicketType) : Option (Time × Id × TicketType) :=
  t.2.salesEndsAt.map fun e => (e, t)

/-- With several early birds, the one that ends first. -/
def currentEarlyBird (ids : List Id) (now : Time) : Option (Time × Id × TicketType) :=
  let ends := ((types.filter (stillAvailable now)).filter fun t => ids.contains t.1).filterMap salesEnd
  (ends.insertionSort fun a b => a.1 ≤ b.1).head?

def registrationOpen (event : Event) (now : Time) : Bool :=
  event.registrationOpensAt.any (· ≤ now) && event.registrationClosesAt.any (now < ·)

def offerSummary (event : Event) (now : Time) : OfferSummary :=
  let earlyBird := currentEarlyBird types (earlyBirdIds types event.registrationClosesAt) now
  let earlyBirdOnSale := earlyBird.any fun eb =>
    registrationOpen event now && ticketTypeSaleState eb.2.2 now == none
  let available := types.filter (stillAvailable now)
  let cheapestType := cheapest (if available.isEmpty then types else available)
  { fromPricePaisa := cheapestType.map (·.2.pricePaisa)
    fromTypeName := cheapestType.map (·.2.name)
    fromIsEarlyBird := cheapestType.any fun t => earlyBird.any fun eb => t.1 == eb.2.1
    earlyBird := earlyBird.map fun eb => ⟨eb.2.1, eb.2.2.name, eb.1⟩
    earlyBirdOnSale
    highlightId :=
      if earlyBirdOnSale && 1 < types.length then earlyBird.map (·.2.1) else none }

end Offer

end EchoAndAura
