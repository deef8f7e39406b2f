import EchoAndAura.EventAdmin
import EchoAndAura.EventOffer
import EchoAndAura.Json
import EchoAndAura.Register

/-!
# The public pages of an event

What the event page, the register page, the home hero and the structured data make of an event and
its ticket types.  The texts of the catalogue, and how a page's language writes numbers, amounts and
times, are given (`Wording`); classes that only lay a page out are left out.
-/

namespace EchoAndAura

/-- What a page's language gives. -/
structure Wording where
  ticketList : String → List (String × String) → String
  cta : String → List (String × String) → String
  hero : String → List (String × String) → String
  localisedPath : String → String
  plainDigits : Int → String
  groupDigits : Int → String
  formatBDT : Int → String
  formatDhakaLong : Time → String
  formatDhakaShort : Time → String

/-- What the server does to a time, an amount or a text the same way in every language: the Dhaka
day, the days between two times, the long form in English, the ISO form, the decimal amount, and a
description as plain text, cut to a summary. -/
structure Formats where
  dhakaDay : Time → Int
  differenceInCalendarDays : Time → Time → Int
  formatDhakaLong : Time → String
  toDhakaIso : Time → String
  formatDecimalBDT : Int → String
  summary : Option String → String

structure PublicEvent extends EventRecord where
  description : Option String

section Stock

/-- The page's own sum of what is left. -/
def availableTotal (types : List (Id × TicketType)) : Int :=
  (types.map fun t => max 0 t.2.available).sum

end Stock

section RegisterPage

/-- An option with what it says when it can not be chosen. -/
structure RegisterOption extends TicketOption where
  reason : Option String
  deriving DecidableEq, Repr

def optionReason (formats : Formats) (now : Time) (t : TicketType) : Option String :=
  match ticketAvailability t now with
  | .soldOut => some "Sold out"
  | .closed =>
    match t.salesEndsAt with
    | some e => some ("Sales ended " ++ formats.formatDhakaLong e ++ " (Dhaka)")
    | none => some "Sales window closed"
  | .notStarted =>
    match t.salesStartsAt with
    | some s => some ("On sale from " ++ formats.formatDhakaLong s ++ " (Dhaka)")
    | none => some "Not on sale yet"
  | .left _ => none

def registerOptions (formats : Formats) (event : PublicEvent) (types : List (Id × TicketType))
    (now : Time) : List RegisterOption :=
  types.map fun t =>
    { ticketOption event.hideAvailability now t with reason := optionReason formats now t.2 }

end RegisterPage

section TicketList

inductive RowTone
  | inactive
  | highlighted
  | plain
  deriving DecidableEq, Repr

inductive ChipTone
  | warning
  | success
  | neutralStrong
  | info
  deriving DecidableEq, Repr

/-- A row of the list; the count's line is in accent ink or not. -/
structure TicketRow where
  id : Id
  tone : RowTone
  struck : Bool
  name : String
  subtitle : Option String
  leftLine : Option (String × Bool)
  soldOutLine : Option String
  price : String
  chip : Option (ChipTone × String)
  deriving DecidableEq, Repr

inductive TicketListView
  | comingSoon (text : String)
  | rows (rows : List TicketRow)
  deriving DecidableEq, Repr

structure TicketListProps where
  phase : EventPhase
  now : Time
  compact : Bool
  highlightId : Option Id
  hideCounts : Bool
  deriving DecidableEq, Repr

variable (w : Wording) (p : TicketListProps)

def TicketListProps.showQuantities : Bool :=
  p.phase == .open || p.phase == .closingSoon || p.phase == .soldOut

def TicketListProps.scarce : Bool := p.phase == .closingSoon

def rowSubtitle (t : TicketType) : Option String :=
  match ticketAvailability t p.now with
  | .closed => t.salesEndsAt.map fun e => w.ticketList "salesEnded" [("when", w.formatDhakaLong e)]
  | .notStarted =>
    t.salesStartsAt.map fun s => w.ticketList "onSaleFrom" [("when", w.formatDhakaLong s)]
  | _ => none

def leftText (count : Int) : String := w.ticketList "left" [("n", w.plainDigits count)]

def rowChip (t : TicketType) : Option (ChipTone × String) :=
  match ticketAvailability t p.now with
  | .left count =>
    if p.hideCounts then none
    else some (if p.scarce then .warning else .success, leftText w count)
  | .soldOut => some (.neutralStrong, w.ticketList "soldOut" [])
  | .closed => some (.neutralStrong, w.ticketList "closed" [])
  | .notStarted => some (.info, w.ticketList "notYet" [])

def ticketRow (t : Id × TicketType) : TicketRow :=
  let availability := ticketAvailability t.2 p.now
  let inactive := p.showQuantities && (availability == .soldOut || availability == .closed)
  { id := t.1
    tone :=
      if inactive then .inactive
      else if p.highlightId == some t.1 then .highlighted else .plain
    struck := inactive
    name := t.2.name
    subtitle := if p.showQuantities then rowSubtitle w p t.2 else none
    leftLine :=
      match availability with
      | .left count =>
        if p.compact && p.showQuantities && !p.hideCounts then
          some (leftText w count, p.scarce || p.highlightId == some t.1)
        else none
      | _ => none
    soldOutLine :=
      if p.compact && p.showQuantities && availability == .soldOut then
        some (w.ticketList "soldOut" [])
      else none
    price := w.formatBDT t.2.pricePaisa
    chip := if !p.compact && p.showQuantities then rowChip w p t.2 else none }

def ticketList (types : List (Id × TicketType)) : TicketListView :=
  if types.isEmpty then .comingSoon (w.ticketList "comingSoon" [])
  else .rows (types.map (ticketRow w p))

end TicketList

section Cta

/-- The button's text, where it goes (none is disabled), the note under it, and a second button. -/
structure Cta where
  label : Option String
  href : Option String
  note : Option String
  secondary : Option (String × String)
  deriving DecidableEq, Repr

def inDhaka (w : Wording) (t : Time) : String :=
  w.hero "inDhaka" [("when", w.formatDhakaLong t)]

def eventCta (w : Wording) (formats : Formats) (event : PublicEvent) (phase : EventPhase)
    (available : Int) (facebookUrl : Option String) (now : Time) : Cta :=
  match phase with
  | .open =>
    { label := some (w.cta "register" [])
      href := some (w.localisedPath ("/events/" ++ event.slug ++ "/register"))
      note := event.registrationClosesAt.map fun c => w.cta "closesLong" [("when", inDhaka w c)]
      secondary := none }
  | .closingSoon =>
    { label := some
        (if event.hideAvailability then w.cta "registerClosingSoon" []
        else w.cta "registerLeft"
          [("count", toString available), ("n", w.plainDigits available)])
      href := some (w.localisedPath ("/events/" ++ event.slug ++ "/register"))
      note := event.registrationClosesAt.map fun c => w.cta "closesShort" [("when", inDhaka w c)]
      secondary := none }
  | .notOpen =>
    { label := some
        (match event.registrationOpensAt with
        | none => w.cta "dateTba" []
        | some opens =>
          let days := formats.differenceInCalendarDays opens now
          if days ≤ 0 then w.cta "opensToday" []
          else w.cta "opensIn" [("count", toString days), ("n", w.plainDigits days)])
      href := none
      note := none
      secondary := facebookUrl.map fun url => (url, w.cta "remindFacebook" []) }
  | .soldOut =>
    { label := some (w.cta "soldOut" [])
      href := none
      note := none
      secondary := facebookUrl.map fun url => (url, w.cta "nextShow" []) }
  | .closed => ⟨some (w.cta "closed" []), none, none, none⟩
  | .past => ⟨none, none, none, some (w.localisedPath "/", w.cta "seeUpcoming" [])⟩

end Cta

section HeroCopy

structure Countdown where
  label : String
  target : Time
  deriving DecidableEq, Repr

structure HeroCopy where
  phaseWord : String
  sentence : String
  countdown : Option Countdown
  priceLabel : Option String
  leftLabel : Option String
  canBuy : Bool
  deriving DecidableEq, Repr

variable (w : Wording) (formats : Formats)

def dhakaDaysBetween (source target : Time) : Int :=
  formats.dhakaDay target - formats.dhakaDay source

def heroInDhaka (t : Time) : String := w.hero "inDhaka" [("when", w.formatDhakaShort t)]

def fromPriceLabel (offer : OfferSummary) : Option String :=
  offer.fromPricePaisa.map fun paisa =>
    let price := w.formatBDT paisa
    match offer.fromTypeName with
    | some name =>
      if offer.fromIsEarlyBird && name != "" then
        w.hero "fromEarlyBird" [("price", price), ("name", name)]
      else w.hero "from" [("price", price)]
    | none => w.hero "from" [("price", price)]

/-- A target already behind would count up from zero. -/
def countdownTo (label : String) (target : Option Time) (now : Time) : Option Countdown :=
  (target.filter fun t => decide (now < t)).map fun t => ⟨label, t⟩

def closingSentence (event : PublicEvent) : String :=
  match event.registrationClosesAt with
  | none => w.hero "closesSoon" []
  | some close =>
    let days := dhakaDaysBetween formats close event.startsAt
    if 1 ≤ days then
      w.hero "closesBefore" [("when", heroInDhaka w close), ("days", toString days),
        ("n", w.groupDigits days)]
    else w.hero "closes" [("when", heroInDhaka w close)]

def onSaleSentence (offer : OfferSummary) (opens : Time) : String :=
  let goesOnSale := w.hero "goesOnSale" [("when", heroInDhaka w opens)]
  match offer.earlyBird with
  | some eb =>
    if opens < eb.salesEndsAt then
      goesOnSale ++ " " ++
        w.hero "earlyBird" [("name", eb.name), ("until", w.formatDhakaShort eb.salesEndsAt)]
    else goesOnSale
  | none => goesOnSale

def heroCopy (phase : EventPhase) (event : PublicEvent) (offer : OfferSummary) (available : Int)
    (now : Time) : HeroCopy :=
  let canBuy := phase == .open || phase == .closingSoon
  let priceLabel := if canBuy || phase == .notOpen then fromPriceLabel w offer else none
  let leftLabel :=
    if canBuy && 0 < available && !event.hideAvailability then
      some (w.hero "left" [("count", toString available), ("n", w.groupDigits available)])
    else none
  let copy (phaseWord sentence : String) (countdown : Option Countdown) : HeroCopy :=
    { phaseWord, sentence, countdown, priceLabel, leftLabel, canBuy }
  match phase with
  | .open =>
    copy (w.hero "openWord" [])
      (match event.registrationClosesAt with
      | some close => w.hero "openUntil" [("when", heroInDhaka w close)]
      | none => w.hero "openNoDate" [])
      (countdownTo (w.hero "countdownClose" []) event.registrationClosesAt now)
  | .closingSoon =>
    copy (w.hero "closingSoonWord" []) (closingSentence w formats event)
      (countdownTo (w.hero "countdownClose" []) event.registrationClosesAt now)
  | .notOpen =>
    match event.registrationOpensAt with
    | none => copy (w.hero "notOpenWord" []) (w.hero "noDates" []) none
    | some opens =>
      copy (w.hero "notOpenWord" []) (onSaleSentence w offer opens)
        (countdownTo (w.hero "countdownOpen" []) (some opens) now)
  | .soldOut => copy (w.hero "soldOutWord" []) (w.hero "soldOut" []) none
  | .closed =>
    copy (w.hero "closedWord" []) (w.hero "closed" [("when", heroInDhaka w event.startsAt)]) none
  | .past =>
    copy (w.hero "pastWord" []) (w.hero "past" [("when", heroInDhaka w event.startsAt)]) none

end HeroCopy

section StructuredData

def offerAvailability (t : TicketType) (event : Event) (now : Time) : String :=
  let state := ticketTypeSaleState t now
  if state == some .soldOut then "SoldOut"
  else if event.registrationClosesAt.any (· ≤ now) then "Discontinued"
  else if state == some .windowEnded then "Discontinued"
  else if state == some .opensLater then "PreOrder"
  else if event.registrationOpensAt.all (now < ·) then "PreOrder"
  else "InStock"

/-- Where a public page says the event is. -/
def publicVenueText (event : EventRecord) : Option String :=
  if event.venueHidden then event.venueArea else event.venue

def optionalField (name : String) (value : Option (JsonValue String)) :
    List (String × JsonValue String) :=
  match value with
  | some v => [(name, v)]
  | none => []

variable (formats : Formats) (siteUrl : String)

def offerJsonLd (event : PublicEvent) (url : String) (now : Time) (t : TicketType) :
    JsonValue String :=
  .obj ([("@type", .str "Offer"), ("name", .str t.name),
      ("price", .str (formats.formatDecimalBDT t.pricePaisa)), ("priceCurrency", .str "BDT"),
      ("url", .str url),
      ("availability", .str ("https://schema.org/" ++ offerAvailability t event.toEvent now))] ++
    optionalField "validFrom" ((t.salesStartsAt <|> event.registrationOpensAt).map fun at_ =>
      .str (formats.toDhakaIso at_)) ++
    optionalField "validThrough" ((t.salesEndsAt <|> event.registrationClosesAt).map fun at_ =>
      .str (formats.toDhakaIso at_)))

def buildEventJsonLd (event : PublicEvent) (types : List (Id × TicketType))
    (coverUrl : Option String) (now : Time) : JsonValue String :=
  let url := siteUrl ++ "/events/" ++ event.slug
  let place := publicVenueText event.toEventRecord
  let description := formats.summary event.description
  .obj ([("@context", .str "https://schema.org"), ("@type", .str "Event"),
      ("name", .str event.title), ("url", .str url)] ++
    optionalField "description" (if description = "" then none else some (.str description)) ++
    optionalField "image" (coverUrl.map fun cover => .arr [.str cover]) ++
    [("startDate", .str (formats.toDhakaIso event.startsAt))] ++
    optionalField "endDate" (event.endsAt.map fun e => .str (formats.toDhakaIso e)) ++
    [("eventStatus", .str "https://schema.org/EventScheduled"),
      ("eventAttendanceMode", .str "https://schema.org/OfflineEventAttendanceMode"),
      ("location", .obj [("@type", .str "Place"), ("name", .str (place.getD "Dhaka")),
        ("address", .obj ([("@type", .str "PostalAddress")] ++
          optionalField "streetAddress" ((place.filter (· ≠ "")).map .str) ++
          [("addressLocality", .str "Dhaka"), ("addressCountry", .str "BD")]))]),
      ("organizer", .obj [("@type", .str "Organization"),
        ("@id", .str (siteUrl ++ "/#organization")), ("name", .str "echoandaura"),
        ("url", .str siteUrl)])] ++
    if event.startsAt ≤ now || types.isEmpty then []
    else [("offers", .arr (types.map fun t => offerJsonLd formats event url now t.2))])

end StructuredData

end EchoAndAura
