import EchoAndAura.Rules
import EchoAndAura.Tasks

/-!
# Creating, editing and publishing an event

`createEvent`, `updateEvent` and `changeEventStatus` of the events service on one event, statement
by statement, with the form's cross-field rules (`eventFormSchema`), the default registration
window and the checklist an event must pass before it goes live (`publishReadiness`).
-/

namespace EchoAndAura

structure EventRecord extends Event where
  venue : Option String
  venueHidden : Bool
  venueArea : Option String
  hideAvailability : Bool
  imageKey : Option String
  deriving DecidableEq, Repr

section Form

/-- What the form's fields parse to; a blank field is `none`. -/
structure EventFormInput where
  title : String
  slug : Option String
  venue : Option String
  venueHidden : Bool
  venueArea : Option String
  hideAvailability : Bool
  startsAt : Time
  endsAt : Option Time
  registrationOpensAt : Option Time
  registrationClosesAt : Option Time
  deriving DecidableEq, Repr

structure Issue where
  path : String
  message : String
  deriving DecidableEq, Repr

namespace EventFormInput

variable (v : EventFormInput)

def venueIssue : Option Issue :=
  if v.venueHidden ∧ v.venue.getD "" = "" then
    some ⟨"venue", "Add the venue to keep it private — ticket holders need it"⟩
  else none

def endsAtIssue : Option Issue :=
  match v.endsAt with
  | some ends => if ends ≤ v.startsAt then some ⟨"endsAt", "End must be after start"⟩ else none
  | none => none

def opensAtIssue : Option Issue :=
  match v.registrationOpensAt, v.registrationClosesAt with
  | some opens, some closes =>
    if closes ≤ opens then
      some ⟨"registrationOpensAt", "Registration must open before it closes"⟩
    else none
  | _, _ => none

def closesAtIssue : Option Issue :=
  match v.registrationClosesAt with
  | some closes =>
    if v.startsAt < closes then
      some ⟨"registrationClosesAt", "Registration must close on or before the event start"⟩
    else none
  | none => none

/-- The cross-field rules of `eventFormSchema`. -/
def issues : List Issue :=
  v.venueIssue.toList ++ v.endsAtIssue.toList ++ v.opensAtIssue.toList ++ v.closesAtIssue.toList

end EventFormInput

/-- An input `eventFormSchema` accepts. -/
structure EventForm where
  input : EventFormInput
  accepted : input.issues = []

end Form

section Window

def registrationOpensDaysBefore : Int := 20
def registrationClosesDaysBefore : Int := 5

def dayMs : Int := 24 * hourMs

structure RegistrationWindow where
  registrationOpensAt : Time
  registrationClosesAt : Time

def defaultRegistrationWindow (startsAt : Time) : RegistrationWindow :=
  ⟨startsAt - registrationOpensDaysBefore * dayMs, startsAt - registrationClosesDaysBefore * dayMs⟩

/-- The window check of `publishReadiness`. -/
def windowValid (startsAt : Time) : Option Time → Option Time → Bool
  | some opens, some closes => opens < closes && closes ≤ startsAt
  | _, _ => false

namespace Event

def windowValid (e : Event) : Bool :=
  EchoAndAura.windowValid e.startsAt e.registrationOpensAt e.registrationClosesAt

end Event

end Window

section Status

def eventTransitions : EventStatus → List EventStatus
  | .draft => [.published, .archived]
  | .published => [.draft, .archived]
  | .archived => [.draft]

inductive PublishProblemCode
  | noTicketTypes
  | noCoverImage
  | startsInPast
  | registrationWindowInvalid
  deriving DecidableEq, Repr

def describePublishProblem : PublishProblemCode → String
  | .noTicketTypes => "Add at least one ticket type"
  | .noCoverImage => "Upload a cover image (used on the event page and Facebook shares)"
  | .startsInPast => "The event start must be in the future"
  | .registrationWindowInvalid =>
    "Registration must open before it closes, and close no later than the event start"

def publishReadiness (event : EventRecord) (ticketTypeCount : Nat) (now : Time) :
    List PublishProblemCode :=
  (if ticketTypeCount < 1 then [.noTicketTypes] else []) ++
  (if event.imageKey.getD "" = "" then [.noCoverImage] else []) ++
  (if event.startsAt ≤ now then [.startsInPast] else []) ++
  if event.windowValid then [] else [.registrationWindowInvalid]

inductive EventErr
  | notFound
  | invalidTransition (source target : EventStatus)
  | notPublishable (problems : List String)
  | statusConflict
  | noSlug (title : String)
  deriving DecidableEq, Repr

def assertEventTransition (source target : EventStatus) : Except EventErr Unit :=
  if target ∈ eventTransitions source then .ok () else .error (.invalidTransition source target)

def assertPublishable (event : EventRecord) (ticketTypeCount : Nat) (now : Time) :
    Except EventErr Unit :=
  match publishReadiness event ticketTypeCount now with
  | [] => .ok ()
  | problems => .error (.notPublishable (problems.map describePublishProblem))

end Status

section Service

/-- The columns `createEvent` and `updateEvent` write. -/
structure EventPatch where
  title : String
  slug : String
  venue : Option String
  venueHidden : Bool
  venueArea : Option String
  hideAvailability : Bool
  startsAt : Time
  endsAt : Option Time
  registrationOpensAt : Time
  registrationClosesAt : Time
  deriving DecidableEq, Repr

variable (slugify : String → Option String)

/-- The slug typed, or the one `slugify` gives for the title, where it gives one. -/
def eventSlug (input : EventFormInput) : Except EventErr String :=
  match input.slug with
  | some slug => .ok slug
  | none =>
    match slugify input.title with
    | some slug => .ok slug
    | none => .error (.noSlug input.title)

def eventPatch (input : EventFormInput) : Except EventErr EventPatch := do
  let defaults := defaultRegistrationWindow input.startsAt
  let slug ← eventSlug slugify input
  return {
    title := input.title
    slug
    venue := input.venue
    venueHidden := input.venueHidden
    venueArea := if input.venueHidden then input.venueArea else none
    hideAvailability := input.hideAvailability
    startsAt := input.startsAt
    endsAt := input.endsAt
    registrationOpensAt := input.registrationOpensAt.getD defaults.registrationOpensAt
    registrationClosesAt := input.registrationClosesAt.getD defaults.registrationClosesAt }

namespace EventPatch

variable (p : EventPatch)

/-- The inserted row: a draft without a cover. -/
def record : EventRecord :=
  { title := p.title, slug := p.slug, status := .draft, startsAt := p.startsAt, endsAt := p.endsAt
    registrationOpensAt := some p.registrationOpensAt
    registrationClosesAt := some p.registrationClosesAt
    venue := p.venue, venueHidden := p.venueHidden, venueArea := p.venueArea
    hideAvailability := p.hideAvailability, imageKey := none }

def apply (e : EventRecord) : EventRecord :=
  { p.record with status := e.status, imageKey := e.imageKey }

def windowValid : Bool :=
  EchoAndAura.windowValid p.startsAt (some p.registrationOpensAt) (some p.registrationClosesAt)

@[simp] theorem apply_windowValid (e : EventRecord) :
    (p.apply e).windowValid = p.windowValid := rfl

@[simp] theorem apply_status (e : EventRecord) : (p.apply e).status = e.status := rfl

end EventPatch

end Service

section Desk

/-- One event as the database has it, how many ticket types it has, and the server's clock. -/
structure EventDesk where
  event : Option EventRecord
  ticketTypeCount : Nat
  now : Time
  deriving DecidableEq, Repr

inductive EventRequest
  | createEvent (form : EventForm)
  | updateEvent (form : EventForm)
  | changeEventStatus (target : EventStatus)

/-- A request at its next statement, with what it has read so far. -/
inductive EventStage
  | inserting (values : Except EventErr EventPatch)
  | updating (patch : Except EventErr EventPatch)
  | getting (target : EventStatus)
  | listing (event : EventRecord) (target : EventStatus)
  | moving (event : EventRecord) (target : EventStatus)
  deriving DecidableEq, Repr

/-- Whether the database takes the statement: it may fail, and it refuses a slug in use. -/
inductive Outcome
  | ok
  | failed
  deriving DecidableEq, Repr

/-- What else changes the event's row, its ticket types and the clock. -/
inductive DeskChange
  | ticketTypes (n : Nat)
  | imageKey (key : Option String)
  | clock (t : Time)
  deriving DecidableEq, Repr

namespace EventDesk

variable (d : EventDesk)

/-- `repo.insert`: the row of this event, or of another one when it is there already. -/
def insert (values : EventPatch) : EventDesk := { d with event := some (d.event.getD values.record) }

def update (patch : EventPatch) : EventDesk := { d with event := d.event.map patch.apply }

/-- `repo.transitionStatus`: the row only moves while it is still in `source`. -/
def transitionStatus (source target : EventStatus) : EventDesk :=
  { d with
    event := d.event.map fun e => if e.status = source then { e with status := target } else e }

/-- `changeEventStatus` once the row is read. -/
def assertMove (event : EventRecord) (target : EventStatus) : Option EventStage :=
  match assertEventTransition event.status target with
  | .error _ => none
  | .ok () => if target = .published then some (.listing event target) else
      some (.moving event target)

def next : EventStage → Outcome → EventDesk × Option EventStage
  | _, .failed => (d, none)
  | .inserting (.error _), .ok => (d, none)
  | .inserting (.ok values), .ok => (d.insert values, none)
  | .updating (.error _), .ok => (d, none)
  | .updating (.ok patch), .ok => (d.update patch, none)
  | .getting target, .ok =>
    match d.event with
    | none => (d, none)
    | some event => (d, assertMove event target)
  | .listing event target, .ok =>
    match assertPublishable event d.ticketTypeCount d.now with
    | .error _ => (d, none)
    | .ok () => (d, some (.moving event target))
  | .moving event target, .ok => (d.transitionStatus event.status target, none)

def change : DeskChange → EventDesk
  | .ticketTypes n => { d with ticketTypeCount := n }
  | .imageKey key => { d with event := d.event.map fun e => { e with imageKey := key } }
  | .clock t => { d with now := t }

end EventDesk

def EventRequest.first (slugify : String → Option String) : EventRequest → EventStage
  | .createEvent form => .inserting (eventPatch slugify form.input)
  | .updateEvent form => .updating (eventPatch slugify form.input)
  | .changeEventStatus target => .getting target

/-- The three requests at work on one event. -/
def eventWork (slugify : String → Option String) :
    Work EventDesk EventStage EventRequest Outcome DeskChange where
  first := EventRequest.first slugify
  next := EventDesk.next
  change := EventDesk.change

end Desk

end EchoAndAura
