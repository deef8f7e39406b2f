import EchoAndAura.Dates
import EchoAndAura.Lines
import EchoAndAura.Text

/-!
# The calendar file of a ticket

`server/lib/ics.ts`: one event in a calendar, its texts escaped and its lines folded.  An end that
is no date makes `toISOString` throw (none).
-/

namespace EchoAndAura

structure TicketIcsInput where
  code : String
  eventTitle : String
  venue : Option String
  startsAt : JsDate
  endsAt : Option JsDate
  url : String
  attendeeName : String

def icsDefaultDurationHours : Int := 3

section Values

/-- `replace(/\.\d{3}Z$/, 'Z')`. -/
def dropMillis (s : List Char) : List Char :=
  match s.reverse with
  | 'Z' :: c :: b :: a :: '.' :: rest =>
    if a.isDigit && b.isDigit && c.isDigit then rest.reverse ++ ['Z'] else s
  | _ => s

def stamp (d : JsDate) : List Char :=
  dropMillis ((toISOString d).filter fun c => c != '-' && c != ':')

/-- RFC 5545 text escaping. -/
def esc (text : List Char) : List Char :=
  replaceChar '\n' ['\\', 'n'] (replaceChar ',' ['\\', ',']
    (replaceChar ';' ['\\', ';'] (replaceChar '\\' ['\\', '\\'] text)))

end Values

section Folding

structure Folded where
  parts : List (List Char)
  current : List Char
  bytes : Nat

/-- One character more: in the current part, or in a new one when it is full. -/
def foldChar (s : Folded) (ch : Char) : Folded :=
  let n := ch.utf8Size
  let limit := if s.parts.length = 0 then 75 else 74
  if limit < s.bytes + n then { parts := s.parts ++ [s.current], current := [ch], bytes := n }
  else { s with current := s.current ++ [ch], bytes := s.bytes + n }

def foldParts (line : List Char) : List (List Char) :=
  let s := line.foldl foldChar { parts := [], current := [], bytes := 0 }
  s.parts ++ [s.current]

/-- Lines of at most 75 octets, the later ones behind a space. -/
def fold (line : List Char) : List Char :=
  ['\r', '\n'].intercalate ((foldParts line).mapIdx fun i p => if i = 0 then p else ' ' :: p)

end Folding

section File

def descriptionText (input : TicketIcsInput) : List Char :=
  "Ticket ".toList ++ input.code.toList ++ " for ".toList ++ input.attendeeName.toList ++
    ". Show the name and code at the door.\n".toList ++ input.url.toList

/-- The end of the event, assumed three hours after its start when it has none. -/
def icsEnd (input : TicketIcsInput) : Option JsDate :=
  match input.endsAt with
  | some endsAt => some endsAt
  | none => addHours input.startsAt icsDefaultDurationHours

def icsLines (input : TicketIcsInput) (now ends : JsDate) : List (List Char) :=
  ["BEGIN:VCALENDAR".toList,
    "VERSION:2.0".toList,
    "PRODID:-//echoandaura//tickets//EN".toList,
    "CALSCALE:GREGORIAN".toList,
    "METHOD:PUBLISH".toList,
    "BEGIN:VEVENT".toList,
    "UID:".toList ++ input.code.toList ++ "@echoandaura".toList,
    "DTSTAMP:".toList ++ stamp now,
    "DTSTART:".toList ++ stamp input.startsAt,
    "DTEND:".toList ++ stamp ends,
    "SUMMARY:".toList ++ esc input.eventTitle.toList] ++
  (input.venue.filter (· ≠ "")).toList.map (fun venue => "LOCATION:".toList ++ esc venue.toList) ++
  ["DESCRIPTION:".toList ++ esc (descriptionText input),
    "URL:".toList ++ input.url.toList,
    "END:VEVENT".toList,
    "END:VCALENDAR".toList]

def buildTicketIcs (input : TicketIcsInput) (now : JsDate) : Option (List Char) :=
  (icsEnd input).map fun ends =>
    ['\r', '\n'].intercalate ((icsLines input now ends).map fold) ++ ['\r', '\n']

end File

end EchoAndAura
