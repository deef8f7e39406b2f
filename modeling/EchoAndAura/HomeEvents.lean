import EchoAndAura.Rules
import Mathlib.Data.List.Sort

/-!
# What the home page shows

The featured event, the other upcoming ones and the past strip (`selectHomeEvents`), the list of
`/events` and the archive.  The events are of any type with the fields of an event; two are the same
one if they are equal.
-/

namespace EchoAndAura

structure HomeSelection (T : Type) where
  featured : Option T
  alsoUpcoming : List T
  upcomingTotal : Nat
  past : List T

def pastEventsLimit : Nat := 6
def upcomingEventsLimit : Nat := 6

section Select

variable {T : Type} (event : T → Event)

/-- `/events`: every published event that has not started, soonest first. -/
def selectUpcomingEvents (events : List T) (now : Time) : List T :=
  (events.filter fun e => (event e).status == .published && now ≤ (event e).startsAt).insertionSort
    fun a b => (event a).startsAt ≤ (event b).startsAt

def registrationClosed (e : Event) (now : Time) : Bool := e.registrationClosesAt.any (· ≤ now)

def selectHomeEvents [DecidableEq T] (events : List T) (now : Time) : HomeSelection T :=
  let upcoming := selectUpcomingEvents event events now
  let featured := (upcoming.find? fun e => !registrationClosed (event e) now) <|> upcoming.head?
  let past := (events.filter fun e => (event e).status != .draft &&
    (event e).startsAt < now).insertionSort fun a b => (event b).startsAt ≤ (event a).startsAt
  { featured
    alsoUpcoming := (upcoming.filter fun e => featured != some e).take upcomingEventsLimit
    upcomingTotal := upcoming.length
    past := past.take pastEventsLimit }

/-- Every event that has started, newest first. -/
def selectArchiveEvents (events : List T) (now : Time) : List T :=
  (events.filter fun e => (event e).status != .draft && (event e).startsAt < now).insertionSort
    fun a b => (event b).startsAt ≤ (event a).startsAt

end Select

end EchoAndAura
