import EchoAndAura.Calendar

/-!
# Dates as JavaScript has them

A `Date` is a number of milliseconds from 1970 within its range, and is written out in UTC.
-/

namespace EchoAndAura

open Calendar

def msPerHour : Int := 3600000

def msPerDay : Int := 86400000

def maxTime : Int := 8640000000000000

/-- A `Date` that is not invalid. -/
structure JsDate where
  time : Int
  range : -maxTime ≤ time ∧ time ≤ maxTime
  deriving DecidableEq

/-- The date of a time; none is an invalid date. -/
def JsDate.ofTime (time : Int) : Option JsDate :=
  if h : -maxTime ≤ time ∧ time ≤ maxTime then some ⟨time, h⟩ else none

/-- `addHours` of date-fns. -/
def addHours (d : JsDate) (hours : Int) : Option JsDate :=
  JsDate.ofTime (d.time + hours * msPerHour)

/-- The last `width` digits of a number. -/
def digits : Nat → Nat → List Char
  | 0, _ => []
  | width + 1, n => digits width (n / 10) ++ [Char.ofNat ('0'.toNat + n % 10)]

/-- Four digits, or a sign and six. -/
def isoYear (year : Int) : List Char :=
  if 0 ≤ year ∧ year ≤ 9999 then digits 4 year.toNat
  else (if year < 0 then '-' else '+') :: digits 6 year.natAbs

def isoDate (d : Date) : List Char :=
  isoYear d.year ++ '-' :: (digits 2 d.month ++ '-' :: digits 2 d.day)

def toISOString (d : JsDate) : List Char :=
  let inDay := (d.time % msPerDay).toNat
  isoDate (Date.ofDay (d.time / msPerDay)) ++
    'T' :: (digits 2 (inDay / 3600000) ++ ':' :: (digits 2 (inDay / 60000 % 60) ++
      ':' :: (digits 2 (inDay / 1000 % 60) ++ '.' :: (digits 3 (inDay % 1000) ++ ['Z']))))

/-- The number of some digits. -/
def numberOf (cs : List Char) : Option Nat :=
  cs.foldlM (fun n c => if c.isDigit then some (n * 10 + (c.toNat - '0'.toNat)) else none) 0

/-- A `yyyy-MM-dd` day as a date; none is an invalid date. -/
def parseDay (day : String) : Option Date :=
  match day.toList with
  | [a, b, c, d, '-', e, f, '-', g, h] => do
    let year ← numberOf [a, b, c, d]
    let month ← numberOf [e, f]
    let day ← numberOf [g, h]
    Date.ofParts year month day
  | _ => none

example : toISOString ⟨1790859600123, by decide⟩ = "2026-10-01T13:00:00.123Z".toList := by
  decide +kernel

end EchoAndAura
