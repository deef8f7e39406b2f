import EchoAndAura.Dates
import Mathlib.Logic.Function.Basic

/-!
# The sales report

The arithmetic half of it, `server/lib/sales-report.ts`: days are `yyyy-MM-dd` texts, compared as
texts.  A day that is no date makes `toISOString` and the labels throw (none); a loop over days is
given fuel, and has none when it runs out.
-/

namespace EchoAndAura

open Calendar

structure DailySalesRow where
  day : String
  orders : Int
  tickets : Int
  paisa : Int
  deriving DecidableEq, Repr

inductive ReportRange
  | days14
  | days30
  | days90
  | all
  deriving DecidableEq, Repr

/-- The period from `fromDay` to `toDay` inclusive. -/
structure ReportWindow where
  fromDay : String
  toDay : String
  days : Int
  range : ReportRange
  today : String
  deriving DecidableEq, Repr

structure DailyPoint where
  day : String
  orders : Int
  tickets : Int
  paisa : Int
  label : String
  isToday : Bool
  deriving DecidableEq, Repr

structure DailySeries where
  points : List DailyPoint
  peak : Option DailyPoint
  maxTickets : Int
  deriving DecidableEq, Repr

structure CumulativePoint where
  day : String
  label : String
  cumulative : Int
  isToday : Bool
  deriving DecidableEq, Repr

structure CumulativeSeries where
  points : List CumulativePoint
  before : Int
  ends : Int
  deriving DecidableEq, Repr

structure PeriodTotals where
  orders : Int
  tickets : Int
  paisa : Int
  deriving DecidableEq, Repr

section Days

/-- `day` and `n` days more. -/
def shiftDay (day : String) (n : Int) : Option String := do
  let d ← parseDay day
  let shifted ← JsDate.ofTime ((d.toDay + n) * msPerDay)
  some (String.ofList ((toISOString shifted).take 10))

/-- `Math.round`, of a quotient. -/
def roundDiv (a b : Int) : Int := (2 * a + b) / (2 * b)

/-- Whole days from `fromDay` to `toDay` inclusive; none is `NaN`. -/
def daysBetween (fromDay toDay : String) : Option Int := do
  let a ← parseDay fromDay
  let b ← parseDay toDay
  some (roundDiv (b.toDay * msPerDay - a.toDay * msPerDay) msPerDay + 1)

def weekdayNames : List String := ["Sun", "Mon", "Tue", "Wed", "Thu", "Fri", "Sat"]

def monthNames : List String :=
  ["Jan", "Feb", "Mar", "Apr", "May", "Jun", "Jul", "Aug", "Sep", "Oct", "Nov", "Dec"]

/-- "Wed 16 Sep". -/
def dayLabel (day : String) : Option String :=
  (parseDay day).map fun d =>
    weekdayNames.getD ((d.toDay + 4) % 7).toNat "" ++ " " ++ toString d.day ++ " " ++
      monthNames.getD (d.month - 1) ""

/-- How many days a range has; none is all of them. -/
def ReportRange.length : ReportRange → Option Int
  | .days14 => some 14
  | .days30 => some 30
  | .days90 => some 90
  | .all => none

def rangeWindow (range : ReportRange) (toDay : String) (earliest : Option String)
    (today : String) : Option ReportWindow :=
  match range.length with
  | none =>
    let fromDay := (earliest.filter fun e => e != "" && decide (e < toDay)).getD toDay
    (daysBetween fromDay toDay).map fun days => ⟨fromDay, toDay, days, range, today⟩
  | some days =>
    (shiftDay toDay (-(days - 1))).map fun fromDay => ⟨fromDay, toDay, days, range, today⟩

end Days

section Daily

/-- `new Map(rows.map((r) => [r.day, r]))`: the last row of a day. -/
def rowOf (rows : List DailySalesRow) (day : String) : Option DailySalesRow :=
  rows.reverse.find? fun r => r.day == day

def dailyPoint (rows : List DailySalesRow) (window : ReportWindow) (day label : String) :
    DailyPoint :=
  let r := rowOf rows day
  { day, label
    orders := (r.map (·.orders)).getD 0
    tickets := (r.map (·.tickets)).getD 0
    paisa := (r.map (·.paisa)).getD 0
    isToday := day == window.today }

def dailyLoop (rows : List DailySalesRow) (window : ReportWindow) :
    Nat → String → List DailyPoint → Option (List DailyPoint)
  | 0, _, _ => none
  | fuel + 1, day, points =>
    if day ≤ window.toDay then do
      let label ← dayLabel day
      let next ← shiftDay day 1
      dailyLoop rows window fuel next (points ++ [dailyPoint rows window day label])
    else some points

def higher (peak : Option DailyPoint) (p : DailyPoint) : Option DailyPoint :=
  match peak with
  | none => if 0 < p.tickets then some p else none
  | some best => if 0 < p.tickets && best.tickets < p.tickets then some p else some best

/-- Every day of the window, without sales too; rows outside it are ignored. -/
def dailySeries (fuel : Nat) (rows : List DailySalesRow) (window : ReportWindow) :
    Option DailySeries := do
  let points ← dailyLoop rows window fuel window.fromDay []
  let peak := points.foldl higher none
  some { points, peak, maxTickets := (peak.map (·.tickets)).getD 0 }

end Daily

section Cumulative

/-- The tickets before the window, and on each day of it. -/
structure Sold where
  before : Int
  byDay : String → Option Int

def Sold.add (window : ReportWindow) (s : Sold) (r : DailySalesRow) : Sold :=
  if r.day < window.fromDay then { s with before := s.before + r.tickets }
  else if r.day ≤ window.toDay then
    { s with byDay := Function.update s.byDay r.day (some ((s.byDay r.day).getD 0 + r.tickets)) }
  else s

def cumulativeLoop (window : ReportWindow) (byDay : String → Option Int) :
    Nat → String → List CumulativePoint → Int → Option (List CumulativePoint × Int)
  | 0, _, _, _ => none
  | fuel + 1, day, points, running =>
    if day ≤ window.toDay then do
      let running := running + (byDay day).getD 0
      let label ← dayLabel day
      let next ← shiftDay day 1
      cumulativeLoop window byDay fuel next
        (points ++ [{ day, label, cumulative := running, isToday := day == window.today }]) running
    else some (points, running)

/-- The running total of tickets, from everything sold before the window. -/
def cumulativeSeries (fuel : Nat) (rows : List DailySalesRow) (window : ReportWindow) :
    Option CumulativeSeries := do
  let sold := rows.foldl (Sold.add window) { before := 0, byDay := fun _ => none }
  let r ← cumulativeLoop window sold.byDay fuel window.fromDay [] sold.before
  some { points := r.1, before := sold.before, ends := r.2 }

end Cumulative

section Totals

def PeriodTotals.add (fromDay toDay : String) (t : PeriodTotals) (r : DailySalesRow) :
    PeriodTotals :=
  if r.day < fromDay ∨ toDay < r.day then t
  else
    { orders := t.orders + r.orders, tickets := t.tickets + r.tickets, paisa := t.paisa + r.paisa }

/-- The sums of the rows inside the period. -/
def periodTotals (rows : List DailySalesRow) (fromDay toDay : String) : PeriodTotals :=
  rows.foldl (PeriodTotals.add fromDay toDay) { orders := 0, tickets := 0, paisa := 0 }

end Totals

end EchoAndAura
