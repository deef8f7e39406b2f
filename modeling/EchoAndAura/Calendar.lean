import Mathlib.Algebra.Order.Ring.Int
import Mathlib.Data.List.Basic

/-!
# The calendar

Days counted from 1 January 1970, and the dates they fall on: a day and its date are two names of
the same thing (`Date.ofDay_toDay`, `Date.toDay_ofDay`), in the same order (`Date.toDay_lt`).
-/

namespace Calendar

section Years

def isLeap (y : Int) : Bool := y % 4 == 0 && (y % 100 != 0 || y % 400 == 0)

def yearLength (y : Int) : Int := if isLeap y then 366 else 365

/-- The day a year begins on. -/
def firstOfYear (y : Int) : Int :=
  365 * (y - 1970) + (y - 1969) / 4 - (y - 1901) / 100 + (y - 1601) / 400

/-- The year of a day: the mean year's length gives it but for the year before or after. -/
def yearOf (n : Int) : Int :=
  let y := n * 400 / 146097 + 1970
  if n < firstOfYear y then y - 1 else if firstOfYear (y + 1) ≤ n then y + 1 else y

theorem isLeap_iff (y : Int) : isLeap y = true ↔ y % 4 = 0 ∧ (y % 100 ≠ 0 ∨ y % 400 = 0) := by
  simp [isLeap]

theorem firstOfYear_succ (y : Int) : firstOfYear (y + 1) = firstOfYear y + yearLength y := by
  unfold firstOfYear yearLength
  split_ifs with h
  · rw [isLeap_iff] at h
    omega
  · rw [isLeap_iff] at h
    omega

theorem yearLength_bounds (y : Int) : 365 ≤ yearLength y ∧ yearLength y ≤ 366 := by
  unfold yearLength
  split_ifs <;> omega

/-- How far the mean year's length is off. -/
theorem firstOfYear_near {n y : Int} (hlow : 146097 * (y - 1970) ≤ n * 400) :
    firstOfYear y ≤ n + 2 := by
  unfold firstOfYear
  omega

theorem near_firstOfYear {n y : Int} (hhigh : n * 400 < 146097 * (y - 1969)) :
    n ≤ firstOfYear (y + 1) + 2 := by
  unfold firstOfYear
  omega

theorem yearOf_spec (n : Int) :
    firstOfYear (yearOf n) ≤ n ∧ n < firstOfYear (yearOf n + 1) := by
  have hlow := firstOfYear_near (n := n) (y := n * 400 / 146097 + 1970) (by omega)
  have hhigh := near_firstOfYear (n := n) (y := n * 400 / 146097 + 1970) (by omega)
  unfold yearOf
  dsimp only
  generalize n * 400 / 146097 + 1970 = y at hlow hhigh ⊢
  split_ifs with hbefore hafter
  · have hsucc := firstOfYear_succ (y - 1)
    rw [Int.sub_add_cancel] at hsucc ⊢
    have hlength := yearLength_bounds (y - 1)
    omega
  · have hsucc := firstOfYear_succ (y + 1)
    have hlength := yearLength_bounds (y + 1)
    omega
  · omega

theorem firstOfYear_lt {y y' : Int} (h : y < y') : firstOfYear (y + 1) ≤ firstOfYear y' := by
  unfold firstOfYear
  omega

end Years

section Months

def monthLengths (leap : Bool) : List Nat :=
  [31, if leap then 29 else 28, 31, 30, 31, 30, 31, 31, 30, 31, 30, 31]

theorem monthLengths_sum (y : Int) : ((monthLengths (isLeap y)).sum : Int) = yearLength y := by
  unfold yearLength
  cases isLeap y <;> rfl

/-- Which of the lengths a number falls in, and how far into it. -/
def place : List Nat → Nat → Nat × Nat
  | [], n => (0, n)
  | l :: ls, n => if n < l then (0, n) else ((place ls (n - l)).1 + 1, (place ls (n - l)).2)

theorem place_spec : ∀ (ls : List Nat) {n : Nat}, n < ls.sum →
    (place ls n).2 < ls.getD (place ls n).1 0 ∧
      (ls.take (place ls n).1).sum + (place ls n).2 = n
  | l :: ls, n, h => by
    rw [List.sum_cons] at h
    unfold place
    split_ifs with hn
    · exact ⟨hn, Nat.zero_add n⟩
    · obtain ⟨hlt, hsum⟩ := place_spec ls (n := n - l) (by omega)
      refine ⟨hlt, ?_⟩
      rw [List.take_succ_cons, List.sum_cons]
      omega

theorem sum_take_succ : ∀ (ls : List Nat) (i : Nat),
    (ls.take (i + 1)).sum = (ls.take i).sum + ls.getD i 0
  | [], _ => by simp
  | l :: ls, 0 => by simp
  | l :: ls, i + 1 => by
    rw [List.take_succ_cons, List.sum_cons, sum_take_succ ls i, List.take_succ_cons, List.sum_cons,
      List.getD_cons_succ, Nat.add_assoc]

theorem sum_take_mono (ls : List Nat) {i j : Nat} (h : i ≤ j) :
    (ls.take i).sum ≤ (ls.take j).sum := by
  induction j with
  | zero =>
    have hi : i = 0 := Nat.le_zero.1 h
    subst hi
    exact Nat.le_refl _
  | succ j ih =>
    rcases Nat.lt_or_ge j i with hlt | hge
    · have hi : i = j + 1 := Nat.le_antisymm h hlt
      subst hi
      exact Nat.le_refl _
    · rw [sum_take_succ]
      exact Nat.le_trans (ih hge) (Nat.le_add_right _ _)

/-- A later place is further on. -/
theorem place_lt {ls : List Nat} {i i' j j' : Nat} (hj : j < ls.getD i 0)
    (h : i < i' ∨ i = i' ∧ j < j') : (ls.take i).sum + j < (ls.take i').sum + j' := by
  rcases h with hlt | ⟨rfl, hlt⟩
  · have hle := sum_take_mono ls hlt
    rw [sum_take_succ] at hle
    omega
  · omega

theorem place_lt_sum {ls : List Nat} {i j : Nat} (hj : j < ls.getD i 0) :
    (ls.take i).sum + j < ls.sum := by
  have hlength : i < ls.length := by
    by_contra hi
    rw [List.getD_eq_getElem?_getD, List.getElem?_eq_none (Nat.le_of_not_lt hi)] at hj
    exact Nat.not_lt_zero j hj
  have hle := sum_take_mono ls hlength
  rw [sum_take_succ, List.take_length] at hle
  omega

end Months

section Dates

/-- A date there is. -/
@[ext]
structure Date where
  year : Int
  month : Nat
  day : Nat
  month_pos : 0 < month
  day_pos : 0 < day
  day_le : day ≤ (monthLengths (isLeap year)).getD (month - 1) 0
  deriving DecidableEq

namespace Date

/-- How many days of the year come before it. -/
def offset (d : Date) : Nat :=
  ((monthLengths (isLeap d.year)).take (d.month - 1)).sum + (d.day - 1)

def toDay (d : Date) : Int := firstOfYear d.year + d.offset

/-- The later of two dates is later in the year, the month or the day. -/
def Before (d d' : Date) : Prop :=
  d.year < d'.year ∨ d.year = d'.year ∧ (d.month < d'.month ∨ d.month = d'.month ∧ d.day < d'.day)

theorem day_lt (d : Date) : d.day - 1 < (monthLengths (isLeap d.year)).getD (d.month - 1) 0 := by
  have hpos := d.day_pos
  have hle := d.day_le
  omega

theorem month_le (d : Date) : d.month ≤ 12 := by
  have hlength : (monthLengths (isLeap d.year)).length = 12 := rfl
  have hpos := d.day_pos
  have hle := d.day_le
  by_contra hmonth
  rw [List.getD_eq_getElem?_getD, List.getElem?_eq_none (by omega)] at hle
  exact absurd (Nat.lt_of_lt_of_le hpos hle) (Nat.lt_irrefl 0)

theorem day_le_31 (d : Date) : d.day ≤ 31 := by
  have hlengths : ∀ leap : Bool, ∀ i < 12, (monthLengths leap).getD i 0 ≤ 31 := by decide
  have hmonth := d.month_le
  have hpos := d.month_pos
  exact Nat.le_trans d.day_le (hlengths _ _ (by omega))

theorem toDay_bounds (d : Date) :
    firstOfYear d.year ≤ d.toDay ∧ d.toDay < firstOfYear (d.year + 1) := by
  have hlt : d.offset < (monthLengths (isLeap d.year)).sum := place_lt_sum d.day_lt
  have hsum := monthLengths_sum d.year
  rw [firstOfYear_succ]
  unfold toDay
  omega

theorem toDay_lt_of_before {d d' : Date} (h : d.Before d') : d.toDay < d'.toDay := by
  rcases h with hyear | ⟨hyear, hrest⟩
  · have hle := firstOfYear_lt hyear
    have hd := d.toDay_bounds
    have hd' := d'.toDay_bounds
    omega
  · have hlt : d.offset < d'.offset := by
      unfold offset
      rw [← hyear]
      refine place_lt d.day_lt ?_
      have hpos := d.month_pos
      have hpos' := d.day_pos
      omega
    unfold toDay
    rw [hyear]
    omega

theorem before_trichotomy (d d' : Date) : d.Before d' ∨ d = d' ∨ d'.Before d := by
  unfold Before
  by_cases heq : d.year = d'.year ∧ d.month = d'.month ∧ d.day = d'.day
  · exact .inr (.inl (Date.ext heq.1 heq.2.1 heq.2.2))
  · omega

theorem toDay_lt {d d' : Date} : d.toDay < d'.toDay ↔ d.Before d' := by
  constructor
  · intro h
    rcases before_trichotomy d d' with hbefore | rfl | hafter
    · exact hbefore
    · exact absurd h (Int.lt_irrefl _)
    · exact absurd (toDay_lt_of_before hafter) (Int.not_lt.2 (Int.le_of_lt h))
  · exact toDay_lt_of_before

theorem toDay_injective {d d' : Date} (h : d.toDay = d'.toDay) : d = d' := by
  rcases before_trichotomy d d' with hbefore | heq | hafter
  · have hlt := toDay_lt_of_before hbefore
    omega
  · exact heq
  · have hlt := toDay_lt_of_before hafter
    omega

/-- Where a day is in its year. -/
def placeOf (n : Int) : Nat × Nat :=
  place (monthLengths (isLeap (yearOf n))) (n - firstOfYear (yearOf n)).toNat

theorem placeOf_spec (n : Int) :
    (placeOf n).2 < (monthLengths (isLeap (yearOf n))).getD (placeOf n).1 0 ∧
      (((monthLengths (isLeap (yearOf n))).take (placeOf n).1).sum + (placeOf n).2 : Nat) =
        n - firstOfYear (yearOf n) := by
  obtain ⟨hlow, hhigh⟩ := yearOf_spec n
  rw [firstOfYear_succ, ← monthLengths_sum] at hhigh
  obtain ⟨hlt, hsum⟩ := place_spec (monthLengths (isLeap (yearOf n)))
    (n := (n - firstOfYear (yearOf n)).toNat) (by omega)
  refine ⟨hlt, ?_⟩
  unfold placeOf
  rw [hsum]
  omega

def ofParts (year : Int) (month day : Nat) : Option Date :=
  if h : 0 < month ∧ 0 < day ∧ day ≤ (monthLengths (isLeap year)).getD (month - 1) 0 then
    some ⟨year, month, day, h.1, h.2.1, h.2.2⟩
  else none

theorem ofParts_self (d : Date) : ofParts d.year d.month d.day = some d :=
  dif_pos ⟨d.month_pos, d.day_pos, d.day_le⟩

def ofDay (n : Int) : Date where
  year := yearOf n
  month := (placeOf n).1 + 1
  day := (placeOf n).2 + 1
  month_pos := Nat.succ_pos _
  day_pos := Nat.succ_pos _
  day_le := (placeOf_spec n).1

@[simp] theorem toDay_ofDay (n : Int) : (ofDay n).toDay = n := by
  have hspec := (placeOf_spec n).2
  unfold toDay offset ofDay
  simp only [Nat.add_sub_cancel]
  omega

@[simp] theorem ofDay_toDay (d : Date) : ofDay d.toDay = d :=
  toDay_injective (toDay_ofDay d.toDay)

theorem before_ofDay {m n : Int} : (ofDay m).Before (ofDay n) ↔ m < n := by
  rw [← toDay_lt, toDay_ofDay, toDay_ofDay]

end Date

end Dates

end Calendar
