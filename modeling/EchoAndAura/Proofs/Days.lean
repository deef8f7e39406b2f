import EchoAndAura.SalesReport

/-!
# Days as texts

The days of four-digit years are numbered (`dayText`): a day's text is read back as its number,
texts compare as the numbers do (`dayText_lt`), and shifting a text shifts its number
(`shiftDay_dayText`).
-/

namespace EchoAndAura

open Calendar

section Digits

theorem digit_lt : ∀ i < 10, ∀ j < 10,
    (Char.ofNat ('0'.toNat + i) < Char.ofNat ('0'.toNat + j) ↔ i < j) ∧
      (Char.ofNat ('0'.toNat + i) = Char.ofNat ('0'.toNat + j) ↔ i = j) := by decide

theorem digit_value : ∀ i < 10, (Char.ofNat ('0'.toNat + i)).isDigit = true ∧
    (Char.ofNat ('0'.toNat + i)).toNat - '0'.toNat = i := by decide

theorem length_digits : ∀ width n : Nat, (digits width n).length = width
  | 0, _ => rfl
  | width + 1, n => by
    unfold digits
    rw [List.length_append, length_digits width (n / 10), List.length_singleton]

/-- Numbers of one width compare as their digits do. -/
theorem digits_lt : ∀ (width : Nat) {m n : Nat} (rest rest' : List Char), m < 10 ^ width →
    n < 10 ^ width →
      (digits width m ++ rest < digits width n ++ rest' ↔ m < n ∨ m = n ∧ rest < rest')
  | 0, m, n, rest, rest', hm, hn => by
    rw [Nat.pow_zero, Nat.lt_one_iff] at hm hn
    subst hm hn
    simp [digits]
  | width + 1, m, n, rest, rest', hm, hn => by
    obtain ⟨hlt, heq⟩ := digit_lt (m % 10) (Nat.mod_lt m (by decide)) (n % 10)
      (Nat.mod_lt n (by decide))
    have hprefix := digits_lt width (m := m / 10) (n := n / 10)
      (Char.ofNat ('0'.toNat + m % 10) :: rest) (Char.ofNat ('0'.toNat + n % 10) :: rest')
      (by omega) (by omega)
    rw [digits, digits, List.append_assoc, List.append_assoc, List.singleton_append,
      List.singleton_append, hprefix, List.cons_lt_cons_iff, hlt, heq]
    constructor
    · rintro (h | ⟨h, h' | ⟨h', hrest⟩⟩)
      · exact .inl (by omega)
      · exact .inl (by omega)
      · exact .inr ⟨by omega, hrest⟩
    · rintro (h | ⟨rfl, hrest⟩)
      · rcases Nat.lt_trichotomy (m / 10) (n / 10) with h' | h' | h'
        · exact .inl h'
        · exact .inr ⟨h', .inl (by omega)⟩
        · omega
      · exact .inr ⟨rfl, .inr ⟨rfl, hrest⟩⟩

theorem numberOf_digits : ∀ (width : Nat) {n : Nat}, n < 10 ^ width →
    numberOf (digits width n) = some n
  | 0, n, hn => by
    rw [Nat.pow_zero, Nat.lt_one_iff] at hn
    rw [hn]
    rfl
  | width + 1, n, hn => by
    have hrest := numberOf_digits width (n := n / 10) (by omega)
    obtain ⟨hdigit, hvalue⟩ := digit_value (n % 10) (Nat.mod_lt n (by decide))
    unfold numberOf at hrest ⊢
    rw [digits, List.foldlM_append, hrest]
    simp only [Option.bind_eq_bind, Option.bind_some, List.foldlM_cons, List.foldlM_nil, hdigit,
      if_true, hvalue]
    exact congrArg some (by omega)

end Digits

section Texts

/-- A day of a four-digit year. -/
def Ordinary (n : Int) : Prop := firstOfYear 0 ≤ n ∧ n < firstOfYear 10000

/-- The text of a day. -/
def dayText (n : Int) : String := String.ofList (isoDate (Date.ofDay n))

theorem Ordinary.year {n : Int} (h : Ordinary n) :
    0 ≤ (Date.ofDay n).year ∧ (Date.ofDay n).year ≤ 9999 := by
  have hbounds := (Date.ofDay n).toDay_bounds
  rw [Date.toDay_ofDay] at hbounds
  constructor
  · by_contra hyear
    have hle := firstOfYear_lt (Int.not_le.1 hyear)
    have hlow := h.1
    omega
  · by_contra hyear
    have hle : firstOfYear 10000 ≤ firstOfYear (Date.ofDay n).year :=
      firstOfYear_lt (Int.not_le.1 hyear)
    have hhigh := h.2
    omega

/-- Ten characters. -/
theorem Ordinary.text {n : Int} (h : Ordinary n) : isoDate (Date.ofDay n) =
    digits 4 (Date.ofDay n).year.toNat ++
      '-' :: (digits 2 (Date.ofDay n).month ++ '-' :: (digits 2 (Date.ofDay n).day ++ [])) := by
  unfold isoDate isoYear
  rw [if_pos h.year, List.append_nil]

theorem dayText_toList {n : Int} (h : Ordinary n) : (dayText n).toList =
    digits 4 (Date.ofDay n).year.toNat ++
      '-' :: (digits 2 (Date.ofDay n).month ++ '-' :: (digits 2 (Date.ofDay n).day ++ [])) := by
  unfold dayText
  rw [String.toList_ofList, h.text]

theorem parseDay_dayText {n : Int} (h : Ordinary n) :
    parseDay (dayText n) = some (Date.ofDay n) := by
  have hyear := h.year
  have hmonth := (Date.ofDay n).month_le
  have hday := (Date.ofDay n).day_le_31
  have hy := numberOf_digits 4 (n := (Date.ofDay n).year.toNat) (by omega)
  have hm := numberOf_digits 2 (n := (Date.ofDay n).month) (by omega)
  have hd := numberOf_digits 2 (n := (Date.ofDay n).day) (by omega)
  have hnat : ((Date.ofDay n).year.toNat : Int) = (Date.ofDay n).year := Int.toNat_of_nonneg hyear.1
  unfold parseDay
  rw [dayText_toList h]
  generalize (Date.ofDay n).year.toNat = y at hy hnat ⊢
  obtain ⟨a, b, c, d, hys⟩ : ∃ a b c d, digits 4 y = [a, b, c, d] := ⟨_, _, _, _, rfl⟩
  obtain ⟨e, f, hms⟩ : ∃ e f, digits 2 (Date.ofDay n).month = [e, f] := ⟨_, _, rfl⟩
  obtain ⟨g, k, hds⟩ : ∃ g k, digits 2 (Date.ofDay n).day = [g, k] := ⟨_, _, rfl⟩
  rw [hys] at hy ⊢
  rw [hms] at hm ⊢
  rw [hds] at hd ⊢
  simp only [List.cons_append, List.nil_append, hy, hm, hd, Option.bind_eq_bind, Option.bind_some]
  rw [hnat, Date.ofParts_self]

theorem cons_dash_lt (l l' : List Char) : '-' :: l < '-' :: l' ↔ l < l' := by
  rw [List.cons_lt_cons_iff]
  constructor
  · rintro (h | ⟨-, h⟩)
    · exact absurd h (by decide)
    · exact h
  · exact fun h => .inr ⟨rfl, h⟩

/-- The texts of days compare as the days do. -/
theorem dayText_lt {m n : Int} (hm : Ordinary m) (hn : Ordinary n) :
    dayText m < dayText n ↔ m < n := by
  have hyear := hm.year
  have hyear' := hn.year
  have hmonth := (Date.ofDay m).month_le
  have hmonth' := (Date.ofDay n).month_le
  have hday := (Date.ofDay m).day_le_31
  have hday' := (Date.ofDay n).day_le_31
  have hlist : dayText m < dayText n ↔ (dayText m).toList < (dayText n).toList := Iff.rfl
  rw [hlist, dayText_toList hm, dayText_toList hn, digits_lt 4 _ _ (by omega) (by omega),
    cons_dash_lt, digits_lt 2 _ _ (by omega) (by omega), cons_dash_lt,
    digits_lt 2 _ _ (by omega) (by omega), ← Date.before_ofDay]
  have hnil : ¬ ([] : List Char) < [] := List.lt_irrefl []
  unfold Date.Before
  simp only [hnil, and_false, or_false]
  omega

theorem dayText_le {m n : Int} (hm : Ordinary m) (hn : Ordinary n) :
    dayText m ≤ dayText n ↔ m ≤ n := by
  have hle : dayText m ≤ dayText n ↔ ¬ dayText n < dayText m := Iff.rfl
  rw [hle, dayText_lt hn hm, Int.not_lt]

theorem dayText_injective {m n : Int} (hm : Ordinary m) (hn : Ordinary n)
    (h : dayText m = dayText n) : m = n := by
  have hparse := parseDay_dayText hm
  rw [h, parseDay_dayText hn, Option.some.injEq] at hparse
  rw [← Date.toDay_ofDay m, ← Date.toDay_ofDay n, hparse]

theorem Ordinary.time {n : Int} (h : Ordinary n) :
    -maxTime ≤ n * msPerDay ∧ n * msPerDay ≤ maxTime := by
  have hlow : (-719528 : Int) ≤ n := h.1
  have hhigh : n < 2932897 := h.2
  unfold maxTime msPerDay
  omega

theorem shiftDay_dayText {n k : Int} (hn : Ordinary n) (hshifted : Ordinary (n + k)) :
    shiftDay (dayText n) k = some (dayText (n + k)) := by
  have hday : (n + k) * msPerDay / msPerDay = n + k := Int.mul_ediv_cancel _ (by decide)
  unfold shiftDay
  rw [parseDay_dayText hn]
  simp only [Option.bind_eq_bind, Option.bind_some, Date.toDay_ofDay]
  unfold JsDate.ofTime
  rw [dif_pos hshifted.time, Option.bind_some]
  unfold toISOString dayText
  dsimp only
  rw [hday, hshifted.text]
  refine congrArg (fun l => some (String.ofList l)) (List.take_left' ?_)
  simp [length_digits]

theorem ordinary_iff {n : Int} :
    Ordinary n ↔ 0 ≤ (Date.ofDay n).year ∧ (Date.ofDay n).year ≤ 9999 := by
  refine ⟨Ordinary.year, ?_⟩
  rintro ⟨hlow, hhigh⟩
  have hbounds := (Date.ofDay n).toDay_bounds
  rw [Date.toDay_ofDay] at hbounds
  constructor
  · rcases Int.lt_or_eq_of_le hlow with hyear | hyear
    · have hle := firstOfYear_lt hyear
      have hpos : firstOfYear 0 ≤ firstOfYear (0 + 1) := by decide
      omega
    · rw [hyear]
      exact hbounds.1
  · have hle := firstOfYear_lt (Int.lt_add_one_of_le hhigh)
    have hlast : firstOfYear (9999 + 1) = firstOfYear 10000 := rfl
    omega

/-- Beyond the four-digit years a text starts with a sign. -/
theorem isoDate_signed {n : Int} (h : ¬ Ordinary n) :
    ∃ sign rest, isoDate (Date.ofDay n) = sign :: rest ∧ sign.isDigit = false := by
  unfold isoDate isoYear
  rw [if_neg fun hyear => h (ordinary_iff.2 hyear)]
  refine ⟨_, _, rfl, ?_⟩
  split_ifs <;> decide

theorem dayText_starts {n : Int} (h : Ordinary n) :
    ∃ first rest, (dayText n).toList = first :: rest ∧ first.isDigit = true := by
  rw [dayText_toList h]
  exact ⟨_, _, rfl, (digit_value _ (Nat.mod_lt _ (by decide))).1⟩

/-- A shifted text is a day's only when the shifted day is that day. -/
theorem shiftDay_eq {n m k : Int} (hn : Ordinary n) (hm : Ordinary m)
    (h : shiftDay (dayText n) k = some (dayText m)) : m = n + k := by
  by_cases hshifted : Ordinary (n + k)
  · rw [shiftDay_dayText hn hshifted, Option.some.injEq] at h
    exact (dayText_injective hshifted hm h).symm
  · exfalso
    have hday : (n + k) * msPerDay / msPerDay = n + k := Int.mul_ediv_cancel _ (by decide)
    obtain ⟨sign, rest, hsigned, hsign⟩ := isoDate_signed hshifted
    obtain ⟨first, rest', hfirst, hdigit⟩ := dayText_starts hm
    unfold shiftDay at h
    rw [parseDay_dayText hn] at h
    simp only [Option.bind_eq_bind, Option.bind_some, Date.toDay_ofDay] at h
    unfold JsDate.ofTime at h
    split at h
    · rw [Option.bind_some, Option.some.injEq] at h
      have hlist := congrArg String.toList h
      unfold toISOString at hlist
      dsimp only at hlist
      rw [String.toList_ofList, hday, hsigned, hfirst, List.cons_append, List.take_succ_cons,
        List.cons.injEq] at hlist
      rw [hlist.1, hdigit] at hsign
      cases hsign
    · cases h

theorem daysBetween_dayText {m n : Int} (hm : Ordinary m) (hn : Ordinary n) :
    daysBetween (dayText m) (dayText n) = some (n - m + 1) := by
  unfold daysBetween
  rw [parseDay_dayText hm, parseDay_dayText hn]
  simp only [Option.bind_eq_bind, Option.bind_some, Date.toDay_ofDay]
  unfold roundDiv msPerDay
  exact congrArg some (by omega)

theorem dayLabel_dayText {n : Int} (h : Ordinary n) :
    ∃ label, dayLabel (dayText n) = some label := by
  unfold dayLabel
  rw [parseDay_dayText h]
  exact ⟨_, rfl⟩

end Texts

end EchoAndAura
