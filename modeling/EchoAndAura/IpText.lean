import Mathlib.Data.List.Basic

/-!
# Texts of IP addresses

An IPv4 address has one text, four decimal numbers with dots between them.  An IPv6 address is eight
groups of sixteen bits, and has many: a group is one to four hexadecimal digits of either case, the
last two may be written as an IPv4 address, and one run of zeros may be left out between two colons
(`V6Text`).
-/

namespace IpText

section Digits

def hexDigits : List Char := "0123456789abcdef".toList

def capitalDigits : List Char := "ABCDEF".toList

def isHexDigit (c : Char) : Bool := (hexDigits ++ capitalDigits).contains c

def hexValue (c : Char) : Nat := hexDigits.idxOf c.toLower

def hexChar (n : Nat) : Char := hexDigits.getD n '0'

def hexNumber (ds : List Char) : Nat := ds.foldl (fun n c => 16 * n + hexValue c) 0

/-- Leading zeros left out, but for a last character. -/
def dropZeros : List Char → List Char
  | [] => []
  | [d] => [d]
  | d :: e :: ds => if d = '0' then dropZeros (e :: ds) else d :: e :: ds

/-- A group of sixteen bits in the fewest digits. -/
def hexText (n : Nat) : List Char :=
  dropZeros [hexChar (n / 4096), hexChar (n / 256 % 16), hexChar (n / 16 % 16), hexChar (n % 16)]

/-- A number below 256 in the fewest decimal digits. -/
def octetText (n : Nat) : List Char :=
  dropZeros [hexChar (n / 100), hexChar (n / 10 % 10), hexChar (n % 10)]

end Digits

section Addresses

structure V4 where
  a : Fin 256
  b : Fin 256
  c : Fin 256
  d : Fin 256
  deriving DecidableEq, Repr

/-- Eight groups of sixteen bits. -/
structure V6 where
  groups : List Nat
  eight : groups.length = 8
  small : ∀ g ∈ groups, g < 65536

def V4.text (v : V4) : List Char :=
  ['.'].intercalate [octetText v.a, octetText v.b, octetText v.c, octetText v.d]

/-- The last two groups of an IPv6 address that ends in an IPv4 one. -/
def V4.groups (v : V4) : List Nat := [256 * v.a + v.b, 256 * v.c + v.d]

/-- The IPv6 address an IPv4 one is mapped to. -/
def V4.mapped (v : V4) : V6 where
  groups := [0, 0, 0, 0, 0, 65535] ++ v.groups
  eight := rfl
  small := by
    simp only [V4.groups, List.cons_append, List.nil_append, List.forall_mem_cons]
    exact ⟨by omega, by omega, by omega, by omega, by omega, by omega, by omega, by omega, by simp⟩

/-- The IPv4 address an IPv6 one is mapped from. -/
def V6.v4? (a : V6) : Option V4 :=
  let x := a.groups.getD 6 0
  let y := a.groups.getD 7 0
  if a.groups.take 6 = [0, 0, 0, 0, 0, 65535] then
    some ⟨Fin.ofNat 256 (x / 256), Fin.ofNat 256 x, Fin.ofNat 256 (y / 256), Fin.ofNat 256 y⟩
  else none

inductive Group
  | hex (digits : List Char)
  | dotted (v : V4)

def Group.text : Group → List Char
  | .hex digits => digits
  | .dotted v => v.text

def Group.values : Group → List Nat
  | .hex digits => [hexNumber digits]
  | .dotted v => v.groups

def HexGroup (digits : List Char) : Prop :=
  digits ≠ [] ∧ digits.length ≤ 4 ∧ ∀ c ∈ digits, isHexDigit c = true

/-- Groups of digits, and an IPv4 address at the end at most. -/
def GroupRow : List Group → Prop
  | [] => True
  | .hex digits :: gs => HexGroup digits ∧ GroupRow gs
  | [.dotted _] => True
  | .dotted _ :: _ :: _ => False

def Group.IsHex : Group → Prop
  | .hex _ => True
  | .dotted _ => False

def rowValues (gs : List Group) : List Nat := gs.flatMap Group.values

def rowText (gs : List Group) : List Char := [':'].intercalate (gs.map Group.text)

inductive V6Text
  | full (gs : List Group)
  | compressed (head tail : List Group)

namespace V6Text

def text : V6Text → List Char
  | full gs => rowText gs
  | compressed head tail => rowText head ++ ':' :: ':' :: rowText tail

def groups : V6Text → List Nat
  | full gs => rowValues gs
  | compressed head tail =>
    rowValues head ++ List.replicate (8 - (rowValues head).length - (rowValues tail).length) 0 ++
      rowValues tail

def Ok : V6Text → Prop
  | full gs => GroupRow gs ∧ (rowValues gs).length = 8
  | compressed head tail => GroupRow head ∧ (∀ g ∈ head, g.IsHex) ∧ GroupRow tail ∧
      (rowValues head).length + (rowValues tail).length ≤ 7

end V6Text

/-- A text of the address. -/
def Spells (s : List Char) (a : V6) : Prop :=
  ∃ t : V6Text, t.Ok ∧ t.text = s ∧ t.groups = a.groups

end Addresses

section DigitFacts

variable {c : Char}

theorem isHexDigit_all {p : Char → Bool} (hp : (hexDigits ++ capitalDigits).all p = true)
    (hc : isHexDigit c = true) : p c = true := by
  unfold isHexDigit at hc
  exact List.all_eq_true.1 hp c (List.contains_iff_mem.1 hc)

theorem isHexDigit_toLower (hc : isHexDigit c = true) : hexDigits.contains c.toLower = true :=
  isHexDigit_all (p := fun c => hexDigits.contains c.toLower) (by decide) hc

theorem hexValue_toLower (hc : isHexDigit c = true) : hexValue c.toLower = hexValue c := by
  have h := isHexDigit_all (p := fun c => hexValue c.toLower == hexValue c) (by decide) hc
  simpa using h

theorem hexValue_lt (hc : isHexDigit c = true) : hexValue c < 16 := by
  have h := isHexDigit_all (p := fun c => decide (hexValue c < 16)) (by decide) hc
  simpa using h

theorem hexChar_hexValue (hc : hexDigits.contains c = true) : hexChar (hexValue c) = c := by
  have hall : hexDigits.all (fun c => hexChar (hexValue c) == c) = true := by decide
  have h := List.all_eq_true.1 hall c (List.contains_iff_mem.1 hc)
  simpa using h

theorem isHexDigit_of_lower (hc : hexDigits.contains c = true) : isHexDigit c = true := by
  unfold isHexDigit
  rw [List.contains_iff_mem] at hc ⊢
  exact List.mem_append_left _ hc

theorem isHexDigit_ne (hc : isHexDigit c = true) : c ≠ ':' ∧ c ≠ '.' ∧ c ≠ '/' := by
  refine ⟨?_, ?_, ?_⟩ <;> rintro rfl <;> exact absurd hc (by decide)

theorem hexChar_mem {n : Nat} (hn : n < 16) : hexDigits.contains (hexChar n) = true := by
  have hall : (List.range 16).all (fun n => hexDigits.contains (hexChar n)) = true := by
    decide
  exact List.all_eq_true.1 hall n (List.mem_range.2 hn)

theorem hexValue_hexChar {n : Nat} (hn : n < 16) : hexValue (hexChar n) = n := by
  have hall : (List.range 16).all (fun n => hexValue (hexChar n) == n) = true := by decide
  simpa using List.all_eq_true.1 hall n (List.mem_range.2 hn)

theorem mem_dropZeros : ∀ {ds : List Char}, c ∈ dropZeros ds → c ∈ ds
  | [], h => h
  | [_], h => h
  | d :: e :: ds, h => by
    rw [dropZeros] at h
    split_ifs at h
    · exact List.mem_cons_of_mem _ (mem_dropZeros h)
    · exact h

theorem hexNumber_zero_cons (ds : List Char) : hexNumber ('0' :: ds) = hexNumber ds := rfl

theorem hexNumber_dropZeros : ∀ (ds : List Char), hexNumber (dropZeros ds) = hexNumber ds
  | [] => rfl
  | [_] => rfl
  | d :: e :: ds => by
    rw [dropZeros]
    split_ifs with hd
    · rw [hexNumber_dropZeros (e :: ds), hd, hexNumber_zero_cons]
    · rfl

/-- A group's fewest digits give the group. -/
theorem hexNumber_hexText {n : Nat} (hn : n < 65536) : hexNumber (hexText n) = n := by
  unfold hexText
  rw [hexNumber_dropZeros]
  simp only [hexNumber, List.foldl_cons, List.foldl_nil]
  rw [hexValue_hexChar (by omega), hexValue_hexChar (by omega), hexValue_hexChar (by omega),
    hexValue_hexChar (by omega)]
  omega

theorem hexText_mem {n : Nat} (hn : n < 65536) (hc : c ∈ hexText n) :
    hexDigits.contains c = true := by
  have h := mem_dropZeros hc
  simp only [List.mem_cons, List.not_mem_nil, or_false] at h
  rcases h with rfl | rfl | rfl | rfl <;> exact hexChar_mem (by omega)

/-- Small digits without their leading zeros are the fewest digits of their number. -/
theorem dropZeros_eq {ds : List Char} (hnil : ds ≠ []) (hlen : ds.length ≤ 4)
    (hds : ∀ c ∈ ds, hexDigits.contains c = true) : dropZeros ds = hexText (hexNumber ds) := by
  have hpad : ∀ {a b c d : Char}, (∀ x ∈ [a, b, c, d], hexDigits.contains x = true) →
      hexText (hexNumber [a, b, c, d]) = dropZeros [a, b, c, d] := by
    intro a b c d h
    simp only [List.forall_mem_cons] at h
    obtain ⟨ha, hb, hc, hd, -⟩ := h
    have hva := hexValue_lt (isHexDigit_of_lower ha)
    have hvb := hexValue_lt (isHexDigit_of_lower hb)
    have hvc := hexValue_lt (isHexDigit_of_lower hc)
    have hvd := hexValue_lt (isHexDigit_of_lower hd)
    unfold hexText
    simp only [hexNumber, List.foldl_cons, List.foldl_nil]
    rw [show (16 * (16 * (16 * (16 * 0 + hexValue a) + hexValue b) + hexValue c) + hexValue d) /
        4096 = hexValue a by omega,
      show (16 * (16 * (16 * (16 * 0 + hexValue a) + hexValue b) + hexValue c) + hexValue d) /
        256 % 16 = hexValue b by omega,
      show (16 * (16 * (16 * (16 * 0 + hexValue a) + hexValue b) + hexValue c) + hexValue d) /
        16 % 16 = hexValue c by omega,
      show (16 * (16 * (16 * (16 * 0 + hexValue a) + hexValue b) + hexValue c) + hexValue d) %
        16 = hexValue d by omega,
      hexChar_hexValue ha, hexChar_hexValue hb, hexChar_hexValue hc, hexChar_hexValue hd]
  have hzero : hexDigits.contains '0' = true := by decide
  match ds, hnil, hlen, hds with
  | [d], _, _, h =>
    have hp := hpad (a := '0') (b := '0') (c := '0') (d := d) (by simp_all)
    exact hp.symm
  | [c, d], _, _, h =>
    have hp := hpad (a := '0') (b := '0') (c := c) (d := d) (by simp_all)
    exact hp.symm
  | [b, c, d], _, _, h =>
    have hp := hpad (a := '0') (b := b) (c := c) (d := d) (by simp_all)
    exact hp.symm
  | [a, b, c, d], _, _, h => exact (hpad h).symm
  | _ :: _ :: _ :: _ :: _ :: _, _, hlen, _ => exact absurd hlen (by simp)

end DigitFacts

section V4Facts

def decimalDigits : List Char := "0123456789".toList

def decNumber (ds : List Char) : Nat := ds.foldl (fun n c => 10 * n + hexValue c) 0

theorem decNumber_octetText (n : Fin 256) : decNumber (octetText n) = n := by
  have hall : ∀ n : Fin 256, decNumber (octetText n) = n := by decide +kernel
  exact hall n

theorem octetText_injective {m n : Fin 256} (h : octetText m = octetText n) : m = n := by
  have hm := decNumber_octetText m
  rw [h, decNumber_octetText n] at hm
  exact Fin.ext hm.symm

theorem octetText_decimal (n : Fin 256) : ∀ c ∈ octetText n, c ∈ decimalDigits := by
  have hall : ∀ n : Fin 256, (octetText n).all (fun c => decimalDigits.contains c) = true := by
    decide +kernel
  intro c hc
  exact List.contains_iff_mem.1 (List.all_eq_true.1 (hall n) c hc)

theorem decimal_ne {c : Char} (hc : c ∈ decimalDigits) : c ≠ ':' ∧ c ≠ '.' ∧ c ≠ '/' := by
  refine ⟨?_, ?_, ?_⟩ <;> rintro rfl <;> exact absurd hc (by decide)

variable (v : V4)

theorem V4.text_eq : v.text = octetText v.a ++ '.' :: (octetText v.b ++ '.' ::
    (octetText v.c ++ '.' :: octetText v.d)) := by
  simp [V4.text, List.intercalate_cons_cons]

theorem V4.mem_text {c : Char} (h : c ∈ v.text) : c ∈ decimalDigits ∨ c = '.' := by
  rw [V4.text_eq] at h
  simp only [List.mem_append, List.mem_cons] at h
  rcases h with h | rfl | h | rfl | h | rfl | h
  · exact .inl (octetText_decimal _ c h)
  · exact .inr rfl
  · exact .inl (octetText_decimal _ c h)
  · exact .inr rfl
  · exact .inl (octetText_decimal _ c h)
  · exact .inr rfl
  · exact .inl (octetText_decimal _ c h)

theorem V4.dot_mem_text : '.' ∈ v.text := by
  rw [V4.text_eq]
  simp

theorem V4.text_ne {c : Char} (h : c ∈ v.text) : c ≠ ':' ∧ c ≠ '/' := by
  rcases v.mem_text h with h | rfl
  · exact ⟨(decimal_ne h).1, (decimal_ne h).2.2⟩
  · exact ⟨by decide, by decide⟩

theorem V4.text_injective {v w : V4} (h : v.text = w.text) : v = w := by
  have hsplit : ∀ u : V4, u.text.splitOn '.' =
      [octetText u.a, octetText u.b, octetText u.c, octetText u.d] := fun u => by
    refine List.splitOn_intercalate '.' ?_ (List.cons_ne_nil _ _)
    simp only [List.forall_mem_cons]
    refine ⟨fun hm => ?_, fun hm => ?_, fun hm => ?_, fun hm => ?_, by simp⟩ <;>
      exact (decimal_ne (octetText_decimal _ _ hm)).2.1 rfl
  have hs := hsplit v
  rw [h, hsplit w] at hs
  simp only [List.cons.injEq, and_true] at hs
  obtain ⟨va, vb, vc, vd⟩ := v
  obtain ⟨wa, wb, wc, wd⟩ := w
  obtain rfl : wa = va := octetText_injective hs.1
  obtain rfl : wb = vb := octetText_injective hs.2.1
  obtain rfl : wc = vc := octetText_injective hs.2.2.1
  obtain rfl : wd = vd := octetText_injective hs.2.2.2
  rfl

end V4Facts

section Rows

def Group.lower : Group → Group
  | .hex digits => .hex (digits.map Char.toLower)
  | .dotted v => .dotted v

/-- Small digits only. -/
def Group.Small : Group → Prop
  | .hex digits => ∀ c ∈ digits, hexDigits.contains c = true
  | .dotted _ => True

theorem hexNumber_lower {digits : List Char} (h : ∀ c ∈ digits, isHexDigit c = true) :
    hexNumber (digits.map Char.toLower) = hexNumber digits := by
  have hfold : ∀ (ds : List Char) (n : Nat), (∀ c ∈ ds, isHexDigit c = true) →
      (ds.map Char.toLower).foldl (fun n c => 16 * n + hexValue c) n =
        ds.foldl (fun n c => 16 * n + hexValue c) n := by
    intro ds
    induction ds with
    | nil => intro n _; rfl
    | cons d ds ih =>
      intro n h
      rw [List.forall_mem_cons] at h
      rw [List.map_cons, List.foldl_cons, List.foldl_cons, hexValue_toLower h.1]
      exact ih _ h.2
  exact hfold digits 0 h

theorem HexGroup.lower {digits : List Char} (h : HexGroup digits) :
    HexGroup (digits.map Char.toLower) := by
  refine ⟨by simpa using h.1, by simpa using h.2.1, fun c hc => ?_⟩
  obtain ⟨d, hd, rfl⟩ := List.mem_map.1 hc
  exact isHexDigit_of_lower (isHexDigit_toLower (h.2.2 d hd))

theorem GroupRow.lower : ∀ {gs : List Group}, GroupRow gs → GroupRow (gs.map Group.lower)
  | [], _ => trivial
  | .hex _ :: gs, h => ⟨h.1.lower, @GroupRow.lower gs h.2⟩
  | [.dotted _], _ => trivial
  | .dotted _ :: _ :: _, h => h.elim

theorem GroupRow.small_lower : ∀ {gs : List Group}, GroupRow gs → ∀ g ∈ gs.map Group.lower, g.Small
  | [], _ => by simp
  | .hex digits :: gs, h => by
    rw [List.map_cons, List.forall_mem_cons]
    refine ⟨fun c hc => ?_, GroupRow.small_lower h.2⟩
    obtain ⟨d, hd, rfl⟩ := List.mem_map.1 hc
    exact isHexDigit_toLower (h.1.2.2 d hd)
  | [.dotted _], _ => by simp [Group.lower, Group.Small]
  | .dotted _ :: _ :: _, h => h.elim

theorem GroupRow.values_lower : ∀ {gs : List Group}, GroupRow gs →
    rowValues (gs.map Group.lower) = rowValues gs
  | [], _ => rfl
  | .hex digits :: gs, h => by
    unfold rowValues
    rw [List.map_cons, List.flatMap_cons, List.flatMap_cons]
    have ih := @GroupRow.values_lower gs h.2
    unfold rowValues at ih
    rw [ih]
    simp [Group.lower, Group.values, hexNumber_lower h.1.2.2]
  | [.dotted _], _ => rfl
  | .dotted _ :: _ :: _, h => h.elim

theorem lower_decimal {c : Char} (hc : c ∈ decimalDigits) : c.toLower = c := by
  have hall : decimalDigits.all (fun c => c.toLower == c) = true := by decide
  simpa using List.all_eq_true.1 hall c hc

theorem V4.lower_text (v : V4) : v.text.map Char.toLower = v.text := by
  have h : ∀ c ∈ v.text, c.toLower = c := fun c hc => by
    rcases v.mem_text hc with hd | rfl
    · exact lower_decimal hd
    · decide
  exact (List.map_congr_left h).trans (List.map_id _)

theorem Group.text_lower (g : Group) : g.lower.text = g.text.map Char.toLower := by
  cases g with
  | hex digits => rfl
  | dotted v => exact v.lower_text.symm

theorem rowText_cons_cons (g g' : Group) (gs : List Group) :
    rowText (g :: g' :: gs) = g.text ++ ':' :: rowText (g' :: gs) := by
  simp [rowText, List.intercalate_cons_cons]

theorem rowText_singleton (g : Group) : rowText [g] = g.text := by simp [rowText]

theorem rowText_lower : ∀ (gs : List Group),
    rowText (gs.map Group.lower) = (rowText gs).map Char.toLower
  | [] => rfl
  | [g] => by
    rw [List.map_singleton, rowText_singleton, rowText_singleton, g.text_lower]
  | g :: g' :: gs => by
    have ih := rowText_lower (g' :: gs)
    rw [List.map_cons] at ih
    have hcolon : Char.toLower ':' = ':' := by decide
    rw [List.map_cons, List.map_cons, rowText_cons_cons, rowText_cons_cons, ih, g.text_lower,
      List.map_append, List.map_cons, hcolon]

theorem GroupRow.text_ne : ∀ {gs : List Group}, GroupRow gs → ∀ g ∈ gs, g.text ≠ [] ∧ ':' ∉ g.text
  | [], _ => by simp
  | .hex digits :: gs, h => by
    rw [List.forall_mem_cons]
    exact ⟨⟨h.1.1, fun hc => (isHexDigit_ne (h.1.2.2 _ hc)).1 rfl⟩, GroupRow.text_ne h.2⟩
  | [.dotted v], _ => by
    rw [List.forall_mem_singleton]
    exact ⟨List.ne_nil_of_mem v.dot_mem_text, fun hc => (v.text_ne hc).1 rfl⟩
  | .dotted _ :: _ :: _, h => h.elim

/-- The groups of a row are read back at its colons. -/
theorem GroupRow.splitOn {gs : List Group} (h : GroupRow gs) (hnil : gs ≠ []) :
    (rowText gs).splitOn ':' = gs.map Group.text := by
  refine List.splitOn_intercalate ':' ?_ (by simpa using hnil)
  simp only [List.forall_mem_map]
  exact fun g hg => (h.text_ne g hg).2

theorem GroupRow.rowText_eq_nil {gs : List Group} (h : GroupRow gs) :
    rowText gs = [] ↔ gs = [] := by
  constructor
  · intro ht
    by_contra hnil
    have hs := h.splitOn hnil
    rw [ht] at hs
    have hmem : [] ∈ gs.map Group.text := hs ▸ List.mem_singleton_self _
    obtain ⟨g, hg, hgt⟩ := List.mem_map.1 hmem
    exact (h.text_ne g hg).1 hgt
  · rintro rfl
    rfl

theorem GroupRow.lower_isHex {gs : List Group} (h : ∀ g ∈ gs, g.IsHex) :
    ∀ g ∈ gs.map Group.lower, g.IsHex := by
  rw [List.forall_mem_map]
  intro g hg
  have hh := h g hg
  cases g with
  | hex digits => trivial
  | dotted v => exact hh

end Rows

section Texts

namespace V6Text

def lower : V6Text → V6Text
  | full gs => full (gs.map Group.lower)
  | compressed head tail => compressed (head.map Group.lower) (tail.map Group.lower)

variable {t : V6Text}

theorem text_lower : ∀ (t : V6Text), t.lower.text = t.text.map Char.toLower
  | full gs => rowText_lower gs
  | compressed head tail => by
    have hcolon : Char.toLower ':' = ':' := by decide
    simp only [lower, text, rowText_lower, List.map_append, List.map_cons, hcolon]

theorem Ok.groups_lower (h : t.Ok) : t.lower.groups = t.groups := by
  cases t with
  | full gs => exact h.1.values_lower
  | compressed head tail =>
    simp only [lower, groups, h.1.values_lower, h.2.2.1.values_lower]

theorem Ok.lower (h : t.Ok) : t.lower.Ok := by
  cases t with
  | full gs => exact ⟨h.1.lower, by rw [h.1.values_lower]; exact h.2⟩
  | compressed head tail =>
    refine ⟨h.1.lower, GroupRow.lower_isHex h.2.1, h.2.2.1.lower, ?_⟩
    rw [h.1.values_lower, h.2.2.1.values_lower]
    exact h.2.2.2

end V6Text

theorem Spells.lower {s : List Char} {a : V6} (h : Spells s a) : Spells (s.map Char.toLower) a := by
  obtain ⟨t, hok, rfl, hg⟩ := h
  exact ⟨t.lower, hok.lower, t.text_lower, hok.groups_lower.trans hg⟩

theorem V6.v4?_eq_some {a : V6} {v : V4} : a.v4? = some v ↔ a.groups = v.mapped.groups := by
  obtain ⟨groups, eight, small⟩ := a
  obtain ⟨va, vb, vc, vd⟩ := v
  match groups, eight, small with
  | [g0, g1, g2, g3, g4, g5, x, y], _, small =>
    simp only [List.forall_mem_cons] at small
    obtain ⟨-, -, -, -, -, -, hx, hy, -⟩ := small
    simp only [V6.v4?, V4.mapped, V4.groups, List.take_succ_cons, List.take_zero, List.cons.injEq,
      and_true, List.getD_cons_succ, List.getD_cons_zero, Option.ite_none_right_eq_some,
      Option.some.injEq, V4.mk.injEq, Fin.ext_iff, Fin.val_ofNat, List.cons_append,
      List.nil_append]
    constructor
    · rintro ⟨⟨h0, h1, h2, h3, h4, h5⟩, ha, hb, hc, hd⟩
      exact ⟨h0, h1, h2, h3, h4, h5, by omega, by omega⟩
    · rintro ⟨h0, h1, h2, h3, h4, h5, hx', hy'⟩
      exact ⟨⟨h0, h1, h2, h3, h4, h5⟩, by omega, by omega, by omega, by omega⟩

theorem GroupRow.head_ne : ∀ {gs : List Group}, GroupRow gs → gs ≠ [] →
    ∃ c cs, rowText gs = c :: cs ∧ c ≠ ':'
  | [], _, h => absurd rfl h
  | [g], h, _ => by
    obtain ⟨hne, hcolon⟩ := h.text_ne g List.mem_cons_self
    obtain ⟨c, cs, hc⟩ := List.exists_cons_of_ne_nil hne
    exact ⟨c, cs, by rw [rowText_singleton, hc], fun h => hcolon (hc ▸ h ▸ List.mem_cons_self)⟩
  | g :: g' :: gs, h, _ => by
    obtain ⟨hne, hcolon⟩ := h.text_ne g List.mem_cons_self
    obtain ⟨c, cs, hc⟩ := List.exists_cons_of_ne_nil hne
    exact ⟨c, cs ++ ':' :: rowText (g' :: gs), by rw [rowText_cons_cons, hc]; rfl,
      fun h => hcolon (hc ▸ h ▸ List.mem_cons_self)⟩

/-- `::ffff:` and an IPv4 address spell the address it is mapped to, and no other. -/
theorem Spells.mapped {v : V4} {a : V6} (h : Spells ("::ffff:".toList ++ v.text) a) :
    a.groups = v.mapped.groups := by
  obtain ⟨t, hok, ht, hg⟩ := h
  have hmarks : "::ffff:".toList ++ v.text = ':' :: ':' :: ("ffff".toList ++ ':' :: v.text) := by
    have htext : "::ffff:".toList = [':', ':', 'f', 'f', 'f', 'f', ':'] := by decide
    have hffff : "ffff".toList = ['f', 'f', 'f', 'f'] := by decide
    rw [htext, hffff]
    rfl
  rw [hmarks] at ht
  cases t with
  | full gs =>
    have hgs : gs ≠ [] := by
      rintro rfl
      exact absurd hok.2 (by decide)
    obtain ⟨c, cs, hc, hne⟩ := hok.1.head_ne hgs
    have hcons : c :: cs = ':' :: ':' :: ("ffff".toList ++ ':' :: v.text) := hc.symm.trans ht
    exact absurd (List.cons.inj hcons).1 hne
  | compressed head tail =>
    have hhead : head = [] := by
      by_contra hnil
      obtain ⟨c, cs, hc, hne⟩ := hok.1.head_ne hnil
      have hcons : c :: cs ++ ':' :: ':' :: rowText tail =
          ':' :: ':' :: ("ffff".toList ++ ':' :: v.text) := by
        rw [← hc]
        exact ht
      exact absurd (List.cons.inj hcons).1 hne
    subst hhead
    have htail : rowText tail = "ffff".toList ++ ':' :: v.text := by
      have hcons : ':' :: ':' :: rowText tail = ':' :: ':' :: ("ffff".toList ++ ':' :: v.text) := ht
      exact (List.cons.inj (List.cons.inj hcons).2).2
    have hnil : tail ≠ [] := by
      rintro rfl
      exact absurd (congrArg List.length htail) (by simp [rowText])
    have hf : ':' ∉ "ffff".toList := by decide
    have hsplit := hok.2.2.1.splitOn hnil
    rw [htail, List.splitOn_append_cons_self_of_not_mem hf,
      List.splitOn_eq_singleton fun hc => (v.text_ne hc).1 rfl] at hsplit
    match tail, hok.2.2.1, hsplit with
    | [.hex digits, .dotted w], _, hsplit =>
      simp only [List.map_cons, List.map_nil, Group.text, List.cons.injEq, and_true] at hsplit
      obtain ⟨hd, hw⟩ := hsplit
      obtain rfl := V4.text_injective hw
      rw [← hg]
      have hvalue : hexNumber digits = 65535 := by
        rw [← hd]
        decide
      simp [V6Text.groups, rowValues, Group.values, hvalue, V4.mapped, V4.groups]
    | [.hex _, .hex digits], hrow, hsplit =>
      simp only [List.map_cons, List.map_nil, Group.text, List.cons.injEq, and_true] at hsplit
      have hdot : '.' ∈ digits := hsplit.2 ▸ v.dot_mem_text
      exact absurd rfl (isHexDigit_ne (hrow.2.1.2.2 _ hdot)).2.1
    | [_], _, hsplit => simp at hsplit
    | _ :: _ :: _ :: _, _, hsplit => simp at hsplit
    | [.dotted _, _], hrow, _ => exact hrow.elim

end Texts

end IpText
