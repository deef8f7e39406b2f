import Mathlib.Data.List.Basic

/-!
# Unicode texts

A text as UTF-16 code units, in pairs or alone (`Utf16.read`), and as UTF-8 bytes, which
`Utf8.decode` reads as a browser does: a byte that fits nowhere becomes a replacement character and
is looked at again as the first of its own.  What is read is what was written (`Utf16.units_read`,
`Utf8.decode_encode`).
-/

namespace Utf16

/-- A text as its UTF-16 code units. -/
abbrev Units := List UInt16

def isHigh (u : UInt16) : Bool := 0xD800 ≤ u.toNat && u.toNat < 0xDC00

def isLow (u : UInt16) : Bool := 0xDC00 ≤ u.toNat && u.toNat < 0xE000

def ofChar (c : Char) : Units :=
  if c.toNat < 0x10000 then [UInt16.ofNat c.toNat]
  else [UInt16.ofNat ((c.toNat - 0x10000) / 0x400 + 0xD800),
    UInt16.ofNat ((c.toNat - 0x10000) % 0x400 + 0xDC00)]

def ofString (s : String) : Units := s.toList.flatMap ofChar

def pairChar (high low : UInt16) : Char :=
  Char.ofNat ((high.toNat - 0xD800) * 0x400 + (low.toNat - 0xDC00) + 0x10000)

/-- A code unit that is no half of a pair: a character, or a surrogate. -/
def alone (u : UInt16) : Char ⊕ UInt16 :=
  if isHigh u || isLow u then .inr u else .inl (Char.ofNat u.toNat)

/-- The characters of a text, and the surrogates that stand alone. -/
def read : Units → List (Char ⊕ UInt16)
  | [] => []
  | [u] => [alone u]
  | u :: w :: rest =>
    if isHigh u && isLow w then .inl (pairChar u w) :: read rest else alone u :: read (w :: rest)

/-- The code units of what was read. -/
def units : Char ⊕ UInt16 → Units
  | .inl c => ofChar c
  | .inr u => [u]

theorem toNat_ofNat {n : Nat} (h : n.isValidChar) : (Char.ofNat n).toNat = n := by
  rw [Char.ofNat, dif_pos h]
  rfl

theorem ofChar_pairChar {high low : UInt16} (hh : isHigh high = true) (hl : isLow low = true) :
    ofChar (pairChar high low) = [high, low] := by
  simp only [isHigh, isLow, Bool.and_eq_true, decide_eq_true_eq] at hh hl
  have hvalid : ((high.toNat - 0xD800) * 0x400 + (low.toNat - 0xDC00) + 0x10000).isValidChar :=
    .inr ⟨by omega, by omega⟩
  unfold ofChar pairChar
  rw [toNat_ofNat hvalid, if_neg (by omega), Nat.add_sub_cancel]
  have hhigh : ((high.toNat - 0xD800) * 0x400 + (low.toNat - 0xDC00)) / 0x400 + 0xD800 =
      high.toNat := by omega
  have hlow : ((high.toNat - 0xD800) * 0x400 + (low.toNat - 0xDC00)) % 0x400 + 0xDC00 =
      low.toNat := by omega
  rw [hhigh, hlow, UInt16.ofNat_toNat, UInt16.ofNat_toNat]

theorem units_alone (u : UInt16) : units (alone u) = [u] := by
  have hu := u.toNat_lt
  unfold alone
  split_ifs with h
  · rfl
  · simp only [isHigh, isLow, Bool.or_eq_true, Bool.and_eq_true, decide_eq_true_eq] at h
    have hvalid : u.toNat.isValidChar := by
      rcases Nat.lt_or_ge u.toNat 0xD800 with hlt | hge
      · exact .inl hlt
      · exact .inr ⟨by omega, by omega⟩
    show ofChar (Char.ofNat u.toNat) = [u]
    unfold ofChar
    rw [toNat_ofNat hvalid, if_pos (by omega), UInt16.ofNat_toNat]

theorem units_read : ∀ text : Units, (read text).flatMap units = text
  | [] => rfl
  | [u] => by rw [read, List.flatMap_singleton, units_alone]
  | u :: w :: rest => by
    unfold read
    split_ifs with h
    · rw [Bool.and_eq_true] at h
      rw [List.flatMap_cons, units_read rest, units, ofChar_pairChar h.1 h.2]
      rfl
    · rw [List.flatMap_cons, units_read (w :: rest), units_alone]
      rfl

end Utf16

namespace Utf8

def replacement : Char := Char.ofNat 0xFFFD

def encode (text : List Char) : List UInt8 := text.flatMap String.utf8EncodeChar

/-- What the bytes so far wait for: how many more, the next one's bounds, the value up to here. -/
structure Pending where
  needed : Nat
  lower : Nat
  upper : Nat
  value : Nat

def Pending.idle : Pending := ⟨0, 0x80, 0xBF, 0⟩

/-- A byte where a character may start. -/
def first (b : Nat) : List Char × Pending :=
  if b ≤ 0x7F then ([Char.ofNat b], .idle)
  else if 0xC2 ≤ b ∧ b ≤ 0xDF then ([], ⟨1, 0x80, 0xBF, b % 0x20⟩)
  else if 0xE0 ≤ b ∧ b ≤ 0xEF then
    ([], ⟨2, if b = 0xE0 then 0xA0 else 0x80, if b = 0xED then 0x9F else 0xBF, b % 0x10⟩)
  else if 0xF0 ≤ b ∧ b ≤ 0xF4 then
    ([], ⟨3, if b = 0xF0 then 0x90 else 0x80, if b = 0xF4 then 0x8F else 0xBF, b % 0x08⟩)
  else ([replacement], .idle)

def decodeFrom (p : Pending) : List UInt8 → List Char
  | [] => if p.needed = 0 then [] else [replacement]
  | b :: bytes =>
    if p.needed = 0 then (first b.toNat).1 ++ decodeFrom (first b.toNat).2 bytes
    else if p.lower ≤ b.toNat ∧ b.toNat ≤ p.upper then
      if p.needed = 1 then Char.ofNat (p.value * 0x40 + b.toNat % 0x40) :: decodeFrom .idle bytes
      else decodeFrom ⟨p.needed - 1, 0x80, 0xBF, p.value * 0x40 + b.toNat % 0x40⟩ bytes
    else replacement :: (first b.toNat).1 ++ decodeFrom (first b.toNat).2 bytes

def decode (bytes : List UInt8) : List Char := decodeFrom .idle bytes

theorem decodeFrom_next {p : Pending} {n : Nat} (hn : n < 256) (bytes : List UInt8)
    (hp : 1 < p.needed) (hl : p.lower ≤ n) (hu : n ≤ p.upper) :
    decodeFrom p (UInt8.ofNat n :: bytes) =
      decodeFrom ⟨p.needed - 1, 0x80, 0xBF, p.value * 0x40 + n % 0x40⟩ bytes := by
  have hb : (UInt8.ofNat n).toNat = n := UInt8.toNat_ofNat_of_lt' hn
  rw [decodeFrom, hb, if_neg (by omega), if_pos ⟨hl, hu⟩, if_neg (by omega)]

theorem decodeFrom_last {p : Pending} {n : Nat} (hn : n < 256) (bytes : List UInt8)
    (hp : p.needed = 1) (hl : p.lower ≤ n) (hu : n ≤ p.upper) :
    decodeFrom p (UInt8.ofNat n :: bytes) =
      Char.ofNat (p.value * 0x40 + n % 0x40) :: decode bytes := by
  have hb : (UInt8.ofNat n).toNat = n := UInt8.toNat_ofNat_of_lt' hn
  rw [decodeFrom, hb, if_neg (by omega), if_pos ⟨hl, hu⟩, if_pos hp]
  rfl

theorem decode_first {n : Nat} (hn : n < 256) (bytes : List UInt8) :
    decode (UInt8.ofNat n :: bytes) = (first n).1 ++ decodeFrom (first n).2 bytes := by
  have hb : (UInt8.ofNat n).toNat = n := UInt8.toNat_ofNat_of_lt' hn
  rw [decode, decodeFrom, hb]
  exact if_pos rfl

theorem char_bounds (c : Char) : c.toNat < 0xD800 ∨ 0xDFFF < c.toNat ∧ c.toNat < 0x110000 := c.valid

theorem decode_char (c : Char) (bytes : List UInt8) :
    decode (String.utf8EncodeChar c ++ bytes) = c :: decode bytes := by
  have hc := char_bounds c
  have hself : ∀ {n : Nat}, n = c.toNat → Char.ofNat n = c := fun h => by
    rw [h, Char.ofNat_toNat]
  have hv : c.val.toNat = c.toNat := rfl
  unfold String.utf8EncodeChar
  simp only [hv]
  split_ifs with h₁ h₂ h₃
  · rw [List.singleton_append, decode_first (by omega), first, if_pos h₁, hself rfl]
    rfl
  · rw [List.cons_append, List.cons_append, List.nil_append, decode_first (by omega), first,
      if_neg (by omega), if_pos (by omega), List.nil_append,
      decodeFrom_last (by omega) _ rfl (by dsimp only; omega) (by dsimp only; omega),
      hself (by dsimp only; omega)]
  · rw [List.cons_append, List.cons_append, List.cons_append, List.nil_append,
      decode_first (by omega), first, if_neg (by omega), if_neg (by omega), if_pos (by omega),
      List.nil_append,
      decodeFrom_next (by omega) _ (by dsimp only; omega) (by dsimp only; split_ifs <;> omega)
        (by dsimp only; split_ifs <;> omega),
      decodeFrom_last (by omega) _ rfl (by dsimp only; omega) (by dsimp only; omega),
      hself (by dsimp only; omega)]
  · rw [List.cons_append, List.cons_append, List.cons_append, List.cons_append, List.nil_append,
      decode_first (by omega), first, if_neg (by omega), if_neg (by omega), if_neg (by omega),
      if_pos (by omega), List.nil_append,
      decodeFrom_next (by omega) _ (by dsimp only; omega) (by dsimp only; split_ifs <;> omega)
        (by dsimp only; split_ifs <;> omega),
      decodeFrom_next (by omega) _ (by dsimp only; omega) (by dsimp only; omega)
        (by dsimp only; omega),
      decodeFrom_last (by omega) _ rfl (by dsimp only; omega) (by dsimp only; omega),
      hself (by dsimp only; omega)]

theorem decode_encode : ∀ text : List Char, decode (encode text) = text
  | [] => rfl
  | c :: text => by
    rw [encode, List.flatMap_cons, decode_char]
    exact congrArg (c :: ·) (decode_encode text)

end Utf8
