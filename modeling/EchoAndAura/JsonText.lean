import EchoAndAura.Json
import EchoAndAura.Unicode
import Mathlib.Algebra.Order.Ring.Int

/-!
# JSON texts

`text` writes a value as `JSON.stringify` does, a surrogate that stands alone as an escape, so that
what it writes has none.  `parse` reads any JSON text.  Reading takes as many steps as the text has
characters, and what was written is read back (`parse_text`).
-/

namespace JsonText

open Utf16

abbrev Value := JsonValue Units

section Writing

def escapeUnit (n : Nat) : List Char :=
  ['\\', 'u', Nat.digitChar (n / 4096 % 16), Nat.digitChar (n / 256 % 16),
    Nat.digitChar (n / 16 % 16), Nat.digitChar (n % 16)]

/-- The letter that stands for a character after a backslash. -/
def escapeLetter (c : Char) : Option Char :=
  if c = '"' then some '"'
  else if c = '\\' then some '\\'
  else if c = Char.ofNat 8 then some 'b'
  else if c = Char.ofNat 12 then some 'f'
  else if c = '\n' then some 'n'
  else if c = '\r' then some 'r'
  else if c = '\t' then some 't'
  else none

def quoteChar : Char ⊕ UInt16 → List Char
  | .inl c =>
    match escapeLetter c with
    | some e => ['\\', e]
    | none => if c.toNat < 0x20 then escapeUnit c.toNat else [c]
  | .inr u => escapeUnit u.toNat

def quote (s : Units) : List Char := '"' :: ((read s).flatMap quoteChar ++ ['"'])

/-- The digits of a fraction, with its zeros. -/
def places (k n : Nat) : List Char :=
  List.replicate (k - (Nat.toDigits 10 n).length) '0' ++ Nat.toDigits 10 n

def fractionText (k n : Nat) : List Char := if k = 0 then [] else '.' :: places k n

def numberText (m : Int) (k : Nat) : List Char :=
  (if m < 0 then ['-'] else []) ++
    (Nat.toDigits 10 (m.natAbs / 10 ^ k) ++ fractionText k (m.natAbs % 10 ^ k))

mutual

def text : Value → List Char
  | .null => ['n', 'u', 'l', 'l']
  | .bool true => ['t', 'r', 'u', 'e']
  | .bool false => ['f', 'a', 'l', 's', 'e']
  | .decimal m k => numberText m k
  | .str s => quote s
  | .arr items => '[' :: (itemsText items ++ [']'])
  | .obj fields => '{' :: (fieldsText fields ++ ['}'])

def itemsText : List Value → List Char
  | [] => []
  | [v] => text v
  | v :: w :: vs => text v ++ ',' :: itemsText (w :: vs)

def fieldsText : List (Units × Value) → List Char
  | [] => []
  | [(name, v)] => quote name ++ ':' :: text v
  | (name, v) :: f :: fs => quote name ++ ':' :: (text v ++ ',' :: fieldsText (f :: fs))

end

end Writing

section Reading

def isWhite (c : Char) : Bool := c == ' ' || c == '\t' || c == '\n' || c == '\r'

def skip (cs : List Char) : List Char := cs.dropWhile isWhite

def hexDigit (c : Char) : Option Nat :=
  if '0' ≤ c ∧ c ≤ '9' then some (c.toNat - 48)
  else if 'a' ≤ c ∧ c ≤ 'f' then some (c.toNat - 87)
  else if 'A' ≤ c ∧ c ≤ 'F' then some (c.toNat - 55)
  else none

def hexUnit (a b c d : Char) : Option UInt16 := do
  let a ← hexDigit a
  let b ← hexDigit b
  let c ← hexDigit c
  let d ← hexDigit d
  some (UInt16.ofNat (a * 4096 + b * 256 + c * 16 + d))

/-- The character a letter stands for after a backslash. -/
def escaped (e : Char) : Option Char :=
  if e = '"' then some '"'
  else if e = '\\' then some '\\'
  else if e = '/' then some '/'
  else if e = 'b' then some (Char.ofNat 8)
  else if e = 'f' then some (Char.ofNat 12)
  else if e = 'n' then some '\n'
  else if e = 'r' then some '\r'
  else if e = 't' then some '\t'
  else none

def prepend (front : Units) : Option (Units × List Char) → Option (Units × List Char)
  | some (s, rest) => some (front ++ s, rest)
  | none => none

/-- The rest of a string, from behind its first quote to behind its last. -/
def stringRest : List Char → Option (Units × List Char)
  | [] => none
  | '"' :: rest => some ([], rest)
  | '\\' :: 'u' :: a :: b :: c :: d :: rest =>
    match hexUnit a b c d with
    | some u => prepend [u] (stringRest rest)
    | none => none
  | '\\' :: e :: rest =>
    match escaped e with
    | some c => prepend (ofChar c) (stringRest rest)
    | none => none
  | c :: rest => if c.toNat < 0x20 then none else prepend (ofChar c) (stringRest rest)

def signed : List Char → Bool × List Char
  | '-' :: cs => (true, cs)
  | cs => (false, cs)

def fraction : List Char → Option (List Char × List Char)
  | '.' :: cs =>
    if cs.takeWhile Char.isDigit = [] then none
    else some (cs.takeWhile Char.isDigit, cs.dropWhile Char.isDigit)
  | cs => some ([], cs)

def exponentSign : List Char → Bool × List Char
  | '+' :: cs => (false, cs)
  | '-' :: cs => (true, cs)
  | cs => (false, cs)

def exponent : List Char → Option (Int × List Char)
  | [] => some (0, [])
  | e :: cs =>
    if e = 'e' ∨ e = 'E' then
      let (negative, cs) := exponentSign cs
      let digits := cs.takeWhile Char.isDigit
      let n : Int := Nat.ofDigitChars 10 digits 0
      if digits = [] then none
      else some (if negative then -n else n, cs.dropWhile Char.isDigit)
    else some (0, e :: cs)

/-- No leading zeros, and some digit. -/
def wholeOk (digits : List Char) : Bool :=
  digits != [] && (digits.head? != some '0' || digits == ['0'])

/-- `m` over ten to the `k`, times ten to the `e`. -/
def scaled (m : Int) (k : Nat) (e : Int) : Value :=
  if (k : Int) ≤ e then .decimal (m * 10 ^ (e - k).toNat) 0 else .decimal m (k - e).toNat

def number (cs : List Char) : Option (Value × List Char) :=
  let (negative, cs) := signed cs
  let whole := cs.takeWhile Char.isDigit
  if wholeOk whole then
    match fraction (cs.dropWhile Char.isDigit) with
    | none => none
    | some (frac, cs) =>
      match exponent cs with
      | none => none
      | some (e, cs) =>
        let n : Int := Nat.ofDigitChars 10 (whole ++ frac) 0
        some (scaled (if negative then -n else n) frac.length e, cs)
  else none

/-- What follows a mark, behind white space. -/
def after (mark : Char) (cs : List Char) : Option (List Char) :=
  match skip cs with
  | [] => none
  | c :: rest => if c = mark then some rest else none

/-- What follows a word. -/
def word (w cs : List Char) : Option (List Char) :=
  if w.isPrefixOf cs then some (cs.drop w.length) else none

mutual

def value : Nat → List Char → Option (Value × List Char)
  | 0, _ => none
  | fuel + 1, cs =>
    match skip cs with
    | [] => none
    | c :: rest =>
      if c = '"' then (stringRest rest).map fun (s, rest) => (.str s, rest)
      else if c = '[' then
        match after ']' rest with
        | some rest => some (.arr [], rest)
        | none => (items fuel rest).map fun (vs, rest) => (.arr vs, rest)
      else if c = '{' then
        match after '}' rest with
        | some rest => some (.obj [], rest)
        | none => (fields fuel rest).map fun (fs, rest) => (.obj fs, rest)
      else if c = 'n' then (word ['u', 'l', 'l'] rest).map fun rest => (.null, rest)
      else if c = 't' then (word ['r', 'u', 'e'] rest).map fun rest => (.bool true, rest)
      else if c = 'f' then (word ['a', 'l', 's', 'e'] rest).map fun rest => (.bool false, rest)
      else number (c :: rest)

def items : Nat → List Char → Option (List Value × List Char)
  | 0, _ => none
  | fuel + 1, cs =>
    match value fuel cs with
    | none => none
    | some (v, rest) =>
      match after ',' rest with
      | some rest => (items fuel rest).map fun (vs, rest) => (v :: vs, rest)
      | none => (after ']' rest).map fun rest => ([v], rest)

def fields : Nat → List Char → Option (List (Units × Value) × List Char)
  | 0, _ => none
  | fuel + 1, cs =>
    match (after '"' cs).bind stringRest with
    | none => none
    | some (name, rest) =>
      match (after ':' rest).bind (value fuel) with
      | none => none
      | some (v, rest) =>
        match after ',' rest with
        | some rest => (fields fuel rest).map fun (fs, rest) => ((name, v) :: fs, rest)
        | none => (after '}' rest).map fun rest => ([(name, v)], rest)

end

/-- `JSON.parse`, none where it throws. -/
def parse (cs : List Char) : Option Value :=
  match value (cs.length + 1) cs with
  | some (v, rest) => if skip rest = [] then some v else none
  | none => none

end Reading

section Strings

theorem hexDigit_digitChar : ∀ n < 16, hexDigit (Nat.digitChar n) = some n := by decide

theorem hexUnit_unit {n : Nat} (h : n < 65536) :
    hexUnit (Nat.digitChar (n / 4096 % 16)) (Nat.digitChar (n / 256 % 16))
      (Nat.digitChar (n / 16 % 16)) (Nat.digitChar (n % 16)) = some (UInt16.ofNat n) := by
  have hn : n / 4096 % 16 * 4096 + n / 256 % 16 * 256 + n / 16 % 16 * 16 + n % 16 = n := by omega
  unfold hexUnit
  rw [hexDigit_digitChar _ (Nat.mod_lt _ (by decide)),
    hexDigit_digitChar _ (Nat.mod_lt _ (by decide)),
    hexDigit_digitChar _ (Nat.mod_lt _ (by decide)),
    hexDigit_digitChar _ (Nat.mod_lt _ (by decide))]
  exact congrArg (fun m => some (UInt16.ofNat m)) hn

theorem stringRest_escapeUnit {n : Nat} (h : n < 65536) (rest : List Char) :
    stringRest (escapeUnit n ++ rest) = prepend [UInt16.ofNat n] (stringRest rest) := by
  show stringRest ('\\' :: 'u' :: _ :: _ :: _ :: _ :: rest) = _
  rw [stringRest, hexUnit_unit h]

theorem escaped_escapeLetter {c e : Char} (h : escapeLetter c = some e) :
    escaped e = some c ∧ e ≠ 'u' := by
  unfold escapeLetter at h
  split_ifs at h with h₁ h₂ h₃ h₄ h₅ h₆ h₇ <;> cases h <;> subst_vars <;> decide

theorem stringRest_escaped {c e : Char} (h : escaped e = some c) (hu : e ≠ 'u')
    (rest : List Char) : stringRest ('\\' :: e :: rest) = prepend (ofChar c) (stringRest rest) := by
  rw [stringRest, h]
  intro _ _ _ _ _ he
  exact absurd he hu

theorem stringRest_plain {c : Char} (h : escapeLetter c = none) (hc : ¬ c.toNat < 0x20)
    (rest : List Char) : stringRest (c :: rest) = prepend (ofChar c) (stringRest rest) := by
  unfold escapeLetter at h
  split_ifs at h with hquote hslash
  rw [stringRest, if_neg hc]
  · rintro rfl
    exact hquote rfl
  · rintro _ _ _ _ _ rfl
    exact fun _ => hslash rfl
  · rintro _ _ rfl
    exact fun _ => hslash rfl

/-- What a character is quoted as is read as its code units. -/
theorem stringRest_quoteChar {x : Char ⊕ UInt16} (rest : List Char) :
    stringRest (quoteChar x ++ rest) = prepend (units x) (stringRest rest) := by
  cases x with
  | inr u =>
    rw [quoteChar, stringRest_escapeUnit u.toNat_lt, UInt16.ofNat_toNat]
    rfl
  | inl c =>
    cases he : escapeLetter c with
    | some e =>
      obtain ⟨hc, hu⟩ := escaped_escapeLetter he
      simp only [quoteChar, he]
      exact stringRest_escaped hc hu rest
    | none =>
      simp only [quoteChar, he]
      split_ifs with hlow
      · rw [stringRest_escapeUnit (by omega), units, ofChar, if_pos (by omega)]
      · exact stringRest_plain he hlow rest

theorem stringRest_quoteChars : ∀ (xs : List (Char ⊕ UInt16)) (rest : List Char),
    stringRest (xs.flatMap quoteChar ++ '"' :: rest) = some (xs.flatMap units, rest)
  | [], rest => by rw [List.flatMap_nil, List.nil_append, stringRest, List.flatMap_nil]
  | x :: xs, rest => by
    rw [List.flatMap_cons, List.append_assoc, stringRest_quoteChar, stringRest_quoteChars xs rest,
      List.flatMap_cons]
    rfl

theorem quote_append (s : Units) (rest : List Char) :
    quote s ++ rest = '"' :: ((read s).flatMap quoteChar ++ '"' :: rest) := by
  simp [quote]

theorem stringRest_quote (s : Units) (rest : List Char) :
    stringRest ((read s).flatMap quoteChar ++ '"' :: rest) = some (s, rest) := by
  rw [stringRest_quoteChars, units_read]

end Strings

section Numbers

theorem takeWhile_stop {α : Type} {p : α → Bool} {front rest : List α} (h : ∀ x ∈ front, p x = true)
    (hrest : ∀ x ∈ rest.head?, p x = false) : (front ++ rest).takeWhile p = front := by
  rw [List.takeWhile_append_of_pos h]
  cases rest with
  | nil => simp
  | cons x rest => rw [List.takeWhile_cons_of_neg (by simpa using hrest x rfl), List.append_nil]

theorem dropWhile_stop {α : Type} {p : α → Bool} {front rest : List α} (h : ∀ x ∈ front, p x = true)
    (hrest : ∀ x ∈ rest.head?, p x = false) : (front ++ rest).dropWhile p = rest := by
  rw [List.dropWhile_append_of_pos h]
  cases rest with
  | nil => rfl
  | cons x rest => rw [List.dropWhile_cons_of_neg (by simpa using hrest x rfl)]

/-- What may follow a value. -/
def Stops (rest : List Char) : Prop := ∀ c ∈ rest.head?, c = ',' ∨ c = ']' ∨ c = '}'

theorem Stops.digit {rest : List Char} (h : Stops rest) : ∀ c ∈ rest.head?, c.isDigit = false := by
  intro c hc
  rcases h c hc with rfl | rfl | rfl <;> decide

theorem toDigits_digit {n : Nat} : ∀ c ∈ Nat.toDigits 10 n, c.isDigit = true := fun _ hc =>
  Nat.isDigit_of_mem_toDigits (by decide) (by decide) hc

theorem head_toDigits {n : Nat} : (Nat.toDigits 10 n).head? = some '0' → n = 0 := by
  induction n using Nat.strongRecOn with
  | ind n ih =>
    intro h
    rcases Nat.lt_or_ge n 10 with hn | hn
    · rw [Nat.toDigits_of_lt_base hn, List.head?_cons, Option.some.injEq] at h
      have hzero : ∀ n < 10, Nat.digitChar n = '0' → n = 0 := by decide
      exact hzero n hn h
    · rw [Nat.toDigits_of_base_le (by decide) hn,
        List.head?_append_of_ne_nil _ Nat.toDigits_ne_nil] at h
      have := ih (n / 10) (by omega) h
      omega

theorem wholeOk_toDigits (n : Nat) : wholeOk (Nat.toDigits 10 n) = true := by
  unfold wholeOk
  rw [Bool.and_eq_true, Bool.or_eq_true, bne_iff_ne, bne_iff_ne, beq_iff_eq]
  refine ⟨Nat.toDigits_ne_nil, ?_⟩
  by_cases h : (Nat.toDigits 10 n).head? = some '0'
  · rw [head_toDigits h]
    exact .inr rfl
  · exact .inl h

theorem exponent_stops {rest : List Char} (h : Stops rest) : exponent rest = some (0, rest) := by
  cases rest with
  | nil => rfl
  | cons c rest =>
    have hc : ¬ (c = 'e' ∨ c = 'E') := by
      rcases h c rfl with rfl | rfl | rfl <;> decide
    rw [exponent, if_neg hc]

theorem signed_numberText (m : Int) (rest : List Char) {digits : List Char}
    (h : ∀ c ∈ digits.head?, c.isDigit = true) (hnil : digits ≠ []) :
    signed ((if m < 0 then ['-'] else []) ++ digits ++ rest) =
      (decide (m < 0), digits ++ rest) := by
  by_cases hm : m < 0
  · rw [if_pos hm, decide_eq_true hm]
    rfl
  · rw [if_neg hm, decide_eq_false hm, List.nil_append]
    cases digits with
    | nil => exact absurd rfl hnil
    | cons c digits =>
      have hc : c ≠ '-' := by
        rintro rfl
        exact absurd (h '-' rfl) (by decide)
      rw [List.cons_append, signed]
      exact fun _ hcons => hc (List.cons.inj hcons).1

theorem fractionText_zero (n : Nat) : fractionText 0 n = [] := rfl

theorem places_digit {k n : Nat} : ∀ c ∈ places k n, c.isDigit = true := by
  unfold places
  rw [List.forall_mem_append]
  refine ⟨fun c hc => ?_, toDigits_digit⟩
  rw [List.eq_of_mem_replicate hc]
  rfl

theorem length_places {k n : Nat} (hk : k ≠ 0) (h : n < 10 ^ k) : (places k n).length = k := by
  have hle : (Nat.toDigits 10 n).length ≤ k :=
    (Nat.length_toDigits_le_iff (by decide) (Nat.pos_of_ne_zero hk)).2 h
  rw [places, List.length_append, List.length_replicate]
  omega

theorem ofDigitChars_places (w : Nat) {k n : Nat} (hk : k ≠ 0) (h : n < 10 ^ k) :
    Nat.ofDigitChars 10 (Nat.toDigits 10 w ++ places k n) 0 = w * 10 ^ k + n := by
  rw [Nat.ofDigitChars_append, Nat.ofDigitChars_ten_toDigits, Nat.ofDigitChars_eq_ofDigitChars_zero,
    length_places hk h, places, Nat.ofDigitChars_append, Nat.ofDigitChars_replicate_zero,
    Nat.mul_zero, Nat.ofDigitChars_ten_toDigits, Nat.mul_comm]

theorem scaled_zero (m : Int) (k : Nat) : scaled m k 0 = .decimal m k := by
  unfold scaled
  split_ifs with h
  · have hk : k = 0 := by omega
    subst hk
    simp
  · have hk : ((k : Int) - 0).toNat = k := by omega
    rw [hk]

theorem int_natAbs (m : Int) :
    (if decide (m < 0) = true then -(m.natAbs : Int) else (m.natAbs : Int)) = m := by
  by_cases hm : m < 0
  · rw [if_pos (decide_eq_true hm)]
    omega
  · rw [if_neg (by simpa using hm)]
    omega

theorem number_text (m : Int) (k : Nat) {rest : List Char} (h : Stops rest) :
    number (numberText m k ++ rest) = some (.decimal m k, rest) := by
  have hsigned : signed (numberText m k ++ rest) = (decide (m < 0),
      Nat.toDigits 10 (m.natAbs / 10 ^ k) ++ (fractionText k (m.natAbs % 10 ^ k) ++ rest)) := by
    have hhead : ∀ c ∈ (Nat.toDigits 10 (m.natAbs / 10 ^ k)).head?, c.isDigit = true :=
      fun c hc => toDigits_digit c (List.mem_of_mem_head? hc)
    have hs := signed_numberText m (fractionText k (m.natAbs % 10 ^ k) ++ rest) hhead
      Nat.toDigits_ne_nil
    rw [numberText]
    simpa only [List.append_assoc] using hs
  have hpow : 0 < 10 ^ k := Nat.pow_pos (by decide)
  unfold number
  dsimp only
  rw [hsigned]
  dsimp only
  by_cases hk : k = 0
  · subst hk
    rw [fractionText_zero, List.nil_append, takeWhile_stop toDigits_digit h.digit,
      dropWhile_stop toDigits_digit h.digit, if_pos (wholeOk_toDigits _)]
    have hfraction : fraction rest = some ([], rest) := by
      cases rest with
      | nil => rfl
      | cons c rest =>
        rw [fraction]
        rintro _ hcons
        rcases h c rfl with hc | hc | hc <;> rw [hc] at hcons <;>
          exact absurd (List.cons.inj hcons).1 (by decide)
    rw [hfraction]
    dsimp only
    rw [exponent_stops h]
    dsimp only
    rw [List.append_nil, Nat.ofDigitChars_ten_toDigits, Nat.pow_zero, Nat.div_one, int_natAbs,
      List.length_nil, scaled_zero]
  · have hlt : m.natAbs % 10 ^ k < 10 ^ k := Nat.mod_lt _ hpow
    have htext : fractionText k (m.natAbs % 10 ^ k) = '.' :: places k (m.natAbs % 10 ^ k) :=
      if_neg hk
    have hdot : ∀ c ∈ ('.' :: (places k (m.natAbs % 10 ^ k) ++ rest)).head?, c.isDigit = false := by
      intro c hc
      rw [List.head?_cons, Option.mem_some_iff] at hc
      rw [← hc]
      rfl
    have hnil : places k (m.natAbs % 10 ^ k) ≠ [] := fun hnil => by
      have hlen := length_places hk hlt
      rw [hnil, List.length_nil] at hlen
      exact hk hlen.symm
    rw [htext, List.cons_append, takeWhile_stop toDigits_digit hdot,
      dropWhile_stop toDigits_digit hdot, if_pos (wholeOk_toDigits _), fraction,
      takeWhile_stop places_digit h.digit, dropWhile_stop places_digit h.digit, if_neg hnil]
    dsimp only
    rw [exponent_stops h]
    dsimp only
    rw [ofDigitChars_places _ hk hlt, Nat.div_add_mod', int_natAbs, length_places hk hlt,
      scaled_zero]

end Numbers

section Values

theorem skip_cons {c : Char} (h : isWhite c = false) (cs : List Char) :
    skip (c :: cs) = c :: cs := by
  rw [skip, List.dropWhile_cons_of_neg (by simp [h])]

theorem after_mark {c : Char} (h : isWhite c = false) (cs : List Char) :
    after c (c :: cs) = some cs := by
  rw [after, skip_cons h]
  exact if_pos rfl

theorem after_other {c mark : Char} (h : isWhite c = false) (hne : c ≠ mark) (cs : List Char) :
    after mark (c :: cs) = none := by
  rw [after, skip_cons h]
  exact if_neg hne

/-- A character that a value's text starts with. -/
structure Starts (c : Char) : Prop where
  solid : isWhite c = false
  bracket : c ≠ ']'

theorem starts_digit {c : Char} (h : c = '-' ∨ c.isDigit = true) : Starts c := by
  constructor
  · unfold isWhite
    simp only [Bool.or_eq_false_iff, beq_eq_false_iff_ne]
    refine ⟨⟨⟨?_, ?_⟩, ?_⟩, ?_⟩ <;> rintro rfl <;> revert h <;> decide
  · rintro rfl
    revert h
    decide

theorem numberText_cons (m : Int) (k : Nat) :
    ∃ c tail, numberText m k = c :: tail ∧ (c = '-' ∨ c.isDigit = true) := by
  unfold numberText
  by_cases hm : m < 0
  · rw [if_pos hm]
    exact ⟨'-', _, rfl, .inl rfl⟩
  · rw [if_neg hm, List.nil_append]
    have hdigit : ∀ c ∈ Nat.toDigits 10 (m.natAbs / 10 ^ k), c.isDigit = true := toDigits_digit
    cases hd : Nat.toDigits 10 (m.natAbs / 10 ^ k) with
    | nil => exact absurd hd Nat.toDigits_ne_nil
    | cons c digits =>
      rw [hd] at hdigit
      exact ⟨c, _, rfl, .inr (hdigit c List.mem_cons_self)⟩

theorem text_cons : ∀ v : Value, ∃ c tail, text v = c :: tail ∧ Starts c
  | .null => ⟨_, _, rfl, by decide, by decide⟩
  | .bool true => ⟨_, _, rfl, by decide, by decide⟩
  | .bool false => ⟨_, _, rfl, by decide, by decide⟩
  | .decimal m k => by
    obtain ⟨c, tail, hc, hs⟩ := numberText_cons m k
    exact ⟨c, tail, hc, starts_digit hs⟩
  | .str _ => ⟨_, _, rfl, by decide, by decide⟩
  | .arr _ => ⟨_, _, rfl, by decide, by decide⟩
  | .obj _ => ⟨_, _, rfl, by decide, by decide⟩

theorem itemsText_cons : ∀ {vs : List Value}, vs ≠ [] →
    ∃ c tail, itemsText vs = c :: tail ∧ Starts c
  | [], h => absurd rfl h
  | [v], _ => text_cons v
  | v :: _ :: _, _ => by
    obtain ⟨c, tail, hc, hs⟩ := text_cons v
    rw [itemsText, hc]
    exact ⟨c, _, rfl, hs⟩

theorem fieldsText_cons : ∀ {fs : List (Units × Value)}, fs ≠ [] →
    ∃ tail, fieldsText fs = '"' :: tail
  | [], h => absurd rfl h
  | [_], _ => ⟨_, rfl⟩
  | _ :: _ :: _, _ => ⟨_, rfl⟩

theorem value_number {c : Char} (h : c = '-' ∨ c.isDigit = true) (n : Nat) (cs : List Char) :
    value (n + 1) (c :: cs) = number (c :: cs) := by
  have hne : ∀ {d : Char}, ¬ (d = '-' ∨ d.isDigit = true) → ¬ c = d := fun hd hcd => hd (hcd ▸ h)
  rw [value, skip_cons (starts_digit h).solid]
  dsimp only
  rw [if_neg (hne (by decide)), if_neg (hne (by decide)), if_neg (hne (by decide)),
    if_neg (hne (by decide)), if_neg (hne (by decide)), if_neg (hne (by decide))]

theorem value_quote (n : Nat) (s : Units) (rest : List Char) :
    value (n + 1) (quote s ++ rest) = some (.str s, rest) := by
  rw [quote_append, value, skip_cons (by decide)]
  dsimp only
  rw [if_pos rfl, stringRest_quote]
  rfl

theorem value_items {n : Nat} {vs : List Value} {cs rest : List Char} (hcs : after ']' cs = none)
    (h : items n cs = some (vs, rest)) : value (n + 1) ('[' :: cs) = some (.arr vs, rest) := by
  rw [value, skip_cons (by decide)]
  dsimp only
  rw [if_neg (by decide), if_pos rfl, hcs, h]
  rfl

theorem value_fields {n : Nat} {fs : List (Units × Value)} {cs rest : List Char}
    (hcs : after '}' cs = none) (h : fields n cs = some (fs, rest)) :
    value (n + 1) ('{' :: cs) = some (.obj fs, rest) := by
  rw [value, skip_cons (by decide)]
  dsimp only
  rw [if_neg (by decide), if_neg (by decide), if_pos rfl, hcs, h]
  rfl

theorem stops_cons {c : Char} (h : c = ',' ∨ c = ']' ∨ c = '}') (rest : List Char) :
    Stops (c :: rest) := by
  intro d hd
  rw [List.head?_cons, Option.mem_some_iff] at hd
  rwa [← hd]

theorem items_last {n : Nat} {v : Value} {cs rest : List Char}
    (h : value n cs = some (v, ']' :: rest)) : items (n + 1) cs = some ([v], rest) := by
  rw [items, h]
  dsimp only
  rw [after_other (by decide) (by decide), after_mark (by decide)]
  rfl

theorem items_next {n : Nat} {v : Value} {vs : List Value} {cs cs' rest : List Char}
    (h : value n cs = some (v, ',' :: cs')) (hvs : items n cs' = some (vs, rest)) :
    items (n + 1) cs = some (v :: vs, rest) := by
  rw [items, h]
  dsimp only
  rw [after_mark (by decide)]
  dsimp only
  rw [hvs]
  rfl

theorem named (name : Units) (rest : List Char) :
    (after '"' (quote name ++ rest)).bind stringRest = some (name, rest) := by
  rw [quote_append, after_mark (by decide), Option.bind_some, stringRest_quote]

theorem fields_last {n : Nat} {v : Value} {name : Units} {cs rest : List Char}
    (h : value n cs = some (v, '}' :: rest)) :
    fields (n + 1) (quote name ++ ':' :: cs) = some ([(name, v)], rest) := by
  rw [fields, named]
  dsimp only
  rw [after_mark (by decide), Option.bind_some, h]
  dsimp only
  rw [after_other (by decide) (by decide), after_mark (by decide)]
  rfl

theorem fields_next {n : Nat} {v : Value} {name : Units} {fs : List (Units × Value)}
    {cs cs' rest : List Char} (h : value n cs = some (v, ',' :: cs'))
    (hfs : fields n cs' = some (fs, rest)) :
    fields (n + 1) (quote name ++ ':' :: cs) = some ((name, v) :: fs, rest) := by
  rw [fields, named]
  dsimp only
  rw [after_mark (by decide), Option.bind_some, h]
  dsimp only
  rw [after_mark (by decide)]
  dsimp only
  rw [hfs]
  rfl

mutual

/-- A text is read back as what it was written from, given as many steps as it has characters. -/
theorem value_text : ∀ (v : Value) {n : Nat} {rest : List Char}, (text v).length ≤ n → Stops rest →
    value n (text v ++ rest) = some (v, rest)
  | v, 0, _, h, _ => by
    obtain ⟨c, tail, hc, -⟩ := text_cons v
    rw [hc] at h
    exact absurd h (by simp)
  | .null, n + 1, rest, _, _ => by
    rw [text, value]
    rfl
  | .bool true, n + 1, rest, _, _ => by
    rw [text, value]
    rfl
  | .bool false, n + 1, rest, _, _ => by
    rw [text, value]
    rfl
  | .decimal m k, n + 1, rest, _, hrest => by
    obtain ⟨c, tail, hc, hs⟩ := numberText_cons m k
    have hnumber := number_text m k hrest
    rw [hc] at hnumber
    rw [text, hc, List.cons_append, value_number hs]
    exact hnumber
  | .str s, n + 1, rest, _, _ => by
    rw [text]
    exact value_quote n s rest
  | .arr [], n + 1, rest, _, _ => by
    rw [text, value]
    rfl
  | .arr (v :: vs), n + 1, rest, h, _ => by
    have hlen : (itemsText (v :: vs)).length < n := by
      rw [text, List.length_cons, List.length_append, List.length_singleton] at h
      omega
    obtain ⟨c, tail, hc, hs⟩ := itemsText_cons (List.cons_ne_nil v vs)
    have hopen : after ']' (itemsText (v :: vs) ++ ']' :: rest) = none := by
      rw [hc]
      exact after_other hs.solid hs.bracket _
    rw [text, List.cons_append, List.append_assoc, List.singleton_append]
    exact value_items hopen (items_text (v :: vs) (List.cons_ne_nil v vs) hlen)
  | .obj [], n + 1, rest, _, _ => by
    rw [text, value]
    rfl
  | .obj (f :: fs), n + 1, rest, h, _ => by
    have hlen : (fieldsText (f :: fs)).length < n := by
      rw [text, List.length_cons, List.length_append, List.length_singleton] at h
      omega
    obtain ⟨tail, hc⟩ := fieldsText_cons (List.cons_ne_nil f fs)
    have hopen : after '}' (fieldsText (f :: fs) ++ '}' :: rest) = none := by
      rw [hc]
      exact after_other (by decide) (by decide) _
    rw [text, List.cons_append, List.append_assoc, List.singleton_append]
    exact value_fields hopen (fields_text (f :: fs) (List.cons_ne_nil f fs) hlen)

theorem items_text : ∀ (vs : List Value) {n : Nat} {rest : List Char}, vs ≠ [] →
    (itemsText vs).length < n → items n (itemsText vs ++ ']' :: rest) = some (vs, rest)
  | [], _, _, h, _ => absurd rfl h
  | _, 0, _, _, h => absurd h (Nat.not_lt_zero _)
  | [v], n + 1, rest, _, h => by
    rw [itemsText] at h ⊢
    exact items_last (value_text v (Nat.le_of_lt_succ h) (stops_cons (.inr (.inl rfl)) rest))
  | v :: w :: vs, n + 1, rest, _, h => by
    rw [itemsText, List.length_append, List.length_cons] at h
    rw [itemsText, List.append_assoc, List.cons_append]
    exact items_next (value_text v (by omega) (stops_cons (.inl rfl) _))
      (items_text (w :: vs) (List.cons_ne_nil w vs) (by omega))

theorem fields_text : ∀ (fs : List (Units × Value)) {n : Nat} {rest : List Char}, fs ≠ [] →
    (fieldsText fs).length < n → fields n (fieldsText fs ++ '}' :: rest) = some (fs, rest)
  | [], _, _, h, _ => absurd rfl h
  | _, 0, _, _, h => absurd h (Nat.not_lt_zero _)
  | [(name, v)], n + 1, rest, _, h => by
    rw [fieldsText, List.length_append, List.length_cons] at h
    rw [fieldsText, List.append_assoc, List.cons_append]
    exact fields_last (value_text v (by omega) (stops_cons (.inr (.inr rfl)) rest))
  | (name, v) :: f :: fs, n + 1, rest, _, h => by
    rw [fieldsText, List.length_append, List.length_cons, List.length_append,
      List.length_cons] at h
    rw [fieldsText, List.append_assoc, List.cons_append, List.append_assoc, List.cons_append]
    exact fields_next (value_text v (by omega) (stops_cons (.inl rfl) _))
      (fields_text (f :: fs) (List.cons_ne_nil f fs) (by omega))

end

theorem parse_text (v : Value) : parse (text v) = some v := by
  have hstops : Stops [] := fun c hc => by cases hc
  have h := value_text v (Nat.le_succ (text v).length) hstops
  rw [List.append_nil] at h
  rw [parse, h]
  rfl

end Values

end JsonText
