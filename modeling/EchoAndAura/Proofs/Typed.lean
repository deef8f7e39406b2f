import EchoAndAura.Lookup
import Mathlib.Data.List.TakeWhile

/-!
# Codes as they are typed

A code is typed with its prefix, with the prefix and no dash, or without it (`CodeForm`); its
letters in either case, its digits from any keyboard, white space anywhere (`Typed`).  What is read
of it is the text of its form (`Typed.read`), and dropping the prefix leaves the code, but where a
code without its prefix begins with the prefix's own letters (`dropPrefix_eq_iff`).
-/

namespace EchoAndAura

section Forms

/-- `TKT-4H8ZP2XQ`, `TKT4H8ZP2XQ` or `4H8ZP2XQ`. -/
inductive CodeForm
  | dashed
  | undashed
  | bare
  deriving DecidableEq, Repr

def CodeForm.text (letters body : List Char) : CodeForm → List Char
  | .dashed => letters ++ '-' :: body
  | .undashed => letters ++ body
  | .bare => body

variable {letters body s : List Char}

theorem text_inj (hletters : letters ≠ []) {form form' : CodeForm}
    (h : form.text letters body = form'.text letters body) : form = form' := by
  have hpos := List.length_pos_iff.2 hletters
  have hlength := congrArg List.length h
  cases form <;> cases form' <;>
    simp only [CodeForm.text, List.length_append, List.length_cons] at hlength <;>
      first | rfl | omega

/-- The prefix comes off, but a code without it that begins with its letters loses them. -/
theorem dropPrefix_eq_iff (hbody : body.head? ≠ some '-') : dropPrefix letters s = body ↔
    ∃ form : CodeForm, s = form.text letters body ∧ ¬ (form = .bare ∧ letters <+: body) := by
  unfold dropPrefix
  constructor
  · intro h
    split_ifs at h with hletters hdash
    · rw [beq_iff_eq] at hletters hdash
      obtain ⟨rest, hrest⟩ := List.head?_eq_some_iff.1 hdash
      have htail : rest = body := by
        rw [← h, ← List.drop_drop, hrest]
        rfl
      refine ⟨.dashed, ?_, by simp⟩
      rw [← List.take_append_drop letters.length s, hletters, hrest, htail]
      rfl
    · rw [beq_iff_eq] at hletters
      refine ⟨.undashed, ?_, by simp⟩
      rw [← List.take_append_drop letters.length s, hletters, h]
      rfl
    · refine ⟨.bare, h, fun hbare => hletters ?_⟩
      rw [h, beq_iff_eq]
      exact (List.prefix_iff_eq_take.1 hbare.2).symm
  · rintro ⟨form, rfl, hform⟩
    cases form with
    | dashed => simp [CodeForm.text]
    | undashed =>
      have hdash : (body.head? == some '-') = false := by simpa using hbody
      simp [CodeForm.text, hdash]
    | bare =>
      have hnot : ¬ (body.take letters.length == letters) = true := by
        rw [beq_iff_eq]
        exact fun h => hform ⟨rfl, List.prefix_iff_eq_take.2 h.symm⟩
      exact if_neg hnot

end Forms

section Characters

/-- A character as it may be typed: in either case, a digit in any of the digit sets. -/
def renderings (c : Char) : List Char :=
  c :: c.toLower ::
    if c.isDigit then zeros.map fun z => Char.ofNat (z + (c.toNat - '0'.toNat)) else []

def codeChars : List Char := '-' :: codeAlphabet

theorem read_rendering : ∀ c ∈ codeChars, ∀ r ∈ renderings c,
    isSpace r = false ∧ upperChar (normaliseDigit r) = [c] := by decide +kernel

theorem isSpace_digits : ∀ z ∈ zeros, ∀ i < 10, isSpace (Char.ofNat (z + i)) = false ∧
    isSpace (Char.ofNat ('0'.toNat + i)) = false := by decide

theorem isSpace_normaliseDigit (c : Char) : isSpace (normaliseDigit c) = isSpace c := by
  unfold normaliseDigit
  split
  next z hz =>
    have hrange := List.find?_some hz
    simp only [Bool.and_eq_true, decide_eq_true_eq] at hrange
    obtain ⟨hold, hnew⟩ := isSpace_digits z (List.mem_of_find?_eq_some hz) (c.toNat - z) (by omega)
    rw [Nat.add_sub_cancel' hrange.1, Char.ofNat_toNat] at hold
    rw [hold, hnew]
  next => rfl

theorem isSpace_letters : ∀ i < 26, isSpace (Char.ofNat ('a'.toNat + i)) = false ∧
    isSpace (Char.ofNat ('a'.toNat + i)).toUpper = false := by decide

theorem isSpace_toUpper (c : Char) : isSpace c.toUpper = isSpace c := by
  by_cases h : 'a'.toNat ≤ c.toNat ∧ c.toNat ≤ 'z'.toNat
  · have hlast : 'z'.toNat = 'a'.toNat + 25 := rfl
    obtain ⟨hold, hnew⟩ := isSpace_letters (c.toNat - 'a'.toNat) (by omega)
    rw [Nat.add_sub_cancel' h.1, Char.ofNat_toNat] at hold hnew
    rw [hold, hnew]
  · have hsame : c.toUpper = c := dif_neg h
    rw [hsame]

theorem upperChar_spaces (c : Char) :
    (upperChar c).filter (!isSpace ·) = if isSpace c then [] else upperChar c := by
  unfold upperChar
  split
  case h_11 =>
    rw [List.filter_singleton, isSpace_toUpper]
    cases isSpace c <;> rfl
  all_goals rfl

/-- The characters of a code: so many of the alphabet. -/
structure CodeBody (n : Nat) where
  chars : List Char
  length : chars.length = n
  alphabet : ∀ c ∈ chars, c ∈ codeAlphabet

variable {n : Nat} {letters pre : List Char} {pattern : List Char → Bool}

theorem CodeBody.head_ne_dash (body : CodeBody n) : body.chars.head? ≠ some '-' := by
  intro h
  exact absurd (body.alphabet '-' (List.mem_of_mem_head? h)) (by decide)

theorem CodeBody.text_codeChars (body : CodeBody n) (hletters : ∀ c ∈ letters, c ∈ codeChars)
    (form : CodeForm) : ∀ c ∈ form.text letters body.chars, c ∈ codeChars := by
  have hbody : ∀ c ∈ body.chars, c ∈ codeChars := fun c hc =>
    List.mem_cons_of_mem _ (body.alphabet c hc)
  intro c hc
  cases form with
  | dashed =>
    rcases List.mem_append.1 hc with hc | hc
    · exact hletters c hc
    · rcases List.mem_cons.1 hc with rfl | hc
      · exact List.mem_cons_self
      · exact hbody c hc
  | undashed => exact (List.mem_append.1 hc).elim (hletters c) (hbody c)
  | bare => exact hbody c hc

theorem CodeForm.text_ne_nil (form : CodeForm) (hn : 0 < n) (body : CodeBody n) :
    form.text letters body.chars ≠ [] := by
  intro h
  have hlength := congrArg List.length h
  have hbody := body.length
  cases form <;> simp only [CodeForm.text, List.length_append, List.length_cons,
    List.length_nil] at hlength <;> omega

/-- What the parsers do with a text in capitals: the prefix off, then on again. -/
theorem coded_iff (hpattern : ∀ s, pattern (pre ++ s) = true ↔
      s.length = n ∧ ∀ c ∈ s, c ∈ codeAlphabet) (upper : List Char) (body : CodeBody n) :
    (if pattern (pre ++ dropPrefix letters upper) then
        some (String.ofList (pre ++ dropPrefix letters upper)) else none) =
      some (String.ofList (pre ++ body.chars)) ↔ dropPrefix letters upper = body.chars := by
  constructor
  · intro h
    split_ifs at h
    exact List.append_cancel_left (String.ofList_injective (Option.some.inj h))
  · intro h
    rw [h]
    exact if_pos ((hpattern _).2 ⟨body.length, body.alphabet⟩)

theorem coded_some (hpattern : ∀ s, pattern (pre ++ s) = true ↔
      s.length = n ∧ ∀ c ∈ s, c ∈ codeAlphabet) {upper : List Char} {code : String}
    (h : (if pattern (pre ++ dropPrefix letters upper) then
        some (String.ofList (pre ++ dropPrefix letters upper)) else none) = some code) :
    ∃ body : CodeBody n, code = String.ofList (pre ++ body.chars) := by
  split_ifs at h with hcode
  obtain ⟨hlength, halphabet⟩ := (hpattern _).1 hcode
  exact ⟨⟨_, hlength, halphabet⟩, (Option.some.inj h).symm⟩

end Characters

section Texts

/-- A text as it may be typed, with white space anywhere. -/
inductive Typed : List Char → List Char → Prop
  | nil : Typed [] []
  | space {text raw w} (h : isSpace w = true) (rest : Typed text raw) : Typed text (w :: raw)
  | char {text raw c r} (h : r ∈ renderings c) (rest : Typed text raw) :
    Typed (c :: text) (r :: raw)

/-- A text as it may be typed, with no white space put in. -/
def Tight (text raw : List Char) : Prop := List.Forall₂ (fun c r => r ∈ renderings c) text raw

/-- The letters and digits of a raw text in capitals, its white space gone. -/
def readChars (raw : List Char) : List Char :=
  (raw.filter (!isSpace ·)).flatMap fun c => upperChar (normaliseDigit c)

theorem Typed.read {text raw : List Char} (h : Typed text raw) (htext : ∀ c ∈ text, c ∈ codeChars) :
    readChars raw = text := by
  induction h with
  | nil => rfl
  | space hspace rest ih =>
    rw [readChars, List.filter_cons_of_neg (by simp [hspace])]
    exact ih htext
  | @char text raw c r hr rest ih =>
    obtain ⟨hspace, hupper⟩ := read_rendering c (htext c List.mem_cons_self) r hr
    rw [readChars, List.filter_cons_of_pos (by simp [hspace]), List.flatMap_cons, hupper]
    exact congrArg (c :: ·) (ih fun c hc => htext c (List.mem_cons_of_mem _ hc))

theorem Typed.self : ∀ text : List Char, Typed text text
  | [] => .nil
  | _ :: text => .char List.mem_cons_self (Typed.self text)

/-- What `trim` takes off is white space. -/
theorem trim_decomposes (s : String) : ∃ front back : List Char,
    (∀ c ∈ front, isSpace c = true) ∧ (∀ c ∈ back, isSpace c = true) ∧
      s.toList = front ++ ((trim s).toList ++ back) := by
  refine ⟨s.toList.takeWhile isSpace,
    (((s.toList.dropWhile isSpace).reverse.takeWhile isSpace)).reverse,
    fun c hc => List.mem_takeWhile_imp hc, fun c hc => ?_, ?_⟩
  · exact List.mem_takeWhile_imp (List.mem_reverse.1 hc)
  · unfold trim
    rw [String.toList_ofList, ← List.reverse_append, List.takeWhile_append_dropWhile,
      List.reverse_reverse, List.takeWhile_append_dropWhile]

theorem filter_spaces {l : List Char} (h : ∀ c ∈ l, isSpace c = true) :
    l.filter (!isSpace ·) = [] :=
  List.filter_eq_nil_iff.2 fun c hc => by simp [h c hc]

theorem filter_trim (s : String) :
    (trim s).toList.filter (!isSpace ·) = s.toList.filter (!isSpace ·) := by
  obtain ⟨front, back, hfront, hback, hs⟩ := trim_decomposes s
  rw [hs, List.filter_append, List.filter_append, filter_spaces hfront, filter_spaces hback,
    List.nil_append, List.append_nil]

theorem filter_upper (l : List Char) :
    (l.flatMap upperChar).filter (!isSpace ·) = (l.filter (!isSpace ·)).flatMap upperChar := by
  induction l with
  | nil => rfl
  | cons c l ih =>
    rw [List.flatMap_cons, List.filter_append, upperChar_spaces, ih, List.filter_cons]
    cases isSpace c <;> rfl

theorem filter_digits (l : List Char) :
    (l.map normaliseDigit).filter (!isSpace ·) = (l.filter (!isSpace ·)).map normaliseDigit := by
  rw [List.filter_map]
  refine congrArg _ (List.filter_congr fun c _ => ?_)
  show (!isSpace (normaliseDigit c)) = _
  rw [isSpace_normaliseDigit]

/-- The capitals of a trimmed text without its white space. -/
theorem removeSpaces_upper (s : String) : (removeSpaces (toUpperCase (trim s))).toList =
    (s.toList.filter (!isSpace ·)).flatMap upperChar := by
  unfold removeSpaces toUpperCase
  rw [String.toList_ofList, String.toList_ofList, filter_upper, filter_trim]

theorem readChars_eq (raw : String) :
    (removeSpaces (toUpperCase (trim (normaliseDigits raw)))).toList = readChars raw.toList := by
  rw [removeSpaces_upper]
  unfold normaliseDigits readChars
  rw [String.toList_ofList, filter_digits, List.flatMap_map]

end Texts

end EchoAndAura
