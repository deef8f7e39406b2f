import EchoAndAura.Proofs.Typed

/-!
# Looking an order up

A reference is found in every form of it, but in the one without its prefix when its characters
begin with the prefix's letters; and what is found is a form of the reference, but for the letters
outside ASCII whose capitals are ASCII (`FindsJust`).  The search of the door reads ASCII digits
only, and white space anywhere; the other two read every digit set, and white space around.
-/

namespace EchoAndAura

section Characters

/-- The letters outside ASCII whose capitals are letters of a code. -/
def foreignLetters : List Char := ['ſ', 'ß', 'ﬀ', 'ﬅ', 'ﬆ']

def Plain (raw : List Char) : Prop := ∀ c ∈ raw, c ∉ foreignLetters

def AsciiDigits (raw : List Char) : Prop := ∀ c ∈ raw, normaliseDigit c = c

theorem rendering_plain : ∀ c ∈ codeChars, ∀ r ∈ renderings c, r ∉ foreignLetters := by decide +kernel

theorem foreignLetters_spaces : ∀ c ∈ foreignLetters, isSpace c = false := by decide +kernel

theorem digit_renderings : ∀ z ∈ zeros, ∀ i < 10,
    upperChar (Char.ofNat ('0'.toNat + i)) = [Char.ofNat ('0'.toNat + i)] ∧
      Char.ofNat (z + i) ∈ renderings (Char.ofNat ('0'.toNat + i)) ∧
        upperChar (Char.ofNat (z + i)) = [Char.ofNat (z + i)] ∧
          Char.ofNat (z + i) ∉ codeChars := by decide

theorem letter_renderings : ∀ i < 26, Char.ofNat ('a'.toNat + i) ∈
    renderings (Char.ofNat ('a'.toNat + i)).toUpper := by decide

theorem normaliseDigit_cases (c : Char) : normaliseDigit c = c ∨ ∃ z ∈ zeros, ∃ i < 10,
    c = Char.ofNat (z + i) ∧ normaliseDigit c = Char.ofNat ('0'.toNat + i) := by
  unfold normaliseDigit
  split
  next z hz =>
    have hrange := List.find?_some hz
    simp only [Bool.and_eq_true, decide_eq_true_eq] at hrange
    refine .inr ⟨z, List.mem_of_find?_eq_some hz, c.toNat - z, by omega, ?_, rfl⟩
    rw [Nat.add_sub_cancel' hrange.1, Char.ofNat_toNat]
  next => exact .inl rfl

theorem mem_renderings_toUpper (c : Char) : c ∈ renderings c.toUpper := by
  by_cases h : 'a'.toNat ≤ c.toNat ∧ c.toNat ≤ 'z'.toNat
  · have hlast : 'z'.toNat = 'a'.toNat + 25 := rfl
    have hletter := letter_renderings (c.toNat - 'a'.toNat) (by omega)
    rwa [Nat.add_sub_cancel' h.1, Char.ofNat_toNat] at hletter
  · have hsame : c.toUpper = c := dif_neg h
    rw [hsame]
    exact List.mem_cons_self

/-- Whatever letter has a code character for its capital is that character as typed. -/
theorem upper_rendering {c : Char} (h : ∀ u ∈ upperChar c, u ∈ codeChars)
    (hplain : c ∉ foreignLetters) : ∃ u, upperChar c = [u] ∧ c ∈ renderings u := by
  unfold upperChar at h ⊢
  split at h
  case h_1 => exact absurd (by decide) hplain
  case h_2 => exact absurd (h 'I' (by decide)) (by decide)
  case h_3 => exact absurd (by decide) hplain
  case h_4 => exact absurd (by decide) hplain
  case h_5 => exact absurd (h 'I' (by decide)) (by decide)
  case h_6 => exact absurd (h 'L' (by decide)) (by decide)
  case h_7 => exact absurd (h 'I' (by decide)) (by decide)
  case h_8 => exact absurd (h 'L' (by decide)) (by decide)
  case h_9 => exact absurd (by decide) hplain
  case h_10 => exact absurd (by decide) hplain
  case h_11 => exact ⟨c.toUpper, rfl, mem_renderings_toUpper c⟩

theorem digit_rendering {r : Char} (h : ∀ u ∈ upperChar (normaliseDigit r), u ∈ codeChars)
    (hplain : r ∉ foreignLetters) :
    ∃ u, upperChar (normaliseDigit r) = [u] ∧ r ∈ renderings u := by
  rcases normaliseDigit_cases r with hsame | ⟨z, hz, i, hi, hr, hdigit⟩
  · rw [hsame] at h ⊢
    exact upper_rendering h hplain
  · obtain ⟨hupper, hmem, -⟩ := digit_renderings z hz i hi
    rw [hdigit]
    exact ⟨_, hupper, hr ▸ hmem⟩

/-- A digit of another script stays in the capitals, and is in no code. -/
theorem ascii_of_upper {r : Char} (h : ∀ u ∈ upperChar r, u ∈ codeChars) :
    normaliseDigit r = r := by
  rcases normaliseDigit_cases r with hsame | ⟨z, hz, i, hi, hr, -⟩
  · exact hsame
  · obtain ⟨-, -, hupper, hnot⟩ := digit_renderings z hz i hi
    rw [hr, hupper] at h
    exact absurd (h _ List.mem_cons_self) hnot

theorem ascii_of_space {r : Char} (h : isSpace r = true) : normaliseDigit r = r := by
  rcases normaliseDigit_cases r with hsame | ⟨z, hz, i, hi, hr, -⟩
  · exact hsame
  · rw [hr, (isSpace_digits z hz i hi).1] at h
    exact absurd h Bool.false_ne_true

end Characters

section Readings

/-- The capitals of a text, with its digits in ASCII. -/
def capitals (raw : List Char) : List Char := raw.flatMap fun c => upperChar (normaliseDigit c)

theorem mem_capitals {raw : List Char} {r : Char} (hr : r ∈ raw)
    (h : ∀ c ∈ capitals raw, c ∈ codeChars) : ∀ u ∈ upperChar (normaliseDigit r), u ∈ codeChars :=
  fun u hu => h u (List.mem_flatMap.2 ⟨r, hr, hu⟩)

theorem tight_capitals : ∀ {raw : List Char}, (∀ c ∈ capitals raw, c ∈ codeChars) → Plain raw →
    Tight (capitals raw) raw
  | [], _, _ => .nil
  | r :: raw, h, hplain => by
    obtain ⟨u, hupper, hmem⟩ := digit_rendering (mem_capitals List.mem_cons_self h)
      (hplain r List.mem_cons_self)
    have hcons : capitals (r :: raw) = u :: capitals raw := by
      unfold capitals
      rw [List.flatMap_cons, hupper]
      rfl
    rw [hcons] at h ⊢
    exact .cons hmem (tight_capitals (fun c hc => h c (List.mem_cons_of_mem u hc))
      fun c hc => hplain c (List.mem_cons_of_mem r hc))

theorem capitals_tight {text raw : List Char} (h : Tight text raw)
    (htext : ∀ c ∈ text, c ∈ codeChars) : capitals raw = text := by
  induction h with
  | nil => rfl
  | @cons c r text raw hr rest ih =>
    unfold capitals at ih ⊢
    rw [List.flatMap_cons, (read_rendering c (htext c List.mem_cons_self) r hr).2,
      ih fun c hc => htext c (List.mem_cons_of_mem _ hc)]
    rfl

theorem Tight.char {text raw : List Char} (h : Tight text raw)
    (htext : ∀ c ∈ text, c ∈ codeChars) : ∀ r ∈ raw, isSpace r = false ∧ r ∉ foreignLetters := by
  induction h with
  | nil => exact fun r hr => absurd hr List.not_mem_nil
  | @cons c r text raw hr rest ih =>
    have hc := htext c List.mem_cons_self
    intro r' hr'
    rcases List.mem_cons.1 hr' with rfl | hr'
    · exact ⟨(read_rendering c hc _ hr).1, rendering_plain c hc _ hr⟩
    · exact ih (fun c hc => htext c (List.mem_cons_of_mem _ hc)) r' hr'

/-- A text that reads as a code is that code as it may be typed. -/
theorem typed_readChars : ∀ {raw : List Char}, (∀ c ∈ readChars raw, c ∈ codeChars) → Plain raw →
    Typed (readChars raw) raw
  | [], _, _ => .nil
  | r :: raw, h, hplain => by
    have hplain' : Plain raw := fun c hc => hplain c (List.mem_cons_of_mem r hc)
    rcases hspace : isSpace r with _ | _
    · have hread : readChars (r :: raw) = upperChar (normaliseDigit r) ++ readChars raw := by
        unfold readChars
        rw [List.filter_cons_of_pos (by simp [hspace]), List.flatMap_cons]
      rw [hread] at h ⊢
      obtain ⟨u, hupper, hmem⟩ := digit_rendering (fun u hu => h u (List.mem_append_left _ hu))
        (hplain r List.mem_cons_self)
      rw [hupper] at h ⊢
      exact .char hmem (typed_readChars (fun c hc => h c (List.mem_append_right _ hc)) hplain')
    · have hread : readChars (r :: raw) = readChars raw := by
        unfold readChars
        rw [List.filter_cons_of_neg (by simp [hspace])]
      rw [hread] at h ⊢
      exact .space hspace (typed_readChars h hplain')

theorem Typed.plain {text raw : List Char} (h : Typed text raw)
    (htext : ∀ c ∈ text, c ∈ codeChars) : Plain raw := by
  induction h with
  | nil => exact fun r hr => absurd hr List.not_mem_nil
  | @space text raw w hspace rest ih =>
    intro r hr hforeign
    rcases List.mem_cons.1 hr with rfl | hr
    · rw [foreignLetters_spaces r hforeign] at hspace
      exact Bool.false_ne_true hspace
    · exact ih htext r hr hforeign
  | @char text raw c r hr rest ih =>
    intro r' hr'
    rcases List.mem_cons.1 hr' with rfl | hr'
    · exact rendering_plain c (htext c List.mem_cons_self) _ hr
    · exact ih (fun c hc => htext c (List.mem_cons_of_mem _ hc)) r' hr'

end Readings

section Trimmed

/-- A text as it may be typed, with white space around it. -/
def Around (text raw : List Char) : Prop :=
  ∃ front typed back : List Char, (∀ c ∈ front, isSpace c = true) ∧
    (∀ c ∈ back, isSpace c = true) ∧ raw = front ++ (typed ++ back) ∧ Tight text typed

theorem dropWhile_none {l : List Char} (h : ∀ c ∈ l, isSpace c = false) :
    l.dropWhile isSpace = l := by
  cases l with
  | nil => rfl
  | cons c l => exact List.dropWhile_cons_of_neg (by simp [h c List.mem_cons_self])

theorem dropWhile_front {front l : List Char} (hfront : ∀ c ∈ front, isSpace c = true)
    (hl : ∀ c ∈ l, isSpace c = false) : (front ++ l).dropWhile isSpace = l := by
  rw [List.dropWhile_append_of_pos hfront, dropWhile_none hl]

theorem trim_around {raw : String} {front typed back : List Char}
    (hfront : ∀ c ∈ front, isSpace c = true) (hback : ∀ c ∈ back, isSpace c = true)
    (htyped : ∀ c ∈ typed, isSpace c = false) (hraw : raw.toList = front ++ (typed ++ back)) :
    (trim raw).toList = typed := by
  have hrev : ∀ c ∈ back.reverse, isSpace c = true := fun c hc => hback c (List.mem_reverse.1 hc)
  have hrev' : ∀ c ∈ typed.reverse, isSpace c = false := fun c hc =>
    htyped c (List.mem_reverse.1 hc)
  unfold trim
  rw [String.toList_ofList, hraw, List.dropWhile_append_of_pos hfront]
  cases typed with
  | nil =>
    rw [List.nil_append, ← List.append_nil back, List.dropWhile_append_of_pos hback]
    rfl
  | cons c typed =>
    rw [List.cons_append, List.dropWhile_cons_of_neg (by simp [htyped c List.mem_cons_self]),
      ← List.cons_append, List.reverse_append, dropWhile_front hrev hrev', List.reverse_reverse]

theorem trim_digits (raw : String) :
    trim (normaliseDigits raw) = String.ofList ((trim raw).toList.map normaliseDigit) := by
  have hcomp : isSpace ∘ normaliseDigit = isSpace := funext isSpace_normaliseDigit
  unfold trim normaliseDigits
  rw [String.toList_ofList, String.toList_ofList, List.dropWhile_map, hcomp, ← List.map_reverse,
    List.dropWhile_map, hcomp, List.map_reverse]

/-- What the lookup and the search of the orders read. -/
theorem upper_trimmed (raw : String) :
    (toUpperCase (trim (normaliseDigits raw))).toList = capitals (trim raw).toList := by
  rw [trim_digits]
  unfold toUpperCase capitals
  rw [String.toList_ofList, String.toList_ofList, List.flatMap_map]

/-- The capitals of a text without its white space. -/
def spaceless (raw : List Char) : List Char := (raw.filter (!isSpace ·)).flatMap upperChar

theorem filter_collapse : ∀ (after : Bool) (l : List Char),
    (collapseSpaces after l).filter (!isSpace ·) = l.filter (!isSpace ·)
  | _, [] => rfl
  | after, c :: l => by
    have hblank : isSpace ' ' = true := rfl
    unfold collapseSpaces
    rcases hspace : isSpace c with _ | _
    · rw [if_pos Bool.not_false, List.filter_cons_of_pos (by simp [hspace]),
        List.filter_cons_of_pos (by simp [hspace]), filter_collapse false l]
    · rw [if_neg (by simp), List.filter_cons_of_neg (a := c) (by simp [hspace])]
      split_ifs
      · exact filter_collapse true l
      · rw [List.filter_cons_of_neg (by simp [hblank])]
        exact filter_collapse true l

/-- What the search of the door reads. -/
theorem upper_collapsed (raw : String) :
    (removeSpaces (toUpperCase (collapse raw))).toList = spaceless raw.toList := by
  unfold removeSpaces toUpperCase collapse spaceless
  rw [String.toList_ofList, String.toList_ofList, String.toList_ofList, filter_upper,
    filter_collapse, filter_trim]

theorem readChars_ascii {raw : List Char} (h : AsciiDigits raw) :
    readChars raw = spaceless raw := by
  unfold readChars spaceless
  refine List.flatMap_congr fun c hc => ?_
  rw [h c (List.mem_of_mem_filter hc)]

theorem ascii_of_spaceless {raw : List Char} (h : ∀ c ∈ spaceless raw, c ∈ codeChars) :
    AsciiDigits raw := by
  intro r hr
  rcases hspace : isSpace r with _ | _
  · refine ascii_of_upper fun u hu => h u (List.mem_flatMap.2 ⟨r, ?_, hu⟩)
    exact List.mem_filter.2 ⟨hr, by simp [hspace]⟩
  · exact ascii_of_space hspace

end Trimmed

section References

def referenceLetters : List Char := ['E', 'A']

theorem referenceLetters_codeChars : ∀ c ∈ referenceLetters, c ∈ codeChars := by decide +kernel

/-- The reference of its characters. -/
def orderReference (body : CodeBody 6) : String :=
  String.ofList (orderReferencePrefix ++ body.chars)

theorem isOrderReference_iff (s : List Char) :
    isOrderReference (orderReferencePrefix ++ s) = true ↔
      s.length = 6 ∧ ∀ c ∈ s, c ∈ codeAlphabet := by
  have htake : (orderReferencePrefix ++ s).take 3 = orderReferencePrefix := rfl
  have hdrop : (orderReferencePrefix ++ s).drop 3 = s := rfl
  unfold isOrderReference
  rw [htake, hdrop]
  simp

theorem asReference_iff (upper : String) (body : CodeBody 6) :
    asReference upper = some (orderReference body) ↔
      dropPrefix referenceLetters upper.toList = body.chars :=
  @coded_iff 6 referenceLetters orderReferencePrefix isOrderReference isOrderReference_iff
    upper.toList body

theorem asReference_some {upper reference : String} (h : asReference upper = some reference) :
    ∃ body : CodeBody 6, reference = orderReference body :=
  @coded_some 6 referenceLetters orderReferencePrefix isOrderReference isOrderReference_iff
    upper.toList reference h

/-- What a reading of texts makes of the ways to type a code. -/
structure Reads (Rendering : List Char → List Char → Prop) (Allowed : List Char → Prop)
    (read : List Char → List Char) : Prop where
  allowed {raw : List Char} : (∀ c ∈ read raw, c ∈ codeChars) → Allowed raw
  read_eq {text raw : List Char} : (∀ c ∈ text, c ∈ codeChars) → Rendering text raw →
    Allowed raw → read raw = text
  rendering {raw : List Char} : (∀ c ∈ read raw, c ∈ codeChars) → Plain raw →
    Rendering (read raw) raw
  plain {text raw : List Char} : (∀ c ∈ text, c ∈ codeChars) → Rendering text raw → Plain raw

/-- A lookup finds a reference in the allowed ways to type it, but in the form without its prefix
when it begins with the prefix's letters; and what it finds a reference in is a way to type it, but
for foreign letters. -/
def FindsJust (Rendering : List Char → List Char → Prop) (Allowed : List Char → Prop)
    (finds : String → String → Prop) : Prop :=
  (∀ (body : CodeBody 6) (form : CodeForm) (raw : String),
    Rendering (form.text referenceLetters body.chars) raw.toList →
      (finds raw (orderReference body) ↔
        Allowed raw.toList ∧ ¬ (form = .bare ∧ referenceLetters <+: body.chars))) ∧
  ∀ raw reference : String, finds raw reference → ∃ body : CodeBody 6,
    reference = orderReference body ∧
      ((∃ form : CodeForm, Rendering (form.text referenceLetters body.chars) raw.toList) ↔
        Plain raw.toList)

theorem Reads.findsJust {Rendering : List Char → List Char → Prop} {Allowed : List Char → Prop}
    {read : List Char → List Char} (h : Reads Rendering Allowed read)
    {finds : String → String → Prop} (hfinds : ∀ raw reference, finds raw reference ↔
      asReference (String.ofList (read raw.toList)) = some reference) :
    FindsJust Rendering Allowed finds := by
  have hcodes := fun (body : CodeBody 6) => body.text_codeChars referenceLetters_codeChars
  have hread : ∀ (raw : String) (body : CodeBody 6), finds raw (orderReference body) ↔
      ∃ form : CodeForm, read raw.toList = form.text referenceLetters body.chars ∧
        ¬ (form = .bare ∧ referenceLetters <+: body.chars) := by
    intro raw body
    rw [hfinds, asReference_iff, String.toList_ofList, dropPrefix_eq_iff body.head_ne_dash]
  constructor
  · intro body form raw hraw
    rw [hread]
    constructor
    · rintro ⟨form', hform, hnot⟩
      have hallowed := h.allowed fun c hc => hcodes body form' c (hform ▸ hc)
      rw [h.read_eq (hcodes body form) hraw hallowed] at hform
      rw [text_inj (by decide) hform]
      exact ⟨hallowed, hnot⟩
    · rintro ⟨hallowed, hnot⟩
      exact ⟨form, h.read_eq (hcodes body form) hraw hallowed, hnot⟩
  · intro raw reference hfound
    obtain ⟨body, rfl⟩ := asReference_some ((hfinds raw reference).1 hfound)
    obtain ⟨form, hform, -⟩ := (hread raw body).1 hfound
    refine ⟨body, rfl, fun ⟨form', hform'⟩ => h.plain (hcodes body form') hform', fun hplain => ?_⟩
    exact ⟨form, hform ▸ h.rendering (fun c hc => hcodes body form c (hform ▸ hc)) hplain⟩

end References

section Lookups

theorem reads_trimmed : Reads Around (fun _ => True)
    fun raw => capitals (trim (String.ofList raw)).toList where
  allowed _ := trivial
  read_eq := by
    rintro text raw htext ⟨front, typed, back, hfront, hback, hraw, htight⟩ -
    rw [trim_around hfront hback (fun r hr => (htight.char htext r hr).1)
      (String.toList_ofList.trans hraw)]
    exact capitals_tight htight htext
  rendering := by
    intro raw hread hplain
    obtain ⟨front, back, hfront, hback, hraw⟩ := trim_decomposes (String.ofList raw)
    rw [String.toList_ofList] at hraw
    refine ⟨front, _, back, hfront, hback, hraw, tight_capitals hread fun c hc => hplain c ?_⟩
    rw [hraw]
    exact List.mem_append_right _ (List.mem_append_left _ hc)
  plain := by
    rintro text raw htext ⟨front, typed, back, hfront, hback, rfl, htight⟩ c hc hforeign
    have hspace := foreignLetters_spaces c hforeign
    rcases List.mem_append.1 hc with hc | hc
    · exact Bool.false_ne_true (hspace.symm.trans (hfront c hc))
    · rcases List.mem_append.1 hc with hc | hc
      · exact (htight.char htext c hc).2 hforeign
      · exact Bool.false_ne_true (hspace.symm.trans (hback c hc))

theorem reads_spaceless : Reads Typed AsciiDigits spaceless where
  allowed := ascii_of_spaceless
  read_eq htext htyped hallowed := by
    rw [← readChars_ascii hallowed]
    exact htyped.read htext
  rendering := by
    intro raw hread hplain
    have heq := readChars_ascii (ascii_of_spaceless hread)
    rw [← heq] at hread ⊢
    exact typed_readChars hread hplain
  plain htext htyped := htyped.plain htext

theorem referenceField_iff (raw reference : String) :
    referenceField (some raw) = .ok reference ↔
      asReference (toUpperCase (trim (normaliseDigits raw))) = some reference := by
  unfold referenceField
  dsimp only
  split
  next found hfound => rw [hfound, Except.ok.injEq, Option.some.injEq]
  next hnone => simp [hnone]

theorem findOrderSchema_iff {raw phone stored : String} (hphone : bdMobile phone = some stored)
    (reference : String) : findOrderSchema (some raw) (some phone) = .ok (reference, stored) ↔
      referenceField (some raw) = .ok reference := by
  have hfield : phoneField (some phone) = .ok stored := by
    unfold phoneField
    rw [Option.bind_some, hphone]
  unfold findOrderSchema
  rw [hfield]
  rcases referenceField (some raw) with e | found <;> simp

theorem asReference_empty : asReference (toUpperCase "") = none := by decide

variable (lower : String → String)

theorem searchTerm_reference (raw : String) : (normaliseSearchTerm lower raw).reference =
    asReference (toUpperCase (trim (normaliseDigits raw))) := by
  unfold normaliseSearchTerm
  dsimp only
  by_cases hempty : trim (normaliseDigits raw) = ""
  · rw [if_pos hempty, hempty, asReference_empty]
  · rw [if_neg hempty]

theorem checkInQuery_reference (raw : String) : (normaliseCheckInQuery lower raw).reference =
    asReference (removeSpaces (toUpperCase (collapse raw))) := by
  have hnone : asReference (removeSpaces (toUpperCase "")) = none := by decide
  unfold normaliseCheckInQuery
  dsimp only
  by_cases hempty : collapse raw = ""
  · rw [if_pos hempty, hempty, hnone]
  · rw [if_neg hempty]

/-- `orders.reference` is unique. -/
def UniqueReferences (d : Db) : Prop := ∀ id id' o o', d.orders.lookup id = some o →
  d.orders.lookup id' = some o' → o.reference = o'.reference → id = id'

theorem trimmed_ofList (raw : String) : String.ofList (capitals (trim (String.ofList
    raw.toList)).toList) = toUpperCase (trim (normaliseDigits raw)) := by
  rw [String.ofList_toList, ← upper_trimmed, String.ofList_toList]

theorem spaceless_ofList (raw : String) : String.ofList (spaceless raw.toList) =
    removeSpaces (toUpperCase (collapse raw)) := by
  rw [← upper_collapsed, String.ofList_toList]

theorem findByReferenceAndPhone_found {d : Db} (hunique : UniqueReferences d) {id : Id} {o : Order}
    {phone : String} (ho : d.orders.lookup id = some o) (hphone : o.buyerPhone = some phone)
    (hsame : toUpperCase (trim (normaliseDigits o.reference)) = o.reference) :
    findByReferenceAndPhone d o.reference phone = some (id, o) := by
  unfold findByReferenceAndPhone
  dsimp only
  rw [hsame]
  rcases hfind : d.orders.entries.find? (fun e => e.2.reference == o.reference) with _ | e
  · have hnot := List.find?_eq_none.1 hfind ⟨id, o⟩ (AList.mem_lookup_iff.1 ho)
    simp at hnot
  · have href := List.find?_some hfind
    rw [beq_iff_eq] at href
    have hentry : d.orders.lookup e.1 = some e.2 :=
      AList.mem_lookup_iff.2 (List.mem_of_find?_eq_some hfind)
    have hid := hunique e.1 id e.2 o hentry ho href
    rw [hid, ho, Option.some.injEq] at hentry
    rw [hfind, Option.filter_some, ← hentry, hphone, if_pos (by simp), Option.map_some, hid,
      ← hentry]

theorem orderReference_same (body : CodeBody 6) :
    toUpperCase (trim (normaliseDigits (orderReference body))) = orderReference body := by
  have hcodes := body.text_codeChars referenceLetters_codeChars .dashed
  have htight : Tight (CodeForm.text referenceLetters body.chars .dashed)
      (orderReference body).toList := by
    unfold orderReference
    rw [String.toList_ofList]
    exact List.forall₂_same.2 fun c _ => List.mem_cons_self
  rw [← trimmed_ofList, reads_trimmed.read_eq hcodes ⟨[], _, [], by simp, by simp, by simp, htight⟩
    trivial]
  rfl

theorem SearchTerm.matches_reference {t : SearchTerm} {o : Order}
    (h : t.reference = some o.reference) : t.matchesOrder lower o = true := by
  unfold SearchTerm.matchesOrder
  rw [h]
  simp

theorem filterCheckInRows_reference {rows : List CheckInEntry} {row : CheckInEntry}
    {query : CheckInQuery} (hrow : row ∈ rows) (h : query.reference = some row.orderReference) :
    row ∈ filterCheckInRows lower rows query := by
  unfold filterCheckInRows
  split_ifs
  · exact hrow
  · exact List.mem_filter.2 ⟨hrow, by simp [h]⟩

/-- What each of the three makes of a typed reference, and that each then finds the order. -/
theorem referenceLookup_renderings :
    (∀ phone stored : String, bdMobile phone = some stored →
      FindsJust Around (fun _ => True) fun raw reference =>
        findOrderSchema (some raw) (some phone) = .ok (reference, stored)) ∧
    (FindsJust Around (fun _ => True) fun raw reference =>
      (normaliseSearchTerm lower raw).reference = some reference) ∧
    (FindsJust Typed AsciiDigits fun raw reference =>
      (normaliseCheckInQuery lower raw).reference = some reference) ∧
    (∀ (d : Db) (id : Id) (o : Order) (phone : String) (body : CodeBody 6), UniqueReferences d →
      d.orders.lookup id = some o → o.buyerPhone = some phone → o.reference = orderReference body →
        findByReferenceAndPhone d o.reference phone = some (id, o)) ∧
    (∀ (raw : String) (o : Order), (normaliseSearchTerm lower raw).reference = some o.reference →
      (normaliseSearchTerm lower raw).matchesOrder lower o = true) ∧
    ∀ (raw : String) (rows : List CheckInEntry) (row : CheckInEntry), row ∈ rows →
      (normaliseCheckInQuery lower raw).reference = some row.orderReference →
        row ∈ filterCheckInRows lower rows (normaliseCheckInQuery lower raw) := by
  refine ⟨fun phone stored hphone => ?_, ?_, ?_, ?_, ?_, ?_⟩
  · refine reads_trimmed.findsJust fun raw reference => ?_
    rw [findOrderSchema_iff hphone, referenceField_iff, trimmed_ofList]
  · refine reads_trimmed.findsJust fun raw reference => ?_
    rw [searchTerm_reference, trimmed_ofList]
  · refine reads_spaceless.findsJust fun raw reference => ?_
    rw [checkInQuery_reference, spaceless_ofList]
  · intro d id o phone body hunique ho hphone href
    refine findByReferenceAndPhone_found hunique ho hphone ?_
    rw [href, orderReference_same]
  · exact fun raw o h => SearchTerm.matches_reference lower h
  · exact fun raw rows row hrow h => filterCheckInRows_reference lower hrow h

/-- `EA-EA7K3M` typed without its prefix is found by none of the three, `EA-7K3M9Q` in Bangla digits
not by the search of the door, and `EA-7K3Mß` is taken for `EA-7K3MSS`. -/
theorem referenceLookup_refused :
    (¬ ∃ found, findOrderSchema (some "EA7K3M") (some "01712345678") = .ok found) ∧
      (normaliseSearchTerm id "EA7K3M").reference = none ∧
      (normaliseCheckInQuery id "EA7K3M").reference = none ∧
      (normaliseCheckInQuery id "EA-৭K৩M৯Q").reference = none ∧
      findOrderSchema (some "EA-7K3Mß") (some "01712345678") =
        .ok ("EA-7K3MSS", "+8801712345678") := by
  refine ⟨?_, by decide, by decide, by decide, by decide⟩
  rintro ⟨found, hfound⟩
  have hrefused : findOrderSchema (some "EA7K3M") (some "01712345678") =
      .error [("reference", "An order reference looks like EA-7K3M9Q.")] := by decide
  rw [hrefused] at hfound
  cases hfound

end Lookups

end EchoAndAura
