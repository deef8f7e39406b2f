import EchoAndAura.Proofs.Typed

/-!
# Scan tokens

`parseScanToken` reads the slug of the first `/tickets/` link of a text, and the letters and digits
of a text that has none (`scanText`); a code comes of it just when what was read is one of the forms
of the code, but not the code without its prefix when it begins with the prefix's letters
(`parseScanToken_iff`).
-/

namespace EchoAndAura

section Links

def linkPath : List Char := "/tickets/".toList

/-- A link at `i`, with a slug after it. -/
def LinkAt (text : List Char) (i : Nat) (slug : List Char) : Prop :=
  linkPath <+: text.drop i ∧ slug = (text.drop (i + 9)).takeWhile isSlugChar ∧ slug ≠ []

/-- The first link of a text. -/
def FirstLink (text slug : List Char) : Prop :=
  ∃ i, LinkAt text i slug ∧ ∀ j < i, ∀ other, ¬ LinkAt text j other

theorem linkAt_succ (c : Char) (cs : List Char) (i : Nat) (slug : List Char) :
    LinkAt (c :: cs) (i + 1) slug ↔ LinkAt cs i slug := by
  unfold LinkAt
  rw [List.drop_succ_cons, Nat.add_right_comm, List.drop_succ_cons]

/-- What `inUrl` asks of the text it stands at. -/
theorem linkAt_zero (text slug : List Char) : LinkAt text 0 slug ↔
    (text.take 9 == linkPath && !((text.drop 9).takeWhile isSlugChar).isEmpty) = true ∧
      slug = (text.drop 9).takeWhile isSlugChar := by
  have hprefix : linkPath <+: text ↔ text.take 9 = linkPath :=
    List.prefix_iff_eq_take.trans eq_comm
  unfold LinkAt
  rw [List.drop_zero, Nat.zero_add, Bool.and_eq_true, beq_iff_eq, Bool.not_eq_true',
    List.isEmpty_eq_false_iff, hprefix]
  constructor
  · rintro ⟨htake, rfl, hne⟩
    exact ⟨⟨htake, hne⟩, rfl⟩
  · rintro ⟨⟨htake, hne⟩, rfl⟩
    exact ⟨htake, rfl, hne⟩

theorem firstLink_succ {c : Char} {cs slug : List Char}
    (hzero : ∀ other, ¬ LinkAt (c :: cs) 0 other) :
    FirstLink (c :: cs) slug ↔ FirstLink cs slug := by
  constructor
  · rintro ⟨i, hi, hfirst⟩
    cases i with
    | zero => exact absurd hi (hzero slug)
    | succ i =>
      refine ⟨i, (linkAt_succ c cs i slug).1 hi, fun j hj other h => ?_⟩
      exact hfirst (j + 1) (by omega) other ((linkAt_succ c cs j other).2 h)
  · rintro ⟨i, hi, hfirst⟩
    refine ⟨i + 1, (linkAt_succ c cs i slug).2 hi, fun j hj other h => ?_⟩
    cases j with
    | zero => exact hzero other h
    | succ j => exact hfirst j (by omega) other ((linkAt_succ c cs j other).1 h)

theorem not_linkAt_nil (i : Nat) (slug : List Char) : ¬ LinkAt [] i slug := by
  rintro ⟨hpath, -, -⟩
  rw [List.drop_nil] at hpath
  exact absurd (List.prefix_nil.1 hpath) (by decide)

theorem inUrl_iff : ∀ text slug : List Char, inUrl text = some slug ↔ FirstLink text slug
  | [], slug => by
    constructor
    · intro h
      cases h
    · rintro ⟨i, hi, -⟩
      exact absurd hi (not_linkAt_nil i slug)
  | c :: cs, slug => by
    rw [inUrl]
    split
    next hhere =>
      rw [Option.some.injEq]
      constructor
      · rintro rfl
        exact ⟨0, (linkAt_zero _ _).2 ⟨hhere, rfl⟩, fun j hj => absurd hj (Nat.not_lt_zero j)⟩
      · rintro ⟨i, hi, hfirst⟩
        cases i with
        | zero => exact ((linkAt_zero _ _).1 hi).2.symm
        | succ i =>
          exact absurd ((linkAt_zero _ _).2 ⟨hhere, rfl⟩) (hfirst 0 (Nat.succ_pos i) _)
    next hhere =>
      rw [inUrl_iff cs slug,
        firstLink_succ fun other hzero => hhere ((linkAt_zero _ other).1 hzero).1]

/-- A text with a link has a first one. -/
theorem inUrl_isSome : ∀ {text : List Char} {i : Nat} {slug : List Char},
    LinkAt text i slug → ∃ first, inUrl text = some first
  | [], i, slug, h => absurd h (not_linkAt_nil i slug)
  | c :: cs, i, slug, h => by
    rw [inUrl]
    split
    next => exact ⟨_, rfl⟩
    next hhere =>
      cases i with
      | zero => exact absurd ((linkAt_zero _ slug).1 h).1 hhere
      | succ i => exact inUrl_isSome ((linkAt_succ c cs i slug).1 h)

theorem inUrl_cons {c : Char} (hc : c ≠ '/') (cs : List Char) : inUrl (c :: cs) = inUrl cs := by
  rw [inUrl, if_neg]
  intro h
  rw [Bool.and_eq_true, beq_iff_eq] at h
  exact hc (List.cons.inj h.1).1

theorem inUrl_none : ∀ {text : List Char}, (∀ c ∈ text, c ≠ '/') → inUrl text = none
  | [], _ => rfl
  | c :: cs, h => by
    rw [inUrl_cons (h c List.mem_cons_self)]
    exact inUrl_none fun c' hc' => h c' (List.mem_cons_of_mem c hc')

end Links

section Slugs

theorem slug_ascii : ∀ n < 128, isSlugChar (Char.ofNat n) = true →
    isSpace (Char.ofNat n) = false ∧ upperChar (Char.ofNat n) = [(Char.ofNat n).toUpper] ∧
      Char.ofNat n ∈ renderings (Char.ofNat n).toUpper := by decide

theorem isSlugChar_ascii {c : Char} (h : isSlugChar c = true) : c.toNat < 128 := by
  unfold isSlugChar at h
  rcases Bool.or_eq_true _ _ ▸ h with h | h
  · have halnum : ((decide ('A'.val ≤ c.val ∧ c.val ≤ 'Z'.val) ||
        decide ('a'.val ≤ c.val) && decide (c.val ≤ 'z'.val)) ||
        decide ('0'.val ≤ c.val) && decide (c.val ≤ '9'.val)) = true := h
    simp only [Bool.or_eq_true, Bool.and_eq_true, decide_eq_true_eq,
      UInt32.le_iff_toNat_le] at halnum
    have hval : c.toNat = c.val.toNat := rfl
    have hZ : 'Z'.val.toNat = 90 := rfl
    have hz : 'z'.val.toNat = 122 := rfl
    have hnine : '9'.val.toNat = 57 := rfl
    omega
  · rw [beq_iff_eq] at h
    rw [h]
    decide

theorem isSlugChar_spec {c : Char} (h : isSlugChar c = true) :
    isSpace c = false ∧ upperChar c = [c.toUpper] ∧ c ∈ renderings c.toUpper := by
  have hspec := slug_ascii c.toNat (isSlugChar_ascii h)
  rw [Char.ofNat_toNat] at hspec
  exact hspec h

theorem not_isSlugChar_of_isSpace {c : Char} (h : isSpace c = true) : isSlugChar c = false := by
  by_contra hslug
  rw [(isSlugChar_spec (Bool.not_eq_false _ ▸ hslug)).1] at h
  exact Bool.false_ne_true h

theorem linkPath_spaces : ∀ c ∈ linkPath, isSpace c = false := by decide +kernel

/-- White space before and after a text holds no link. -/
theorem inUrl_front : ∀ {front : List Char}, (∀ c ∈ front, isSpace c = true) →
    ∀ l : List Char, inUrl (front ++ l) = inUrl l
  | [], _, _ => rfl
  | c :: front, h, l => by
    have hc : c ≠ '/' := by
      rintro rfl
      exact absurd (h '/' List.mem_cons_self) (by decide)
    rw [List.cons_append, inUrl_cons hc]
    exact inUrl_front (fun c' hc' => h c' (List.mem_cons_of_mem c hc')) l

theorem takeWhile_back {back : List Char} (h : ∀ c ∈ back, isSpace c = true) (l : List Char) :
    (l ++ back).takeWhile isSlugChar = l.takeWhile isSlugChar := by
  rw [List.takeWhile_append]
  split_ifs with hall
  · have hself := List.IsPrefix.eq_of_length (List.takeWhile_prefix isSlugChar) hall
    have hback : back.takeWhile isSlugChar = [] := by
      cases back with
      | nil => rfl
      | cons c back =>
        have hc := not_isSlugChar_of_isSpace (h c List.mem_cons_self)
        exact List.takeWhile_cons_of_neg (by simp [hc])
    rw [hback, List.append_nil, hself]
  · rfl

/-- A text too short for the path does not get it from white space after it. -/
theorem take_back {back l : List Char} (h : ∀ c ∈ back, isSpace c = true) :
    (l ++ back).take 9 = linkPath ↔ l.take 9 = linkPath := by
  rcases Nat.lt_or_ge l.length 9 with hshort | hlong
  · have hlength : linkPath.length = 9 := rfl
    constructor
    · intro hpath
      rw [List.take_append, List.take_of_length_le (Nat.le_of_lt hshort)] at hpath
      have hnone : back.take (9 - l.length) = [] := by
        refine List.eq_nil_iff_forall_not_mem.2 fun c hc => ?_
        have hspace := linkPath_spaces c (hpath ▸ List.mem_append_right l hc)
        rw [h c (List.mem_of_mem_take hc)] at hspace
        exact Bool.false_ne_true hspace.symm
      rw [hnone, List.append_nil] at hpath
      rw [← hpath] at hlength
      omega
    · intro hpath
      have hle := List.length_take_le 9 l
      rw [List.take_of_length_le (Nat.le_of_lt hshort)] at hpath
      rw [← hpath] at hlength
      omega
  · rw [List.take_append_of_le_length hlong]

theorem inUrl_back {back : List Char} (h : ∀ c ∈ back, isSpace c = true) :
    ∀ l : List Char, inUrl (l ++ back) = inUrl l
  | [] => by
    have hfront := inUrl_front h []
    rwa [List.append_nil] at hfront
  | c :: cs => by
    have hdrop : ∀ hpath : (c :: cs).take 9 = linkPath,
        ((c :: cs ++ back).drop 9).takeWhile isSlugChar =
          ((c :: cs).drop 9).takeWhile isSlugChar := by
      intro hpath
      have hlong : 9 ≤ (c :: cs).length := by
        have hlength := congrArg List.length hpath
        rw [List.length_take] at hlength
        have hnine : linkPath.length = 9 := rfl
        omega
      rw [List.drop_append_of_le_length hlong, takeWhile_back h]
    rw [List.cons_append, inUrl, inUrl, ← List.cons_append, inUrl_back h cs]
    by_cases hpath : (c :: cs).take 9 = linkPath
    · rw [(take_back h).2 hpath, hpath, hdrop hpath]
    · have hneither : ((c :: cs).take 9 == linkPath) = false ∧
          ((c :: cs ++ back).take 9 == linkPath) = false :=
        ⟨beq_eq_false_iff_ne.2 hpath, beq_eq_false_iff_ne.2 fun h' => hpath ((take_back h).1 h')⟩
      unfold linkPath at hneither
      rw [hneither.1, hneither.2]
      rfl

theorem inUrl_trim (s : String) : inUrl (trim s).toList = inUrl s.toList := by
  obtain ⟨front, back, hfront, hback, hs⟩ := trim_decomposes s
  rw [hs, inUrl_front hfront, inUrl_back hback]

end Slugs

section Codes

def ticketLetters : List Char := ['T', 'K', 'T']

theorem ticketLetters_codeChars : ∀ c ∈ ticketLetters, c ∈ codeChars := by decide +kernel

/-- The code of its characters. -/
def ticketCode (body : CodeBody 8) : String := String.ofList (ticketCodePrefix ++ body.chars)

theorem isTicketCode_iff (s : List Char) :
    isTicketCode (ticketCodePrefix ++ s) = true ↔ s.length = 8 ∧ ∀ c ∈ s, c ∈ codeAlphabet := by
  have htake : (ticketCodePrefix ++ s).take 4 = ticketCodePrefix := rfl
  have hdrop : (ticketCodePrefix ++ s).drop 4 = s := rfl
  unfold isTicketCode
  rw [htake, hdrop]
  simp

theorem asCode_iff (upper : String) (body : CodeBody 8) :
    asCode upper = some (ticketCode body) ↔ dropPrefix ticketLetters upper.toList = body.chars :=
  @coded_iff 8 ticketLetters ticketCodePrefix isTicketCode isTicketCode_iff upper.toList body

theorem asCode_some {upper code : String} (h : asCode upper = some code) :
    ∃ body : CodeBody 8, code = ticketCode body :=
  @coded_some 8 ticketLetters ticketCodePrefix isTicketCode isTicketCode_iff upper.toList code h

end Codes

section Parsing

/-- The characters a code is looked for in: the slug of the first link, or the whole text. -/
def scanText (raw : String) : List Char :=
  match inUrl (normaliseDigits raw).toList with
  | some slug => slug.map Char.toUpper
  | none => readChars raw.toList

theorem upper_slug : ∀ {slug : List Char}, (∀ c ∈ slug, isSlugChar c = true) →
    slug.flatMap upperChar = slug.map Char.toUpper ∧ slug.filter (!isSpace ·) = slug
  | [], _ => ⟨rfl, rfl⟩
  | c :: slug, h => by
    obtain ⟨hspace, hupper, -⟩ := isSlugChar_spec (h c List.mem_cons_self)
    obtain ⟨hflat, hfilter⟩ := upper_slug fun c' hc' => h c' (List.mem_cons_of_mem c hc')
    constructor
    · rw [List.flatMap_cons, hupper, hflat]
      rfl
    · rw [List.filter_cons_of_pos (by simp [hspace]), hfilter]

theorem slug_chars {text slug : List Char} (h : inUrl text = some slug) :
    ∀ c ∈ slug, isSlugChar c = true := by
  obtain ⟨i, ⟨-, rfl, -⟩, -⟩ := (inUrl_iff text slug).1 h
  exact fun c hc => List.mem_takeWhile_imp hc

theorem parseScanToken_eq (raw : String) : parseScanToken raw =
    if jsLength raw == 0 || scanInputMax < jsLength raw then none
    else asCode (String.ofList (scanText raw)) := by
  have htext : (removeSpaces (toUpperCase (((inUrl (trim (normaliseDigits raw)).toList).map
      String.ofList).getD (trim (normaliseDigits raw))))) = String.ofList (scanText raw) := by
    rw [inUrl_trim]
    unfold scanText
    rcases hlink : inUrl (normaliseDigits raw).toList with _ | slug
    · rw [Option.map_none, Option.getD_none, ← readChars_eq raw, String.ofList_toList]
    · obtain ⟨hflat, hfilter⟩ := upper_slug (slug_chars hlink)
      unfold removeSpaces toUpperCase
      rw [Option.map_some, Option.getD_some, String.toList_ofList, String.toList_ofList,
        filter_upper, hfilter, hflat]
  rw [← htext]
  rfl

/-- When a text is read as a code. -/
theorem parseScanToken_iff (raw : String) (body : CodeBody 8) :
    parseScanToken raw = some (ticketCode body) ↔
      0 < jsLength raw ∧ jsLength raw ≤ scanInputMax ∧ ∃ form : CodeForm,
        scanText raw = form.text ticketLetters body.chars ∧
          ¬ (form = .bare ∧ ticketLetters <+: body.chars) := by
  rw [← dropPrefix_eq_iff body.head_ne_dash, parseScanToken_eq]
  split_ifs with hlength
  · rw [Bool.or_eq_true, beq_iff_eq, decide_eq_true_eq] at hlength
    constructor
    · intro h
      cases h
    · rintro ⟨hpos, hmax, -⟩
      omega
  · rw [Bool.or_eq_true, beq_iff_eq, decide_eq_true_eq, not_or] at hlength
    rw [asCode_iff, String.toList_ofList]
    constructor
    · exact fun h => ⟨by omega, by omega, h⟩
    · exact fun h => h.2.2

theorem parseScanToken_code {raw code : String} (h : parseScanToken raw = some code) :
    ∃ body : CodeBody 8, code = ticketCode body := by
  rw [parseScanToken_eq] at h
  split_ifs at h
  exact asCode_some h

theorem jsLength_pos {raw : String} (h : raw.toList ≠ []) : 0 < jsLength raw := by
  obtain ⟨c, cs, hraw⟩ := List.exists_cons_of_ne_nil h
  unfold jsLength
  rw [hraw, List.map_cons, List.sum_cons]
  split_ifs <;> omega

theorem jsLength_eq : ∀ {l : List Char}, (∀ c ∈ l, c.toNat ≤ 0xffff) →
    jsLength (String.ofList l) = l.length
  | [], _ => rfl
  | c :: l, h => by
    have hrest := jsLength_eq fun c' hc' => h c' (List.mem_cons_of_mem c hc')
    unfold jsLength at hrest ⊢
    rw [String.toList_ofList] at hrest ⊢
    rw [List.map_cons, List.sum_cons, hrest,
      if_neg (Nat.not_lt_of_le (h c List.mem_cons_self)), List.length_cons, Nat.add_comm]

/-- No code character is typed as a slash. -/
theorem rendering_ne_slash : ∀ c ∈ codeChars, ∀ r ∈ renderings c,
    normaliseDigit r ≠ '/' ∧ isSlugChar (normaliseDigit r) = true := by decide +kernel

theorem Typed.noSlash {text raw : List Char} (h : Typed text raw)
    (htext : ∀ c ∈ text, c ∈ codeChars) : ∀ r ∈ raw, normaliseDigit r ≠ '/' := by
  induction h with
  | nil => exact fun r hr => absurd hr List.not_mem_nil
  | @space text raw w hspace rest ih =>
    intro r hr
    rcases List.mem_cons.1 hr with rfl | hr
    · intro hslash
      have hspace' := isSpace_normaliseDigit r
      rw [hslash, hspace] at hspace'
      exact absurd hspace' (by decide)
    · exact ih htext r hr
  | @char text raw c r hr rest ih =>
    intro r' hr'
    rcases List.mem_cons.1 hr' with rfl | hr'
    · exact (rendering_ne_slash c (htext c List.mem_cons_self) _ hr).1
    · exact ih (fun c' hc' => htext c' (List.mem_cons_of_mem c hc')) r' hr'

theorem Typed.scanText_eq {text : List Char} {raw : String} (h : Typed text raw.toList)
    (htext : ∀ c ∈ text, c ∈ codeChars) : scanText raw = text := by
  have hnone : inUrl (normaliseDigits raw).toList = none := by
    refine inUrl_none fun c hc => ?_
    unfold normaliseDigits at hc
    rw [String.toList_ofList] at hc
    obtain ⟨r, hr, rfl⟩ := List.mem_map.1 hc
    exact h.noSlash htext r hr
  unfold scanText
  rw [hnone]
  exact h.read htext

theorem Typed.ne_nil {text raw : List Char} (h : Typed text raw) (htext : text ≠ []) :
    raw ≠ [] := by
  cases h with
  | nil => exact absurd rfl htext
  | space => exact List.cons_ne_nil _ _
  | char => exact List.cons_ne_nil _ _

end Parsing

section Renderings

theorem slug_rendering : ∀ c ∈ codeChars, ∀ r ∈ renderings c,
    isSlugChar r = true → r.toUpper = c := by decide +kernel

theorem tight_iff : ∀ {text slug : List Char}, (∀ c ∈ text, c ∈ codeChars) →
    (∀ r ∈ slug, isSlugChar r = true) → (slug.map Char.toUpper = text ↔ Tight text slug)
  | [], [], _, _ => ⟨fun _ => .nil, fun _ => rfl⟩
  | [], _ :: _, _, _ => ⟨fun h => absurd h (List.cons_ne_nil _ _), fun h => by cases h⟩
  | _ :: _, [], _, _ => ⟨fun h => absurd h.symm (List.cons_ne_nil _ _), fun h => by cases h⟩
  | c :: text, r :: slug, htext, hslug => by
    have hrest : slug.map Char.toUpper = text ↔ Tight text slug := tight_iff
      (fun c' hc' => htext c' (List.mem_cons_of_mem c hc'))
      (fun r' hr' => hslug r' (List.mem_cons_of_mem r hr'))
    have hr := hslug r List.mem_cons_self
    rw [List.map_cons, List.cons.injEq, hrest]
    constructor
    · rintro ⟨rfl, h⟩
      exact .cons (isSlugChar_spec hr).2.2 h
    · rintro (_ | ⟨hhead, htail⟩)
      exact ⟨slug_rendering c (htext c List.mem_cons_self) r hhead hr, htail⟩

/-- A code after the path of a link is a link. -/
theorem tight_link {raw front typed back text : List Char}
    (hraw : raw = front ++ linkPath ++ typed ++ back) (htyped : Tight text typed)
    (htext : ∀ c ∈ text, c ∈ codeChars) (hne : text ≠ []) :
    ∃ slug, LinkAt (raw.map normaliseDigit) front.length slug := by
  have hpath : linkPath.map normaliseDigit = linkPath := by decide
  have hmap : raw.map normaliseDigit = front.map normaliseDigit ++
      (linkPath ++ (typed ++ back).map normaliseDigit) := by
    rw [hraw, List.append_assoc, List.append_assoc, List.map_append, List.map_append, hpath]
  have hdrop : (raw.map normaliseDigit).drop front.length =
      linkPath ++ (typed ++ back).map normaliseDigit := by
    rw [hmap]
    exact List.drop_left' (List.length_map _)
  refine ⟨_, hdrop ▸ List.prefix_append _ _, rfl, ?_⟩
  have hdrop' : (raw.map normaliseDigit).drop (front.length + 9) =
      (typed ++ back).map normaliseDigit := by
    rw [← List.drop_drop, hdrop]
    rfl
  rw [hdrop']
  cases htyped with
  | nil => exact absurd rfl hne
  | @cons c r text' typed' hr htail =>
    have hslug := (rendering_ne_slash c (htext c List.mem_cons_self) r hr).2
    rw [List.cons_append, List.map_cons, List.takeWhile_cons_of_pos hslug]
    exact List.cons_ne_nil _ _

theorem jsLength_ticketCode (body : CodeBody 8) : jsLength (ticketCode body) = 12 := by
  have hascii : ∀ c ∈ codeChars, c.toNat ≤ 0xffff := by decide +kernel
  have hlength : (ticketCodePrefix ++ body.chars).length = 12 := by
    rw [List.length_append, body.length]
    rfl
  rw [← hlength]
  exact jsLength_eq fun c hc =>
    hascii c (body.text_codeChars ticketLetters_codeChars .dashed c hc)

theorem toList_ticketCode (body : CodeBody 8) :
    (ticketCode body).toList = CodeForm.text ticketLetters body.chars .dashed := by
  unfold ticketCode
  rw [String.toList_ofList]
  rfl

/-- A code is read as itself. -/
theorem parseScanToken_ticketCode (body : CodeBody 8) :
    parseScanToken (ticketCode body) = some (ticketCode body) := by
  have hlength := jsLength_ticketCode body
  refine (parseScanToken_iff _ _).2 ⟨by omega, ?_, .dashed, ?_, by simp⟩
  · rw [hlength]
    decide
  · refine Typed.scanText_eq ?_ (body.text_codeChars ticketLetters_codeChars .dashed)
    rw [toList_ticketCode]
    exact Typed.self _

/-- A code typed in any of its forms is read, but the code without its prefix when it begins with
the prefix's letters; in a text with a link, when the first link is such a form; and what is read is
a code, and is read as itself. -/
theorem parseScanToken_renderings (raw : String) :
    (∀ (body : CodeBody 8) (form : CodeForm),
      Typed (form.text ticketLetters body.chars) raw.toList → jsLength raw ≤ scanInputMax →
        (parseScanToken raw = some (ticketCode body) ↔
          ¬ (form = .bare ∧ ticketLetters <+: body.chars))) ∧
    (∀ (body : CodeBody 8) (form : CodeForm) (front typed back : List Char),
      raw.toList = front ++ linkPath ++ typed ++ back →
        Tight (form.text ticketLetters body.chars) typed → jsLength raw ≤ scanInputMax →
          (parseScanToken raw = some (ticketCode body) ↔
            ∃ (form' : CodeForm) (slug : List Char), FirstLink (normaliseDigits raw).toList slug ∧
              Tight (form'.text ticketLetters body.chars) slug ∧
                ¬ (form' = .bare ∧ ticketLetters <+: body.chars))) ∧
    ∀ code : String, parseScanToken raw = some code →
      isTicketCode code.toList = true ∧ parseScanToken code = some code := by
  refine ⟨fun body form htyped hmax => ?_,
    fun body form front typed back hraw htyped hmax => ?_, fun code h => ?_⟩
  · have hread := htyped.scanText_eq (body.text_codeChars ticketLetters_codeChars form)
    have hpos := jsLength_pos (htyped.ne_nil (form.text_ne_nil (by decide) body))
    rw [parseScanToken_iff, hread]
    constructor
    · rintro ⟨-, -, form', hform, hnot⟩
      rwa [text_inj (by decide) hform]
    · exact fun hnot => ⟨hpos, hmax, form, rfl, hnot⟩
  · have hcodes := body.text_codeChars ticketLetters_codeChars
    obtain ⟨slug', hlink⟩ :=
      tight_link hraw htyped (hcodes form) (form.text_ne_nil (by decide) body)
    obtain ⟨slug, hslug⟩ := inUrl_isSome hlink
    rw [← String.toList_ofList (l := raw.toList.map normaliseDigit)] at hslug
    have hpos : 0 < jsLength raw := by
      refine jsLength_pos ?_
      rw [hraw, List.append_assoc, List.append_assoc]
      exact List.append_ne_nil_of_right_ne_nil _ (List.cons_ne_nil _ _)
    have hread : scanText raw = slug.map Char.toUpper := by
      unfold scanText normaliseDigits
      rw [hslug]
    have hfirst : ∀ slug', FirstLink (normaliseDigits raw).toList slug' ↔ slug = slug' := by
      intro slug'
      rw [← inUrl_iff]
      unfold normaliseDigits
      rw [hslug, Option.some.injEq]
    rw [parseScanToken_iff, hread]
    constructor
    · rintro ⟨-, -, form', hform, hnot⟩
      exact ⟨form', slug, (hfirst slug).2 rfl,
        (tight_iff (hcodes form') (slug_chars hslug)).1 hform, hnot⟩
    · rintro ⟨form', slug', hfirst', htight, hnot⟩
      obtain rfl := (hfirst slug').1 hfirst'
      exact ⟨hpos, hmax, form', (tight_iff (hcodes form') (slug_chars hslug)).2 htight, hnot⟩
  · obtain ⟨body, rfl⟩ := parseScanToken_code h
    constructor
    · rw [toList_ticketCode]
      exact (isTicketCode_iff _).2 ⟨body.length, body.alphabet⟩
    · exact parseScanToken_ticketCode body

/-- The characters of `TKT-TKT4H8ZP`. -/
def prefixedBody : CodeBody 8 where
  chars := "TKT4H8ZP".toList
  length := rfl
  alphabet := by decide +kernel

/-- `TKT-TKT4H8ZP`, typed without its prefix, is refused. -/
theorem parseScanToken_bare_refused :
    Typed (CodeForm.text ticketLetters prefixedBody.chars .bare) "TKT4H8ZP".toList ∧
      jsLength "TKT4H8ZP" ≤ scanInputMax ∧ parseScanToken "TKT4H8ZP" = none :=
  ⟨Typed.self _, by decide, by decide⟩

end Renderings

end EchoAndAura
