import EchoAndAura.Ics

/-!
# Reading a calendar file back

The file is its event's lines in pieces of at most 75 octets, so it unfolds to those lines, and
their values unescape to the texts they were made of.  `esc` leaves a carriage return as it is, and
that is all that can go wrong (`buildTicketIcs_roundTrips_iff`).
-/

namespace EchoAndAura

section Escaping

def escaped (c : Char) : List Char :=
  if c = '\\' then ['\\', '\\']
  else if c = ';' then ['\\', ';']
  else if c = ',' then ['\\', ',']
  else if c = '\n' then ['\\', 'n']
  else [c]

/-- A text value of RFC 5545, as it is read. -/
def unescaped : List Char → Option (List Char)
  | [] => some []
  | '\\' :: c :: rest =>
    if c = '\\' ∨ c = ';' ∨ c = ',' then (unescaped rest).map (c :: ·)
    else if c = 'n' ∨ c = 'N' then (unescaped rest).map ('\n' :: ·)
    else none
  | c :: rest => if c = '\\' ∨ c = ';' ∨ c = ',' then none else (unescaped rest).map (c :: ·)

theorem esc_eq (text : List Char) : esc text = text.flatMap escaped := by
  unfold esc replaceChar
  rw [List.flatMap_assoc, List.flatMap_assoc, List.flatMap_assoc]
  refine List.flatMap_congr fun c _ => ?_
  unfold escaped
  split_ifs with hback hsemi hcomma hfeed
  · subst hback
    rfl
  · subst hsemi
    rfl
  · subst hcomma
    rfl
  · subst hfeed
    rfl
  · simp [hsemi, hcomma, hfeed]

theorem unescaped_escaped (c : Char) (rest : List Char) :
    unescaped (escaped c ++ rest) = (unescaped rest).map (c :: ·) := by
  unfold escaped
  split_ifs with hback hsemi hcomma hfeed
  · subst hback
    rfl
  · subst hsemi
    rfl
  · subst hcomma
    rfl
  · subst hfeed
    rfl
  · have hplain : ¬ (c = '\\' ∨ c = ';' ∨ c = ',') := by
      rintro (h | h | h)
      · exact hback h
      · exact hsemi h
      · exact hcomma h
    rw [List.singleton_append, unescaped, if_neg hplain]
    rintro c' rest' rfl
    exact absurd rfl hback

theorem unescaped_esc (text : List Char) : unescaped (esc text) = some text := by
  rw [esc_eq]
  induction text with
  | nil => rfl
  | cons c text ih => rw [List.flatMap_cons, unescaped_escaped, ih, Option.map_some]

theorem mem_escaped (c : Char) : '\n' ∉ escaped c ∧ ('\r' ∈ escaped c ↔ '\r' = c) := by
  unfold escaped
  split_ifs with hback hsemi hcomma hfeed
  · subst hback
    decide
  · subst hsemi
    decide
  · subst hcomma
    decide
  · subst hfeed
    decide
  · exact ⟨fun h => hfeed (List.mem_singleton.1 h).symm, List.mem_singleton⟩

theorem feed_notMem_esc (text : List Char) : '\n' ∉ esc text := by
  rw [esc_eq]
  intro h
  obtain ⟨c, -, hc⟩ := List.mem_flatMap.1 h
  exact (mem_escaped c).1 hc

theorem return_mem_esc (text : List Char) : '\r' ∈ esc text ↔ '\r' ∈ text := by
  rw [esc_eq, List.mem_flatMap]
  constructor
  · rintro ⟨c, hmem, hc⟩
    exact (mem_escaped c).2.1 hc ▸ hmem
  · exact fun h => ⟨'\r', h, (mem_escaped _).2.2 rfl⟩

end Escaping

section Folding

def octets (l : List Char) : Nat := (l.map Char.utf8Size).sum

theorem octets_append (l l' : List Char) : octets (l ++ l') = octets l + octets l' := by
  unfold octets
  rw [List.map_append, List.sum_append]

theorem octets_cons (c : Char) (l : List Char) : octets (c :: l) = c.utf8Size + octets l := rfl

theorem length_encoded (l : List Char) :
    (l.flatMap String.utf8EncodeChar).length = octets l := by
  induction l with
  | nil => rfl
  | cons c l ih =>
    rw [List.flatMap_cons, List.length_append, ih, String.length_utf8EncodeChar, octets_cons]

/-- The parts made of a line so far. -/
structure FoldsTo (s : Folded) (line : List Char) : Prop where
  text : s.parts.flatten ++ s.current = line
  bytes : s.bytes = octets s.current
  limit : s.bytes ≤ if s.parts.length = 0 then 75 else 74
  full : ∀ l ∈ Lines.physical ' ' s.parts, octets l ≤ 75

/-- The current part fits its line. -/
theorem FoldsTo.current_fits {s : Folded} {line : List Char} (h : FoldsTo s line) :
    ∀ l ∈ Lines.physical ' ' (s.parts ++ [s.current]), octets l ≤ 75 := by
  have hlimit := h.limit
  rw [h.bytes] at hlimit
  intro l hl
  by_cases hparts : s.parts = []
  · rw [hparts, List.nil_append] at hl
    rw [hparts] at hlimit
    obtain rfl := List.mem_singleton.1 hl
    exact hlimit
  · have hlength : s.parts.length ≠ 0 := fun h0 => hparts (List.length_eq_zero_iff.1 h0)
    have hspace : ' '.utf8Size = 1 := by decide
    rw [if_neg hlength] at hlimit
    rw [Lines.physical_append ' ' hparts] at hl
    rcases List.mem_append.1 hl with hl | hl
    · exact h.full l hl
    · obtain rfl := List.mem_singleton.1 hl
      rw [octets_cons, hspace]
      omega

theorem foldChar_foldsTo {s : Folded} {line : List Char} (h : FoldsTo s line) (ch : Char) :
    FoldsTo (foldChar s ch) (line ++ [ch]) := by
  have hsize : ch.utf8Size ≤ 4 := Char.utf8Size_le_four ch
  have hone : octets [ch] = ch.utf8Size := rfl
  unfold foldChar
  dsimp only
  by_cases hlimit : (if s.parts.length = 0 then 75 else 74) < s.bytes + ch.utf8Size
  · rw [if_pos hlimit]
    refine ⟨?_, rfl, ?_, h.current_fits⟩
    · rw [List.flatten_append, List.flatten_singleton, h.text]
    · dsimp only
      split_ifs <;> omega
  · rw [if_neg hlimit]
    refine ⟨?_, ?_, Nat.not_lt.1 hlimit, h.full⟩
    · rw [← List.append_assoc, h.text]
    · rw [octets_append, hone, h.bytes]

theorem foldl_foldsTo : ∀ (line : List Char) {s : Folded} {done : List Char}, FoldsTo s done →
    FoldsTo (line.foldl foldChar s) (done ++ line)
  | [], _, _, h => by rwa [List.append_nil]
  | ch :: line, _, _, h => by
    have hrest := foldl_foldsTo line (foldChar_foldsTo h ch)
    rwa [List.append_assoc, List.singleton_append] at hrest

theorem foldParts_spec (line : List Char) : (foldParts line).flatten = line ∧
    ∀ l ∈ Lines.physical ' ' (foldParts line), octets l ≤ 75 := by
  have hstart : FoldsTo { parts := [], current := [], bytes := 0 } [] :=
    ⟨rfl, rfl, by decide, fun l hl => absurd hl List.not_mem_nil⟩
  have hspec := foldl_foldsTo line hstart
  rw [List.nil_append] at hspec
  refine ⟨?_, hspec.current_fits⟩
  unfold foldParts
  rw [List.flatten_append, List.flatten_singleton, hspec.text]

theorem foldParts_ne_nil (line : List Char) : foldParts line ≠ [] := by
  unfold foldParts
  exact List.append_ne_nil_of_right_ne_nil _ (List.cons_ne_nil _ _)

/-- A folded line, with its line end, is its parts on lines of their own. -/
theorem fold_text (line : List Char) : fold line ++ ['\r', '\n'] =
    Lines.text '\r' '\n' (Lines.physical ' ' (foldParts line)) := by
  unfold fold
  rw [Lines.physical_eq, Lines.intercalate_text]
  intro h
  obtain ⟨p, ps, hparts⟩ := List.exists_cons_of_ne_nil (foldParts_ne_nil line)
  rw [hparts, Lines.physical] at h
  exact List.cons_ne_nil _ _ h

def isBlank (c : Char) : Bool := c == ' ' || c == '\t'

theorem foldParts_starts {line : List Char} (h : ∀ c ∈ line.head?, isBlank c = false) :
    Lines.Starts isBlank (foldParts line) := by
  obtain ⟨p, ps, hparts⟩ := List.exists_cons_of_ne_nil (foldParts_ne_nil line)
  refine ⟨p, ps, hparts, fun c hc => h c ?_⟩
  rw [← (foldParts_spec line).1, hparts, List.flatten_cons, List.head?_append, Option.mem_def.1 hc]
  rfl

theorem mem_foldParts {line : List Char} {c : Char} :
    (∃ p ∈ foldParts line, c ∈ p) ↔ c ∈ line := by
  rw [← List.mem_flatten, (foldParts_spec line).1]

end Folding

section Properties

/-- A line of its own is what has no line end in it. -/
def SingleLine (l : List Char) : Prop := '\r' ∉ l ∧ '\n' ∉ l

theorem SingleLine.append {l l' : List Char} (h : SingleLine l) (h' : SingleLine l') :
    SingleLine (l ++ l') :=
  ⟨fun hr => (List.mem_append.1 hr).elim h.1 h'.1, fun hn => (List.mem_append.1 hn).elim h.2 h'.2⟩

theorem SingleLine.cons {c : Char} {l : List Char} (hc : SingleLine [c]) (h : SingleLine l) :
    SingleLine (c :: l) := hc.append h

theorem singleLine_digits : ∀ width n : Nat, SingleLine (digits width n)
  | 0, _ => ⟨List.not_mem_nil, List.not_mem_nil⟩
  | width + 1, n => by
    have hdigit : ∀ k < 10, '\r' ∉ [Char.ofNat ('0'.toNat + k)] ∧
        '\n' ∉ [Char.ofNat ('0'.toNat + k)] := by decide
    exact (singleLine_digits width (n / 10)).append (hdigit (n % 10) (Nat.mod_lt n (by decide)))

theorem singleLine_isoYear (year : Int) : SingleLine (isoYear year) := by
  have hsigns : '\r' ∉ ['-'] ∧ '\n' ∉ ['-'] ∧ '\r' ∉ ['+'] ∧ '\n' ∉ ['+'] := by decide
  unfold isoYear
  split_ifs
  · exact singleLine_digits _ _
  · exact .cons ⟨hsigns.1, hsigns.2.1⟩ (singleLine_digits _ _)
  · exact .cons hsigns.2.2 (singleLine_digits _ _)

theorem singleLine_toISOString (d : JsDate) : SingleLine (toISOString d) := by
  have hmarks : ∀ c ∈ ['-', 'T', ':', '.', 'Z'], '\r' ∉ [c] ∧ '\n' ∉ [c] := by decide +kernel
  unfold toISOString isoDate
  refine ((singleLine_isoYear _).append (.cons (hmarks '-' (by decide))
    ((singleLine_digits _ _).append (.cons (hmarks '-' (by decide))
      (singleLine_digits _ _))))).append ?_
  refine .cons (hmarks 'T' (by decide)) ((singleLine_digits _ _).append ?_)
  refine .cons (hmarks ':' (by decide)) ((singleLine_digits _ _).append ?_)
  refine .cons (hmarks ':' (by decide)) ((singleLine_digits _ _).append ?_)
  exact .cons (hmarks '.' (by decide)) ((singleLine_digits _ _).append (hmarks 'Z' (by decide)))

theorem mem_dropMillis {s : List Char} {c : Char} (h : c ∈ dropMillis s) : c ∈ s ∨ c = 'Z' := by
  unfold dropMillis at h
  split at h
  next c' b a rest hs =>
    split_ifs at h
    · rcases List.mem_append.1 h with h | h
      · have hmem : c ∈ s.reverse := by
          rw [hs]
          exact List.mem_of_mem_drop (i := 5) (List.mem_reverse.1 h)
        exact .inl (List.mem_reverse.1 hmem)
      · exact .inr (List.mem_singleton.1 h)
    · exact .inl h
  next => exact .inl h

theorem singleLine_stamp (d : JsDate) : SingleLine (stamp d) := by
  obtain ⟨hreturn, hfeed⟩ := singleLine_toISOString d
  constructor
  · intro h
    rcases mem_dropMillis h with h | h
    · exact hreturn (List.mem_of_mem_filter h)
    · exact absurd h (by decide)
  · intro h
    rcases mem_dropMillis h with h | h
    · exact hfeed (List.mem_of_mem_filter h)
    · exact absurd h (by decide)

theorem singleLine_code {code : List Char} (h : isTicketCode code = true) : SingleLine code := by
  unfold isTicketCode at h
  rw [Bool.and_eq_true, Bool.and_eq_true, beq_iff_eq, List.all_eq_true] at h
  have hcode : SingleLine (ticketCodePrefix ++ code.drop 4) := by
    have hprefix : '\r' ∉ ticketCodePrefix ∧ '\n' ∉ ticketCodePrefix := by decide
    have halphabet : '\r' ∉ codeAlphabet ∧ '\n' ∉ codeAlphabet := by decide
    refine SingleLine.append hprefix ⟨fun hr => ?_, fun hn => ?_⟩
    · exact halphabet.1 (List.contains_iff_mem.1 (h.2 _ hr))
    · exact halphabet.2 (List.contains_iff_mem.1 (h.2 _ hn))
  rwa [← h.1.1, List.take_append_drop] at hcode

/-- The properties of the one event of a calendar. -/
def eventProperties (input : TicketIcsInput) (now ends : JsDate) (summary : List Char)
    (location : Option (List Char)) (description : List Char) : List (String × List Char) :=
  [("BEGIN", "VCALENDAR".toList), ("VERSION", "2.0".toList),
    ("PRODID", "-//echoandaura//tickets//EN".toList), ("CALSCALE", "GREGORIAN".toList),
    ("METHOD", "PUBLISH".toList), ("BEGIN", "VEVENT".toList),
    ("UID", input.code.toList ++ "@echoandaura".toList), ("DTSTAMP", stamp now),
    ("DTSTART", stamp input.startsAt), ("DTEND", stamp ends), ("SUMMARY", summary)] ++
  location.toList.map (Prod.mk "LOCATION") ++
  [("DESCRIPTION", description), ("URL", input.url.toList), ("END", "VEVENT".toList),
    ("END", "VCALENDAR".toList)]

def propertyLine (p : String × List Char) : List Char := p.1.toList ++ ':' :: p.2

theorem icsLines_eq (input : TicketIcsInput) (now ends : JsDate) : icsLines input now ends =
    (eventProperties input now ends (esc input.eventTitle.toList)
      ((input.venue.filter (· ≠ "")).map fun venue => esc venue.toList)
      (esc (descriptionText input))).map propertyLine := by
  unfold icsLines eventProperties
  cases input.venue.filter (· ≠ "") <;> simp [propertyLine]

def propertyNames : List String :=
  ["BEGIN", "VERSION", "PRODID", "CALSCALE", "METHOD", "UID", "DTSTAMP", "DTSTART", "DTEND",
    "SUMMARY", "LOCATION", "DESCRIPTION", "URL", "END"]

theorem propertyNames_spec : ∀ name ∈ propertyNames, '\r' ∉ name.toList ∧ '\n' ∉ name.toList ∧
    name.toList ≠ [] ∧ ∀ c ∈ name.toList.head?, isBlank c = false := by decide +kernel

variable {input : TicketIcsInput} {now ends : JsDate} {summary description : List Char}
  {location : Option (List Char)}

theorem name_mem : ∀ p ∈ eventProperties input now ends summary location description,
    p.1 ∈ propertyNames := by
  unfold eventProperties
  simp only [List.forall_mem_append, List.forall_mem_cons, List.forall_mem_map]
  refine ⟨⟨?_, ?_⟩, ?_⟩
  · decide
  · exact fun _ _ => by decide
  · decide

/-- Line ends come only from the texts. -/
theorem notMem_values (now ends : JsDate) {c : Char} (hc : c = '\r' ∨ c = '\n')
    (hcode : SingleLine input.code.toList) (hurl : SingleLine input.url.toList) :
    (∀ p ∈ eventProperties input now ends summary location description, c ∉ p.2) ↔
      c ∉ summary ∧ (∀ l ∈ location, c ∉ l) ∧ c ∉ description := by
  have hnow := singleLine_stamp now
  have hstart := singleLine_stamp input.startsAt
  have hend := singleLine_stamp ends
  unfold eventProperties
  simp only [List.forall_mem_append, List.forall_mem_cons, List.forall_mem_map]
  rcases hc with rfl | rfl
  · simp [hcode.1, hurl.1, hnow.1, hstart.1, hend.1, and_assoc]
  · simp [hcode.2, hurl.2, hnow.2, hstart.2, hend.2, and_assoc]

end Properties

section Octets

theorem or_ne_return {x y : UInt8} (h : y.toNat.testBit 7 = true) : x ||| y ≠ 13 := by
  intro heq
  have hbit : (x ||| y).toNat.testBit 7 = true := by
    rw [UInt8.toNat_or, Nat.testBit_or, h, Bool.or_true]
  rw [heq] at hbit
  exact absurd hbit (by decide)

/-- The octet of a return is in the encoding of no other character. -/
theorem return_notMem_encoded {c : Char} (hc : c ≠ '\r') : 13 ∉ String.utf8EncodeChar c := by
  rcases Char.utf8Size_eq c with h | h | h | h
  · rw [String.utf8EncodeChar_eq_singleton h, List.mem_singleton]
    intro heq
    have hsmall := UInt32.le_iff_toNat_le.1 (Char.utf8Size_eq_one_iff.1 h)
    have hval : (13 : UInt8).toNat = c.val.toNat % 256 := by
      rw [heq]
      exact UInt32.toNat_toUInt8 c.val
    have h127 : (127 : UInt32).toNat = 127 := rfl
    have h13 : (13 : UInt8).toNat = 13 := rfl
    have hreturn : '\r'.val.toNat = 13 := rfl
    exact hc (Char.ext (UInt32.toNat_inj.1 (by omega)))
  · rw [String.utf8EncodeChar_eq_cons_cons h]
    simp only [List.mem_cons, List.not_mem_nil, or_false, not_or]
    exact ⟨(or_ne_return (by decide)).symm, (or_ne_return (by decide)).symm⟩
  · rw [String.utf8EncodeChar_eq_cons_cons_cons h]
    simp only [List.mem_cons, List.not_mem_nil, or_false, not_or]
    exact ⟨(or_ne_return (by decide)).symm, (or_ne_return (by decide)).symm,
      (or_ne_return (by decide)).symm⟩
  · rw [String.utf8EncodeChar_eq_cons_cons_cons_cons h]
    simp only [List.mem_cons, List.not_mem_nil, or_false, not_or]
    exact ⟨(or_ne_return (by decide)).symm, (or_ne_return (by decide)).symm,
      (or_ne_return (by decide)).symm, (or_ne_return (by decide)).symm⟩

end Octets

section Files

/-- Every line of a file in its pieces. -/
def pieces (ls : List (List Char)) : List (List Char) :=
  ls.flatMap fun l => Lines.physical ' ' (foldParts l)

theorem file_text {ls : List (List Char)} (h : ls ≠ []) :
    ['\r', '\n'].intercalate (ls.map fold) ++ ['\r', '\n'] =
      Lines.text '\r' '\n' (pieces ls) := by
  rw [Lines.intercalate_text fun hmap => h (List.map_eq_nil_iff.1 hmap)]
  exact Lines.text_flatten fold_text

theorem mem_pieces {ls : List (List Char)} {c : Char} (hc : c ≠ ' ') :
    (∃ q ∈ pieces ls, c ∈ q) ↔ ∃ l ∈ ls, c ∈ l := by
  constructor
  · rintro ⟨q, hq, hmem⟩
    obtain ⟨l, hl, hq⟩ := List.mem_flatMap.1 hq
    exact ⟨l, hl, mem_foldParts.1 ((Lines.mem_physical hc).1 ⟨q, hq, hmem⟩)⟩
  · rintro ⟨l, hl, hmem⟩
    obtain ⟨q, hq, hmem⟩ := (Lines.mem_physical hc).2 (mem_foldParts.2 hmem)
    exact ⟨q, List.mem_flatMap.2 ⟨l, hl, hq⟩, hmem⟩

theorem octets_pieces (ls : List (List Char)) : ∀ q ∈ pieces ls, octets q ≤ 75 := by
  intro q hq
  obtain ⟨l, -, hq⟩ := List.mem_flatMap.1 hq
  exact (foldParts_spec l).2 q hq

/-- Unfolding gives the lines again. -/
theorem unfolded_pieces {ls : List (List Char)}
    (hstarts : ∀ l ∈ ls, ∀ c ∈ l.head?, isBlank c = false) (hreturn : ∀ l ∈ ls, '\r' ∉ l) :
    Lines.split '\r' '\n' (Lines.unfolded '\r' '\n' isBlank (Lines.text '\r' '\n' (pieces ls))) =
      ls ++ [[]] := by
  have hflat : (ls.map foldParts).map List.flatten = ls := by
    rw [List.map_map]
    exact List.map_id'' (fun l => (foldParts_spec l).1) ls
  have hpieces : pieces ls = (ls.map foldParts).flatMap (Lines.physical ' ') := by
    unfold pieces
    rw [List.flatMap_map]
  rw [hpieces, Lines.unfolded_text (by decide) rfl rfl _, hflat, Lines.split_text hreturn]
  · intro ps hps
    obtain ⟨l, hl, rfl⟩ := List.mem_map.1 hps
    exact foldParts_starts (hstarts l hl)
  · intro ps hps p hp hmem
    obtain ⟨l, hl, rfl⟩ := List.mem_map.1 hps
    exact hreturn l hl (mem_foldParts.1 ⟨p, hp, hmem⟩)

/-- What the file of a ticket is read as. -/
structure RoundTrips (input : TicketIcsInput) (now ends : JsDate) (out : List Char) : Prop where
  paired : Lines.Paired '\r' '\n' out
  octets : ∀ l ∈ Lines.split 13 10 (out.flatMap String.utf8EncodeChar), l.length ≤ 75
  whole : Lines.split 13 10 (out.flatMap String.utf8EncodeChar) =
    (Lines.split '\r' '\n' out).map fun l => l.flatMap String.utf8EncodeChar
  content : ∃ (summary description : List Char) (location : Option (List Char)),
    Lines.split '\r' '\n' (Lines.unfolded '\r' '\n' isBlank out) =
        (eventProperties input now ends summary location description).map propertyLine ++ [[]] ∧
      unescaped summary = some input.eventTitle.toList ∧
      location.map unescaped = (input.venue.filter (· ≠ "")).map (fun venue => some venue.toList) ∧
      unescaped description = some (descriptionText input)

/-- The texts have no carriage return. -/
def NoReturn (input : TicketIcsInput) : Prop :=
  '\r' ∉ input.eventTitle.toList ∧ (∀ venue ∈ input.venue, '\r' ∉ venue.toList) ∧
    '\r' ∉ input.attendeeName.toList

variable {input : TicketIcsInput} {now ends : JsDate}

theorem icsLines_ne_nil : icsLines input now ends ≠ [] := List.cons_ne_nil _ _

theorem icsLines_starts : ∀ l ∈ icsLines input now ends, ∀ c ∈ l.head?, isBlank c = false := by
  rw [icsLines_eq]
  intro l hl c hc
  obtain ⟨p, hp, rfl⟩ := List.mem_map.1 hl
  obtain ⟨-, -, hne, hstart⟩ := propertyNames_spec p.1 (name_mem p hp)
  unfold propertyLine at hc
  rw [List.head?_append_of_ne_nil _ hne] at hc
  exact hstart c hc

/-- The line ends in the lines are those in the values. -/
theorem notMem_icsLines {c : Char} (hc : c = '\r' ∨ c = '\n') (hcode : SingleLine input.code.toList)
    (hurl : SingleLine input.url.toList) : (∀ l ∈ icsLines input now ends, c ∉ l) ↔
      c ∉ esc input.eventTitle.toList ∧
        (∀ l ∈ (input.venue.filter (· ≠ "")).map fun venue => esc venue.toList, c ∉ l) ∧
          c ∉ esc (descriptionText input) := by
  have hcolon : c ≠ ':' := by
    rcases hc with rfl | rfl <;> decide
  rw [← notMem_values now ends hc hcode hurl, icsLines_eq, List.forall_mem_map]
  refine forall₂_congr fun p hp => not_congr ?_
  obtain ⟨hreturn, hfeed, -⟩ := propertyNames_spec p.1 (name_mem p hp)
  have hname : c ∉ p.1.toList := by
    rcases hc with rfl | rfl
    · exact hreturn
    · exact hfeed
  unfold propertyLine
  simp [hname, hcolon]

theorem feed_notMem_icsLines (hcode : SingleLine input.code.toList)
    (hurl : SingleLine input.url.toList) : ∀ l ∈ icsLines input now ends, '\n' ∉ l := by
  refine (notMem_icsLines (.inr rfl) hcode hurl).2 ⟨feed_notMem_esc _, fun l hl => ?_,
    feed_notMem_esc _⟩
  obtain ⟨venue, -, rfl⟩ := Option.map_eq_some_iff.1 hl
  exact feed_notMem_esc _

theorem return_notMem_icsLines (now ends : JsDate) (hcode : SingleLine input.code.toList)
    (hurl : SingleLine input.url.toList) :
    (∀ l ∈ icsLines input now ends, '\r' ∉ l) ↔ NoReturn input := by
  have hdescription : '\r' ∈ descriptionText input ↔ '\r' ∈ input.attendeeName.toList := by
    unfold descriptionText
    simp [hcode.1, hurl.1]
  rw [notMem_icsLines (.inl rfl) hcode hurl, return_mem_esc, return_mem_esc, hdescription]
  unfold NoReturn
  refine and_congr_right fun _ => and_congr_left fun _ => ?_
  constructor
  · intro h venue hvenue hmem
    have hne : venue ≠ "" := by
      rintro rfl
      exact List.not_mem_nil hmem
    refine h _ (Option.map_eq_some_iff.2 ⟨venue, ?_, rfl⟩) ((return_mem_esc _).2 hmem)
    rw [Option.mem_def.1 hvenue]
    simp [hne]
  · intro h l hl hmem
    obtain ⟨venue, hvenue, rfl⟩ := Option.map_eq_some_iff.1 hl
    exact h venue (Option.filter_eq_some_iff.1 hvenue).1 ((return_mem_esc _).1 hmem)

theorem file_roundTrips (hcode : SingleLine input.code.toList)
    (hurl : SingleLine input.url.toList) :
    RoundTrips input now ends (Lines.text '\r' '\n' (pieces (icsLines input now ends))) ↔
      NoReturn input := by
  have hfeed : ∀ q ∈ pieces (icsLines input now ends), '\n' ∉ q := by
    intro q hq hmem
    obtain ⟨l, hl, hmem⟩ := (mem_pieces (by decide)).1 ⟨q, hq, hmem⟩
    exact feed_notMem_icsLines hcode hurl l hl hmem
  rw [← return_notMem_icsLines now ends hcode hurl]
  constructor
  · intro h l hl hmem
    obtain ⟨q, hq, hmem⟩ := (mem_pieces (by decide)).2 ⟨l, hl, hmem⟩
    exact Lines.not_mem_of_paired (by decide) hfeed h.paired q hq hmem
  · intro hreturn
    have hpieces : ∀ q ∈ pieces (icsLines input now ends), '\r' ∉ q := by
      intro q hq hmem
      obtain ⟨l, hl, hmem⟩ := (mem_pieces (by decide)).1 ⟨q, hq, hmem⟩
      exact hreturn l hl hmem
    have hreturn' : String.utf8EncodeChar '\r' = [13] := rfl
    have hfeed' : String.utf8EncodeChar '\n' = [10] := rfl
    have hwhole := Lines.split_flatMap hreturn' hfeed' (fun c hc => return_notMem_encoded hc) hpieces
    refine ⟨Lines.paired_text fun q hq => ⟨hpieces q hq, hfeed q hq⟩, ?_, hwhole, ?_⟩
    · rw [hwhole, Lines.split_text hpieces]
      intro l hl
      obtain ⟨q, hq, rfl⟩ := List.mem_map.1 hl
      rw [length_encoded]
      rcases List.mem_append.1 hq with hq | hq
      · exact octets_pieces _ q hq
      · rw [List.mem_singleton.1 hq]
        decide
    · refine ⟨_, _, (input.venue.filter (· ≠ "")).map fun venue => esc venue.toList, ?_,
        unescaped_esc _, ?_, unescaped_esc _⟩
      · rw [unfolded_pieces icsLines_starts hreturn, icsLines_eq]
      · rw [Option.map_map]
        exact congrArg (Option.map · _) (funext fun venue => unescaped_esc venue.toList)

theorem icsEnd_isSome (input : TicketIcsInput) : (∃ ends, icsEnd input = some ends) ↔
    (input.endsAt = none →
      input.startsAt.time + icsDefaultDurationHours * msPerHour ≤ maxTime) := by
  unfold icsEnd
  rcases input.endsAt with _ | endsAt
  · have hlow := input.startsAt.range.1
    have hhours : icsDefaultDurationHours * msPerHour = 10800000 := rfl
    unfold addHours JsDate.ofTime
    constructor
    · rintro ⟨ends, h⟩ -
      split_ifs at h with hrange
      exact hrange.2
    · intro h
      exact ⟨_, dif_pos ⟨by omega, h rfl⟩⟩
  · exact ⟨fun _ h => absurd h (Option.some_ne_none _), fun _ => ⟨endsAt, rfl⟩⟩

/-- The file of a ticket reads back as the event it was made of just when none of its texts has a
carriage return and the event's end is a date. -/
theorem buildTicketIcs_roundTrips_iff (input : TicketIcsInput) (now : JsDate)
    (hcode : isTicketCode input.code.toList = true) (hurl : SingleLine input.url.toList) :
    (∃ (ends : JsDate) (out : List Char), icsEnd input = some ends ∧
      buildTicketIcs input now = some out ∧ RoundTrips input now ends out) ↔
    NoReturn input ∧ (input.endsAt = none →
      input.startsAt.time + icsDefaultDurationHours * msPerHour ≤ maxTime) := by
  have hline := singleLine_code hcode
  rw [← icsEnd_isSome]
  constructor
  · rintro ⟨ends, out, hends, hout, htrips⟩
    unfold buildTicketIcs at hout
    rw [hends, Option.map_some, file_text icsLines_ne_nil] at hout
    obtain rfl := Option.some.inj hout
    exact ⟨(file_roundTrips hline hurl).1 htrips, ends, hends⟩
  · rintro ⟨hreturn, ends, hends⟩
    refine ⟨ends, _, hends, ?_, (file_roundTrips hline hurl).2 hreturn⟩
    unfold buildTicketIcs
    rw [hends, Option.map_some, file_text icsLines_ne_nil]

/-- A ticket of the concert. -/
def concertTicket (title : String) : TicketIcsInput where
  code := "TKT-4H8ZP2XQ"
  eventTitle := title
  venue := some "ICCB Hall 4, Dhaka"
  startsAt := ⟨1790859600000, by decide⟩
  endsAt := none
  url := "https://echoandaura.com/tickets/TKT-4H8ZP2XQ"
  attendeeName := "Nusrat Jahan"

theorem buildTicketIcs_roundTrips_concert : ∃ (ends : JsDate) (out : List Char),
    icsEnd (concertTicket "Night 1; \n🎸") = some ends ∧
      buildTicketIcs (concertTicket "Night 1; \n🎸") ⟨0, by decide⟩ = some out ∧
        RoundTrips (concertTicket "Night 1; \n🎸") ⟨0, by decide⟩ ends out :=
  (buildTicketIcs_roundTrips_iff _ _ (by decide) ⟨by decide, by decide⟩).2
    ⟨⟨by decide, by decide, by decide⟩, fun _ => by decide⟩

/-- A carriage return in the title is written as it is, and belongs to no line end. -/
theorem buildTicketIcs_return_stays :
    (buildTicketIcs (concertTicket "Night\r1") ⟨0, by decide⟩).isSome = true ∧
      ¬ Lines.Paired '\r' '\n'
        ((buildTicketIcs (concertTicket "Night\r1") ⟨0, by decide⟩).getD []) := by
  refine ⟨by decide +kernel, fun h => ?_⟩
  exact absurd (Lines.count_of_paired (by decide) _ h) (by decide +kernel)

end Files

end EchoAndAura
