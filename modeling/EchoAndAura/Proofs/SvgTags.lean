import EchoAndAura.SvgDocument
import Mathlib.Data.List.TakeWhile

/-!
# What the readers of the screen read

A name, an attribute and a tag are read off the front of the text, as they are written, and what is
left is what follows them; a style or an attribute that passes its check does nothing a logo has no
use for.
-/

namespace EchoAndAura

namespace SvgScreen

open Search

variable {p : Platform}

theorem bind_ok {ε α β : Type} {x : Except ε α} {f : α → Except ε β} {b : β} :
    (x >>= f) = .ok b ↔ ∃ a, x = .ok a ∧ f a = .ok b := by
  rcases x with e | a
  · exact ⟨fun h => (nomatch h), fun ⟨_, h, _⟩ => (nomatch h)⟩
  · refine ⟨fun h => ⟨a, rfl, h⟩, ?_⟩
    rintro ⟨_, h, hf⟩
    cases h
    exact hf

@[simp] theorem rejectIf_ok {b : Bool} {reason : Reason} {u : Unit} :
    rejectIf b reason = .ok u ↔ b = false := by
  cases b <;> simp [rejectIf]

theorem rejectIf_bind {b : Bool} {reason : Reason} {α : Type} {f : Unit → Except Reason α} {a : α} :
    (rejectIf b reason >>= f) = .ok a ↔ b = false ∧ f () = .ok a := by
  cases b <;> simp [rejectIf, bind, Except.bind]

theorem after_none {α : Type} [DecidableEq α] {mark s : List α}
    (h : (after mark s).isSome = false) : ¬ mark <+: s := by
  rintro ⟨rest, rfl⟩
  rw [after_eq_some.2 rfl] at h
  cases h

section Names

theorem readPart_eq {s name rest : List Char} (h : readPart s = some (name, rest)) :
    s = name ++ rest ∧ IsPart name := by
  cases s with
  | nil => cases h
  | cons c s =>
    simp only [readPart] at h
    split at h
    · next hc =>
      simp only [Option.some.injEq, Prod.mk.injEq] at h
      obtain ⟨rfl, rfl⟩ := h
      refine ⟨by rw [List.cons_append, List.takeWhile_append_dropWhile], c, _, rfl, hc, ?_⟩
      exact fun x hx => List.mem_takeWhile_imp hx
    · cases h

theorem readName_eq {s name rest : List Char} (h : readName s = some (name, rest)) :
    s = name ++ rest ∧ IsName name := by
  unfold readName at h
  split at h
  · cases h
  · next first rest' hfirst =>
    obtain ⟨hs, hpart⟩ := readPart_eq hfirst
    split at h
    · next second rest'' hsecond =>
      obtain ⟨hs', hpart'⟩ := readPart_eq hsecond
      simp only [Option.some.injEq, Prod.mk.injEq] at h
      obtain ⟨rfl, rfl⟩ := h
      exact ⟨by rw [hs, hs', List.append_assoc, List.cons_append],
        .inr ⟨first, second, hpart, hpart', rfl⟩⟩
    · simp only [Option.some.injEq, Prod.mk.injEq] at h
      obtain ⟨rfl, rfl⟩ := h
      exact ⟨hs, .inl hpart⟩
  · next first rest' _ hfirst =>
    simp only [Option.some.injEq, Prod.mk.injEq] at h
    obtain ⟨rfl, rfl⟩ := h
    obtain ⟨hs, hpart⟩ := readPart_eq hfirst
    exact ⟨hs, .inl hpart⟩

theorem skipSpace_eq (s : List Char) : ∃ space, Blank space ∧ s = space ++ skipSpace s :=
  ⟨s.takeWhile isSpace, fun _ hc => List.mem_takeWhile_imp hc,
    (List.takeWhile_append_dropWhile (p := isSpace)).symm⟩

theorem isNameChar_lt {c : Char} (h : isNameChar c = true) : c.toNat < 128 := by
  have hletter : c.isAlphanum = (decide ('A'.val ≤ c.val ∧ c.val ≤ 'Z'.val) ||
      ('a'.val ≤ c.val && c.val ≤ 'z'.val) || ('0'.val ≤ c.val && c.val ≤ '9'.val)) := rfl
  simp only [isNameChar, hletter, Bool.or_eq_true, Bool.and_eq_true, decide_eq_true_eq, beq_iff_eq,
    UInt32.le_iff_toNat_le] at h
  have hc : c.toNat = c.val.toNat := rfl
  have hZ : 'Z'.val.toNat = 90 := rfl
  have hz : 'z'.val.toNat = 122 := rfl
  have h9 : '9'.val.toNat = 57 := rfl
  rcases h with ((h | rfl) | rfl) | rfl
  · omega
  · decide
  · decide
  · decide

theorem isNameChar_of_start {c : Char} (h : isNameStart c = true) : isNameChar c = true := by
  have hletter : c.isAlphanum = (c.isAlpha || c.isDigit) := rfl
  simp only [isNameStart, isNameChar, hletter, Bool.or_eq_true, beq_iff_eq] at h ⊢
  tauto

theorem IsPart.chars {s : List Char} (h : IsPart s) : ∀ c ∈ s, isNameChar c = true := by
  obtain ⟨c, t, rfl, hc, ht⟩ := h
  intro x hx
  rcases List.mem_cons.1 hx with rfl | hx
  · exact isNameChar_of_start hc
  · exact ht x hx

theorem IsPart.colon {s : List Char} (h : IsPart s) : ':' ∉ s := fun hc =>
  absurd (h.chars ':' hc) (by decide)

theorem IsPart.ne_nil {s : List Char} (h : IsPart s) : s ≠ [] := by
  obtain ⟨c, t, rfl, -⟩ := h
  exact List.cons_ne_nil c t

theorem breakOn_not_mem {c : Char} : ∀ {s : List Char}, c ∉ s → breakOn [c] s = none
  | [], _ => rfl
  | d :: s, h => by
    rw [List.mem_cons, not_or] at h
    unfold breakOn
    simp only [after, if_neg h.1, breakOn_not_mem h.2, Option.map_none]

theorem breakOn_append {c : Char} : ∀ {s t : List Char}, c ∉ s →
    breakOn [c] (s ++ c :: t) = some (s, t)
  | [], t, _ => by simp [breakOn, after]
  | d :: s, t, h => by
    rw [List.mem_cons, not_or] at h
    rw [List.cons_append]
    unfold breakOn
    simp only [after, if_neg h.1, breakOn_append h.2, Option.map_some]

theorem splitName_part {s : List Char} (h : IsPart s) : splitName s = ([], s) := by
  unfold splitName
  rw [breakOn_not_mem h.colon]
  rfl

theorem splitName_prefixed {first second : List Char} (h : IsPart first) :
    splitName (first ++ ':' :: second) = (first, second) := by
  unfold splitName
  rw [breakOn_append h.colon]
  rfl

/-- The local name of a name is one part. -/
theorem IsName.isPart_local {s : List Char} (h : IsName s) : IsPart (splitName s).2 := by
  rcases h with h | ⟨first, second, hfirst, hsecond, rfl⟩
  · rw [splitName_part h]
    exact h
  · rw [splitName_prefixed hfirst]
    exact hsecond

theorem lowerFrom_ascii : ∀ {s before : List Char}, (∀ c ∈ s, c.toNat < 128) →
    lowerFrom p before s = s.map Char.toLower
  | [], _, _ => rfl
  | c :: s, before, h => by
    unfold lowerFrom
    rw [if_pos (h c List.mem_cons_self),
      lowerFrom_ascii fun x hx => h x (List.mem_cons_of_mem c hx)]
    rfl

/-- The names the screen reads are ASCII, and so are their small letters. -/
theorem toLowerCase_local {name : List Char} (h : IsName name) :
    toLowerCase p (splitName name).2 = localLower name :=
  lowerFrom_ascii fun c hc => isNameChar_lt (h.isPart_local.chars c hc)

end Names

section Tags

theorem readAttr_eq {t t' : TagScan} {s before : List Char} (hbefore : before ≠ [])
    (hblank : Blank before) (h : readAttr t s = .ok t') :
    ∃ w : WrittenAttr, w.WellFormed ∧ w.name ∉ t.attrs.map (·.name) ∧
      before ++ s = w.text ++ t'.rest ∧ t'.attrs = t.attrs ++ [w.read] := by
  unfold readAttr at h
  split at h
  · cases h
  · next name rest hname =>
    obtain ⟨hs, hisName⟩ := readName_eq hname
    obtain ⟨hseen, h⟩ := rejectIf_bind.1 h
    obtain ⟨beforeEquals, hbe, hrest⟩ := skipSpace_eq rest
    split at h
    · next rest₁ hequals =>
      obtain ⟨afterEquals, hae, hrest₁⟩ := skipSpace_eq rest₁
      split at h
      · next quote rest₂ hquote =>
        obtain ⟨hisQuote, h⟩ := rejectIf_bind.1 h
        split at h
        · cases h
        · next raw rest₃ hraw =>
          obtain ⟨hangle, h⟩ := rejectIf_bind.1 h
          obtain ⟨value, hvalue, h⟩ := bind_ok.1 h
          obtain rfl : (⟨t.attrs ++ [⟨name, value⟩], rest₃⟩ : TagScan) = t' := by
            simpa [pure, Except.pure] using h
          refine ⟨⟨before, name, beforeEquals, afterEquals, quote, raw⟩,
            ⟨hbefore, hblank, hisName, hbe, hae, by simpa using hisQuote, ?_,
              by simpa using hangle, value, hvalue⟩, ?_, ?_, ?_⟩
          · intro hmem
            obtain ⟨x, y, hxy⟩ := List.append_of_mem hmem
            have hend := breakOn_endsAt hraw x (y ++ [quote]) (by
              have hraw' : raw = x ++ quote :: y := hxy
              simp [hraw'])
            simp at hend
          · simpa using hseen
          · rw [hs, hrest, hequals, hrest₁, hquote, breakOn_eq hraw]
            simp [WrittenAttr.text]
          · simp only [WrittenAttr.read, hvalue]
            rfl
      · cases h
    · cases h

theorem tagStep_next {t t' : TagScan} (h : tagStep t = .ok (.inl t')) :
    ∃ w : WrittenAttr, w.WellFormed ∧ w.name ∉ t.attrs.map (·.name) ∧
      t.rest = w.text ++ t'.rest ∧ t'.attrs = t.attrs ++ [w.read] := by
  obtain ⟨space, hblank, hrest⟩ := skipSpace_eq t.rest
  unfold tagStep at h
  split at h
  · cases h
  · cases h
  · split at h
    · cases h
    · next hlen =>
      have hspace : space ≠ [] := by
        rintro rfl
        exact hlen (congrArg List.length hrest).symm
      rcases hattr : readAttr t (skipSpace t.rest) with e | r
      · rw [hattr] at h
        cases h
      · rw [hattr] at h
        obtain rfl : r = t' := by simpa [Except.map] using h
        rw [hrest]
        exact readAttr_eq hspace hblank hattr

def closeText (selfClosing : Bool) : List Char := if selfClosing then ['/', '>'] else ['>']

theorem tagStep_end {t : TagScan} {tag : ReadTag} (h : tagStep t = .ok (.inr tag)) :
    ∃ space, Blank space ∧ t.rest = space ++ (closeText tag.selfClosing ++ tag.rest) ∧
      tag.attrs = t.attrs := by
  obtain ⟨space, hblank, hrest⟩ := skipSpace_eq t.rest
  unfold tagStep at h
  split at h
  · next rest hclose =>
    obtain rfl : (⟨t.attrs, true, rest⟩ : ReadTag) = tag := by simpa using h
    exact ⟨space, hblank, by rw [hrest, hclose]; rfl, rfl⟩
  · next rest hclose =>
    obtain rfl : (⟨t.attrs, false, rest⟩ : ReadTag) = tag := by simpa using h
    exact ⟨space, hblank, by rw [hrest, hclose]; rfl, rfl⟩
  · split at h
    · cases h
    · rcases hattr : readAttr t (skipSpace t.rest) with e | r <;> rw [hattr] at h <;> cases h

theorem WrittenAttr.text_pos (w : WrittenAttr) : 0 < w.text.length := by
  simp only [WrittenAttr.text, List.length_append, List.length_cons]
  omega

theorem tagStep_shrinks : Loop.Shrinks tagStep fun t => t.rest.length := by
  intro t t' h
  obtain ⟨w, -, -, hrest, -⟩ := tagStep_next h
  show t'.rest.length < t.rest.length
  rw [hrest, List.length_append]
  have := w.text_pos
  omega

/-- The rounds a text allows are enough for its tag. -/
theorem readTagFrom_eq (t : TagScan) : readTagFrom t = Loop.next readTagFrom (tagStep t) :=
  Loop.run_eq tagStep_shrinks t

/-- What a tag's loop has read. -/
def TagSoFar (s : List Char) (t : TagScan) : Prop :=
  ∃ ws : List WrittenAttr, (∀ w ∈ ws, w.WellFormed) ∧ (ws.map (·.name)).Nodup ∧
    s = ws.flatMap WrittenAttr.text ++ t.rest ∧ t.attrs = ws.map WrittenAttr.read

theorem tagSoFar_next {s : List Char} {t t' : TagScan} (h : TagSoFar s t)
    (hstep : tagStep t = .ok (.inl t')) : TagSoFar s t' := by
  obtain ⟨ws, hws, hnodup, hs, hattrs⟩ := h
  obtain ⟨w, hw, hnew, hrest, hattrs'⟩ := tagStep_next hstep
  refine ⟨ws ++ [w], ?_, ?_, by rw [hs, hrest]; simp, by rw [hattrs', hattrs]; simp⟩
  · intro x hx
    rcases List.mem_append.1 hx with hx | hx
    · exact hws x hx
    · rw [List.mem_singleton.1 hx]
      exact hw
  · have hnames : t.attrs.map (·.name) = ws.map (·.name) := by
      rw [hattrs, List.map_map]
      rfl
    rw [List.map_append, List.nodup_append]
    refine ⟨hnodup, by simp, fun a ha b hb => ?_⟩
    rintro rfl
    rw [hnames] at hnew
    simp only [List.map_cons, List.map_nil, List.mem_singleton] at hb
    exact hnew (hb ▸ ha)

/-- A tag that is read is the tag as it is written. -/
theorem readTag_eq {name rest : List Char} {tag : ReadTag} (hname : IsName name)
    (h : readTag rest = .ok tag) :
    ∃ t : StartTag, t.WellFormed ∧ t.name = name ∧ tag.attrs = t.read ∧
      name ++ rest = t.text ++ (closeText tag.selfClosing ++ tag.rest) := by
  have hrun : Loop.run tagStep .malformed (fun t => t.rest.length) ⟨[], rest⟩ = .ok tag := h
  obtain ⟨t, ⟨ws, hws, hnodup, hs, hattrs⟩, hend⟩ :=
    Loop.run_ends (I := TagSoFar rest) (fun _ _ hI hstep => tagSoFar_next hI hstep)
      ⟨[], by simp, by simp, rfl, rfl⟩ hrun
  obtain ⟨space, hblank, hrest, hsame⟩ := tagStep_end hend
  refine ⟨⟨name, ws, space⟩, ⟨hname, hws, hnodup, hblank⟩, rfl, by rw [hsame, hattrs]; rfl, ?_⟩
  rw [hs, hrest]
  simp [StartTag.text]

end Tags

section Styles

theorem dropSpace_eq (s : List Char) :
    ∃ blank, 'u' ∉ blank ∧ s = blank ++ s.dropWhile EchoAndAura.isSpace :=
  ⟨s.takeWhile EchoAndAura.isSpace,
    fun hu => absurd (List.mem_takeWhile_imp hu) (by decide),
    (List.takeWhile_append_dropWhile (p := EchoAndAura.isSpace)).symm⟩

theorem dropQuote_eq (s : List Char) : ∃ quote, 'u' ∉ quote ∧ s = quote ++ dropQuote s := by
  rcases s with _ | ⟨c, t⟩
  · exact ⟨[], by simp, rfl⟩
  · by_cases hc : isQuote c = true
    · refine ⟨[c], ?_, by simp [dropQuote, hc]⟩
      rw [List.mem_singleton]
      rintro rfl
      exact absurd hc (by decide)
    · exact ⟨[], by simp, by simp [dropQuote, hc]⟩

theorem urlTarget_eq {s target : List Char} (h : urlTarget s = some target) :
    ∃ mid, s = 'u' :: (mid ++ target) ∧ 'u' ∉ mid := by
  unfold urlTarget at h
  split at h
  · next rest hopen =>
    simp only [Option.map_eq_some_iff] at hopen
    obtain ⟨behind, hafter, hblank⟩ := hopen
    obtain ⟨b₁, hb₁, hbehind⟩ := dropSpace_eq behind
    obtain ⟨b₂, hb₂, hrest⟩ := dropSpace_eq rest
    obtain ⟨quote, hquote, hmiddle⟩ := dropQuote_eq (rest.dropWhile EchoAndAura.isSpace)
    obtain ⟨b₃, hb₃, htarget⟩ := dropSpace_eq (dropQuote (rest.dropWhile EchoAndAura.isSpace))
    rw [Option.some.inj h] at htarget
    rw [htarget] at hmiddle
    rw [hmiddle] at hrest
    rw [hblank, hrest] at hbehind
    refine ⟨'r' :: 'l' :: (b₁ ++ '(' :: (b₂ ++ (quote ++ b₃))), ?_, by simp [hb₁, hb₂, hb₃, hquote]⟩
    rw [after_eq_some.1 hafter, hbehind]
    simp
  · cases h

theorem urlTarget_none {c : Char} {s : List Char} (h : c ≠ 'u') : urlTarget (c :: s) = none := by
  unfold urlTarget
  simp [after, Ne.symm h]

theorem urls_apart :
    Apart fun s => (urlTarget s).map fun t => (t.head?, s.length - t.length) := by
  intro s b n h k hk hkn
  simp only [Option.map_eq_some_iff, Prod.mk.injEq] at h
  obtain ⟨t, ht, -, rfl⟩ := h
  obtain ⟨mid, rfl, hmid⟩ := urlTarget_eq ht
  obtain ⟨j, rfl⟩ : ∃ j, k = j + 1 := ⟨k - 1, by omega⟩
  have hj : j < mid.length := by
    simp only [List.length_cons, List.length_append] at hkn
    omega
  rw [List.drop_succ_cons, List.drop_append_of_le_length (Nat.le_of_lt hj),
    List.drop_eq_getElem_cons hj, List.cons_append]
  have hnone : urlTarget (mid[j] :: (mid.drop (j + 1) ++ t)) = none :=
    urlTarget_none fun hu => hmid (hu ▸ List.getElem_mem hj)
  simp only [hnone, Option.map_none]

theorem urlsStay_of_urls {css : List Char} (h : (urls css).any (· ≠ some '#') = false) :
    UrlsStay css := by
  intro x y target hcss htarget
  have hy : y ≠ [] := by
    rintro rfl
    cases htarget
  have hmem := mem_segments urls_apart (k := 0) (b := target.head?) (n := y.length - target.length)
    (fun i hi => absurd hi (Nat.not_lt_zero i)) hcss hy (by simp only [htarget, Option.map_some])
  by_contra hne
  rw [List.any_eq_false] at h
  refine h target.head? ?_ (by simpa using hne)
  unfold urls
  rw [List.mem_filterMap]
  exact ⟨_, hmem, rfl⟩

theorem forbiddenAt_of_from : ∀ {css : List Char} {before : Option Char},
    forbiddenFrom before css = false → ∀ {x y : List Char}, css = x ++ y → y ≠ [] →
      forbiddenAt (x.getLast?.or before) y = false
  | [], _, _, x, y, hcss, hy => by
    rw [(List.append_eq_nil_iff.1 hcss.symm).2] at hy
    exact absurd rfl hy
  | c :: s, before, h, x, y, hcss, hy => by
    simp only [forbiddenFrom, Bool.or_eq_false_iff] at h
    cases x with
    | nil =>
      rw [List.nil_append] at hcss
      rw [← hcss]
      exact h.1
    | cons d x =>
      obtain ⟨rfl, hs⟩ := List.cons.inj hcss
      have ih := forbiddenAt_of_from h.2 hs hy
      rw [List.getLast?_cons]
      cases hx : x.getLast? <;> simpa [hx] using ih

theorem checkView_stays {css : List Char} (h : checkView .stylesheet css = .ok ()) :
    CssStays css := by
  simp only [checkView, rejectIf_bind, rejectIf_ok] at h
  obtain ⟨hhtml, hwords, hurls⟩ := h
  refine ⟨urlsStay_of_urls hurls, fun x y hcss hy => ?_, occurs_eq_false (by simpa using hhtml)⟩
  have hforbidden : cssForbidden css = false := by simpa using hwords
  have := forbiddenAt_of_from hforbidden hcss hy
  simpa using this

theorem checkCss_stylesheet {css : List Char} (h : checkCss p .stylesheet css = .ok ()) :
    css = [] ∨ StyleStays p css := by
  unfold checkCss at h
  split at h
  · next hempty => exact .inl (by simpa using hempty)
  · rw [rejectIf_bind] at h
    obtain ⟨hplain, h⟩ := h
    obtain ⟨⟨⟩, hwritten, hbare⟩ := bind_ok.1 h
    exact .inr ⟨by simpa using hplain, checkView_stays hwritten, checkView_stays hbare⟩

theorem checkCss_value {css : List Char} (h : checkCss p .value css = .ok ()) :
    UrlsStay (decodeCssEscapes (toLowerCase p css)) := by
  unfold checkCss at h
  split at h
  · next hempty =>
    obtain rfl : css = [] := by simpa using hempty
    intro x y target hcss htarget
    obtain ⟨-, rfl⟩ := List.append_eq_nil_iff.1 hcss.symm
    cases htarget
  · rw [rejectIf_bind] at h
    have hview := h.2
    simp only [checkView, rejectIf_bind, rejectIf_ok] at hview
    exact urlsStay_of_urls hview.2.2

end Styles

section Attributes

theorem embeddedImage_eq {v : List Char} (h : embeddedImage v = true) : EmbeddedImage v := by
  unfold embeddedImage at h
  rw [List.any_eq_true] at h
  obtain ⟨kind, hkind, h⟩ := h
  rw [Option.any_eq_true] at h
  obtain ⟨rest, hrest, h⟩ := h
  refine ⟨kind, hkind, rest.takeWhile isBase64Char, rest.dropWhile isBase64Char, ?_,
    fun c hc => List.mem_takeWhile_imp hc, List.contains_iff_mem.1 h⟩
  rw [List.takeWhile_append_dropWhile, after_eq_some.1 hrest]
  simp only [List.append_assoc]

theorem checkAttr_clean {a : Attr} (hname : IsName a.name) (h : checkAttr p a = .ok ()) :
    a.Clean p := by
  simp only [checkAttr, rejectIf_bind, toLowerCase_local hname] at h
  obtain ⟨hhandler, hhtml, hscript, hlink, hcss⟩ := h
  have hnone : ∀ scheme ∈ scriptSchemes, occurs scheme (compact p a.value) = false := by
    intro scheme hscheme
    rw [List.any_eq_false] at hscript
    simpa using hscript scheme hscheme
  refine ⟨after_none hhandler, occurs_eq_false hhtml,
    fun scheme hscheme => occurs_eq_false (hnone scheme hscheme), fun hhref => ?_, ?_, ?_⟩
  · simp only [decide_eq_false_iff_not, not_and, not_not] at hlink
    by_cases hempty : compact p a.value = []
    · exact .inl hempty
    by_cases hhash : (compact p a.value).head? = some '#'
    · exact .inr (.inl hhash)
    · exact .inr (.inr (embeddedImage_eq (hlink hhref hempty hhash)))
  · intro hstyled
    unfold Attr.Styled at hstyled
    rw [if_pos hstyled] at hcss
    exact checkCss_stylesheet hcss
  · intro hstyled
    unfold Attr.Styled at hstyled
    rw [if_neg hstyled] at hcss
    exact checkCss_value hcss

end Attributes

section Namespaces

/-- A declaration is written in one way. -/
theorem declared_injective {n m pre : List Char} (hn : IsName n) (hm : IsName m)
    (hdn : declared n = some pre) (hdm : declared m = some pre) : n = m := by
  have hspells : ∀ {k : List Char}, IsName k → declared k = some pre →
      k = if pre = [] then "xmlns".toList else "xmlns".toList ++ ':' :: pre := by
    intro k hk hdk
    unfold declared at hdk
    split at hdk
    · next heq =>
      rw [← Option.some.inj hdk, if_pos rfl, heq]
    · split at hdk
      · next hpre =>
        obtain rfl := Option.some.inj hdk
        rw [if_neg hk.isPart_local.ne_nil]
        rcases hk with hk | ⟨first, second, hfirst, -, rfl⟩
        · rw [splitName_part hk] at hpre
          have hxmlns : ([] : List Char) ≠ "xmlns".toList := by decide
          exact absurd hpre hxmlns
        · rw [splitName_prefixed hfirst] at hpre ⊢
          rw [← hpre]
      · cases hdk
  rw [hspells hn hdn, hspells hm hdm]

/-- What a declaration has passed. -/
structure Declaration (p : Platform) (pre uri : List Char) : Prop where
  foreign : ¬ xhtmlNs <:+: toLowerCase p uri ∧ ¬ mathmlNs <:+: toLowerCase p uri
  default : pre = [] → uri = svgNs

/-- The latest declaration of a prefix on one element is its only one. -/
def lookupDeclared (attrs : List Attr) (pre : List Char) : Option (List Char) :=
  (attrs.find? fun a => declared a.name = some pre).map (·.value)

theorem declare_eq {isRoot : Bool} {acc acc' : Scope × Nat} {a : Attr}
    (h : declare p isRoot acc a = .ok acc') :
    (declared a.name = none ∧ acc' = acc) ∨ ∃ pre, declared a.name = some pre ∧
      acc'.1 = (pre, a.value) :: acc.1 ∧ Declaration p pre a.value := by
  unfold declare at h
  split at h
  · next hnone => exact .inl ⟨hnone, (Except.ok.inj h).symm⟩
  · next pre hpre =>
    simp only [rejectIf_bind] at h
    obtain ⟨hforeign, hdefault, -, -, h⟩ := h
    simp only [decide_eq_false_iff_not, not_or, Bool.not_eq_true] at hforeign
    refine .inr ⟨pre, hpre, by rw [← Except.ok.inj h], ⟨?_, ?_⟩, fun hnil => ?_⟩
    · exact occurs_eq_false hforeign.1
    · exact occurs_eq_false hforeign.2
    · simp only [decide_eq_false_iff_not, not_and, not_not] at hdefault
      exact hdefault hnil

theorem declare_all {isRoot : Bool} : ∀ {attrs : List Attr} {acc acc' : Scope × Nat},
    (∀ a ∈ attrs, IsName a.name) → (attrs.map (·.name)).Nodup →
    attrs.foldlM (declare p isRoot) acc = .ok acc' →
      (∀ pre, acc'.1.lookup pre = (lookupDeclared attrs pre).or (acc.1.lookup pre)) ∧
        ∀ pre uri, lookupDeclared attrs pre = some uri → Declaration p pre uri
  | [], acc, acc', _, _, h => by
    obtain rfl := Except.ok.inj h
    exact ⟨fun _ => rfl, fun _ _ h => by cases h⟩
  | a :: attrs, acc, acc', hnames, hnodup, h => by
    rw [List.foldlM_cons, bind_ok] at h
    obtain ⟨acc₁, ha, hrest⟩ := h
    rw [List.map_cons, List.nodup_cons] at hnodup
    obtain ⟨hscope, hclean⟩ := declare_all (fun b hb => hnames b (List.mem_cons_of_mem a hb))
      hnodup.2 hrest
    obtain ⟨hnone, rfl⟩ | ⟨q, hq, hacc, hdeclaration⟩ := declare_eq ha
    · have hskip : ∀ pre, lookupDeclared (a :: attrs) pre = lookupDeclared attrs pre := by
        intro pre
        simp [lookupDeclared, hnone]
      refine ⟨fun pre => by rw [hskip, hscope], fun pre uri h => hclean pre uri (hskip pre ▸ h)⟩
    · have hlater : lookupDeclared attrs q = none := by
        unfold lookupDeclared
        rw [Option.map_eq_none_iff, List.find?_eq_none]
        intro b hb hbq
        have hsame := declared_injective (hnames a List.mem_cons_self)
          (hnames b (List.mem_cons_of_mem a hb)) hq (by simpa using hbq)
        exact hnodup.1 (hsame ▸ List.mem_map_of_mem hb)
      have hfirst : ∀ pre, lookupDeclared (a :: attrs) pre =
          if pre = q then some a.value else lookupDeclared attrs pre := by
        intro pre
        by_cases hpre : pre = q
        · simp [lookupDeclared, hq, hpre]
        · simp [lookupDeclared, hq, hpre, Ne.symm hpre]
      refine ⟨fun pre => ?_, fun pre uri h => ?_⟩
      · rw [hscope, hfirst, hacc, List.lookup_cons]
        by_cases hpre : pre = q
        · subst hpre
          simp [hlater]
        · rw [if_neg hpre, beq_eq_false_iff_ne.2 hpre]
      · rw [hfirst] at h
        split at h
        · next hpre =>
          rw [hpre, ← Option.some.inj h]
          exact hdeclaration
        · exact hclean pre uri h

end Namespaces

end SvgScreen

end EchoAndAura
