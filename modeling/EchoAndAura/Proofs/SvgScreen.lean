import EchoAndAura.Proofs.SvgWalk
import Mathlib.Algebra.Order.Ring.Rat
import Mathlib.Data.Nat.Cast.Order.Ring

/-!
# What passes the screen is clean

The walk comes back to the bottom of its stack, so the text is a forest under the rules of a clean
document (`screenSvg_clean`), sound element by element (`screenSvg_sound`), and whatever the upload
of a logo accepts is such a document or a PNG in bounds (`inspectLogo_accepted`).
-/

namespace EchoAndAura

namespace SvgScreen

open Search Nested

variable {p : Platform}

theorem skipDeclaration_eq {text rest : List Char} (h : skipDeclaration text = .ok rest) :
    ∃ declaration, text = Document.declarationText declaration ++ rest ∧
      ∀ d ∈ declaration, Document.CleanDeclaration d := by
  unfold skipDeclaration at h
  split at h
  · next c s hafter =>
    split at h
    · next hblank =>
      split at h
      · cases h
      · next declaration rest' hbreak =>
        obtain ⟨hencoding, h⟩ := rejectIf_bind.1 h
        obtain rfl := Except.ok.inj h
        refine ⟨some declaration, ?_, ?_⟩
        · rw [after_eq_some.1 hafter, breakOn_eq hbreak]
          simp only [Document.declarationText, List.append_assoc]
        · rintro d hd
          cases hd
          refine ⟨?_, breakOn_endsAt hbreak, fun e he => ?_⟩
          · have hs := breakOn_eq hbreak
            rcases declaration with _ | ⟨x, declaration⟩
            · obtain ⟨rfl, -⟩ := List.cons.inj hs
              exact absurd hblank (by decide)
            · obtain ⟨rfl, -⟩ := List.cons.inj hs
              exact ⟨c, declaration, rfl, hblank⟩
          · rw [Option.any_eq_false] at hencoding
            simpa using hencoding e he
    · obtain rfl := Except.ok.inj h
      exact ⟨none, rfl, fun d hd => by cases hd⟩
  · obtain rfl := Except.ok.inj h
    exact ⟨none, rfl, fun d hd => by cases hd⟩

/-- What passes the screen is walked from behind its declaration. -/
theorem screenSvg_walks {text : List Char} {size : Rat × Rat} (h : screenSvg p text = .ok size) :
    ∃ declaration rest, text = Document.declarationText declaration ++ rest ∧
      checkChars text = .ok () ∧ (∀ d ∈ declaration, Document.CleanDeclaration d) ∧
      walk p ⟨rest, [], none, false, 0⟩ = .ok size := by
  unfold screenSvg at h
  obtain ⟨⟨⟩, hchars, h⟩ := bind_ok.1 h
  obtain ⟨-, h⟩ := rejectIf_bind.1 h
  obtain ⟨rest, hdeclaration, h⟩ := bind_ok.1 h
  obtain ⟨declaration, htext, hdeclared⟩ := skipDeclaration_eq hdeclaration
  exact ⟨declaration, rest, htext, hchars, hdeclared, h⟩

/-- The walk that comes to the end has read a clean document. -/
theorem walk_document {declaration : Option (List Char)} {rest : List Char} {size : Rat × Rat}
    (hchars : checkChars (Document.declarationText declaration ++ rest) = .ok ())
    (hdeclared : ∀ d ∈ declaration, Document.CleanDeclaration d)
    (h : walk p ⟨rest, [], none, false, 0⟩ = .ok size) :
    ∃ d : Document, d.text = Document.declarationText declaration ++ rest ∧ d.Clean p ∧
      readViewBox p d.root.tag.read = .ok size := by
  obtain ⟨s, ⟨es, levels, hes, hsteps, hrelated⟩, hend⟩ := Loop.run_ends
    (I := fun s => ∃ es levels, rest = es.flatMap eventText ++ s.rest ∧
      (svgRules p).Steps [.outside none] es levels ∧ Related p s levels)
    (fun s s' hI hstep => by
      obtain ⟨es, levels, hes, hsteps, hrelated⟩ := hI
      obtain ⟨es', levels', hes', hsteps', hrelated'⟩ := step_advances hrelated hstep
      exact ⟨es ++ es', levels', by rw [hes, hes']; simp, hsteps.append hsteps', hrelated'⟩)
    ⟨[], [.outside none], rfl, .nil, .outside, rfl, fun _ h => by cases h⟩ h
  obtain ⟨es', t, hes', hsteps', hview⟩ := step_ends hrelated hend
  obtain ⟨content, hcontent, hreads⟩ := forest_of_steps (hsteps.append hsteps')
  obtain ⟨before, root, after, hwritten, hbefore, hroot, hsvg, hafter, rfl⟩ :=
    reads_root hreads rfl rfl
  have hbody : rest = before.flatMap Piece.text ++
      (Content.text root.content ++ after.flatMap Piece.text) := by
    rw [← hwritten, Content.text, hcontent, hes, hes', List.flatMap_append]
  have hwhole : Document.text ⟨declaration, before, root, after⟩ =
      Document.declarationText declaration ++ rest := by
    rw [hbody]
    rfl
  exact ⟨⟨declaration, before, root, after⟩, hwhole,
    ⟨by rw [hwhole]; exact hchars, hdeclared, hbefore, hroot, hsvg, hafter⟩, hview⟩

/-- A text that passes the screen is written as a clean document, and its size is the size of the
viewBox of the document's root. -/
theorem screenSvg_clean {text : List Char} {size : Rat × Rat} (h : screenSvg p text = .ok size) :
    ∃ d : Document, d.text = text ∧ d.Clean p ∧ readViewBox p d.root.tag.read = .ok size := by
  obtain ⟨declaration, rest, rfl, hchars, hdeclared, hwalk⟩ := screenSvg_walks h
  exact walk_document hchars hdeclared hwalk

/-- A platform whose letters outside ASCII are small already. -/
def plainPlatform : Platform where
  number digits := some (parseDecimal digits : Rat)
  quotient a b := if b = 0 then none else some (a / b)
  lowerCase _ c _ := [c]

def gradientLogo : List Char :=
  "<svg xmlns=\"http://www.w3.org/2000/svg\" viewBox=\"0 0 48 24\">".toList ++
    "<style>a{fill:url(#g)}</style><x:g xmlns:x=\"u\">&amp;</x:g></svg>\n".toList

theorem screenSvg_clean_gradientLogo :
    ∃ d : Document, d.text = gradientLogo ∧ d.Clean plainPlatform ∧
      readViewBox plainPlatform d.root.tag.read = .ok (48, 24) :=
  screenSvg_clean (by decide +kernel)

section Elements

theorem urlsStay_nil : UrlsStay [] := by
  intro x y target hsplit htarget
  rw [(List.append_eq_nil_iff.1 hsplit.symm).2] at htarget
  cases htarget

theorem urlsStay_style {css : List Char} (h : css = [] ∨ StyleStays p css) :
    UrlsStay (toLowerCase p css) := by
  rcases h with rfl | h
  · exact urlsStay_nil
  · exact h.written.urls

theorem StartTag.Clean.sound {above : List StartTag} {t : StartTag} {inner : Content}
    (h : t.Clean p above)
    (hcss : t.IsStyle → Content.css inner = [] ∨ StyleStays p (Content.css inner)) :
    (⟨above, t, inner⟩ : Element).Sound p where
  listed hsvg := by
    obtain ⟨uri, huri, hlisted⟩ := h.bound
    exact hlisted (Option.some.inj (huri.symm.trans hsvg))
  allowed := h.allowed
  noForeign := h.noForeign
  handlers a ha := (h.attrs a ha).handler
  links a ha := (h.attrs a ha).link
  styles a ha hstyled := urlsStay_style ((h.attrs a ha).style hstyled)
  css hstyle := urlsStay_style (hcss hstyle)

theorem Content.Clean.sound : ∀ {content : Content} {above : List StartTag},
    Content.Clean p above content → ∀ x ∈ Content.elements above content, x.Sound p
  | .nil, _, _, _, hx => by cases hx
  | .leaf (.empty t) rest, above, h, x, hx => by
    rcases List.mem_cons.1 hx with rfl | hx
    · exact StartTag.Clean.sound h.1 fun _ => .inl rfl
    · exact Content.Clean.sound h.2 x hx
  | .leaf (.chars _) _, _, h, x, hx => Content.Clean.sound h.2 x hx
  | .leaf (.comment _) _, _, h, x, hx => Content.Clean.sound h.2 x hx
  | .leaf (.cdata _) _, _, h, x, hx => Content.Clean.sound h.2 x hx
  | .leaf (.instruction _) _, _, h, x, hx => Content.Clean.sound h.2 x hx
  | .node t inner e rest, above, h, x, hx => by
    obtain ⟨htag, -, hstyle, hinner, hrest⟩ := h
    rcases List.mem_cons.1 hx with rfl | hx
    · exact htag.sound fun hs => (hstyle hs).2
    · rcases List.mem_append.1 hx with hx | hx
      · exact Content.Clean.sound hinner x hx
      · exact Content.Clean.sound hrest x hx

/-- The walk and the loop over a tag come to an end on every text, after as many rounds as they
need; and a text that passes is written as a clean document, sound in each of its elements. -/
theorem screenSvg_sound (p : Platform) :
    (WellFounded fun s' s : Scan => s.step p = .ok (.inl s')) ∧
      (∀ s, walk p s = Loop.next (walk p) (s.step p)) ∧
      (WellFounded fun t' t : TagScan => tagStep t = .ok (.inl t')) ∧
      (∀ t, readTagFrom t = Loop.next readTagFrom (tagStep t)) ∧
      ∀ text size, screenSvg p text = .ok size →
        ∃ d : Document, d.text = text ∧ d.Clean p ∧ ∀ x ∈ d.elements, x.Sound p := by
  refine ⟨step_shrinks.wellFounded, walk_eq, tagStep_shrinks.wellFounded, readTagFrom_eq,
    fun text size h => ?_⟩
  obtain ⟨declaration, rest, rfl, hchars, hdeclared, hwalk⟩ := screenSvg_walks h
  obtain ⟨d, hd, hclean, -⟩ := walk_document hchars hdeclared hwalk
  exact ⟨d, hd, hclean, hclean.root.sound⟩

theorem screenSvg_sound_gradientLogo :
    ∃ d : Document, d.text = gradientLogo ∧ d.Clean plainPlatform ∧
      ∀ x ∈ d.elements, x.Sound plainPlatform := by
  obtain ⟨-, -, -, -, hsound⟩ := screenSvg_sound plainPlatform
  exact hsound gradientLogo (48, 24) (by decide +kernel)

end Elements

/-- What the upload of a logo has passed. -/
structure Accepted (p : Platform) (bytes : List UInt8) (size : Rat × Rat) (ext : SponsorLogoExt) :
    Prop where
  nonempty : bytes ≠ []
  small : bytes.length ≤ sponsorLogoMaxBytes
  width : 0 < size.1
  height : 0 < size.2
  shape : ∃ aspect, p.quotient size.1 size.2 = some aspect ∧ aspect ≤ maxLogoAspect ∧
    ∀ least ∈ p.quotient 1 maxLogoAspect, least ≤ aspect
  svg : ext = .svg → ∃ d : Document, d.Clean p ∧
    (bytes = Utf8.encode d.text ∨ bytes = Utf8.encode (Char.ofNat 0xfeff :: d.text))
  png : ext = .png → pngSignature <+: bytes ∧
    (pngMinSide : Rat) ≤ size.1 ∧ size.1 ≤ pngMaxSide ∧
    (pngMinSide : Rat) ≤ size.2 ∧ size.2 ≤ pngMaxSide

theorem checkShape_ok {width height : Rat} (h : checkShape p width height = .ok ()) :
    ∃ aspect, p.quotient width height = some aspect ∧ aspect ≤ maxLogoAspect ∧
      ∀ least ∈ p.quotient 1 maxLogoAspect, least ≤ aspect := by
  unfold checkShape at h
  split at h
  · cases h
  · next aspect haspect =>
    rw [rejectIf_ok] at h
    simp only [decide_eq_false_iff_not, not_or, not_lt, not_exists, not_and] at h
    exact ⟨aspect, haspect, h.1, h.2⟩

theorem readViewBox_ok {attrs : List Attr} {size : Rat × Rat}
    (h : readViewBox p attrs = .ok size) :
    0 < size.1 ∧ 0 < size.2 ∧ checkShape p size.1 size.2 = .ok () := by
  unfold readViewBox at h
  split at h
  · cases h
  · dsimp only at h
    split at h
    · cases h
    · split at h
      · next width height _ =>
        obtain ⟨hpositive, h⟩ := rejectIf_bind.1 h
        obtain ⟨-, h⟩ := rejectIf_bind.1 h
        obtain ⟨⟨⟩, hshape, h⟩ := bind_ok.1 h
        obtain rfl := Except.ok.inj h
        simp only [decide_eq_false_iff_not, not_or, not_le] at hpositive
        exact ⟨hpositive.1, hpositive.2, hshape⟩
      · cases h

/-- Bytes that are read are the text, behind a byte order mark or not. -/
theorem decodeFatal_eq {bytes : List UInt8} {text : List Char}
    (h : decodeFatal bytes = some text) :
    bytes = Utf8.encode text ∨ bytes = Utf8.encode (Char.ofNat 0xfeff :: text) := by
  simp only [decodeFatal] at h
  split at h
  · next hencoded =>
    obtain rfl := Option.some.inj h
    rw [← hencoded, Utf8.decode_encode]
    split
    · next hmark =>
      right
      rcases hd : Utf8.decode bytes with _ | ⟨c, rest⟩
      · rw [hd] at hmark
        cases hmark
      · rw [hd] at hmark
        obtain rfl := Option.some.inj hmark
        rfl
    · exact .inl rfl
  · cases h

/-- Whatever the upload accepts is small, of a shape the tiles can show, and a clean document or a
PNG of a size in bounds. -/
theorem inspectLogo_accepted {bytes : List UInt8} {contentType : List Char} {size : Rat × Rat}
    {ext : SponsorLogoExt} (h : inspectLogo p bytes contentType = .ok (size, ext)) :
    Accepted p bytes size ext := by
  unfold inspectLogo at h
  split at h
  · cases h
  · next ext' _ =>
    obtain ⟨hempty, h⟩ := rejectIf_bind.1 h
    obtain ⟨hsize, h⟩ := rejectIf_bind.1 h
    have hne : bytes ≠ [] := by simpa using hempty
    have hle : bytes.length ≤ sponsorLogoMaxBytes := by simpa using hsize
    split at h
    · obtain ⟨measured, hpng, h⟩ := bind_ok.1 h
      obtain ⟨rfl, rfl⟩ := Prod.mk.inj (Except.ok.inj h)
      simp only [inspectPng, rejectIf_bind] at hpng
      obtain ⟨hsignature, -, -, hsides, hpng⟩ := hpng
      obtain ⟨⟨⟩, hshape, hpng⟩ := bind_ok.1 hpng
      obtain rfl := Except.ok.inj hpng
      simp only [decide_eq_false_iff_not, not_or, not_lt] at hsides
      obtain ⟨hwidth, hheight, hwidth', hheight'⟩ := hsides
      have hpos : (0 : Rat) < pngMinSide := by decide
      have hw : (pngMinSide : Rat) ≤ readUint32 bytes 16 := Nat.cast_le.2 hwidth
      have hh : (pngMinSide : Rat) ≤ readUint32 bytes 20 := Nat.cast_le.2 hheight
      refine ⟨hne, hle, lt_of_lt_of_le hpos hw, lt_of_lt_of_le hpos hh, checkShape_ok hshape,
        fun h => (nomatch h), fun _ => ⟨?_, hw, Nat.cast_le.2 hwidth', hh, Nat.cast_le.2 hheight'⟩⟩
      simp only [decide_eq_false_iff_not, not_or, not_not] at hsignature
      rw [← hsignature.2]
      exact List.take_prefix 8 bytes
    · obtain ⟨measured, hsvg, h⟩ := bind_ok.1 h
      obtain ⟨rfl, rfl⟩ := Prod.mk.inj (Except.ok.inj h)
      unfold inspectSvg at hsvg
      split at hsvg
      · cases hsvg
      · split at hsvg
        · cases hsvg
        · next text htext =>
          obtain ⟨declaration, rest, rfl, hchars, hdeclared, hwalk⟩ := screenSvg_walks hsvg
          obtain ⟨d, hd, hclean, hview⟩ := walk_document hchars hdeclared hwalk
          rw [← hd] at htext
          obtain ⟨hwidth, hheight, hshape⟩ := readViewBox_ok hview
          refine ⟨hne, hle, hwidth, hheight, checkShape_ok hshape, fun _ => ⟨d, hclean, ?_⟩,
            fun h => (nomatch h)⟩
          exact decodeFatal_eq htext

/-- The header of a PNG of 48 by 24 pixels. -/
def smallPng : List UInt8 :=
  pngSignature ++ [0, 0, 0, 13, 0x49, 0x48, 0x44, 0x52, 0, 0, 0, 48, 0, 0, 0, 24, 8, 6, 0, 0, 0,
    0, 0, 0, 0]

/-- The drawing above behind a byte order mark. -/
def markedSvg : List UInt8 := Utf8.encode (Char.ofNat 0xfeff :: gradientLogo)

theorem inspectLogo_accepted_both : Accepted plainPlatform smallPng (48, 24) .png ∧
    Accepted plainPlatform markedSvg (48, 24) .svg := by
  have hpng : inspectLogo plainPlatform smallPng "image/png".toList = .ok ((48, 24), .png) := by
    decide +kernel
  have hsvg : inspectLogo plainPlatform markedSvg "image/svg+xml; charset=utf-8".toList =
      .ok ((48, 24), .svg) := by
    decide +kernel
  exact ⟨inspectLogo_accepted hpng, inspectLogo_accepted hsvg⟩

end SvgScreen

end EchoAndAura
