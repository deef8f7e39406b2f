import EchoAndAura.Proofs.SvgTags

/-!
# The walk under the rules of a document

The walk keeps a stack of open elements.  Beside it stands a stack of levels, each with the tags
around a place of the text, which follows the rules of a clean document.  The rules along a forest
make a clean document (`reads_root`), and every round of the walk takes the levels through what it
reads (`step_advances`, `step_ends`).  No round leaves as much of the text as it found (`walk_eq`).
-/

namespace EchoAndAura

namespace SvgScreen

open Search Nested

variable {p : Platform}

/-- Where a place of the text is: outside the root, which may be closed already, or inside an
element, with the style text read in it so far. -/
inductive Level
  | outside (root : Option StartTag)
  | inside (tag : StartTag) (above : List StartTag) (css : List Char)

namespace Level

/-- The tags around the place, innermost first. -/
def path : Level → List StartTag
  | .outside _ => []
  | .inside tag above _ => tag :: above

/-- An element may open here. -/
def Admits : Level → StartTag → Prop
  | .outside root, t => root = none ∧ t.IsSvg
  | .inside tag _ _, _ => ¬ tag.IsStyle

def Opens (p : Platform) (l : Level) (t : StartTag) : Prop := l.Admits t ∧ t.Clean p l.path

/-- The level once an element in it is closed. -/
def closed (t : StartTag) : Level → Level
  | .outside _ => .outside (some t)
  | l => l

/-- A piece that is no element may stand here. -/
def Passes (p : Platform) : Level → Piece → Prop
  | .outside _, piece => piece.Misc p
  | .inside tag above _, piece => piece.Clean p (tag :: above) ∧ ∀ t, piece ≠ .empty t

def read (piece : Piece) : Level → Level
  | .outside root => .outside root
  | .inside tag above css => .inside tag above (css ++ piece.css)

end Level

def svgRules (p : Platform) : Rules StartTag EndTag Piece Level where
  enter l t l' := l.Opens p t ∧ l' = .inside t l.path []
  leave l inner e l' := ∃ t above css, inner = .inside t above css ∧ e.Closes t ∧
    (t.IsStyle → css = [] ∨ StyleStays p css) ∧ l' = l.closed t
  pass l piece l' := (∃ t, piece = .empty t ∧ l.Opens p t ∧ l' = l.closed t) ∨
    (l.Passes p piece ∧ l' = l.read piece)

section Documents

theorem Piece.Misc.not_empty {piece : Piece} (h : piece.Misc p) (t : StartTag) :
    piece ≠ .empty t := by
  rintro rfl
  exact h

theorem content_text_leaf (piece : Piece) (rest : Content) :
    Content.text (.leaf piece rest) = piece.text ++ Content.text rest := by
  simp [Content.text, Forest.events, eventText]

theorem content_text_node (t : StartTag) (inner : Content) (e : EndTag) (rest : Content) :
    Content.text (.node t inner e rest) =
      Content.text (.node t inner e .nil) ++ Content.text rest := by
  simp [Content.text, Forest.events]

/-- Inside an element the content is clean, and adds its style text. -/
theorem reads_inside {l l' : Level} {content : Content} (h : (svgRules p).Reads l content l') :
    ∀ {tag above css}, l = .inside tag above css →
      l' = .inside tag above (css ++ Content.css content) ∧
        Content.Clean p (tag :: above) content ∧
        (tag.IsStyle → Content.NoElements content) := by
  induction h with
  | nil =>
    rintro tag above css rfl
    exact ⟨by simp [Content.css], trivial, fun _ => trivial⟩
  | @leaf l piece l₁ rest l' hpass _ ih =>
    rintro tag above css rfl
    obtain ⟨t, rfl, ⟨hadmits, hclean⟩, rfl⟩ | ⟨hpasses, rfl⟩ := hpass
    · obtain ⟨rfl, hrest, -⟩ := ih rfl
      exact ⟨rfl, ⟨hclean, hrest⟩, fun hstyle => absurd hstyle hadmits⟩
    · obtain ⟨rfl, hrest, hnone⟩ := ih rfl
      refine ⟨by simp [Content.css], ⟨hpasses.1, hrest⟩, fun hstyle => ⟨hpasses.2, hnone hstyle⟩⟩
  | @node l t l₁ inner l₂ e l₃ rest l' henter _ hleave _ ihInner ihRest =>
    rintro tag above css rfl
    obtain ⟨⟨hadmits, hclean⟩, rfl⟩ := henter
    obtain ⟨rfl, hinner, hnone⟩ := ihInner rfl
    obtain ⟨_, _, _, heq, hcloses, hstyle, rfl⟩ := hleave
    cases heq
    obtain ⟨rfl, hrest, -⟩ := ihRest rfl
    refine ⟨rfl, ⟨hclean, hcloses, fun h => ⟨hnone h, ?_⟩, hinner, hrest⟩,
      fun h => absurd h hadmits⟩
    simpa using hstyle h

/-- Once the root is closed only misc pieces follow. -/
theorem reads_after {l l' : Level} {content : Content} (h : (svgRules p).Reads l content l') :
    ∀ {t}, l = .outside (some t) → l' = .outside (some t) ∧ ∃ after : List Piece,
      Content.text content = after.flatMap Piece.text ∧ ∀ piece ∈ after, piece.Misc p := by
  induction h with
  | nil =>
    rintro t rfl
    exact ⟨rfl, [], rfl, by simp⟩
  | @leaf l piece l₁ rest l' hpass _ ih =>
    rintro t rfl
    obtain ⟨_, -, ⟨hadmits, -⟩, -⟩ | ⟨hpasses, rfl⟩ := hpass
    · cases hadmits.1
    · obtain ⟨hl, after, htext, hafter⟩ := ih rfl
      refine ⟨hl, piece :: after, by rw [content_text_leaf, htext]; rfl, ?_⟩
      rintro x hx
      rcases List.mem_cons.1 hx with rfl | hx
      · exact hpasses
      · exact hafter x hx
  | node henter =>
    rintro t rfl
    cases henter.1.1.1

/-- A forest read outside, from no root to a root. -/
theorem reads_root {l l' : Level} {content : Content} (h : (svgRules p).Reads l content l') :
    ∀ {t}, l = .outside none → l' = .outside (some t) →
      ∃ (before : List Piece) (root : Root) (after : List Piece),
      Content.text content = before.flatMap Piece.text ++
        (Content.text root.content ++ after.flatMap Piece.text) ∧
      (∀ piece ∈ before, piece.Misc p) ∧ Content.Clean p [] root.content ∧ root.tag.IsSvg ∧
      (∀ piece ∈ after, piece.Misc p) ∧ root.tag = t := by
  induction h with
  | nil =>
    rintro t rfl h
    cases h
  | @leaf l piece l₁ rest l' hpass hreads ih =>
    rintro t rfl rfl
    obtain ⟨u, rfl, ⟨hadmits, hclean⟩, rfl⟩ | ⟨hpasses, rfl⟩ := hpass
    · obtain ⟨hl, after, htext, hafter⟩ := reads_after hreads rfl
      refine ⟨[], .empty u, after, ?_, by simp, ⟨hclean, trivial⟩, hadmits.2, hafter, ?_⟩
      · rw [content_text_leaf, htext, Root.content, content_text_leaf]
        simp [Content.text, Forest.events]
      · exact (Option.some.inj (Level.outside.inj hl)).symm
    · obtain ⟨before, root, after, htext, hbefore, h⟩ := ih rfl rfl
      refine ⟨piece :: before, root, after, ?_, ?_, h⟩
      · rw [content_text_leaf, htext, List.flatMap_cons, List.append_assoc]
      · rintro x hx
        rcases List.mem_cons.1 hx with rfl | hx
        · exact hpasses
        · exact hbefore x hx
  | @node l u l₁ inner l₂ e l₃ rest l' henter hinner hleave hrest _ _ =>
    rintro t rfl rfl
    obtain ⟨⟨hadmits, hclean⟩, rfl⟩ := henter
    obtain ⟨rfl, hcontent, hnone⟩ := reads_inside hinner rfl
    obtain ⟨_, _, _, heq, hcloses, hstyle, rfl⟩ := hleave
    cases heq
    obtain ⟨hl, after, htext, hafter⟩ := reads_after hrest rfl
    refine ⟨[], .element u inner e, after, ?_, by simp, ?_, hadmits.2, hafter, ?_⟩
    · rw [content_text_node, htext]
      rfl
    · refine ⟨hclean, hcloses, fun h => ⟨hnone h, ?_⟩, hcontent, trivial⟩
      simpa using hstyle h
    · exact (Option.some.inj (Level.outside.inj hl)).symm

end Documents

section Walk

/-- An open element beside its level. -/
structure Stands (p : Platform) (e : OpenElement) (tag : StartTag) (above : List StartTag)
    (css : List Char) : Prop where
  qname : e.qname = tag.name
  scope : ∀ pre, e.scope.lookup pre = resolve (tag :: above) pre
  noForeign : NoForeign p (tag :: above)
  style : e.isStyle = true ↔ tag.IsStyle
  css : e.isStyle = true → e.css = css

/-- The stack of the walk beside the levels. -/
inductive Follows (p : Platform) : List OpenElement → List Level → Prop
  | outside {root} : Follows p [] [.outside root]
  | inside {e stack tag l levels css} : Stands p e tag l.path css → Follows p stack (l :: levels) →
      Follows p (e :: stack) (.inside tag l.path css :: l :: levels)

/-- The root that is closed. -/
def closedRoot : List Level → Option StartTag
  | [] => none
  | .outside root :: _ => root
  | .inside .. :: levels => closedRoot levels

/-- The root that has been opened. -/
def rootTag : List Level → Option StartTag
  | [] => none
  | .outside root :: _ => root
  | .inside tag [] _ :: _ => some tag
  | .inside _ (_ :: _) _ :: levels => rootTag levels

structure Related (p : Platform) (s : Scan) (levels : List Level) : Prop where
  follows : Follows p s.stack levels
  closed : s.rootClosed = (closedRoot levels).isSome
  size : ∀ size, s.size = some size →
    ∃ t, rootTag levels = some t ∧ readViewBox p t.read = .ok size

/-- One event read off the front takes the levels along with the walk. -/
def Advances (p : Platform) (text : List Char) (levels : List Level) (s : Scan) : Prop :=
  ∃ e levels', text = eventText e ++ s.rest ∧ (svgRules p).Step levels e levels' ∧
    Related p s levels'

/-- The prefix `xml` means neither HTML nor MathML. -/
theorem noForeign_nil : NoForeign p [] := by
  have hxml : (∀ c ∈ xmlNs, c.toNat < 128) ∧ ¬ xhtmlNs <:+: xmlNs.map Char.toLower ∧
      ¬ mathmlNs <:+: xmlNs.map Char.toLower := by decide +kernel
  intro pre uri h
  have huri : uri = xmlNs := by
    unfold resolve rootScope at h
    rw [List.lookup_cons, List.lookup_nil] at h
    split at h
    · exact (Option.some.inj h).symm
    · cases h
  have hlower : toLowerCase p uri = xmlNs.map Char.toLower := by
    rw [huri]
    exact lowerFrom_ascii hxml.1
  rw [hlower]
  exact hxml.2

variable {s s' : Scan} {l : Level} {levels : List Level} {piece : Piece} {body : List Char}

theorem Follows.top {stack : List OpenElement} (h : Follows p stack levels) :
    ∃ l below, levels = l :: below := by
  cases h with
  | outside => exact ⟨_, _, rfl⟩
  | inside => exact ⟨_, _, rfl⟩

/-- What the walk knows of the prefixes around a place. -/
theorem Follows.scope {stack : List OpenElement} (h : Follows p stack (l :: levels)) :
    (∀ pre, ((stack.head?.map (·.scope)).getD rootScope).lookup pre = resolve l.path pre) ∧
      NoForeign p l.path := by
  cases h with
  | outside => exact ⟨fun _ => rfl, noForeign_nil⟩
  | inside hstands => exact ⟨hstands.scope, hstands.noForeign⟩

theorem addCss_nil (stack : List OpenElement) : Scan.addCss [] stack = stack := by
  cases stack with
  | nil => rfl
  | cons top stack => simp [Scan.addCss]

theorem Stands.addCss {e : OpenElement} {tag : StartTag} {above : List StartTag}
    {css : List Char} (h : Stands p e tag above css) (text : List Char) :
    Stands p (if e.isStyle then { e with css := e.css ++ text } else e) tag above
      (css ++ text) := by
  by_cases hstyle : e.isStyle = true
  · rw [if_pos hstyle]
    exact ⟨h.qname, h.scope, h.noForeign, h.style, fun _ => by rw [h.css hstyle]⟩
  · rw [if_neg hstyle]
    exact ⟨h.qname, h.scope, h.noForeign, h.style, fun hs => absurd hs hstyle⟩

theorem rootTag_read (piece : Piece) (l : Level) (levels : List Level) :
    rootTag (l.read piece :: levels) = rootTag (l :: levels) := by
  rcases l with root | ⟨tag, _ | ⟨t, above⟩, css⟩ <;> rfl

theorem closedRoot_read (piece : Piece) (l : Level) (levels : List Level) :
    closedRoot (l.read piece :: levels) = closedRoot (l :: levels) := by
  rcases l with root | ⟨tag, above, css⟩ <;> rfl

/-- A piece that is no element leaves the walk where it is, but for the style text. -/
theorem Related.read (h : Related p s (l :: levels))
    (hstack : s'.stack = Scan.addCss piece.css s.stack) (hsize : s'.size = s.size)
    (hclosed : s'.rootClosed = s.rootClosed) : Related p s' (l.read piece :: levels) := by
  refine ⟨?_, by rw [hclosed, h.closed, closedRoot_read], fun size hs => ?_⟩
  · have hfollows := h.follows
    rw [hstack]
    generalize s.stack = stack at hfollows
    cases hfollows with
    | outside => exact .outside
    | inside hstands hbelow => exact .inside (hstands.addCss piece.css) hbelow
  · rw [rootTag_read]
    exact h.size size (hsize ▸ hs)

theorem Level.passes_misc (hmisc : piece.Misc p) (hclean : ∀ above, piece.Clean p above) :
    ∀ l : Level, l.Passes p piece
  | .outside _ => hmisc
  | .inside _ _ _ => ⟨hclean _, hmisc.not_empty⟩

theorem Level.Passes.step {below : List Level} (h : l.Passes p piece) :
    (svgRules p).Step (l :: below) (.leaf piece) (l.read piece :: below) :=
  Rules.Step.pass (R := svgRules p) (Or.inr ⟨h, rfl⟩)

theorem comment_advances (h : Related p s levels) (hc : s.comment body = .ok s') :
    Advances p (['<', '!', '-', '-'] ++ body) levels s' := by
  obtain ⟨l, below, rfl⟩ := h.follows.top
  unfold Scan.comment at hc
  split at hc
  · cases hc
  · next text rest hbody =>
    obtain rfl := Except.ok.inj hc
    have hend := breakOn_endsAt hbody
    have hmisc : (Piece.comment text).Misc p := hend
    have hclean : ∀ above, (Piece.comment text).Clean p above := fun _ => hend
    have hpasses := Level.passes_misc hmisc hclean l
    refine ⟨.leaf (.comment text), _, ?_, hpasses.step, h.read ?_ rfl rfl⟩
    · rw [breakOn_eq hbody]
      simp only [eventText, Piece.text, List.append_assoc]
    · exact (addCss_nil s.stack).symm

theorem instruction_advances (h : Related p s levels) (hc : s.instruction p body = .ok s') :
    Advances p (['<', '?'] ++ body) levels s' := by
  obtain ⟨l, below, rfl⟩ := h.follows.top
  unfold Scan.instruction at hc
  split at hc
  · cases hc
  · next text rest hbody =>
    obtain ⟨htarget, hc⟩ := rejectIf_bind.1 hc
    obtain rfl := Except.ok.inj hc
    have hboth : EndsAt ['?', '>'] text ∧ CleanInstruction p text :=
      ⟨breakOn_endsAt hbody, after_none htarget⟩
    have hmisc : (Piece.instruction text).Misc p := hboth
    have hclean : ∀ above, (Piece.instruction text).Clean p above := fun _ => hboth
    have hpasses := Level.passes_misc hmisc hclean l
    refine ⟨.leaf (.instruction text), _, ?_, hpasses.step, h.read ?_ rfl rfl⟩
    · rw [breakOn_eq hbody]
      simp only [eventText, Piece.text, List.append_assoc]
    · exact (addCss_nil s.stack).symm

theorem cdata_advances (h : Related p s levels) (hc : s.cdata body = .ok s') :
    Advances p (['<', '!', '[', 'C', 'D', 'A', 'T', 'A', '['] ++ body) levels s' := by
  obtain ⟨l, below, rfl⟩ := h.follows.top
  unfold Scan.cdata at hc
  split at hc
  · cases hc
  · next text rest hbody =>
    obtain ⟨hopen, hc⟩ := rejectIf_bind.1 hc
    obtain rfl := Except.ok.inj hc
    have hpasses : l.Passes p (.cdata text) := by
      have hfollows := h.follows
      generalize s.stack = stack at hfollows hopen
      cases hfollows with
      | outside => simp at hopen
      | inside => exact ⟨breakOn_endsAt hbody, fun _ => by simp⟩
    refine ⟨.leaf (.cdata text), _, ?_, hpasses.step, h.read rfl rfl rfl⟩
    rw [breakOn_eq hbody]
    simp only [eventText, Piece.text, List.append_assoc]

/-- The text up to the next tag. -/
theorem text_advances {chunk : List Char} (h : Related p s levels) (hchunk : '<' ∉ chunk)
    (hc : s.text chunk = .ok s') :
    ∃ es levels', chunk = es.flatMap eventText ∧ (svgRules p).Steps levels es levels' ∧
      Related p s' levels' := by
  obtain ⟨l, below, rfl⟩ := h.follows.top
  unfold Scan.text at hc
  split at hc
  · next hempty =>
    obtain rfl := Except.ok.inj hc
    exact ⟨[], _, by simpa using hempty, .nil, h⟩
  · split at hc
    · next hstack =>
      obtain ⟨hblank, hc⟩ := rejectIf_bind.1 hc
      obtain rfl := Except.ok.inj hc
      have hpasses : l.Passes p (.chars chunk) := by
        have hfollows := h.follows
        generalize s.stack = stack at hfollows hstack
        cases hfollows with
        | outside => exact ⟨hchunk, by simpa using hblank⟩
        | inside => simp at hstack
      refine ⟨[.leaf (.chars chunk)], _, (List.append_nil chunk).symm, hpasses.step.steps,
        h.read ?_ rfl rfl⟩
      have hnil : s.stack = [] := by simpa using hstack
      rw [hnil]
      rfl
    · next hstack =>
      obtain ⟨decoded, hdecoded, hc⟩ := bind_ok.1 hc
      obtain rfl := Except.ok.inj hc
      have hpasses : l.Passes p (.chars chunk) := by
        have hfollows := h.follows
        generalize s.stack = stack at hfollows hstack
        cases hfollows with
        | outside => simp at hstack
        | inside => exact ⟨⟨hchunk, decoded, hdecoded⟩, fun _ => by simp⟩
      refine ⟨[.leaf (.chars chunk)], _, (List.append_nil chunk).symm, hpasses.step.steps,
        h.read ?_ rfl rfl⟩
      simp only [Piece.css, hdecoded]
      rfl

theorem endTag_advances (h : Related p s levels) (hc : s.endTag p body = .ok s') :
    Advances p ('<' :: '/' :: body) levels s' := by
  unfold Scan.endTag at hc
  split at hc
  · cases hc
  · next name rest hname =>
    obtain ⟨space, hblank, hrest⟩ := skipSpace_eq rest
    split at hc
    · next rest' top stack hclose hstack =>
      obtain ⟨hqname, hc⟩ := rejectIf_bind.1 hc
      obtain ⟨⟨⟩, hcss, hc⟩ := bind_ok.1 hc
      obtain rfl := Except.ok.inj hc
      have hfollows := h.follows
      rw [hstack] at hfollows
      cases hfollows with
      | @inside _ _ tag l below css hstands hbelow =>
        refine ⟨.closing ⟨name, space⟩, l.closed tag :: below, ?_, .leave ?_, ?_, ?_, ?_⟩
        · rw [(readName_eq hname).1, hrest, hclose]
          simp only [eventText, List.append_assoc, List.cons_append, List.nil_append]
        · refine ⟨tag, l.path, css, rfl, ⟨?_, hblank⟩, fun hstyle => ?_, rfl⟩
          · have hsame : top.qname = name := by simpa using hqname
            rw [← hsame, hstands.qname]
          · have htop := hstands.style.2 hstyle
            rw [Scan.checkStyle, if_pos htop] at hcss
            rw [← hstands.css htop]
            exact checkCss_stylesheet hcss
        · cases hbelow with
          | outside => exact .outside
          | inside hstands' hbelow' => exact .inside hstands' hbelow'
        · have hclosed := h.closed
          cases hbelow with
          | outside => rfl
          | inside => simpa [closedRoot, Level.closed] using hclosed
        · intro size hsize
          obtain ⟨t, ht, hview⟩ := h.size size hsize
          refine ⟨t, ?_, hview⟩
          cases hbelow with
          | outside => exact ht
          | inside => exact ht
    · cases hc

theorem checkAttrs_ok {scope : Scope} : ∀ {attrs : List Attr}, checkAttrs p scope attrs = .ok () →
    ∀ a ∈ attrs, checkAttr p a = .ok () ∧ ((splitName a.name).1 = [] ∨
      (splitName a.name).1 = "xmlns".toList ∨ (scope.lookup (splitName a.name).1).isSome)
  | [], _, a, ha => by cases ha
  | b :: attrs, h, a, ha => by
    simp only [checkAttrs, rejectIf_bind] at h
    obtain ⟨hpre, h⟩ := h
    obtain ⟨⟨⟩, hattr, hrest⟩ := bind_ok.1 h
    rcases List.mem_cons.1 ha with rfl | ha
    · refine ⟨hattr, ?_⟩
      simp only [decide_eq_false_iff_not, not_and] at hpre
      by_cases hnil : (splitName a.name).1 = []
      · exact .inl hnil
      by_cases hxmlns : (splitName a.name).1 = "xmlns".toList
      · exact .inr (.inl hxmlns)
      · exact .inr (.inr (Option.isSome_iff_ne_none.2 (hpre hnil hxmlns)))
    · exact checkAttrs_ok hrest a ha

/-- The prefixes inside a tag that has been read. -/
theorem noForeign_cons {t : StartTag} {above : List StartTag} (h : NoForeign p above)
    (hdeclared : ∀ pre uri, lookupDeclared t.read pre = some uri → Declaration p pre uri) :
    NoForeign p (t :: above) := by
  intro pre uri huri
  have hor : (lookupDeclared t.read pre).or (resolve above pre) = some uri := huri
  rcases Option.or_eq_some_iff.1 hor with hnew | ⟨-, hold⟩
  · exact (hdeclared pre uri hnew).foreign
  · exact h pre uri hold

/-- A tag that passes the checks is clean where it stands. -/
theorem startTag_clean {t : StartTag} {above : List StartTag} {scope : Scope} {inStyle : Bool}
    (hwf : t.WellFormed) (hscope : ∀ pre, scope.lookup pre = resolve (t :: above) pre)
    (hforeign : NoForeign p (t :: above))
    (helement : checkElement p t.name (scope.lookup (splitName t.name).1) inStyle = .ok ())
    (hattrs : checkAttrs p scope t.read = .ok ()) : t.Clean p above ∧ inStyle = false := by
  simp only [checkElement, rejectIf_bind, rejectIf_ok, toLowerCase_local hwf.name, hscope]
    at helement
  obtain ⟨hns, hallowed, hstyle, hlisted⟩ := helement
  refine ⟨⟨hwf, ?_, by simpa using hallowed, hforeign, fun a ha => ?_, fun a ha => ?_⟩, hstyle⟩
  · rcases huri : resolve (t :: above) (splitName t.name).1 with _ | uri
    · simp [huri] at hns
    · refine ⟨uri, rfl, fun hsvg => ?_⟩
      simpa [huri, hsvg] using hlisted
  · obtain ⟨w, hw, rfl⟩ := List.mem_map.1 ha
    exact checkAttr_clean (hwf.attrs w hw).name (checkAttrs_ok hattrs _ ha).1
  · rw [← hscope]
    exact (checkAttrs_ok hattrs a ha).2

theorem checkRoot_ok {t : StartTag} {ns : Option (List Char)} {size : Rat × Rat}
    (hname : IsName t.name) (h : checkRoot p t.name ns t.read = .ok size) :
    t.name = "svg".toList ∧ ns = some svgNs ∧ readViewBox p t.read = .ok size := by
  simp only [checkRoot, rejectIf_bind, decide_eq_false_iff_not, not_or, not_not] at h
  obtain ⟨⟨hpre, hlocal⟩, hns, hview⟩ := h
  refine ⟨?_, hns, hview⟩
  rcases hname with hname | ⟨first, second, hfirst, -, hsplit⟩
  · rw [splitName_part hname] at hlocal
    exact hlocal
  · rw [hsplit, splitName_prefixed hfirst] at hpre
    exact absurd hpre hfirst.ne_nil

/-- An element may open where the walk opens one. -/
theorem Follows.opens {stack : List OpenElement} {t : StartTag}
    (h : Follows p stack (l :: levels)) (hclean : t.Clean p l.path)
    (hclosed : closedRoot (l :: levels) = none) (hroot : stack = [] → t.IsSvg)
    (hstyle : stack.head?.any (·.isStyle) = false) : l.Opens p t := by
  refine ⟨?_, hclean⟩
  cases h with
  | outside => exact ⟨hclosed, hroot rfl⟩
  | inside hstands =>
    intro htag
    have htop := hstands.style.2 htag
    simp [htop] at hstyle

theorem rootSize_ok {t : StartTag} {ns : Option (List Char)} {size : Option (Rat × Rat)}
    (hname : IsName t.name) (h : s.rootSize p t.name ns t.read = .ok size) :
    (s.stack = [] ∧ t.name = "svg".toList ∧ ns = some svgNs ∧
        ∃ v, size = some v ∧ readViewBox p t.read = .ok v) ∨
      (s.stack ≠ [] ∧ size = s.size) := by
  unfold Scan.rootSize at h
  split at h
  · next hempty =>
    rcases hroot : checkRoot p t.name ns t.read with reason | v
    · rw [hroot] at h
      cases h
    · rw [hroot] at h
      obtain ⟨hsvg, hns, hview⟩ := checkRoot_ok hname hroot
      exact .inl ⟨by simpa using hempty, hsvg, hns, v, (Except.ok.inj h).symm, hview⟩
  · next hempty => exact .inr ⟨by simpa using hempty, (Except.ok.inj h).symm⟩

theorem Follows.path_eq_nil {stack : List OpenElement} (h : Follows p stack (l :: levels)) :
    l.path = [] ↔ stack = [] := by
  cases h with
  | outside => exact ⟨fun _ => rfl, fun _ => rfl⟩
  | inside => exact ⟨fun h => (nomatch h), fun h => (nomatch h)⟩

/-- The walk behind an element that is empty. -/
theorem Related.closed_empty {t : StartTag} {size : Option (Rat × Rat)}
    (h : Related p s (l :: levels)) (hstack : s'.stack = s.stack)
    (hclosed : s'.rootClosed = (s.stack.isEmpty || s.rootClosed)) (hsize : s'.size = size)
    (hroot : (s.stack = [] ∧ ∃ v, size = some v ∧ readViewBox p t.read = .ok v) ∨
      (s.stack ≠ [] ∧ size = s.size)) :
    Related p s' (l.closed t :: levels) := by
  obtain ⟨hfollows, hold, hsizes⟩ := h
  constructor
  · rw [hstack]
    generalize s.stack = stack at hfollows
    cases hfollows with
    | outside => exact .outside
    | inside hstands hbelow => exact .inside hstands hbelow
  · rw [hclosed, hold]
    generalize s.stack = stack at hfollows
    cases hfollows with
    | outside => rfl
    | inside => rfl
  · intro v hv
    rw [hsize] at hv
    obtain ⟨hempty, w, hw, hview⟩ | ⟨hopen, hsame⟩ := hroot
    · rw [hempty] at hfollows
      cases hfollows
      obtain rfl := Option.some.inj (hw.symm.trans hv)
      exact ⟨t, rfl, hview⟩
    · obtain ⟨u, hu, hview⟩ := hsizes v (hsame ▸ hv)
      refine ⟨u, ?_, hview⟩
      generalize s.stack = stack at hfollows hopen
      cases hfollows with
      | outside => exact absurd rfl hopen
      | inside => exact hu

/-- The walk inside an element that opens. -/
theorem Related.opened {t : StartTag} {e : OpenElement} {size : Option (Rat × Rat)}
    (h : Related p s (l :: levels)) (hstack : s'.stack = e :: s.stack)
    (hstands : Stands p e t l.path []) (hclosed : s'.rootClosed = s.rootClosed)
    (hsize : s'.size = size)
    (hroot : (s.stack = [] ∧ ∃ v, size = some v ∧ readViewBox p t.read = .ok v) ∨
      (s.stack ≠ [] ∧ size = s.size)) :
    Related p s' (.inside t l.path [] :: l :: levels) := by
  obtain ⟨hfollows, hold, hsizes⟩ := h
  refine ⟨by rw [hstack]; exact .inside hstands hfollows, by rw [hclosed, hold]; rfl, ?_⟩
  intro v hv
  rw [hsize] at hv
  obtain ⟨hempty, w, hw, hview⟩ | ⟨hopen, hsame⟩ := hroot
  · obtain rfl := Option.some.inj (hw.symm.trans hv)
    rw [hfollows.path_eq_nil.2 hempty]
    exact ⟨t, rfl, hview⟩
  · obtain ⟨u, hu, hview⟩ := hsizes v (hsame ▸ hv)
    refine ⟨u, ?_, hview⟩
    generalize s.stack = stack at hfollows hopen
    cases hfollows with
    | outside => exact absurd rfl hopen
    | inside => exact hu

theorem startTag_advances (h : Related p s levels) (hc : s.startTag p body = .ok s') :
    Advances p ('<' :: body) levels s' := by
  obtain ⟨l, below, rfl⟩ := h.follows.top
  unfold Scan.startTag at hc
  obtain ⟨hopen, hc⟩ := rejectIf_bind.1 hc
  split at hc
  · cases hc
  · next qname rest hname =>
    obtain ⟨hbody, hisName⟩ := readName_eq hname
    obtain ⟨tag, htag, hc⟩ := bind_ok.1 hc
    obtain ⟨⟨scope, count⟩, hfold, hc⟩ := bind_ok.1 hc
    obtain ⟨size, hsize, hc⟩ := bind_ok.1 hc
    obtain ⟨⟨⟩, helement, hc⟩ := bind_ok.1 hc
    obtain ⟨⟨⟩, hattrs, hc⟩ := bind_ok.1 hc
    obtain ⟨t, hwf, rfl, hread, htext⟩ := readTag_eq hisName htag
    rw [hread] at hfold hsize hattrs
    have hnames : ∀ a ∈ t.read, IsName a.name := by
      intro a ha
      obtain ⟨w, hw, rfl⟩ := List.mem_map.1 ha
      exact (hwf.attrs w hw).name
    have honce : (t.read.map (·.name)).Nodup := by
      have hmap : t.read.map (·.name) = t.attrs.map (·.name) := by
        rw [StartTag.read, List.map_map]
        rfl
      rw [hmap]
      exact hwf.once
    obtain ⟨hparent, hforeign⟩ := h.follows.scope
    obtain ⟨hlookup, hdeclared⟩ := declare_all hnames honce hfold
    have hscope : ∀ pre, scope.lookup pre = resolve (t :: l.path) pre := by
      intro pre
      rw [hlookup, hparent]
      rfl
    have hforeign' := noForeign_cons hforeign hdeclared
    obtain ⟨hclean, hstyle⟩ := startTag_clean hwf hscope hforeign' helement hattrs
    have hroot := rootSize_ok hwf.name hsize
    have hnone : closedRoot (l :: below) = none := by
      have := h.closed
      rw [hopen] at this
      simpa using this.symm
    have hsvg : s.stack = [] → t.IsSvg := by
      intro hempty
      obtain ⟨-, hsvg, hns, -⟩ | ⟨hne, -⟩ := hroot
      · refine ⟨hsvg, ?_⟩
        have hpre : (splitName t.name).1 = [] := by
          rw [hsvg]
          decide
        rw [hpre, hscope, h.follows.path_eq_nil.2 hempty] at hns
        exact hns
      · exact absurd hempty hne
    have hroot' : (s.stack = [] ∧ ∃ v, size = some v ∧ readViewBox p t.read = .ok v) ∨
        (s.stack ≠ [] ∧ size = s.size) := by
      obtain ⟨hempty, -, -, hv⟩ | hne := hroot
      · exact .inl ⟨hempty, hv⟩
      · exact .inr hne
    have hopens := h.follows.opens hclean hnone hsvg hstyle
    dsimp only at hc
    by_cases hself : tag.selfClosing = true
    · rw [if_pos hself] at hc
      obtain rfl := Except.ok.inj hc
      refine ⟨.leaf (.empty t), _, ?_, .pass (.inl ⟨t, rfl, hopens, rfl⟩),
        h.closed_empty rfl rfl rfl hroot'⟩
      rw [hbody, htext, hself]
      simp only [eventText, Piece.text, closeText, if_true, List.cons_append, List.append_assoc]
    · rw [if_neg hself] at hc
      obtain rfl := Except.ok.inj hc
      refine ⟨.opening t, _, ?_, .enter ⟨hopens, rfl⟩,
        h.opened rfl ⟨rfl, hscope, hforeign', ?_, fun _ => rfl⟩ rfl rfl hroot'⟩
      · rw [hbody, htext, closeText, if_neg hself]
        simp only [eventText, List.cons_append, List.append_assoc]
      · rw [toLowerCase_local hwf.name]
        simp only [beq_iff_eq]
        rfl

/-- What begins with an angle bracket is one event. -/
theorem markup_advances {rest : List Char} (h : Related p s levels)
    (hrest : rest.head? = some '<') (hc : s.markup p rest = .ok s') :
    Advances p rest levels s' := by
  unfold Scan.markup at hc
  split at hc
  · exact comment_advances h hc
  · exact cdata_advances h hc
  · cases hc
  · exact instruction_advances h hc
  · exact endTag_advances h hc
  · next c body _ _ _ _ _ =>
    obtain rfl : c = '<' := Option.some.inj hrest
    exact startTag_advances h hc
  · cases hc

theorem head_dropWhile_ne {c : Char} : ∀ {s rest : List Char} {d : Char},
    s.dropWhile (· ≠ c) = d :: rest → d = c
  | [], _, _, h => by cases h
  | x :: s, rest, d, h => by
    rw [List.dropWhile_cons] at h
    split at h
    · exact head_dropWhile_ne h
    · next hx =>
      obtain ⟨rfl, -⟩ := List.cons.inj h
      simpa using hx

/-- A round that goes on takes the levels through what it reads. -/
theorem step_advances (h : Related p s levels) (hs : s.step p = .ok (.inl s')) :
    ∃ es levels', s.rest = es.flatMap eventText ++ s'.rest ∧
      (svgRules p).Steps levels es levels' ∧ Related p s' levels' := by
  have hsplit := List.takeWhile_append_dropWhile (p := fun c => decide (c ≠ '<')) (l := s.rest)
  have hchunk : '<' ∉ s.rest.takeWhile (· ≠ '<') := fun hmem => by
    simpa using List.mem_takeWhile_imp hmem
  unfold Scan.step at hs
  obtain ⟨s₁, htext, hs⟩ := bind_ok.1 hs
  obtain ⟨es, levels₁, hes, hsteps, hrelated⟩ := text_advances h hchunk htext
  rcases hrest : s.rest.dropWhile (· ≠ '<') with _ | ⟨d, rest⟩ <;> rw [hrest] at hs
  · dsimp only at hs
    rcases hfinish : s₁.finish with reason | size <;> rw [hfinish] at hs <;> cases hs
  · dsimp only at hs
    rcases hmarkup : s₁.markup p (d :: rest) with reason | s₂
    · rw [hmarkup] at hs
      cases hs
    · rw [hmarkup] at hs
      obtain rfl : s₂ = s' := by simpa [Except.map] using hs
      obtain rfl := head_dropWhile_ne hrest
      obtain ⟨e, levels₂, he, hstep, hrelated'⟩ := markup_advances hrelated rfl hmarkup
      refine ⟨es ++ [e], levels₂, ?_, hsteps.append hstep.steps, hrelated'⟩
      rw [← hsplit, hrest, he, hes]
      simp

/-- The round that ends the walk reads the rest of the text, outside a closed root. -/
theorem step_ends {size : Rat × Rat} (h : Related p s levels) (hs : s.step p = .ok (.inr size)) :
    ∃ es t, s.rest = es.flatMap eventText ∧
      (svgRules p).Steps levels es [.outside (some t)] ∧ readViewBox p t.read = .ok size := by
  have hsplit := List.takeWhile_append_dropWhile (p := fun c => decide (c ≠ '<')) (l := s.rest)
  have hchunk : '<' ∉ s.rest.takeWhile (· ≠ '<') := fun hmem => by
    simpa using List.mem_takeWhile_imp hmem
  unfold Scan.step at hs
  obtain ⟨s₁, htext, hs⟩ := bind_ok.1 hs
  obtain ⟨es, levels₁, hes, hsteps, hrelated⟩ := text_advances h hchunk htext
  rcases hrest : s.rest.dropWhile (· ≠ '<') with _ | ⟨d, rest⟩ <;> rw [hrest] at hs
  · dsimp only at hs
    rcases hfinish : s₁.finish with reason | v
    · rw [hfinish] at hs
      cases hs
    · rw [hfinish] at hs
      obtain rfl : v = size := by simpa [Except.map] using hs
      obtain ⟨hempty, hfinish⟩ := rejectIf_bind.1 hfinish
      split at hfinish
      · cases hfinish
      · next w hw =>
        obtain rfl : w = v := Except.ok.inj hfinish
        obtain ⟨t, ht, hview⟩ := hrelated.size w hw
        have hfollows := hrelated.follows
        rw [show s₁.stack = [] by simpa using hempty] at hfollows
        cases hfollows
        obtain rfl : _ = some t := ht
        refine ⟨es, t, ?_, hsteps, hview⟩
        rw [← hsplit, hrest, List.append_nil, hes]
  · dsimp only at hs
    rcases hmarkup : s₁.markup p (d :: rest) with reason | s₂ <;> rw [hmarkup] at hs <;> cases hs

theorem breakOn_shorter {mark body before rest : List Char}
    (h : breakOn mark body = some (before, rest)) : rest.length ≤ body.length := by
  rw [breakOn_eq h]
  simp only [List.length_append]
  omega

theorem markup_shorter {rest : List Char} (hc : s.markup p rest = .ok s') :
    s'.rest.length < rest.length := by
  unfold Scan.markup at hc
  split at hc
  · next body =>
    unfold Scan.comment at hc
    split at hc
    · cases hc
    · next hbody =>
      rw [← Except.ok.inj hc]
      have := breakOn_shorter hbody
      simp only [List.length_cons]
      omega
  · next body =>
    unfold Scan.cdata at hc
    split at hc
    · cases hc
    · next hbody =>
      rw [← Except.ok.inj (rejectIf_bind.1 hc).2]
      have := breakOn_shorter hbody
      simp only [List.length_cons]
      omega
  · cases hc
  · next body =>
    unfold Scan.instruction at hc
    split at hc
    · cases hc
    · next hbody =>
      rw [← Except.ok.inj (rejectIf_bind.1 hc).2]
      have := breakOn_shorter hbody
      simp only [List.length_cons]
      omega
  · next body =>
    unfold Scan.endTag at hc
    split at hc
    · cases hc
    · next name rest hname =>
      obtain ⟨space, -, hrest⟩ := skipSpace_eq rest
      split at hc
      · next rest' top stack hclose _ =>
        obtain ⟨⟨⟩, -, hc⟩ := bind_ok.1 (rejectIf_bind.1 hc).2
        rw [← Except.ok.inj hc, (readName_eq hname).1, hrest, hclose]
        simp only [List.length_cons, List.length_append]
        omega
      · cases hc
  · next c body _ _ _ _ _ =>
    unfold Scan.startTag at hc
    obtain ⟨-, hc⟩ := rejectIf_bind.1 hc
    split at hc
    · cases hc
    · next qname rest hname =>
      obtain ⟨hbody, hisName⟩ := readName_eq hname
      obtain ⟨tag, htag, hc⟩ := bind_ok.1 hc
      obtain ⟨⟨scope, count⟩, -, hc⟩ := bind_ok.1 hc
      obtain ⟨size, -, hc⟩ := bind_ok.1 hc
      obtain ⟨⟨⟩, -, hc⟩ := bind_ok.1 hc
      obtain ⟨⟨⟩, -, hc⟩ := bind_ok.1 hc
      obtain ⟨t, -, -, -, htext⟩ := readTag_eq hisName htag
      have hrest : s'.rest = tag.rest := by
        rw [← Except.ok.inj hc]
        split <;> rfl
      rw [hrest, hbody, htext]
      simp only [List.length_cons, List.length_append]
      omega
  · cases hc

theorem step_shrinks : Loop.Shrinks (Scan.step p) fun s => s.rest.length := by
  intro s s' hs
  show s'.rest.length < s.rest.length
  unfold Scan.step at hs
  obtain ⟨s₁, -, hs⟩ := bind_ok.1 hs
  have hsplit := List.takeWhile_append_dropWhile (p := fun c => decide (c ≠ '<')) (l := s.rest)
  rcases hrest : s.rest.dropWhile (· ≠ '<') with _ | ⟨d, rest⟩ <;> rw [hrest] at hs
  · dsimp only at hs
    rcases hfinish : s₁.finish with reason | size <;> rw [hfinish] at hs <;> cases hs
  · dsimp only at hs
    rcases hmarkup : s₁.markup p (d :: rest) with reason | s₂
    · rw [hmarkup] at hs
      cases hs
    · rw [hmarkup] at hs
      obtain rfl : s₂ = s' := by simpa [Except.map] using hs
      have hlt := markup_shorter hmarkup
      have hlen := congrArg List.length hsplit
      rw [hrest, List.length_append] at hlen
      omega

/-- The rounds a text allows are enough to walk it. -/
theorem walk_eq (s : Scan) : walk p s = Loop.next (walk p) (s.step p) :=
  Loop.run_eq step_shrinks s

end Walk

end SvgScreen

end EchoAndAura
