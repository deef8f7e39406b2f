import EchoAndAura.Loop
import EchoAndAura.Search
import EchoAndAura.Text
import EchoAndAura.Unicode
import Mathlib.Data.Rat.Defs

/-!
# The screen of sponsor logos

`inspectLogo`: a PNG is measured by its header, an SVG is walked once, tag by tag, with a stack of
the elements that are open and the namespaces in scope there, and refused at the first thing in it
that a logo has no use for.  The walk goes on with what is left of the text where the source moves a
position.  JavaScript's numbers, and what `toLowerCase` makes of characters outside ASCII, are what
the platform computes.
-/

namespace EchoAndAura

namespace SvgScreen

open Search

structure Platform where
  /-- `Number` of a text that is a number, or none where it is infinite. -/
  number : List Char → Option Rat
  /-- The quotient as a number, or none where it is not finite. -/
  quotient : Rat → Rat → Option Rat
  /-- The lower case of a character outside ASCII, between the text before it, last character
  first, and the text after it. -/
  lowerCase : List Char → Char → List Char → List Char

def lowerFrom (p : Platform) (before : List Char) : List Char → List Char
  | [] => []
  | c :: s =>
    (if c.toNat < 0x80 then [c.toLower] else p.lowerCase before c s) ++ lowerFrom p (c :: before) s

def toLowerCase (p : Platform) (s : List Char) : List Char := lowerFrom p [] s

def trimmed (s : List Char) : List Char :=
  ((s.dropWhile EchoAndAura.isSpace).reverse.dropWhile EchoAndAura.isSpace).reverse

inductive Reason
  | type | empty | size | png | cgbi | pngSize | svgz | utf8 | chars | malformed | doctype | entity
  | stylesheet | notSvg | xmlns | namespace_ | noViewBox | badViewBox | shape | html | handler
  | scriptLink | link | css
  | element (name : List Char)
  deriving DecidableEq

/-- `REASONS`, and `elementReason` of an element. -/
def Reason.text : Reason → String
  | .type => "The logo must be an SVG or PNG file."
  | .empty => "The logo file is empty."
  | .size => "The logo must be 512 KB or smaller."
  | .png => "This PNG could not be read. Export it again as a standard PNG."
  | .cgbi => "This PNG uses an Apple-only format. Export it again as a standard PNG."
  | .pngSize => "A PNG logo must be 16 to 4096 pixels on each side."
  | .svgz => "Compressed SVG (.svgz) is not supported. Save it as a plain SVG."
  | .utf8 => "Save the SVG as UTF-8 text and upload it again."
  | .chars => "The SVG contains characters that are not allowed. Export it again."
  | .malformed => "This SVG could not be read. Export it again from your design tool."
  | .doctype => "The SVG has a DOCTYPE or entity declaration. Export it again without one."
  | .entity => "The SVG uses an entity that is not defined. Export it again from your design tool."
  | .stylesheet => "The SVG links a stylesheet, which is not allowed in a logo."
  | .notSvg => "The file does not start with an <svg> element."
  | .xmlns =>
    "The SVG is missing xmlns=\"http://www.w3.org/2000/svg\". Export it again as a standalone SVG."
  | .namespace_ => "The SVG switches to another namespace, which is not allowed in a logo."
  | .noViewBox =>
    "The SVG has no viewBox, so its shape is unknown. Export it again with a viewBox."
  | .badViewBox =>
    "The SVG’s viewBox must be four numbers with a width and height above zero."
  | .shape =>
    "A logo can be at most 20 times wider than it is tall, or taller than it is wide."
  | .html => "The SVG contains HTML, which is not allowed in a logo."
  | .handler =>
    "The SVG contains event handlers (on… attributes), which are not allowed in a logo."
  | .scriptLink => "The SVG contains a script link, which is not allowed in a logo."
  | .link =>
    "The SVG links to a file outside itself. Only embedded images and # links are allowed."
  | .css =>
    "The SVG’s styles load something from outside the file, which is not allowed in a logo."
  | .element name =>
    "The SVG contains a <" ++ String.ofList (name.take 40) ++
      "> element, which is not allowed in a logo."

def rejectIf (p : Bool) (reason : Reason) : Except Reason Unit :=
  if p then .error reason else .ok ()

def maxLogoAspect : Rat := 20

def maxViewBoxSide : Rat := 1000000

def checkShape (p : Platform) (width height : Rat) : Except Reason Unit :=
  match p.quotient width height with
  | none => .error .shape
  | some aspect =>
    rejectIf (maxLogoAspect < aspect ∨ ∃ least ∈ p.quotient 1 maxLogoAspect, aspect < least) .shape

def svgNs : List Char := "http://www.w3.org/2000/svg".toList

def xmlNs : List Char := "http://www.w3.org/XML/1998/namespace".toList

def xhtmlNs : List Char := "http://www.w3.org/1999/xhtml".toList

def mathmlNs : List Char := "http://www.w3.org/1998/math/mathml".toList

def svgElements : List (List Char) :=
  ["svg", "g", "defs", "use", "symbol", "marker",
    "path", "rect", "circle", "ellipse", "line", "polyline", "polygon",
    "text", "tspan", "textPath",
    "linearGradient", "radialGradient", "stop",
    "clipPath", "mask", "pattern", "image",
    "style", "title", "desc", "metadata",
    "filter", "feBlend", "feColorMatrix", "feComponentTransfer", "feComposite",
    "feConvolveMatrix", "feDiffuseLighting", "feDisplacementMap", "feDistantLight",
    "feDropShadow", "feFlood", "feFuncA", "feFuncB", "feFuncG", "feFuncR",
    "feGaussianBlur", "feImage", "feMerge", "feMergeNode", "feMorphology", "feOffset",
    "fePointLight", "feSpecularLighting", "feSpotLight", "feTile", "feTurbulence"].map (·.toList)

def forbiddenElements : List (List Char) :=
  ["script", "foreignobject", "iframe", "embed", "object", "a", "handler", "listener",
    "animate", "set", "animatetransform", "animatemotion", "animatecolor",
    "audio", "video", "frame", "frameset", "applet", "base", "link", "meta", "portal"].map
    (·.toList)

def scriptSchemes : List (List Char) :=
  ["javascript:", "vbscript:", "livescript:", "data:text"].map (·.toList)

def xmlEntities : List (List Char × Char) :=
  [("amp".toList, '&'), ("lt".toList, '<'), ("gt".toList, '>'), ("quot".toList, '"'),
    ("apos".toList, apostrophe)]
where apostrophe : Char := Char.ofNat 0x27

def maxNamespaceDeclarations : Nat := 64

/-- What XML takes for a space. -/
def isSpace (c : Char) : Bool := c == ' ' || c == '\t' || c == '\n' || c == '\r'

def skipSpace (s : List Char) : List Char := s.dropWhile isSpace

def isQuote (c : Char) : Bool := c == '"' || c == Char.ofNat 0x27

def isNameStart (c : Char) : Bool := c.isAlpha || c == '_'

def isNameChar (c : Char) : Bool := c.isAlphanum || c == '.' || c == '_' || c == '-'

def readPart : List Char → Option (List Char × List Char)
  | [] => none
  | c :: s =>
    if isNameStart c then some (c :: s.takeWhile isNameChar, s.dropWhile isNameChar) else none

/-- The XML name at the front, and what follows it. -/
def readName (s : List Char) : Option (List Char × List Char) :=
  match readPart s with
  | none => none
  | some (first, ':' :: rest) =>
    match readPart rest with
    | some (second, rest) => some (first ++ ':' :: second, rest)
    | none => some (first, ':' :: rest)
  | some (first, rest) => some (first, rest)

/-- Prefix and local name. -/
def splitName (qname : List Char) : List Char × List Char :=
  (breakOn [':'] qname).getD ([], qname)

section References

def isHex (c : Char) : Bool :=
  c.isDigit || ('a' ≤ c && c ≤ 'f') || ('A' ≤ c && c ≤ 'F')

def hexValue (c : Char) : Nat := if c.isDigit then c.toNat - 48 else c.toLower.toNat - 87

def parseHex (digits : List Char) : Nat := digits.foldl (fun n c => 16 * n + hexValue c) 0

def parseDecimal (digits : List Char) : Nat :=
  digits.foldl (fun n c => 10 * n + (c.toNat - 48)) 0

def codePointToString (cp : Nat) : Char :=
  if ¬ (0 < cp ∧ cp ≤ 0x10ffff) ∨ 0xd800 ≤ cp ∧ cp ≤ 0xdfff then Char.ofNat 0xfffd
  else Char.ofNat cp

/-- The reference behind an ampersand, without the semicolon. -/
def refBody : List Char → Option (Except Reason Char × List Char)
  | '#' :: 'x' :: s | '#' :: 'X' :: s =>
    if (s.takeWhile isHex).isEmpty then none
    else some (.ok (codePointToString (parseHex (s.takeWhile isHex))), s.dropWhile isHex)
  | '#' :: s =>
    if (s.takeWhile Char.isDigit).isEmpty then none
    else some (.ok (codePointToString (parseDecimal (s.takeWhile Char.isDigit))),
      s.dropWhile Char.isDigit)
  | s =>
    (readPart s).map fun r =>
      (match xmlEntities.lookup r.1 with
        | some c => .ok c
        | none => .error .entity, r.2)

def dropSemicolon : List Char → List Char
  | ';' :: s => s
  | s => s

/-- The reference at the front, and how long it is. -/
def refAt : List Char → Option (Except Reason Char × Nat)
  | '&' :: s => (refBody s).map fun r => (r.1, 1 + (s.length - (dropSemicolon r.2).length))
  | _ => none

def decodeRefs (s : List Char) : Except Reason (List Char) :=
  (segments refAt 0 s).mapM fun
    | .inl c => .ok c
    | .inr r => r

end References

def checkChars (text : List Char) : Except Reason Unit :=
  rejectIf (text.any fun c =>
    (c.toNat < 0x20 && c ≠ '\t' && c ≠ '\n' && c ≠ '\r') || c.toNat == 0xfffe ||
      c.toNat == 0xffff) .chars

def compact (p : Platform) (value : List Char) : List Char :=
  toLowerCase p (value.filter fun c => !(c.toNat ≤ 0x20 || (0x7f ≤ c.toNat && c.toNat ≤ 0x9f)))

section Css

/-- The comment at the front, to its end or the end of the text. -/
def commentAt (s : List Char) : Option (Unit × Nat) :=
  (after ['/', '*'] s).map fun body =>
    ((), s.length - ((breakOn ['*', '/'] body).map (·.2)).elim 0 List.length)

def stripCssComments (css : List Char) : List Char :=
  (segments commentAt 0 css).filterMap Sum.getLeft?

/-- The escape at the front, with one blank that follows its digits. -/
def escapeAt : List Char → Option (List Char × Nat)
  | '\\' :: s =>
    let hex := (s.takeWhile isHex).take 6
    if hex.isEmpty then
      match s with
      | [] => none
      | c :: _ => some (if c = '\n' then [] else [c], 2)
    else
      let blank := (s.drop hex.length).head?.any fun c =>
        c == ' ' || c == '\t' || c == '\r' || c == '\n' || c == Char.ofNat 12
      some ([codePointToString (parseHex hex)], 1 + hex.length + (if blank then 1 else 0))
  | _ => none

def decodeCssEscapes (css : List Char) : List Char :=
  (segments escapeAt 0 css).flatMap fun
    | .inl c => [c]
    | .inr text => text

/-- A word, blanks and a mark at the front. -/
def wordThen (word : String) (mark : Char) (s : List Char) : Bool :=
  (after word.toList s).any fun rest => (rest.dropWhile EchoAndAura.isSpace).head? == some mark

def isIdentChar (c : Char) : Bool :=
  ('a' ≤ c && c ≤ 'z') || c.isDigit || c == '_' || c == '-'

/-- `CSS_FORBIDDEN` at one place of the text, behind the character before it. -/
def forbiddenAt (before : Option Char) (s : List Char) : Bool :=
  (after "@import".toList s).isSome || wordThen "expression" '(' s ||
    (after "-moz-binding".toList s).isSome || wordThen "behavior" ':' s ||
    wordThen "behaviour" ':' s || wordThen "image-set" '(' s ||
    (!before.any isIdentChar &&
      (wordThen "image" '(' s || wordThen "src" '(' s || wordThen "cross-fade" '(' s))

def forbiddenFrom (before : Option Char) : List Char → Bool
  | [] => false
  | c :: s => forbiddenAt before (c :: s) || forbiddenFrom (some c) s

/-- `CSS_FORBIDDEN`. -/
def cssForbidden (s : List Char) : Bool := forbiddenFrom none s

def dropQuote : List Char → List Char
  | c :: s => if isQuote c then s else c :: s
  | [] => []

/-- What the `url(` at the front points to, behind blanks, a quote and blanks. -/
def urlTarget (s : List Char) : Option (List Char) :=
  match (after ['u', 'r', 'l'] s).map (·.dropWhile EchoAndAura.isSpace) with
  | some ('(' :: rest) =>
    some ((dropQuote (rest.dropWhile EchoAndAura.isSpace)).dropWhile EchoAndAura.isSpace)
  | _ => none

/-- The first characters of what each `url(` points to. -/
def urls (s : List Char) : List (Option Char) :=
  (segments (fun s => (urlTarget s).map fun t => (t.head?, s.length - t.length)) 0 s).filterMap
    Sum.getRight?

inductive CssKind
  | stylesheet
  | value
  deriving DecidableEq

def checkView (kind : CssKind) (s : List Char) : Except Reason Unit := do
  rejectIf (kind = .stylesheet ∧ occurs xhtmlNs s) .html
  rejectIf (kind = .stylesheet ∧ cssForbidden s) .css
  rejectIf ((urls s).any (· ≠ some '#')) .css

def checkCss (p : Platform) (kind : CssKind) (css : List Char) : Except Reason Unit :=
  if css.isEmpty then .ok ()
  else do
    rejectIf (kind = .stylesheet ∧ '\\' ∈ css) .css
    match kind with
    | .stylesheet =>
      checkView kind (toLowerCase p css)
      checkView kind (stripCssComments (toLowerCase p css))
    | .value => checkView kind (decodeCssEscapes (toLowerCase p css))

end Css

section Attributes

structure Attr where
  name : List Char
  value : List Char
  deriving DecidableEq

def isNameAttr (local_ : List Char) : Bool :=
  local_ == "id".toList || local_ == "class".toList || (after "data-".toList local_).isSome

def isBase64Char (c : Char) : Bool :=
  ('a' ≤ c && c ≤ 'z') || c.isDigit || c == '+' || c == '/'

/-- `EMBEDDED_IMAGE`. -/
def embeddedImage (v : List Char) : Bool :=
  ["png", "jpeg", "gif", "webp"].any fun kind =>
    (after ("data:image/".toList ++ (kind.toList ++ ";base64,".toList)) v).any fun data =>
      [[], ['='], ['=', '=']].contains (data.dropWhile isBase64Char)

def checkAttr (p : Platform) (attr : Attr) : Except Reason Unit := do
  let local_ := toLowerCase p (splitName attr.name).2
  rejectIf (after ['o', 'n'] local_).isSome .handler
  let v := compact p attr.value
  rejectIf (occurs xhtmlNs v) .html
  rejectIf (scriptSchemes.any fun scheme => occurs scheme v) .scriptLink
  rejectIf (local_ = "href".toList ∧ v ≠ [] ∧ v.head? ≠ some '#' ∧ ¬ embeddedImage v) .link
  let css := local_ = "style".toList ∨
    ((splitName attr.name).1 = [] ∧ local_ ≠ "href".toList ∧ ¬ isNameAttr local_)
  checkCss p (if css then .stylesheet else .value) attr.value

/-- `split(/[\s,]+/)`, where the piece so far is being read, or blanks and commas behind it. -/
def splitRuns (behind : Bool) (piece : List Char) : List Char → List (List Char)
  | [] => if behind then [piece, []] else [piece]
  | c :: s =>
    if EchoAndAura.isSpace c || c == ',' then splitRuns true piece s
    else if behind then piece :: splitRuns false [c] s
    else splitRuns false (piece ++ [c]) s

def dropSign : List Char → List Char
  | c :: s => if c = '+' ∨ c = '-' then s else c :: s
  | [] => []

/-- An exponent or nothing. -/
def isExponent : List Char → Bool
  | [] => true
  | c :: s => (c == 'e' || c == 'E') && !(dropSign s).isEmpty && (dropSign s).all Char.isDigit

/-- `VIEWBOX_NUMBER`. -/
def isViewBoxNumber (s : List Char) : Bool :=
  let digits := dropSign s
  let rest := digits.dropWhile Char.isDigit
  if (digits.takeWhile Char.isDigit).isEmpty then
    match rest with
    | '.' :: s => !(s.takeWhile Char.isDigit).isEmpty && isExponent (s.dropWhile Char.isDigit)
    | _ => false
  else
    match rest with
    | '.' :: s => isExponent (s.dropWhile Char.isDigit)
    | s => isExponent s

def readViewBox (p : Platform) (attrs : List Attr) : Except Reason (Rat × Rat) :=
  match attrs.find? (·.name = "viewBox".toList) with
  | none => .error .noViewBox
  | some viewBox =>
    let parts := splitRuns false [] (trimmed viewBox.value)
    if parts.length ≠ 4 ∨ ¬ parts.all isViewBoxNumber then .error .badViewBox
    else
      match parts.mapM p.number with
      | some [_, _, width, height] => do
        rejectIf (width ≤ 0 ∨ height ≤ 0) .badViewBox
        rejectIf (maxViewBoxSide < width ∨ maxViewBoxSide < height) .badViewBox
        checkShape p width height
        return (width, height)
      | _ => .error .badViewBox

end Attributes

section Tags

structure ReadTag where
  attrs : List Attr
  selfClosing : Bool
  rest : List Char

/-- The attributes read so far, and what is left of the text. -/
structure TagScan where
  attrs : List Attr
  rest : List Char

/-- One attribute behind the blanks before it, from its name to its closing quote. -/
def readAttr (t : TagScan) (s : List Char) : Except Reason TagScan := do
  match readName s with
  | none => .error .malformed
  | some (name, rest) =>
    rejectIf (t.attrs.any (·.name = name)) .malformed
    match skipSpace rest with
    | '=' :: rest =>
      match skipSpace rest with
      | quote :: rest =>
        rejectIf (!isQuote quote) .malformed
        match breakOn [quote] rest with
        | none => .error .malformed
        | some (raw, rest) =>
          rejectIf ('<' ∈ raw) .malformed
          let value ← decodeRefs raw
          return ⟨t.attrs ++ [⟨name, value⟩], rest⟩
      | [] => .error .malformed
    | _ => .error .malformed

/-- A round of the loop over a start tag: its end, or one more attribute. -/
def tagStep (t : TagScan) : Except Reason (TagScan ⊕ ReadTag) :=
  match skipSpace t.rest with
  | '/' :: '>' :: rest => .ok (.inr ⟨t.attrs, true, rest⟩)
  | '>' :: rest => .ok (.inr ⟨t.attrs, false, rest⟩)
  | s => if s.length = t.rest.length then .error .malformed else (readAttr t s).map .inl

def readTagFrom (t : TagScan) : Except Reason ReadTag :=
  Loop.run tagStep .malformed (fun t => t.rest.length) t

def readTag (s : List Char) : Except Reason ReadTag := readTagFrom ⟨[], s⟩

end Tags

/-- Prefixes and what they stand for, the latest first. -/
abbrev Scope := List (List Char × List Char)

def rootScope : Scope := [(['x', 'm', 'l'], xmlNs)]

structure OpenElement where
  qname : List Char
  scope : Scope
  isStyle : Bool
  css : List Char

/-- The walk at one place of the text: what is left of it, and the open elements, innermost
first. -/
structure Scan where
  rest : List Char
  stack : List OpenElement
  size : Option (Rat × Rat)
  rootClosed : Bool
  namespaceCount : Nat

namespace Scan

variable (p : Platform) (s : Scan)

def addCss (text : List Char) : List OpenElement → List OpenElement
  | top :: stack => (if top.isStyle then { top with css := top.css ++ text } else top) :: stack
  | [] => []

/-- The text up to the next tag. -/
def text (chunk : List Char) : Except Reason Scan :=
  if chunk.isEmpty then .ok s
  else if s.stack.isEmpty then do
    rejectIf (trimmed chunk ≠ []) .malformed
    return s
  else do
    let decoded ← decodeRefs chunk
    return { s with stack := addCss decoded s.stack }

def comment (body : List Char) : Except Reason Scan :=
  match breakOn ['-', '-', '>'] body with
  | none => .error .malformed
  | some (_, rest) => .ok { s with rest }

def cdata (body : List Char) : Except Reason Scan :=
  match breakOn [']', ']', '>'] body with
  | none => .error .malformed
  | some (data, rest) => do
    rejectIf s.stack.isEmpty .malformed
    return { s with rest, stack := addCss data s.stack }

def instruction (body : List Char) : Except Reason Scan :=
  match breakOn ['?', '>'] body with
  | none => .error .malformed
  | some (data, rest) => do
    let target := toLowerCase p (data.takeWhile fun c => !EchoAndAura.isSpace c && c ≠ '?')
    rejectIf (after ['x', 'm', 'l'] target).isSome
      (if target = "xml-stylesheet".toList then .stylesheet else .malformed)
    return { s with rest }

/-- A style element is checked at its end. -/
def checkStyle (top : OpenElement) : Except Reason Unit :=
  if top.isStyle then checkCss p .stylesheet top.css else .ok ()

def endTag (body : List Char) : Except Reason Scan :=
  match readName body with
  | none => .error .malformed
  | some (name, rest) =>
    match skipSpace rest, s.stack with
    | '>' :: rest, top :: stack => do
      rejectIf (top.qname ≠ name) .malformed
      checkStyle p top
      return { s with rest, stack, rootClosed := stack.isEmpty || s.rootClosed }
    | _, _ => .error .malformed

end Scan

/-- The prefix an attribute declares, the empty one for `xmlns`. -/
def declared (name : List Char) : Option (List Char) :=
  if name = "xmlns".toList then some []
  else if (splitName name).1 = "xmlns".toList then some (splitName name).2
  else none

/-- One namespace declaration on an element; any other attribute declares nothing. -/
def declare (p : Platform) (isRoot : Bool) (acc : Scope × Nat) (attr : Attr) :
    Except Reason (Scope × Nat) :=
  match declared attr.name with
  | none => .ok acc
  | some pre => do
    let uri := toLowerCase p attr.value
    rejectIf (occurs xhtmlNs uri ∨ occurs mathmlNs uri) .html
    rejectIf (pre = [] ∧ attr.value ≠ svgNs) (if isRoot then .xmlns else .namespace_)
    rejectIf (pre = ['x', 'm', 'l'] ∨ pre = "xmlns".toList) .malformed
    rejectIf (maxNamespaceDeclarations < acc.2 + 1) .malformed
    return ((pre, attr.value) :: acc.1, acc.2 + 1)

/-- The root is an `svg` with a `viewBox`. -/
def checkRoot (p : Platform) (qname : List Char) (ns : Option (List Char)) (attrs : List Attr) :
    Except Reason (Rat × Rat) := do
  rejectIf ((splitName qname).1 ≠ [] ∨ (splitName qname).2 ≠ "svg".toList) .notSvg
  rejectIf (ns ≠ some svgNs) .xmlns
  readViewBox p attrs

def checkElement (p : Platform) (qname : List Char) (ns : Option (List Char)) (inStyle : Bool) :
    Except Reason Unit := do
  let local_ := (splitName qname).2
  rejectIf (ns = none) (if (splitName qname).1 = [] then .xmlns else .malformed)
  rejectIf (toLowerCase p local_ ∈ forbiddenElements) (.element qname)
  rejectIf inStyle (.element qname)
  rejectIf (ns = some svgNs ∧ local_ ∉ svgElements) (.element qname)

def checkAttrs (p : Platform) (scope : Scope) : List Attr → Except Reason Unit
  | [] => .ok ()
  | attr :: attrs => do
    let pre := (splitName attr.name).1
    rejectIf (pre ≠ [] ∧ pre ≠ "xmlns".toList ∧ scope.lookup pre = none) .malformed
    checkAttr p attr
    checkAttrs p scope attrs

namespace Scan

variable (p : Platform) (s : Scan)

/-- The size of the viewBox, read where the element is the root. -/
def rootSize (qname : List Char) (ns : Option (List Char)) (attrs : List Attr) :
    Except Reason (Option (Rat × Rat)) :=
  if s.stack.isEmpty then (checkRoot p qname ns attrs).map some else .ok s.size

def startTag (body : List Char) : Except Reason Scan := do
  rejectIf s.rootClosed .malformed
  match readName body with
  | none => .error .malformed
  | some (qname, rest) =>
    let tag ← readTag rest
    let parentScope := (s.stack.head?.map (·.scope)).getD rootScope
    let (scope, namespaceCount) ←
      tag.attrs.foldlM (declare p s.stack.isEmpty) (parentScope, s.namespaceCount)
    let ns := scope.lookup (splitName qname).1
    let size ← s.rootSize p qname ns tag.attrs
    checkElement p qname ns (s.stack.head?.any (·.isStyle))
    checkAttrs p scope tag.attrs
    let isStyle := toLowerCase p (splitName qname).2 == "style".toList
    return if tag.selfClosing then
      ⟨tag.rest, s.stack, size, s.stack.isEmpty || s.rootClosed, namespaceCount⟩
    else
      ⟨tag.rest, ⟨qname, scope, isStyle, []⟩ :: s.stack, size, s.rootClosed, namespaceCount⟩

/-- What begins with `<`. -/
def markup : List Char → Except Reason Scan
  | '<' :: '!' :: '-' :: '-' :: body => s.comment body
  | '<' :: '!' :: '[' :: 'C' :: 'D' :: 'A' :: 'T' :: 'A' :: '[' :: body => s.cdata body
  | '<' :: '!' :: _ => .error .doctype
  | '<' :: '?' :: body => s.instruction p body
  | '<' :: '/' :: body => s.endTag p body
  | _ :: body => s.startTag p body
  | [] => .error .malformed

/-- The end of the text. -/
def finish : Except Reason (Rat × Rat) := do
  rejectIf (!s.stack.isEmpty) .malformed
  match s.size with
  | none => .error .notSvg
  | some size => return size

/-- A round of the loop: the text up to the next tag and the tag, or the end. -/
def step : Except Reason (Scan ⊕ (Rat × Rat)) := do
  let s' ← s.text (s.rest.takeWhile (· ≠ '<'))
  match s.rest.dropWhile (· ≠ '<') with
  | [] => s'.finish.map .inr
  | rest => (s'.markup p rest).map .inl

end Scan

/-- The encoding the declaration at the front names. -/
def encodingAt (s : List Char) : Option (List Char) :=
  match (after "encoding".toList s).map (·.dropWhile EchoAndAura.isSpace) with
  | some ('=' :: rest) =>
    match rest.dropWhile EchoAndAura.isSpace with
    | quote :: rest =>
      if isQuote quote ∧ (rest.dropWhile fun c => !isQuote c) ≠ [] then
        some (rest.takeWhile fun c => !isQuote c)
      else none
    | [] => none
  | _ => none

def declaredEncoding : List Char → Option (List Char)
  | [] => none
  | c :: s => (encodingAt (c :: s)).or (declaredEncoding s)

def isUtf8 (encoding : List Char) : Bool :=
  ["utf8".toList, "utf-8".toList].contains ((trimmed encoding).map Char.toLower)

/-- What follows the XML declaration, where the text opens with one. -/
def skipDeclaration (text : List Char) : Except Reason (List Char) :=
  match after ['<', '?', 'x', 'm', 'l'] text with
  | some (c :: s) =>
    if isSpace c then
      match breakOn ['?', '>'] (c :: s) with
      | none => .error .malformed
      | some (declaration, rest) => do
        rejectIf ((declaredEncoding declaration).any fun e => !isUtf8 e) .utf8
        return rest
    else .ok text
  | _ => .ok text

/-- The walk from one place of the text to its end. -/
def walk (p : Platform) (s : Scan) : Except Reason (Rat × Rat) :=
  Loop.run (Scan.step p) .malformed (fun s => s.rest.length) s

/-- Walks the document once: the size of the viewBox, or the reason to refuse it. -/
def screenSvg (p : Platform) (text : List Char) : Except Reason (Rat × Rat) := do
  checkChars text
  rejectIf (occurs xhtmlNs (toLowerCase p text)) .html
  let rest ← skipDeclaration text
  walk p { rest, stack := [], size := none, rootClosed := false, namespaceCount := 0 }

/-- `TextDecoder` with `fatal`: none for bytes that are not UTF-8; a byte order mark is left out. -/
def decodeFatal (bytes : List UInt8) : Option (List Char) :=
  let text := Utf8.decode bytes
  if Utf8.encode text = bytes then
    some (if text.head? = some (Char.ofNat 0xfeff) then text.tail else text)
  else none

def inspectSvg (p : Platform) (bytes : List UInt8) : Except Reason (Rat × Rat) :=
  if bytes[0]? = some 0x1f ∧ bytes[1]? = some 0x8b then .error .svgz
  else
    match decodeFatal bytes with
    | none => .error .utf8
    | some text => screenSvg p text

section Png

def pngSignature : List UInt8 := [0x89, 0x50, 0x4e, 0x47, 0x0d, 0x0a, 0x1a, 0x0a]

def pngMinSide : Nat := 16

def pngMaxSide : Nat := 4096

def readUint32 (bytes : List UInt8) (at_ : Nat) : Nat :=
  ((bytes.drop at_).take 4).foldl (fun n b => 256 * n + b.toNat) 0

def inspectPng (p : Platform) (bytes : List UInt8) : Except Reason (Rat × Rat) := do
  rejectIf (bytes.length < 33 ∨ bytes.take 8 ≠ pngSignature) .png
  let firstChunk := (bytes.drop 12).take 4
  rejectIf (firstChunk = [0x43, 0x67, 0x42, 0x49]) .cgbi
  rejectIf (firstChunk ≠ [0x49, 0x48, 0x44, 0x52] ∨ readUint32 bytes 8 ≠ 13) .png
  let width := readUint32 bytes 16
  let height := readUint32 bytes 20
  rejectIf (width < pngMinSide ∨ height < pngMinSide ∨ pngMaxSide < width ∨ pngMaxSide < height)
    .pngSize
  checkShape p width height
  return (width, height)

end Png

def sponsorLogoMaxBytes : Nat := 512 * 1024

inductive SponsorLogoExt
  | svg
  | png
  deriving DecidableEq

/-- `SPONSOR_LOGO_TYPES` of the type before any parameters. -/
def logoType (p : Platform) (contentType : List Char) : Option SponsorLogoExt :=
  let type := toLowerCase p (trimmed (contentType.takeWhile (· ≠ ';')))
  if type = "image/svg+xml".toList then some .svg
  else if type = "image/png".toList then some .png
  else none

def inspectLogo (p : Platform) (bytes : List UInt8) (contentType : List Char) :
    Except Reason ((Rat × Rat) × SponsorLogoExt) :=
  match logoType p contentType with
  | none => .error .type
  | some ext => do
    rejectIf bytes.isEmpty .empty
    rejectIf (sponsorLogoMaxBytes < bytes.length) .size
    match ext with
    | .png => return (← inspectPng p bytes, .png)
    | .svg => return (← inspectSvg p bytes, .svg)

end SvgScreen

end EchoAndAura
