import EchoAndAura.Nested
import EchoAndAura.SvgScreen

/-!
# Clean documents

What the screen of a logo is for: a text that is one tree of elements, each written out with what
stands between its parts, where prefixes mean what the innermost element around them declares, and
where no element, attribute or style does more than a logo needs.
-/

namespace EchoAndAura

namespace SvgScreen

open Search

structure WrittenAttr where
  before : List Char
  name : List Char
  beforeEquals : List Char
  afterEquals : List Char
  quote : Char
  raw : List Char

structure StartTag where
  name : List Char
  attrs : List WrittenAttr
  space : List Char

structure EndTag where
  name : List Char
  space : List Char

/-- What holds no other content. -/
inductive Piece
  | chars (s : List Char)
  | comment (s : List Char)
  | cdata (s : List Char)
  | instruction (s : List Char)
  | empty (tag : StartTag)

abbrev Content := Nested.Forest StartTag EndTag Piece

section Written

def WrittenAttr.text (a : WrittenAttr) : List Char :=
  a.before ++ (a.name ++ (a.beforeEquals ++ '=' ::
    (a.afterEquals ++ a.quote :: (a.raw ++ [a.quote]))))

/-- A start tag between its angle brackets. -/
def StartTag.text (t : StartTag) : List Char :=
  t.name ++ (t.attrs.flatMap WrittenAttr.text ++ t.space)

def Piece.text : Piece → List Char
  | .chars s => s
  | .comment s => ['<', '!', '-', '-'] ++ (s ++ ['-', '-', '>'])
  | .cdata s => ['<', '!', '[', 'C', 'D', 'A', 'T', 'A', '['] ++ (s ++ [']', ']', '>'])
  | .instruction s => ['<', '?'] ++ (s ++ ['?', '>'])
  | .empty t => '<' :: (t.text ++ ['/', '>'])

def eventText : Nested.Event StartTag EndTag Piece → List Char
  | .opening t => '<' :: (t.text ++ ['>'])
  | .closing e => '<' :: '/' :: (e.name ++ (e.space ++ ['>']))
  | .leaf piece => piece.text

def Content.text (content : Content) : List Char := content.events.flatMap eventText

end Written

section Names

def IsPart (s : List Char) : Prop :=
  ∃ c t, s = c :: t ∧ isNameStart c = true ∧ ∀ x ∈ t, isNameChar x = true

/-- A name, or a prefix and a name. -/
def IsName (s : List Char) : Prop :=
  IsPart s ∨ ∃ first second, IsPart first ∧ IsPart second ∧ s = first ++ ':' :: second

def Blank (s : List Char) : Prop := ∀ c ∈ s, isSpace c = true

/-- The local name in small letters. -/
def localLower (name : List Char) : List Char := (splitName name).2.map Char.toLower

structure WrittenAttr.WellFormed (a : WrittenAttr) : Prop where
  apart : a.before ≠ []
  before : Blank a.before
  name : IsName a.name
  beforeEquals : Blank a.beforeEquals
  afterEquals : Blank a.afterEquals
  quote : isQuote a.quote = true
  closed : a.quote ∉ a.raw
  inside : '<' ∉ a.raw
  references : ∃ value, decodeRefs a.raw = .ok value

structure StartTag.WellFormed (t : StartTag) : Prop where
  name : IsName t.name
  attrs : ∀ a ∈ t.attrs, a.WellFormed
  once : (t.attrs.map (·.name)).Nodup
  space : Blank t.space

/-- An attribute with its references decoded. -/
def WrittenAttr.read (a : WrittenAttr) : Attr := ⟨a.name, (decodeRefs a.raw).toOption.getD []⟩

def StartTag.read (t : StartTag) : List Attr := t.attrs.map WrittenAttr.read

end Names

section Namespaces

/-- What a tag says a prefix means. -/
def StartTag.declares (t : StartTag) (pre : List Char) : Option (List Char) :=
  (t.read.find? fun a => declared a.name = some pre).map (·.value)

/-- What a prefix means inside elements, innermost first. -/
def resolve : List StartTag → List Char → Option (List Char)
  | [], pre => rootScope.lookup pre
  | t :: ts, pre => (t.declares pre).or (resolve ts pre)

/-- No prefix means HTML or MathML. -/
def NoForeign (p : Platform) (tags : List StartTag) : Prop :=
  ∀ pre uri, resolve tags pre = some uri →
    ¬ xhtmlNs <:+: toLowerCase p uri ∧ ¬ mathmlNs <:+: toLowerCase p uri

end Namespaces

section Styles

/-- Every `url(` points inside the file. -/
def UrlsStay (css : List Char) : Prop :=
  ∀ x y target, css = x ++ y → urlTarget y = some target → target.head? = some '#'

/-- Nothing in the style loads or runs anything. -/
structure CssStays (css : List Char) : Prop where
  urls : UrlsStay css
  words : ∀ x y, css = x ++ y → y ≠ [] → forbiddenAt x.getLast? y = false
  html : ¬ xhtmlNs <:+: css

/-- A style as it is written and without its comments, in small letters. -/
structure StyleStays (p : Platform) (css : List Char) : Prop where
  plain : '\\' ∉ css
  written : CssStays (toLowerCase p css)
  bare : CssStays (stripCssComments (toLowerCase p css))

/-- What a piece adds to the text of a style element. -/
def Piece.css : Piece → List Char
  | .chars s => (decodeRefs s).toOption.getD []
  | .cdata s => s
  | _ => []

def Content.css : Content → List Char
  | .nil => []
  | .leaf piece rest => piece.css ++ Content.css rest
  | .node _ _ _ rest => Content.css rest

def Content.NoElements : Content → Prop
  | .nil => True
  | .leaf piece rest => (∀ t, piece ≠ .empty t) ∧ Content.NoElements rest
  | .node .. => False

def StartTag.IsStyle (t : StartTag) : Prop := localLower t.name = "style".toList

end Styles

section Clean

/-- An attribute whose value is read as a style. -/
def Attr.Styled (a : Attr) : Prop :=
  localLower a.name = "style".toList ∨
    ((splitName a.name).1 = [] ∧ localLower a.name ≠ "href".toList ∧
      ¬ isNameAttr (localLower a.name) = true)

/-- A raster image inside the link itself. -/
def EmbeddedImage (v : List Char) : Prop :=
  ∃ kind ∈ ["png", "jpeg", "gif", "webp"], ∃ data pad,
    v = "data:image/".toList ++ (kind.toList ++ (";base64,".toList ++ (data ++ pad))) ∧
      (∀ c ∈ data, isBase64Char c = true) ∧ pad ∈ [[], ['='], ['=', '=']]

structure Attr.Clean (p : Platform) (a : Attr) : Prop where
  handler : ¬ ['o', 'n'] <+: localLower a.name
  html : ¬ xhtmlNs <:+: compact p a.value
  script : ∀ scheme ∈ scriptSchemes, ¬ scheme <:+: compact p a.value
  link : localLower a.name = "href".toList → compact p a.value = [] ∨
    (compact p a.value).head? = some '#' ∨ EmbeddedImage (compact p a.value)
  style : a.Styled → a.value = [] ∨ StyleStays p a.value
  value : ¬ a.Styled → UrlsStay (decodeCssEscapes (toLowerCase p a.value))

/-- A tag inside elements, innermost first. -/
structure StartTag.Clean (p : Platform) (above : List StartTag) (t : StartTag) : Prop where
  wellFormed : t.WellFormed
  bound : ∃ uri, resolve (t :: above) (splitName t.name).1 = some uri ∧
    (uri = svgNs → (splitName t.name).2 ∈ svgElements)
  allowed : localLower t.name ∉ forbiddenElements
  noForeign : NoForeign p (t :: above)
  attrs : ∀ a ∈ t.read, a.Clean p
  prefixes : ∀ a ∈ t.read, (splitName a.name).1 = [] ∨ (splitName a.name).1 = "xmlns".toList ∨
    (resolve (t :: above) (splitName a.name).1).isSome

/-- No stylesheet is linked and no XML declaration comes late. -/
def CleanInstruction (p : Platform) (s : List Char) : Prop :=
  ¬ ['x', 'm', 'l'] <+:
    toLowerCase p (s.takeWhile fun c => !EchoAndAura.isSpace c && c ≠ '?')

def Piece.Clean (p : Platform) (above : List StartTag) : Piece → Prop
  | .chars s => '<' ∉ s ∧ ∃ text, decodeRefs s = .ok text
  | .comment s => EndsAt ['-', '-', '>'] s
  | .cdata s => EndsAt [']', ']', '>'] s
  | .instruction s => EndsAt ['?', '>'] s ∧ CleanInstruction p s
  | .empty t => t.Clean p above

/-- What an end tag closes. -/
structure EndTag.Closes (e : EndTag) (t : StartTag) : Prop where
  name : e.name = t.name
  space : Blank e.space

def Content.Clean (p : Platform) : List StartTag → Content → Prop
  | _, .nil => True
  | above, .leaf piece rest => piece.Clean p above ∧ Content.Clean p above rest
  | above, .node t inner e rest => t.Clean p above ∧ e.Closes t ∧
    (t.IsStyle → Content.NoElements inner ∧
      (Content.css inner = [] ∨ StyleStays p (Content.css inner))) ∧
    Content.Clean p (t :: above) inner ∧ Content.Clean p above rest

end Clean

/-- What may stand beside the root. -/
def Piece.Misc (p : Platform) : Piece → Prop
  | .chars s => '<' ∉ s ∧ trimmed s = []
  | .comment s => EndsAt ['-', '-', '>'] s
  | .instruction s => EndsAt ['?', '>'] s ∧ CleanInstruction p s
  | .cdata _ => False
  | .empty _ => False

/-- The root is an `svg` of the SVG namespace. -/
def StartTag.IsSvg (t : StartTag) : Prop :=
  t.name = "svg".toList ∧ resolve [t] [] = some svgNs

inductive Root
  | empty (tag : StartTag)
  | element (tag : StartTag) (inner : Content) (closing : EndTag)

namespace Root

def tag : Root → StartTag
  | .empty t => t
  | .element t _ _ => t

def content : Root → Content
  | .empty t => .leaf (.empty t) .nil
  | .element t inner e => .node t inner e .nil

end Root

structure Document where
  declaration : Option (List Char)
  before : List Piece
  root : Root
  after : List Piece

namespace Document

def declarationText : Option (List Char) → List Char
  | none => []
  | some declaration => ['<', '?', 'x', 'm', 'l'] ++ (declaration ++ ['?', '>'])

def text (d : Document) : List Char :=
  declarationText d.declaration ++ (d.before.flatMap Piece.text ++
    (Content.text d.root.content ++ d.after.flatMap Piece.text))

/-- An XML declaration that names no encoding but UTF-8. -/
structure CleanDeclaration (s : List Char) : Prop where
  blank : ∃ c rest, s = c :: rest ∧ isSpace c = true
  closed : EndsAt ['?', '>'] s
  encoding : ∀ e ∈ declaredEncoding s, isUtf8 e = true

structure Clean (p : Platform) (d : Document) : Prop where
  chars : checkChars d.text = .ok ()
  declaration : ∀ declaration ∈ d.declaration, CleanDeclaration declaration
  before : ∀ piece ∈ d.before, piece.Misc p
  root : Content.Clean p [] d.root.content
  svg : d.root.tag.IsSvg
  after : ∀ piece ∈ d.after, piece.Misc p

end Document

section Elements

/-- A start tag with those around it, innermost first, and what its end tag closes. -/
structure Element where
  above : List StartTag
  tag : StartTag
  inner : Content

/-- The elements of a forest, in the order of their start tags. -/
def Content.elements : List StartTag → Content → List Element
  | _, .nil => []
  | above, .leaf (.empty t) rest => ⟨above, t, .nil⟩ :: Content.elements above rest
  | above, .leaf (.chars _) rest => Content.elements above rest
  | above, .leaf (.comment _) rest => Content.elements above rest
  | above, .leaf (.cdata _) rest => Content.elements above rest
  | above, .leaf (.instruction _) rest => Content.elements above rest
  | above, .node t inner _ rest =>
    ⟨above, t, inner⟩ :: (Content.elements (t :: above) inner ++ Content.elements above rest)

def Document.elements (d : Document) : List Element := Content.elements [] d.root.content

/-- What an element may be, its prefixes read as the elements around it declare them. -/
structure Element.Sound (p : Platform) (x : Element) : Prop where
  listed : resolve (x.tag :: x.above) (splitName x.tag.name).1 = some svgNs →
    (splitName x.tag.name).2 ∈ svgElements
  allowed : localLower x.tag.name ∉ forbiddenElements
  noForeign : NoForeign p (x.tag :: x.above)
  handlers : ∀ a ∈ x.tag.read, ¬ ['o', 'n'] <+: localLower a.name
  links : ∀ a ∈ x.tag.read, localLower a.name = "href".toList → compact p a.value = [] ∨
    (compact p a.value).head? = some '#' ∨ EmbeddedImage (compact p a.value)
  styles : ∀ a ∈ x.tag.read, a.Styled → UrlsStay (toLowerCase p a.value)
  css : x.tag.IsStyle → UrlsStay (toLowerCase p (Content.css x.inner))

end Elements

end SvgScreen

end EchoAndAura
