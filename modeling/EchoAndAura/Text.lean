import Mathlib.Algebra.GroupWithZero.Nat
import Mathlib.Data.List.Basic

/-!
# What people type and cameras read

Ticket codes, pass codes, promo codes and transaction ids as they come in, put into the one form
the database stores.  Upper-casing here knows the letters that end up in ASCII; any other letter
stays itself, and no code holds one.
-/

namespace EchoAndAura

/-- Decided by going through the list, not through all characters. -/
instance decidableForallChar {l : List Char} {p : Char → Prop} [DecidablePred p] :
    Decidable (∀ c ∈ l, p c) := List.decidableBAll p l

instance decidableForallHead {o : Option Char} {p : Char → Prop} [DecidablePred p] :
    Decidable (∀ c ∈ o, p c) := Option.decidableForallMem o

/-- JavaScript's `\s`, which is also what `trim` takes off. -/
def isSpace (c : Char) : Bool :=
  let n := c.toNat
  (0x9 ≤ n && n ≤ 0xd) || n == 0x20 || n == 0xa0 || n == 0x1680 || (0x2000 ≤ n && n ≤ 0x200a) ||
    n == 0x2028 || n == 0x2029 || n == 0x202f || n == 0x205f || n == 0x3000 || n == 0xfeff

def trim (s : String) : String :=
  String.ofList ((s.toList.dropWhile isSpace).reverse.dropWhile isSpace).reverse

def removeSpaces (s : String) : String := String.ofList (s.toList.filter fun c => !isSpace c)

/-- `replace` of one character everywhere. -/
def replaceChar (c : Char) (by_ : List Char) (s : List Char) : List Char :=
  s.flatMap fun x => if x = c then by_ else [x]

/-- `length` in UTF-16 code units. -/
def jsLength (s : String) : Nat :=
  (s.toList.map fun c => if 0xffff < c.toNat then 2 else 1).sum

def upperChar (c : Char) : List Char :=
  match c with
  | 'ſ' => ['S']
  | 'ı' => ['I']
  | 'ß' => ['S', 'S']
  | 'ﬀ' => ['F', 'F']
  | 'ﬁ' => ['F', 'I']
  | 'ﬂ' => ['F', 'L']
  | 'ﬃ' => ['F', 'F', 'I']
  | 'ﬄ' => ['F', 'F', 'L']
  | 'ﬅ' => ['S', 'T']
  | 'ﬆ' => ['S', 'T']
  | c => [c.toUpper]

def toUpperCase (s : String) : String := String.ofList (s.toList.flatMap upperChar)

/-- The zero of each digit set people here may type: Bangla, Arabic-Indic, Persian. -/
def zeros : List Nat := [0x09e6, 0x0660, 0x06f0]

def normaliseDigit (c : Char) : Char :=
  match zeros.find? fun z => z ≤ c.toNat && c.toNat ≤ z + 9 with
  | some z => Char.ofNat ('0'.toNat + (c.toNat - z))
  | none => c

def normaliseDigits (value : String) : String := String.ofList (value.toList.map normaliseDigit)

section TicketCode

def scanInputMax : Nat := 512

def codeAlphabet : List Char := "ABCDEFGHJKMNPQRSTUVWXYZ23456789".toList

def ticketCodePrefix : List Char := ['T', 'K', 'T', '-']

/-- `TICKET_CODE_PATTERN`. -/
def isTicketCode (s : List Char) : Bool :=
  s.take 4 == ticketCodePrefix && (s.drop 4).length == 8 && (s.drop 4).all codeAlphabet.contains

/-- `[A-Za-z0-9-]`. -/
def isSlugChar (c : Char) : Bool := c.isAlphanum || c == '-'

/-- The first `/tickets/…` of a text with a code after it, as `/\/tickets\/([A-Za-z0-9-]+)/`. -/
def inUrl : List Char → Option (List Char)
  | [] => none
  | c :: cs =>
    if (c :: cs).take 9 == "/tickets/".toList && !(((c :: cs).drop 9).takeWhile isSlugChar).isEmpty
    then some (((c :: cs).drop 9).takeWhile isSlugChar)
    else inUrl cs

/-- Drops `TKT` and a dash after it, as `/^TKT-?/`. -/
def dropTkt (s : List Char) : List Char :=
  if s.take 3 == ['T', 'K', 'T'] then
    if (s.drop 3).head? == some '-' then s.drop 4 else s.drop 3
  else s

/-- Whatever a camera or a keyboard produced, as a ticket code. -/
def parseScanToken (raw : String) : Option String :=
  if jsLength raw == 0 || scanInputMax < jsLength raw then none
  else
    let s := trim (normaliseDigits raw)
    let s := ((inUrl s.toList).map String.ofList).getD s
    let upper := removeSpaces (toUpperCase s)
    let code := ticketCodePrefix ++ dropTkt upper.toList
    if isTicketCode code then some (String.ofList code) else none

/-- What the scan log stores: the code when it parsed, never stray QR text. -/
def scanLogInput (raw : String) (code : Option String) : String :=
  code.getD s!"<unparsed:len={jsLength raw}>"

end TicketCode

/-- "k7qm 4xpd-r2tw" is "K7QM4XPDR2TW"; none when it cannot be a pass code. -/
def normalisePassCode (raw : String) : Option String :=
  let code := (toUpperCase raw).toList.filter fun c => !(isSpace c || c == '-')
  if code.length == 12 && code.all codeAlphabet.contains then some (String.ofList code) else none

def normalisePromoCode (raw : String) : String := toUpperCase (removeSpaces (normaliseDigits raw))

/-- Codes are typed and read aloud. -/
def normaliseTicketCode (raw : String) : String := toUpperCase (trim (normaliseDigits raw))

/-- `replace(/\s+/g, ' ')`; `after` when the character before was a space. -/
def collapseSpaces (after : Bool) : List Char → List Char
  | [] => []
  | c :: cs =>
    if !isSpace c then c :: collapseSpaces false cs
    else if after then collapseSpaces true cs
    else ' ' :: collapseSpaces true cs

def nameMin : Nat := 2
def nameMax : Nat := 120

/-- Trimmed, whitespace-collapsed; none when the rule fails. -/
def normaliseAttendeeName (raw : String) : Option String :=
  let name := String.ofList (collapseSpaces false (trim raw).toList)
  if jsLength name < nameMin || nameMax < jsLength name then none else some name

/-- A bKash transaction id as it is stored. -/
def normaliseTrxId (raw : String) : String := toUpperCase (trim (normaliseDigits raw))

example : parseScanToken " tkt 4h8zp2xq " = some "TKT-4H8ZP2XQ" := by decide

example : parseScanToken "https://x/tickets/TKT-4H8ZP2XQ?from=mail" = some "TKT-4H8ZP2XQ" := by
  decide

end EchoAndAura
