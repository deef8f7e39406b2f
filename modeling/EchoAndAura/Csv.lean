import EchoAndAura.Text

/-!
# The admin's exports

`server/lib/csv.ts`: a header and rows as one file for a spreadsheet.  A string that a spreadsheet
would run as a formula is defused; a number stays a number.
-/

namespace EchoAndAura

section Numbers

/-- A number, a finite one by its decimal digits: 0.d₁d₂… times ten to the `point`. -/
inductive JsNumber
  | nan
  | infinity (negative : Bool)
  | zero
  | finite (negative : Bool) (first : Fin 10) (rest : List (Fin 10)) (point : Int)

def digitChar (d : Fin 10) : Char := Char.ofNat ('0'.toNat + d.val)

def exponent (point : Int) : List Char :=
  'e' :: (if point < 0 then '-' else '+') :: Nat.toDigits 10 (point - 1).natAbs

/-- `Number::toString` of a positive number. -/
def decimal (first : Fin 10) (rest : List (Fin 10)) (point : Int) : List Char :=
  let ds := (first :: rest).map digitChar
  if -5 ≤ point ∧ point ≤ 21 then
    if ds.length ≤ point then ds ++ List.replicate (point.toNat - ds.length) '0'
    else if 0 < point then ds.take point.toNat ++ '.' :: ds.drop point.toNat
    else '0' :: '.' :: (List.replicate point.natAbs '0' ++ ds)
  else if rest.isEmpty then digitChar first :: exponent point
  else digitChar first :: '.' :: (rest.map digitChar ++ exponent point)

/-- `String(value)` of a number. -/
def JsNumber.text : JsNumber → List Char
  | .nan => "NaN".toList
  | .infinity negative => (if negative then ['-'] else []) ++ "Infinity".toList
  | .zero => ['0']
  | .finite negative first rest point =>
    (if negative then ['-'] else []) ++ decimal first rest point

end Numbers

inductive CsvValue
  | string (s : String)
  | number (x : JsNumber)
  | null
  | undefined

/-- `[=+\-@\t\r]`, the characters a formula may start with. -/
def formulaLeads : List Char := ['=', '+', '-', '@', '\t', '\r']

def apostrophe : Char := Char.ofNat 0x27

/-- `/[",\r\n]|^\s|\s$/`. -/
def needsQuotes (s : List Char) : Bool :=
  s.any (['"', ',', '\r', '\n'].contains ·) || s.head?.any isSpace || s.getLast?.any isSpace

def quoteField (safe : List Char) : List Char :=
  if needsQuotes safe then '"' :: (replaceChar '"' ['"', '"'] safe ++ ['"']) else safe

def csvField : CsvValue → List Char
  | .null => []
  | .undefined => []
  | .number x => quoteField x.text
  | .string s =>
    quoteField (if s.toList.head?.any formulaLeads.contains then apostrophe :: s.toList
      else s.toList)

def bom : Char := Char.ofNat 0xfeff

def toCsv (header : List String) (rows : List (List CsvValue)) : List Char :=
  let lines := (header.map CsvValue.string :: rows).map fun r => [','].intercalate (r.map csvField)
  bom :: (['\r', '\n'].intercalate lines ++ ['\r', '\n'])

end EchoAndAura
