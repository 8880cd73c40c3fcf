import ApiBindings.Decimal.Shortest
import ApiBindings.Json.Basic
import ApiBindings.Text.Printable
/-!
# Literals

How messages spell a value.  A text stands in single quotes, or in double
quotes when it holds single quotes only; numbers have the fewest digits that
read back, written with an exponent outside `1e-4` up to `1e16`.
-/

namespace ApiBindings
namespace Literal

/-- The lower-case hexadecimal digits of a number, with zeros up to a width. -/
def hex (width code : Nat) : Text :=
  let digits := Nat.toDigits 16 code
  Text.ofChars (List.replicate (width - digits.length) '0' ++ digits)

/-- One character within quotes. -/
def character (quote c : Char) : Text :=
  if c = '\\' ∨ c = quote then ['\\', c]
  else if c = '\n' then "\\n"
  else if c = '\r' then "\\r"
  else if c = '\t' then "\\t"
  else if Text.isPrintable c then [c]
  else if c.toNat < 0x100 then "\\x" ++ hex 2 c.toNat
  else if c.toNat < 0x10000 then "\\u" ++ hex 4 c.toNat
  else "\\U" ++ hex 8 c.toNat

/-- One code point within quotes. -/
def code (quote : Char) : Code → Text
  | .char c => character quote c
  | surrogate => "\\u" ++ hex 4 surrogate.value

/-- A text in quotes. -/
def text (s : Text) : Text :=
  let quote := if s.contains '\'' && !s.contains '"' then '"' else '\''
  [.char quote] ++ s.flatMap (code quote) ++ [.char quote]

/-- Digits with the point after the given number of them. -/
def positional (digits : List Char) (point : Int) : Text :=
  Text.ofChars <|
    if point ≤ 0 then '0' :: '.' :: (List.replicate (-point).toNat '0' ++ digits)
    else if (digits.length : Int) ≤ point then
      digits ++ List.replicate (point.toNat - digits.length) '0' ++ ['.', '0']
    else digits.take point.toNat ++ '.' :: digits.drop point.toNat

/-- Digits with the point after the first and an exponent of at least two digits. -/
def scientific (digits : List Char) (exponent : Int) : Text :=
  let mantissa := match digits with
    | [] => []
    | [d] => [d]
    | d :: rest => d :: '.' :: rest
  let magnitude := Nat.toDigits 10 exponent.natAbs
  Text.ofChars (mantissa ++ 'e' :: (if exponent < 0 then '-' else '+') ::
    (List.replicate (2 - magnitude.length) '0' ++ magnitude))

/-- The magnitude of a finite number: positional while its leading digit stands
for a power of ten from -4 to 15. -/
def magnitude (x : Binary64) : Text :=
  if x.isZero then "0.0"
  else
    let d := Decimal.shortest x
    let digits := Nat.toDigits 10 d.digits
    let point : Int := digits.length + d.exponent
    if -4 < point ∧ point ≤ 16 then positional digits point else scientific digits (point - 1)

/-- A binary64 number. -/
def float (x : Binary64) : Text :=
  if x.isNaN then "nan"
  else (if x.isNegative then "-" else [] : Text) ++ (if x.isFinite then magnitude x else "inf")

end Literal

namespace Json

mutual

/-- The literal of a value. -/
def literal : Json → Text
  | .null => "None"
  | .bool b => if b then "True" else "False"
  | .int n => Text.ofInt n
  | .float x => Literal.float x
  | .str text => Literal.text text
  | .arr items => "[" ++ Text.join ", " (literals items) ++ "]"
  | .obj entries => "\x7b" ++ Text.join ", " (entryLiterals entries) ++ "\x7d"

/-- The literals of the items of a list. -/
def literals : List Json → List Text
  | [] => []
  | item :: rest => literal item :: literals rest

/-- The literals of the entries of an object. -/
def entryLiterals : List (Text × Json) → List Text
  | [] => []
  | (key, value) :: rest => (Literal.text key ++ ": " ++ literal value) :: entryLiterals rest

end

/-- A value as running text: a text stands for itself, all else is its literal. -/
def display : Json → Text
  | .str text => text
  | value => value.literal

end Json

/-- The literal of a list of texts. -/
def Literal.texts (texts : List Text) : Text :=
  "[" ++ Text.join ", " (texts.map Literal.text) ++ "]"

end ApiBindings
