import ApiBindings.Text.Basic
/-!
# Blank characters and lines

Blank characters are the white space of the character database together with
the four information separators.  Lines end at any of the line boundaries of
that database, not at the newline alone.
-/

namespace ApiBindings
namespace Text

/-- The blank characters. -/
def isBlank (c : Char) : Bool :=
  let code := c.toNat
  (0x09 ≤ code && code ≤ 0x0D) || (0x1C ≤ code && code ≤ 0x20) || code = 0x85 || code = 0xA0 ||
    code = 0x1680 || (0x2000 ≤ code && code ≤ 0x200A) || code = 0x2028 || code = 0x2029 ||
    code = 0x202F || code = 0x205F || code = 0x3000

/-- A text without the blank characters at both ends. -/
def trim (text : Text) : Text :=
  let start := text.dropWhile (Code.isIn isBlank)
  (start.reverse.dropWhile (Code.isIn isBlank)).reverse

/-- The pieces of a text between the occurrences of a separator. -/
def pieces (separator : Char) : Text → List Text
  | [] => [[]]
  | c :: rest =>
    if c = .char separator then [] :: pieces separator rest
    else match pieces separator rest with
      | [] => [[c]]
      | piece :: others => (c :: piece) :: others

/-- The characters that end a line. -/
def isLineEnd (c : Char) : Bool :=
  let code := c.toNat
  (0x0A ≤ code && code ≤ 0x0D) || (0x1C ≤ code && code ≤ 0x1E) || code = 0x85 ||
    code = 0x2028 || code = 0x2029

/-- The lines of a text, given the code points of the current line in reverse.
A return followed by a newline ends one line, and what follows the last line
end is a line only if it is not empty. -/
def splitLines (current : Text) : Text → List Text
  | [] => if current.isEmpty then [] else [current.reverse]
  | .char '\r' :: .char '\n' :: rest => current.reverse :: splitLines [] rest
  | c :: rest =>
    if c.isIn isLineEnd then current.reverse :: splitLines [] rest
    else splitLines (c :: current) rest

/-- The lines of a text. -/
def lines (text : Text) : List Text :=
  splitLines [] text

/-- Put a margin before the first line and before every other line that is not empty. -/
def indent (margin text : Text) : Text :=
  match lines (text ++ "\n") with
  | [] => margin
  | first :: rest =>
    join "\n" ((margin ++ first) :: rest.map fun line => if line.isEmpty then line else margin ++ line)

end Text
end ApiBindings
