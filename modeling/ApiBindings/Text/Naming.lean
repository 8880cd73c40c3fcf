import ApiBindings.Text.Upper
/-!
# Names

How names of the description become names of generated declarations, and what
an identifier is.
-/

namespace ApiBindings
namespace Text

/-- Raise the first character and leave the rest alone. -/
def capitalizeFirst : Text → Text
  | [] => []
  | c :: rest => upperCode c ++ rest

/-- Remove one pair of matching quotes around a text. -/
def unquote : Text → Text
  | [] => []
  | quote :: rest =>
    if (quote = '\'' ∨ quote = '"') ∧ rest.getLast? = some quote then rest.dropLast
    else quote :: rest

/-- The enum member for a literal: unquoted, hyphens lowered, all upper case. -/
def enumConstant (literal : Text) : Text :=
  upper ((unquote literal).map fun c => if c = .char '-' then .char '_' else c)

/-- The characters that may start an identifier. -/
def isIdentifierStart (c : Char) : Bool :=
  ('A' ≤ c && c ≤ 'Z') || ('a' ≤ c && c ≤ 'z') || c = '_'

/-- The characters that may continue an identifier. -/
def isIdentifierRest (c : Char) : Bool :=
  isIdentifierStart c || ('0' ≤ c && c ≤ '9')

/-- Whether a text is an identifier, alone or followed by one newline. -/
def isIdentifierLine : Text → Bool
  | [] => false
  | c :: rest =>
    let behind := rest.dropWhile (Code.isIn isIdentifierRest)
    c.isIn isIdentifierStart && (behind = [] || behind = [.char '\n'])

/-- The identifiers in a text from left to right, each as long as possible.
The first argument holds the identifier under way in reverse. -/
def identifiersFrom (current : Text) : Text → List Text
  | [] => if current.isEmpty then [] else [current.reverse]
  | c :: rest =>
    if current.isEmpty then
      if c.isIn isIdentifierStart then identifiersFrom [c] rest else identifiersFrom [] rest
    else if c.isIn isIdentifierRest then identifiersFrom (c :: current) rest
    else current.reverse :: identifiersFrom [] rest

/-- The identifiers in a text, from left to right. -/
def identifiers (text : Text) : List Text :=
  identifiersFrom [] text

end Text
end ApiBindings
