import ApiBindings.Failure
import ApiBindings.Text.Replace
/-!
# Checking Java text

A file has to declare a package and a type, and its braces have to balance
outside comments.
-/

namespace ApiBindings
namespace Java

/-- How many characters there are up to the end of a block comment. -/
def blockCommentRest : Text → Option Nat
  | [] => none
  | .char '*' :: .char '/' :: _ => some 2
  | _ :: rest => (blockCommentRest rest).map (· + 1)

/-- A comment: a block up to its first end, or the rest of a line. -/
def comment : Text.Pattern
  | .char '/' :: .char '*' :: rest => (blockCommentRest rest).map (· + 2)
  | .char '/' :: .char '/' :: rest => some ((rest.takeWhile (· ≠ .char '\n')).length + 2)
  | _ => none

/-- A text without its comments. -/
def stripComments (text : Text) : Text :=
  Text.replaceFrom comment (fun _ => []) 0 text

/-- Whether a word stands somewhere in a text. -/
def mentions (text word : Text) : Bool :=
  Text.holdsWord word text

/-- What is wrong with a Java text, if anything is. -/
def defect? (text : Text) : Option Cause :=
  if !mentions text "package " then some .noPackage
  else if !mentions text "interface " && !mentions text "class " && !mentions text "enum " then
    some .noDeclaration
  else
    let code := stripComments text
    let opening := code.count (.char '\x7b')
    let closing := code.count (.char '\x7d')
    if opening = closing then none else some (.unbalancedBraces opening closing)

end Java
end ApiBindings
