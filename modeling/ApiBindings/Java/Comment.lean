import ApiBindings.Text.Blank
import ApiBindings.Text.Replace
/-!
# Documentation comments

A description in light markup becomes the body of a documentation comment:
code fences and example headers are dropped, paragraphs are marked, code spans
and notes are marked up, and the end of a comment cannot occur inside one.
-/

namespace ApiBindings
namespace Java

/-- How many code points come before the first two adjacent backticks. -/
def beforeBackticks : Text → Option Nat
  | [] => none
  | .char '`' :: .char '`' :: _ => some 0
  | _ :: rest => (beforeBackticks rest).map (· + 1)

/-- A fenced code block with the newlines around it.  Its body is not empty,
has no two adjacent backticks, and neither starts nor ends with a backtick. -/
def fencedBlock : Text.Pattern
  | .char '\n' :: .char '`' :: .char '`' :: .char '`' :: rest =>
    match beforeBackticks rest with
    | some (length + 1) =>
      if rest.head? ≠ some (.char '`') ∧
          List.isPrefixOf ("```\n" : Text) (rest.drop (length + 1)) then
        some (length + 9)
      else none
    | _ => none
  | _ => none

/-- A description without code blocks and example headers, with its paragraphs
marked. -/
def cleanMarkup (text : Text) : Text :=
  let text := Text.replacePattern fencedBlock "" text
  let text := Text.replacePattern (Text.wordAndFullLine "\nAn example of") "" text
  let text := Text.replacePattern (Text.wordAndFullLine "\nThis example ") "" text
  let text := Text.replaceWord "\nExamples:\n" "" text
  let text := Text.replacePattern (Text.wordAndLine "\nSee ChromiumBrowser") "\n" text
  let text := Text.replaceWord "\n> " "\n" text
  Text.replaceWord "\n\n" "\n\n<p> " text

/-- A code span: backticks around a text without backticks that is not empty. -/
def codeSpan : Text.Pattern
  | .char '`' :: rest =>
    let body := rest.takeWhile (· ≠ .char '`')
    if body.isEmpty ∨ (rest.drop body.length).isEmpty then none else some (body.length + 2)
  | _ => none

/-- A code span as documentation comments mark it. -/
def markCode (span : Text) : Text :=
  "\x7b@code " ++ span.tail.dropLast ++ "\x7d"

/-- One line of a documentation comment. -/
def commentLine (indent line : Text) : Text :=
  let line := indent ++ " *" ++ (if line.isEmpty then line else " " ++ line)
  let line := Text.replaceWord "*/" "*\\/" line
  let line := Text.replaceWord "NOTE: " "<strong>NOTE:</strong> " line
  Text.replaceFrom codeSpan markCode 0 line

/-- A text as a documentation comment, or nothing for an empty text. -/
def docComment (text indent : Text) : Text :=
  if text.isEmpty then []
  else
    let lines := (Text.pieces '\n' text).map (commentLine indent)
    Text.join "\n" ((indent ++ "/**") :: lines ++ [indent ++ " */"])

end Java
end ApiBindings
