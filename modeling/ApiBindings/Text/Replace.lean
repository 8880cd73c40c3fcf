import ApiBindings.Text.Basic
/-!
# Replacing in a text

One scan from left to right replaces every occurrence of a pattern.  The
occurrences never overlap, and the text put in their place is not scanned
again.
-/

namespace ApiBindings
namespace Text

/-- The length of the occurrence that starts a text, if one does.  An
occurrence of length zero counts as none. -/
abbrev Pattern := Text → Option Nat

/-- Replace the occurrences of a pattern, each by a text made from it.  The
numeric argument counts the code points that belong to an occurrence already
replaced. -/
def replaceFrom (pattern : Pattern) (replace : Text → Text) : Nat → Text → Text
  | _, [] => []
  | skip + 1, _ :: rest => replaceFrom pattern replace skip rest
  | 0, c :: rest =>
    match pattern (c :: rest) with
    | some (length + 1) =>
      replace ((c :: rest).take (length + 1)) ++ replaceFrom pattern replace length rest
    | _ => c :: replaceFrom pattern replace 0 rest

/-- Replace every occurrence of a pattern by one text. -/
def replacePattern (pattern : Pattern) (replacement text : Text) : Text :=
  replaceFrom pattern (fun _ => replacement) 0 text

/-- The occurrences of a fixed word. -/
def word (w : Text) : Pattern := fun text =>
  if w.isPrefixOf text then some w.length else none

/-- Whether a word stands somewhere in a text. -/
def holdsWord (w : Text) : Text → Bool
  | [] => w.isEmpty
  | c :: rest => w.isPrefixOf (c :: rest) || holdsWord w rest

/-- Replace every occurrence of a fixed word. -/
def replaceWord (w replacement text : Text) : Text :=
  replacePattern (word w) replacement text

/-- A fixed word with the rest of its line, which must not be empty. -/
def wordAndLine (w : Text) : Pattern := fun text =>
  if w.isPrefixOf text then
    let line := (text.drop w.length).takeWhile (· ≠ .char '\n')
    if line.isEmpty then none else some (w.length + line.length)
  else none

/-- A fixed word with the rest of its line, which must not be empty, and the
newline that ends it. -/
def wordAndFullLine (w : Text) : Pattern := fun text =>
  match wordAndLine w text with
  | some length => if (text.drop length).head? = some (.char '\n') then some (length + 1) else none
  | none => none

end Text
end ApiBindings
