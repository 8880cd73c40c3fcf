import ApiBindings.Schema.TypeNode
/-!
# Canonical expressions

The text of a type, the same for all orders of the members of its unions, so
that a setting can name the type it replaces.
-/

namespace ApiBindings
namespace TypeNode

/-- A name with its arguments, if it has any. -/
def templated (name : Text) (args : List Text) : Text :=
  if args.isEmpty then name else name ++ "<" ++ Text.join ", " args ++ ">"

/-- The members of a union in the order of their code points, with the name
around them if there is one. -/
def unionExpression (name : Text) (members : List Text) : Text :=
  let joined := Text.join "|" (members.mergeSort Text.le)
  if name = "" then joined else name ++ "<" ++ joined ++ ">"

mutual

/-- The canonical text of a type. -/
def expression : TypeNode → Text
  | .primitive name _ => name
  | .array _ element => templated "Array" [expression element]
  | .map name _ key value => templated name [expression key, expression value]
  | .union name _ members => unionExpression name (expressions members)
  | .generic name _ args => templated name (expressions args)
  | .bareFunction .. => "function"
  | .function _ args none => "function(" ++ Text.join ", " (expressions args) ++ ")"
  | .function _ args (some result) =>
    "function(" ++ Text.join ", " (expressions args) ++ "):" ++ expression result
  | .record .. => "Object"

/-- The canonical texts of some types. -/
def expressions : List TypeNode → List Text
  | [] => []
  | node :: rest => expression node :: expressions rest

end

end TypeNode
end ApiBindings
