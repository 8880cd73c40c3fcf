import ApiBindings.Decimal.Binary64
import ApiBindings.Text.Basic
/-!
# Ordered JSON values

A JSON value keeps the order of the entries of its objects and tells integers
from binary64 numbers.  An object read from text has pairwise distinct keys.
-/

namespace ApiBindings

/-- A JSON value. -/
inductive Json where
  | null
  | bool (b : Bool)
  | int (n : Int)
  | float (x : Binary64)
  | str (text : Text)
  | arr (items : List Json)
  | obj (entries : List (Text × Json))
deriving Repr, Inhabited

namespace Json

/-- The value under a key, for an object that has it. -/
def get? (key : Text) : Json → Option Json
  | .obj entries => Text.find? key entries
  | _ => none

/-- The text, for a text. -/
def asText? : Json → Option Text
  | .str text => some text
  | _ => none

/-- Whether a value is this text. -/
def isText (text : Text) : Json → Bool
  | .str t => text = t
  | _ => false

/-- Whether a value counts as given: null, false, zero and everything empty do not. -/
def isTruthy : Json → Bool
  | .null => false
  | .bool b => b
  | .int n => n ≠ 0
  | .float x => !x.isZero
  | .str text => !text.isEmpty
  | .arr items => !items.isEmpty
  | .obj entries => !entries.isEmpty

def isNull : Json → Bool
  | .null => true
  | _ => false

/-- The name of the kind of a value, as messages spell it. -/
def kindName : Json → Text
  | .null => "NoneType"
  | .bool _ => "bool"
  | .int _ => "int"
  | .float _ => "float"
  | .str _ => "str"
  | .arr _ => "list"
  | .obj _ => "dict"

/-- Put a value under a key: in place of the old one, or behind all others. -/
def setEntry (key : Text) (value : Json) : List (Text × Json) → List (Text × Json)
  | [] => [(key, value)]
  | (k, v) :: rest => if k = key then (k, value) :: rest else (k, v) :: setEntry key value rest

/-- Whether a value can be looked up: lists and objects cannot. -/
def isKey : Json → Bool
  | .arr _ => false
  | .obj _ => false
  | _ => true

/-- The number that a truth value stands for in comparisons. -/
def asInt? : Json → Option Int
  | .bool b => some (if b then 1 else 0)
  | .int n => some n
  | _ => none

mutual

/-- Whether two values are equal.  Numbers are compared as numbers, with a
truth value counting as zero or one, and objects regardless of order. -/
def same : Json → Json → Bool
  | .null, .null => true
  | .str s, .str t => s = t
  | .arr xs, .arr ys => sameItems xs ys
  | .obj es, .obj fs => es.length = fs.length && sameEntries es fs
  | .float x, .float y => x.sameNumber y
  | .float x, y => match y.asInt? with
    | some n => x.isInt n
    | none => false
  | x, .float y => match x.asInt? with
    | some n => y.isInt n
    | none => false
  | .bool b, y => y.asInt? = some (if b then 1 else 0)
  | .int n, y => y.asInt? = some n
  | _, _ => false

/-- Whether two lists have equal values in every position. -/
def sameItems : List Json → List Json → Bool
  | [], [] => true
  | x :: xs, y :: ys => same x y && sameItems xs ys
  | _, _ => false

/-- Whether every entry of the first list has an equal value in the second. -/
def sameEntries : List (Text × Json) → List (Text × Json) → Bool
  | [], _ => true
  | (k, v) :: rest, fs =>
    (match Text.find? k fs with
     | some w => same v w
     | none => false) && sameEntries rest fs

end

end Json
end ApiBindings
