import ApiBindings.Json.Basic
/-!
# Reading JSON text

The reader takes the JSON grammar, with `NaN`, `Infinity` and `-Infinity` as
further numbers.  A number with neither fraction nor exponent is an integer,
which may not have too many digits.  When a key comes twice in an object its
last value counts, in the place of the first.  Every recursive step is paid
from a count that starts above the number of characters, and each of them
consumes a character.
-/

namespace ApiBindings
namespace Json

/-- Why a text could not be read. -/
inductive Unreadable where
  /-- It does not follow the grammar. -/
  | malformed
  /-- It has an integer of too many digits. -/
  | tooManyDigits
deriving DecidableEq, Repr

namespace Reader

/-- The characters that may stand between tokens. -/
def isSpace (c : Char) : Bool :=
  c = ' ' || c = '\t' || c = '\n' || c = '\r'

def skipSpace (text : List Char) : List Char :=
  text.dropWhile isSpace

def digitValue? (c : Char) : Option Nat :=
  if '0' ≤ c ∧ c ≤ '9' then some (c.toNat - '0'.toNat) else none

def hexValue? (c : Char) : Option Nat :=
  if '0' ≤ c ∧ c ≤ '9' then some (c.toNat - '0'.toNat)
  else if 'a' ≤ c ∧ c ≤ 'f' then some (c.toNat - 'a'.toNat + 10)
  else if 'A' ≤ c ∧ c ≤ 'F' then some (c.toNat - 'A'.toNat + 10)
  else none

/-- A run of digits added to a number: the number, how many digits, the rest. -/
def digits (value count : Nat) : List Char → Nat × Nat × List Char
  | [] => (value, count, [])
  | c :: rest =>
    match digitValue? c with
    | some d => digits (10 * value + d) (count + 1) rest
    | none => (value, count, c :: rest)

/-- Four hexadecimal digits. -/
def hexCode? : List Char → Option (Nat × List Char)
  | a :: b :: c :: d :: rest => do
    let a ← hexValue? a
    let b ← hexValue? b
    let c ← hexValue? c
    let d ← hexValue? d
    return (((a * 16 + b) * 16 + c) * 16 + d, rest)
  | _ => none

/-- The low surrogate that a text starts with, if it does. -/
def lowSurrogate? : List Char → Option (Nat × List Char)
  | '\\' :: 'u' :: rest =>
    match hexCode? rest with
    | some (unit, rest) => if 0xDC00 ≤ unit ∧ unit < 0xE000 then some (unit, rest) else none
    | none => none
  | _ => none

/-- The code point for a code unit, and the rest: a high surrogate takes the low
one that follows it. -/
def codeOfUnit (unit : Nat) (rest : List Char) : Code × List Char :=
  if 0xD800 ≤ unit ∧ unit < 0xDC00 then
    match lowSurrogate? rest with
    | some (low, rest) =>
      (.char (Char.ofNat (0x10000 + (unit - 0xD800) * 0x400 + (low - 0xDC00))), rest)
    | none => (.ofSurrogate unit, rest)
  else if 0xDC00 ≤ unit ∧ unit < 0xE000 then (.ofSurrogate unit, rest)
  else (.char (Char.ofNat unit), rest)

/-- The code points of a text up to its closing quote, collected in reverse. -/
def quoted : Nat → Text → List Char → Except Unreadable (Text × List Char)
  | 0, _, _ => .error .malformed
  | _ + 1, _, [] => .error .malformed
  | fuel + 1, done, c :: rest =>
    if c = '"' then .ok (done.reverse, rest)
    else if c.toNat < 0x20 then .error .malformed
    else if c ≠ '\\' then quoted fuel (c :: done) rest
    else
      match rest with
      | '"' :: rest => quoted fuel ('"' :: done) rest
      | '\\' :: rest => quoted fuel ('\\' :: done) rest
      | '/' :: rest => quoted fuel ('/' :: done) rest
      | 'b' :: rest => quoted fuel ('\x08' :: done) rest
      | 'f' :: rest => quoted fuel ('\x0c' :: done) rest
      | 'n' :: rest => quoted fuel ('\n' :: done) rest
      | 'r' :: rest => quoted fuel ('\r' :: done) rest
      | 't' :: rest => quoted fuel ('\t' :: done) rest
      | 'u' :: rest =>
        match hexCode? rest with
        | some (unit, rest) =>
          let (code, rest) := codeOfUnit unit rest
          quoted fuel (code :: done) rest
        | none => .error .malformed
      | _ => .error .malformed

/-- The fraction of a number: its digits after those before the point. -/
def fraction (value : Nat) : List Char → Option (Nat × Nat × List Char)
  | '.' :: rest =>
    let (value, count, rest) := digits value 0 rest
    if count = 0 then none else some (value, count, rest)
  | _ => none

/-- The exponent of a number. -/
def exponent : List Char → Option (Int × List Char)
  | c :: rest =>
    if c = 'e' ∨ c = 'E' then
      let (negative, rest) := match rest with
        | '-' :: rest => (true, rest)
        | '+' :: rest => (false, rest)
        | rest => (false, rest)
      let (value, count, rest) := digits 0 0 rest
      if count = 0 then none else some (if negative then -value else value, rest)
    else none
  | [] => none

/-- The most digits that an integer may have. -/
def digitLimit : Nat := 4300

/-- A number without its sign. -/
def magnitude (negative : Bool) (text : List Char) : Except Unreadable (Json × List Char) :=
  let (whole, count, rest) := match text with
    | '0' :: rest => (0, 1, rest)
    | _ => digits 0 0 text
  if count = 0 then .error .malformed
  else
    match fraction whole rest, exponent rest with
    | none, none =>
      if digitLimit < count then .error .tooManyDigits
      else .ok (.int (if negative then -whole else whole), rest)
    | none, some (e, rest) => .ok (.float (Binary64.ofDecimal negative whole e), rest)
    | some (value, places, rest), _ =>
      match exponent rest with
      | some (e, rest) => .ok (.float (Binary64.ofDecimal negative value (e - places)), rest)
      | none => .ok (.float (Binary64.ofDecimal negative value (-places)), rest)

/-- The rest of a text that starts with a word. -/
def afterWord? (w : String) (text : List Char) : Option (List Char) :=
  if w.toList.isPrefixOf text then some (text.drop w.length) else none

/-- The words that are values. -/
def words : List (String × Json) :=
  [("null", .null), ("true", .bool true), ("false", .bool false), ("NaN", .float Binary64.nan),
   ("Infinity", .float (Binary64.infinity false)), ("-Infinity", .float (Binary64.infinity true))]

/-- A value that is neither a text nor a list nor an object. -/
def scalar (text : List Char) : Except Unreadable (Json × List Char) :=
  match words.findSome? fun (w, value) => (afterWord? w text).map (value, ·) with
  | some found => .ok found
  | none =>
    match text with
    | '-' :: rest => magnitude true rest
    | _ => magnitude false text

mutual

/-- The value that a text starts with. -/
def value : Nat → List Char → Except Unreadable (Json × List Char)
  | 0, _ => .error .malformed
  | fuel + 1, '"' :: rest => do
    let (text, rest) ← quoted (fuel + 1) [] rest
    return (.str text, rest)
  | fuel + 1, '[' :: rest =>
    match skipSpace rest with
    | ']' :: rest => .ok (.arr [], rest)
    | rest => do
      let (items, rest) ← items fuel rest
      return (.arr items, rest)
  | fuel + 1, '\x7b' :: rest =>
    match skipSpace rest with
    | '\x7d' :: rest => .ok (.obj [], rest)
    | rest => do
      let (entries, rest) ← entries fuel [] rest
      return (.obj entries, rest)
  | _ + 1, text => scalar text

/-- The items of a list from one of them on, up to the closing bracket. -/
def items : Nat → List Char → Except Unreadable (List Json × List Char)
  | 0, _ => .error .malformed
  | fuel + 1, text => do
    let (item, rest) ← value fuel text
    match skipSpace rest with
    | ']' :: rest => return ([item], rest)
    | ',' :: rest => do
      let (more, rest) ← items fuel (skipSpace rest)
      return (item :: more, rest)
    | _ => throw .malformed

/-- The entries of an object from one of them on, added to those before it, up
to the closing brace. -/
def entries : Nat → List (Text × Json) → List Char →
    Except Unreadable (List (Text × Json) × List Char)
  | 0, _, _ => .error .malformed
  | fuel + 1, done, '"' :: rest => do
    let (key, rest) ← quoted (fuel + 1) [] rest
    match skipSpace rest with
    | ':' :: rest => do
      let (value, rest) ← value fuel (skipSpace rest)
      let done := setEntry key value done
      match skipSpace rest with
      | '\x7d' :: rest => return (done, rest)
      | ',' :: rest => entries fuel done (skipSpace rest)
      | _ => throw .malformed
    | _ => throw .malformed
  | _ + 1, _, _ => .error .malformed

end

end Reader

/-- The value that a text spells, if it spells one and nothing else. -/
def ofText (text : String) : Except Unreadable Json := do
  let chars := Reader.skipSpace text.toList
  let (value, rest) ← Reader.value (2 * chars.length + 2) chars
  if (Reader.skipSpace rest).isEmpty then return value else throw .malformed

end Json
end ApiBindings
