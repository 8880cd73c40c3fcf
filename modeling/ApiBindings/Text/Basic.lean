/-!
# Texts

A text is a list of code points.  Nearly all of them are characters; but JSON
can also spell one half of a surrogate pair alone, which is no character and
still a code point.  Such a text can be carried along and shown, but it cannot
be encoded, so no file can hold it.
-/

namespace ApiBindings

/-- A code point: a character or a surrogate. -/
inductive Code where
  | char (c : Char)
  /-- The surrogate at this distance from the first one. -/
  | surrogate (offset : Fin 2048)
deriving DecidableEq, Repr

namespace Code

/-- The number of a code point. -/
def value : Code → Nat
  | char c => c.toNat
  | surrogate offset => 0xD800 + offset.val

/-- The surrogate of this number. -/
def ofSurrogate (value : Nat) : Code :=
  .surrogate (Fin.ofNat 2048 (value - 0xD800))

/-- Whether a code point is a character of some class. -/
def isIn (characters : Char → Bool) : Code → Bool
  | char c => characters c
  | surrogate _ => false

end Code

/-- A text. -/
abbrev Text := List Code

namespace Text

/-- The text of some characters. -/
def ofChars (chars : List Char) : Text := chars.map Code.char

/-- A string as a text. -/
def ofString (s : String) : Text := ofChars s.toList

end Text

instance : Coe Char Code := ⟨Code.char⟩

instance : Coe String Text := ⟨Text.ofString⟩

namespace Text

/-- The characters of a text, if it holds no surrogates. -/
def chars? : Text → Option (List Char)
  | [] => some []
  | .char c :: rest => (chars? rest).map (c :: ·)
  | .surrogate _ :: _ => none

/-- A text as a string, if it holds no surrogates. -/
def toString? (text : Text) : Option String :=
  text.chars?.map String.ofList

/-- Whether a text can be a name of files.  There the upper surrogates from 128
on stand for the bytes that belong to no character. -/
def isEncodable (text : Text) : Bool :=
  text.all fun
    | .char _ => true
    | .surrogate offset => 0x480 ≤ offset.val && offset.val < 0x500

/-- The number of bytes that a text takes as a name of files. -/
def byteCount : Text → Nat
  | [] => 0
  | .char c :: rest => c.utf8Size + byteCount rest
  | .surrogate _ :: rest => 1 + byteCount rest

/-- A text as a string that shows a surrogate by its number. -/
def shown (text : Text) : String :=
  String.ofList (text.flatMap fun
    | .char c => [c]
    | .surrogate offset => '\\' :: 'u' :: Nat.toDigits 16 (0xD800 + offset.val))

/-- The text of a decimal number. -/
def ofInt (n : Int) : Text := (toString n : String)

/-- Texts put one after the other, with a separator between them. -/
def join (separator : Text) (parts : List Text) : Text :=
  List.intercalate separator parts

/-- The order of texts by the numbers of their code points, a shorter text before
the longer ones that start with it. -/
def le : Text → Text → Bool
  | [], _ => true
  | _ :: _, [] => false
  | a :: as, b :: bs => a.value < b.value || (a.value = b.value && le as bs)

/-- The value under a key. -/
def find? {α : Type} (key : Text) (entries : List (Text × α)) : Option α :=
  entries.lookup key

end Text
end ApiBindings
