import ApiBindings.Fault
import ApiBindings.Text.Blank
/-!
# Directory trees

A tree of directories and files, without links.  A place is a list of names
from the root.  A path as it is written may also step up with `..`; following it
takes existing directories only, whereas its last step may lead to a place
where there is nothing yet.  Paths and the names in them have a longest length.
-/

namespace ApiBindings

/-- A file or a directory. -/
inductive FileTree where
  | file (text : String)
  | directory (entries : List (Text × FileTree))
deriving Repr

/-- A list of names from the root of a tree. -/
abbrev Place := List Text

namespace FileTree

/-- The tree of a directory with nothing in it. -/
def empty : FileTree := .directory []

def isDirectory : FileTree → Bool
  | .directory _ => true
  | .file _ => false

def entries : FileTree → List (Text × FileTree)
  | .directory entries => entries
  | .file _ => []

/-- What is at a place. -/
def get? : Place → FileTree → Option FileTree
  | [], tree => some tree
  | name :: rest, .directory entries => (Text.find? name entries).bind (get? rest)
  | _ :: _, .file _ => none

/-- Change the entry of a name, which may come or go. -/
def alterEntry (name : Text) (change : Option FileTree → Option FileTree) :
    List (Text × FileTree) → List (Text × FileTree)
  | [] => ((change none).map fun tree => (name, tree)).toList
  | (n, tree) :: rest =>
    if n = name then ((change (some tree)).map fun tree => (name, tree)).toList ++ rest
    else (n, tree) :: alterEntry name change rest

/-- Change what is at a place.  The directory around it has to exist, and the
root cannot go. -/
def alter (change : Option FileTree → Option FileTree) : Place → FileTree → FileTree
  | [], tree => (change (some tree)).getD tree
  | [name], .directory entries => .directory (alterEntry name change entries)
  | name :: rest, .directory entries =>
    .directory (alterEntry name (Option.map (alter change rest)) entries)
  | _ :: _, .file text => .file text

/-- Put something at a place. -/
def put (root : FileTree) (place : Place) (tree : FileTree) : FileTree :=
  alter (fun _ => some tree) place root

/-- Remove what is at a place. -/
def remove (root : FileTree) (place : Place) : FileTree :=
  alter (fun _ => none) place root

/-- The most bytes that a name may have. -/
def nameLimit : Nat := 255

/-- Follow a path from a place, given as its names in reverse. -/
def follow (root : FileTree) (here : List Text) : List Text → Except Fault (List Text)
  | [] => .ok here
  | step :: rest =>
    match root.get? here.reverse with
    | none => .error .missing
    | some (.file _) => .error .notADirectory
    | some (.directory _) =>
      if step = ".." then follow root here.tail rest
      else if nameLimit < Text.byteCount step then .error .tooLong
      else follow root (step :: here) rest

/-- The place that the steps of a path lead to. -/
def locate (root : FileTree) (steps : List Text) : Except Fault Place := do
  let reversed ← follow root [] steps
  return reversed.reverse

end FileTree

/-- What the steps of a path start from. -/
inductive Anchor where
  /-- The place where the program runs. -/
  | here
  | root
  /-- The root written with two slashes, which are never made one. -/
  | doubledRoot
deriving DecidableEq, Repr

namespace Anchor

/-- What a text starts from, seen as a path.  More than two slashes are as good
as one. -/
def ofText : Text → Anchor
  | .char '/' :: .char '/' :: rest => if rest.head? = some (.char '/') then root else doubledRoot
  | .char '/' :: _ => root
  | _ => here

/-- What a path shows in front of its steps. -/
def text : Anchor → Text
  | here => ""
  | root => "/"
  | doubledRoot => "//"

end Anchor

/-- A path as it is written. -/
structure Path where
  anchor : Anchor
  /-- Its steps: names and `..`. -/
  steps : List Text
deriving DecidableEq, Repr

namespace Path

/-- Read a path.  Between steps doubled slashes and single dots mean nothing. -/
def ofText (text : Text) : Path where
  anchor := .ofText text
  steps := (Text.pieces '/' text).filter fun step => step ≠ [] ∧ step ≠ "."

/-- A path as messages show it. -/
def text (path : Path) : Text :=
  let text := path.anchor.text ++ Text.join "/" path.steps
  if text = [] then "." else text

/-- Whether a path does not depend on where the program runs. -/
def isAbsolute (path : Path) : Bool :=
  path.anchor ≠ .here

/-- A path taken from a directory on. -/
def join (directory path : Path) : Path :=
  if path.isAbsolute then path else { directory with steps := directory.steps ++ path.steps }

/-- The path without its last step. -/
def parent (path : Path) : Path :=
  { path with steps := path.steps.dropLast }

/-- The last step, if there is one. -/
def name (path : Path) : Text :=
  path.steps.getLast?.getD []

/-- The same path without steps up, each of which cancels the step before it. -/
def cancelUps (done : List Text) : List Text → List Text
  | [] => done.reverse
  | step :: rest => if step = ".." then cancelUps done.tail rest else cancelUps (step :: done) rest

/-- The place that a path means in a tree without links, when the program runs
at the given place. -/
def resolveFrom (here : Place) (path : Path) : Path where
  anchor := .root
  steps := cancelUps [] (if path.isAbsolute then path.steps else here ++ path.steps)

/-- What the operating system refuses a name for: it is no sequence of bytes, or
it holds the character that ends a path. -/
def nameFault? (name : Text) : Option Fault :=
  if !name.isEncodable then some .unencodable
  else if name.contains (.char '\x00') then some .holdsNull
  else none

/-- The number of bytes that every path stays below. -/
def lengthLimit : Nat := 4096

/-- What the operating system refuses a path for before it looks at any files,
when that many bytes are still to be added to it. -/
def fault? (path : Path) (added : Nat) : Option Fault :=
  match nameFault? path.text with
  | some fault => some fault
  | none => if lengthLimit ≤ path.text.byteCount + added then some .tooLong else none

end Path

namespace FileTree

/-- The place that a path leads to. -/
def locatePath (root : FileTree) (path : Path) : Except Fault Place :=
  match path.fault? 0 with
  | some fault => .error fault
  | none => root.locate path.steps

/-- What a path leads to. -/
def find? (root : FileTree) (path : Path) : Option FileTree :=
  match root.locatePath path with
  | .ok place => root.get? place
  | .error _ => none

/-- Whether a path leads to something.  A path that cannot be written leads
nowhere, but one that is too long cannot even be asked about. -/
def hasPath (root : FileTree) (path : Path) : Except Fault Bool :=
  match root.locatePath path with
  | .ok place => .ok (root.get? place).isSome
  | .error .tooLong => .error .tooLong
  | .error _ => .ok false

end FileTree
end ApiBindings
