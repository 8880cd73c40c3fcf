import ApiBindings.Schema.SharedDocument
/-!
# Restricting a description

Restricting reads one entry of a node, what it says about languages, and sets two,
its name and its type.  For a language called by one of these words the names and
types that nodes are given stand under such an entry themselves, so restricting
them may change what is given to a node above; then it matters which nodes are
shared.
-/

namespace ApiBindings
namespace Availability

/-- The languages that are called like an entry that restricting reads or sets. -/
def isEntryWord (language : Text) : Bool :=
  language = "name" || language = "type" || language = "langs"

/-- A description restricted to a language, and how many nodes were dropped. -/
def restrict (language : Text) (tree : Json) : Except Failure (Json × Nat) :=
  if isEntryWord language then restrictShared language tree else restrictTree language tree

end Availability
end ApiBindings
