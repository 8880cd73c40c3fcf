/-!
# Faults

What the operating system refuses to do with a path or a text.
-/

namespace ApiBindings

/-- Why the operating system refuses something. -/
inductive Fault where
  /-- Something on the way does not exist. -/
  | missing
  /-- Something on the way is a file. -/
  | notADirectory
  /-- The place of a new directory is taken. -/
  | occupied
  /-- A file cannot take the place of a directory. -/
  | isADirectory
  /-- The place is a directory by way of speaking only: `.` or `..`. -/
  | busy
  /-- A path or one of its names is longer than any may be. -/
  | tooLong
  /-- A path holds the character that ends a path. -/
  | holdsNull
  /-- A path or a text cannot be written as bytes. -/
  | unencodable
deriving DecidableEq, Repr

end ApiBindings
