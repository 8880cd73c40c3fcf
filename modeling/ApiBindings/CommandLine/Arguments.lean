import ApiBindings.Text.Basic
/-!
# Arguments of the command

Options may stand anywhere among the paths, short flags may be joined, the
value of an option may be attached to it or follow it, and `--` ends the
options.  Of an option given twice the last one counts.
-/

namespace ApiBindings
namespace CommandLine

/-- The options of the command, each with its default. -/
structure Options where
  config : Option Text
  language : Text
  force : Bool
  verbose : Bool
  /-- Whether the language was given before any settings file, so that it is
  looked at first. -/
  languageFirst : Bool
deriving DecidableEq, Repr

namespace Options

def defaults : Options where
  config := none
  language := "java"
  force := false
  verbose := false
  languageFirst := false

/-- The options with a settings file. -/
def withConfig (options : Options) (config : Text) : Options :=
  { options with config := some config }

/-- The options with a language. -/
def withLanguage (options : Options) (language : Text) : Options :=
  { options with language, languageFirst := options.languageFirst || options.config.isNone }

end Options

/-- What an argument that starts like an option says. -/
inductive OptionWord where
  /-- It is complete. -/
  | complete (options : Options)
  /-- The next argument is its value. -/
  | awaiting (withValue : Text → Options)
  | unknown

/-- An option that takes a value, which may be attached to it. -/
def valuedOption (withValue : Text → Options) : Option Text → OptionWord
  | some value => .complete (withValue value)
  | none => .awaiting withValue

/-- The long option of a name, with the value that is attached to it. -/
def longOption (options : Options) (name : Text) (value : Option Text) : OptionWord :=
  match name.toString?, value with
  | some "config", _ => valuedOption options.withConfig value
  | some "language", _ => valuedOption options.withLanguage value
  | some "force", none => .complete { options with force := true }
  | some "verbose", none => .complete { options with verbose := true }
  | _, _ => .unknown

/-- Joined short options.  One that takes a value takes all that follows it, or
the next argument if nothing does. -/
def shortOptions (options : Options) : Text → OptionWord
  | [] => .complete options
  | .char 'f' :: rest => shortOptions { options with force := true } rest
  | .char 'v' :: rest => shortOptions { options with verbose := true } rest
  | .char 'c' :: rest =>
    valuedOption options.withConfig (if rest.isEmpty then none else some rest)
  | .char 'l' :: rest =>
    valuedOption options.withLanguage (if rest.isEmpty then none else some rest)
  | _ :: _ => .unknown

/-- What an argument says, if it is neither a single dash nor without one. -/
def optionWord? (options : Options) : Text → Option OptionWord
  | .char '-' :: .char '-' :: long =>
    let name := long.takeWhile (· ≠ .char '=')
    let value := match long.drop name.length with
      | _ :: value => some value
      | [] => none
    some (longOption options name value)
  | .char '-' :: c :: rest => some (shortOptions options (c :: rest))
  | _ => none

/-- What the arguments are: options and, in order, all the others. -/
structure Arguments where
  options : Options
  paths : List Text
deriving DecidableEq, Repr

/-- Read the remaining arguments, given the options and the other arguments so
far. -/
def readArguments (options : Options) (paths : List Text) : List Text → Option Arguments
  | [] => some { options, paths }
  | arg :: rest =>
    if arg = "--" then some { options, paths := paths ++ rest }
    else match optionWord? options arg with
      | none => readArguments options (paths ++ [arg]) rest
      | some (.complete options) => readArguments options paths rest
      | some .unknown => none
      | some (.awaiting withValue) =>
        match rest with
        | value :: rest => readArguments (withValue value) paths rest
        | [] => none

/-- Read arguments, whose options have to be used as they should be. -/
def Arguments.read? (args : List Text) : Option Arguments :=
  readArguments .defaults [] args

end CommandLine
end ApiBindings
