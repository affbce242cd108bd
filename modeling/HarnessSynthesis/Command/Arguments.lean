/-
# Command lines

The command line names a command and its options. An option is given by its long name, its letter,
or both ways of joining a value to them; it may be given once. Whatever is not an option of the
command makes the line unusable, and so does an option that is required and not there. Tokens are
read from the left, so a request for help is answered unless something before it is wrong.
-/

import HarnessSynthesis.Text.Basic

namespace HarnessSynthesis

/-- The commands by name. -/
inductive Verb where
  | resolve
  | synth
  | extract
  | run
  | simulate
  deriving DecidableEq, Repr

/-- What a page of help is about: the program, one command, or help itself. -/
inductive Topic where
  | program
  | verb (v : Verb)
  | help
  deriving DecidableEq, Repr

/-- What the program is told to do. -/
inductive Command where
  /-- Show which function a harness would call. -/
  | resolve (language source : Text) (problem : Option Text)
  /-- Make a program; `callOnly` asks for the one that makes a single call. -/
  | synth (language source problem : Text) (callOnly : Bool) (out : Option Text)
  /-- Find the verdicts in captured output. -/
  | extract (input : Text)
  /-- Run one solution. -/
  | run (language source problem : Text)
  /-- Run every stored implementation. -/
  | simulate (problems : Text) (stopsOnFailure : Bool)
  /-- Show a page of help. -/
  | help (topic : Topic)
  deriving DecidableEq, Repr

/-! ## Options -/

/-- What stands behind an option: any text, the path of a file, which is not empty, or nothing. -/
inductive Takes where
  | text
  | path
  | nothing
  deriving DecidableEq, Repr

/-- An option of a command. -/
structure OptionForm where
  name : Text
  letter : Option Char
  takes : Takes
  /-- The command cannot do without it. -/
  required : Bool
  /-- The value that it has when it is not given. -/
  preset : Option Text
  /-- What the page of help says of it. -/
  about : Text
  deriving DecidableEq, Repr

namespace OptionForm

/-- An option that must be given. -/
def needed (name : String) (letter : Char) (takes : Takes) (about : String) : OptionForm :=
  ⟨name, some letter, takes, true, none, about⟩

/-- An option that may be given. -/
def possible (name : String) (letter : Char) (takes : Takes) (about : String) : OptionForm :=
  ⟨name, some letter, takes, false, none, about⟩

/-- An option without a value, which is only there or not. -/
def flag (name about : String) : OptionForm :=
  ⟨name, none, .nothing, false, none, about⟩

end OptionForm

namespace Verb

def all : List Verb := [.resolve, .synth, .extract, .run, .simulate]

def name : Verb → Text
  | .resolve => "resolve"
  | .synth => "synth"
  | .extract => "extract"
  | .run => "run"
  | .simulate => "simulate"

def ofName? (written : Text) : Option Verb :=
  all.find? fun v => v.name == written

/-- The options of a command, in the order of its page of help. -/
def options : Verb → List OptionForm
  | .resolve => [
    .needed "lang" 'l' .text "Language (typescript, python, java, cpp)",
    .needed "source" 's' .path "Path to the user's source file",
    .possible "problem" 'p' .path
      "Problem JSON supplying the input schema and entry name hint"]
  | .synth => [
    .needed "lang" 'l' .text "",
    .needed "source" 's' .path "",
    .needed "problem" 'p' .path "",
    .flag "judge" "Emit the stdin-driven judge program instead of the test harness",
    .possible "out" 'o' .path "Write to a file instead of stdout"]
  | .extract => [⟨"input", some 'i', .text, false, some "-", []⟩]
  | .run => [
    .needed "lang" 'l' .text "",
    .needed "source" 's' .path "",
    .needed "problem" 'p' .path ""]
  | .simulate => [
    .needed "problems" 'p' .path "Problem JSON file (object or array) or a directory of them",
    .flag "stop-on-failure" "Stop at the first run that does not pass"]

end Verb

/-- Options as they were given, each with its value. -/
abbrev Given := List (Text × Text)

/-- The value of an option. -/
def Given.get? (name : Text) (given : Given) : Option Text :=
  (given.find? fun g => g.1 == name).map (·.2)

/-- Whether an option without a value was given. -/
def Given.has (name : Text) (given : Given) : Bool :=
  (given.get? name).isSome

namespace Command

/-! ## Reading options -/

/-- What ends the reading of options before the line does. -/
inductive Stop where
  | unusable
  | help
  deriving DecidableEq, Repr

/-- An option that a token begins, with the value joined to it. -/
def joined? (forms : List OptionForm) (token : Text) : Option (OptionForm × Option Text) :=
  match token with
  | '-' :: '-' :: long => do
    let name := long.takeWhile (· ≠ '=')
    let form ← forms.find? fun f => f.name == name
    match long.dropWhile (· ≠ '=') with
    | [] => return (form, none)
    | _ :: value => return (form, some value)
  | '-' :: letter :: behind => do
    let form ← forms.find? fun f => f.letter == some letter
    match behind with
    | [] => return (form, none)
    | '=' :: value => return (form, some value)
    | value => return (form, some value)
  | _ => none

/-- Whether a token stands for itself and begins no option. -/
def isPlain (token : Text) : Bool :=
  token == ("-" : Text) || !Text.startsWith "-" token

/-- An option with a value that it can take, added to those given before. -/
def add? (form : OptionForm) (value : Text) (given : Given) : Option Given := do
  guard !(given.any fun g => g.1 == form.name)
  guard !(form.takes = .path ∧ value = [])
  return given ++ [(form.name, value)]

/-- Whether a token asks for help; letters joined behind the one for help do not count. -/
def asksForHelp (token : Text) : Bool :=
  token == ("--help" : Text) || Text.startsWith "-h" token

/-- The options that tokens give. -/
def options? (forms : List OptionForm) : List Text → Given → Except Stop Given
  | [], given => .ok given
  | token :: rest, given =>
    if token = "--" then (if rest.isEmpty then .ok given else .error .unusable)
    else if asksForHelp token then .error .help
    else
      match joined? forms token with
      | none => .error .unusable
      | some (form, some value) =>
        if form.takes = .nothing then .error .unusable
        else match add? form value given with
          | some given => options? forms rest given
          | none => .error .unusable
      | some (form, none) =>
        if form.takes = .nothing then
          match add? form [] given with
          | some given => options? forms rest given
          | none => .error .unusable
        else
          match rest with
          | value :: rest =>
            if isPlain value then
              match add? form value given with
              | some given => options? forms rest given
              | none => .error .unusable
            else .error .unusable
          | [] => .error .unusable

/-- The options that were not given and have a value nevertheless. -/
def withPresets (forms : List OptionForm) (given : Given) : Given :=
  given ++ forms.filterMap fun form => form.preset.map fun value => (form.name, value)

/-! ## Commands -/

/-- The input that stands for the program's own. -/
def ownInput : Text := "-"

/-- A command with its options, when those that it requires are there. -/
def ofGiven? (given : Given) : Verb → Option Command
  | .resolve =>
    return .resolve (← given.get? "lang") (← given.get? "source") (given.get? "problem")
  | .synth =>
    return .synth (← given.get? "lang") (← given.get? "source") (← given.get? "problem")
      (given.has "judge") (given.get? "out")
  | .extract => return .extract (← given.get? "input")
  | .run => return .run (← given.get? "lang") (← given.get? "source") (← given.get? "problem")
  | .simulate => return .simulate (← given.get? "problems") (given.has "stop-on-failure")

/-- The topic that the words behind `help` name. -/
def topic? : List Text → Option Topic
  | [] => some .program
  | [name] => if name = "help" then some .help else (Verb.ofName? name).map .verb
  | _ => none

/-- The command of a line, without the name of the program in front. -/
def parse? : List Text → Option Command
  | [] => none
  | token :: rest =>
    if asksForHelp token then some (.help .program)
    else if token = "help" then (topic? rest).map .help
    else
      (Verb.ofName? token).bind fun v =>
        match options? v.options rest [] with
        | .ok given => ofGiven? (withPresets v.options given) v
        | .error .help => some (.help (.verb v))
        | .error .unusable => none

end Command

end HarnessSynthesis
