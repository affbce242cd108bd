/-
# Pages of help

A page says what its topic is for, shows how a line is made, and lists the commands or options in
two columns, the second as far to the right as the longest entry of the first requires.
-/

import HarnessSynthesis.Command.Arguments

namespace HarnessSynthesis

/-- The name by which the program is called. -/
def programName : Text := "testsmith-cli"

/-- What a command is for. -/
def Verb.about : Verb → Text
  | .resolve => "Show which function a harness would call"
  | .synth => "Print a synthesized harness program"
  | .extract => "Recover verdicts from captured program output (\"-\" for stdin)"
  | .run => "Synthesize, submit to the judge and print the run report"
  | .simulate => "Run every stored implementation of every problem"

namespace OptionForm

/-- What the value of an option is called. -/
def valueName (o : OptionForm) : Text :=
  o.name.map fun c => if c = '-' then '_' else c.toUpper

/-- An option's name and, if it takes one, its value. -/
def label (o : OptionForm) : Text :=
  match o.takes with
  | .nothing => "--" ++ o.name
  | _ => "--" ++ o.name ++ " <" ++ o.valueName ++ ['>']

/-- An option as the first column shows it. Where there is no letter its place is left free. -/
def entry (o : OptionForm) : Text :=
  (match o.letter with
    | some letter => ['-', letter, ',', ' ']
    | none => "    ") ++ o.label

/-- What the second column says of an option. -/
def remark (o : OptionForm) : Text :=
  Text.join " " ([o.about].filter (· ≠ []) ++
    (o.preset.map fun value => "[default: " ++ value ++ [']']).toList)

/-- The option that every command has. -/
def help : OptionForm := .possible "help" 'h' .nothing "Print help"

end OptionForm

namespace Topic

/-- What the page of help says of help. -/
def aboutHelp : Text := "Print this message or the help of the given subcommand(s)"

/-- Rows of two columns. -/
def columns (rows : List (Text × Text)) : Text :=
  let width := (rows.map fun row => row.1.length).foldl max 0
  rows.flatMap fun (entry, remark) =>
    "  " ++ entry ++ List.replicate (width - entry.length) ' ' ++ "  " ++ remark ++ ['\n']

/-- The commands under their heading. -/
def commandRows : Text :=
  let verbs := Verb.all.map fun v => (v.name, v.about)
  "Commands:\n" ++ columns (verbs ++ [(("help" : Text), aboutHelp)])

/-- Options under their heading, help as the last. -/
def optionRows (options : List OptionForm) : Text :=
  let all := options ++ [OptionForm.help]
  "Options:\n" ++ columns (all.map fun o => (o.entry, o.remark))

/-- How a line with a command is made: options that may be left out are not named. -/
def usageOf (v : Verb) : Text :=
  let free : Text := if v.options.all OptionForm.required then [] else " [OPTIONS]"
  let bound : Text := (v.options.filter OptionForm.required).flatMap fun o => ' ' :: o.label
  v.name ++ free ++ bound

/-- A page: what the topic is for, how the line is made, and the lists. -/
def layOut (about usage : Text) (lists : List Text) : Text :=
  Text.join "\n" ([about ++ ['\n'], "Usage: " ++ programName ++ [' '] ++ usage ++ ['\n']] ++ lists)

/-- The page on a topic. -/
def page : Topic → Text
  | .program =>
    layOut "testsmith CLI - Synthesize, run and inspect test harnesses" "<COMMAND>"
      [commandRows, optionRows []]
  | .verb v => layOut v.about (usageOf v) [optionRows v.options]
  | .help =>
    layOut aboutHelp "help [COMMAND]..."
      ["Arguments:\n" ++ columns [("[COMMAND]...", "Print help for the subcommand(s)")]]

end Topic

end HarnessSynthesis
