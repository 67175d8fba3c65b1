import Payroll.Settings.Load
/-!
What the arguments of the program ask for: to serve, to bring the database to the present schema, or
to be told about the program. Arguments are read from left to right, and the first that cannot be
understood, or that asks to be told something, decides. Options stand before the command.
-/

namespace Payroll.Program

/-- What the program can be asked to do. -/
inductive Command where
  | serve
  | migrate
deriving DecidableEq

/-- What can be told about the program. -/
inductive Page where
  | program
  | command (command : Command)
  | help
  | version
deriving DecidableEq

/-- A command, and the path of the settings file if one is named. -/
structure Invocation where
  config : Option String
  command : Command
deriving DecidableEq

/-- What arguments ask for. -/
inductive Demand where
  | run (invocation : Invocation)
  | tell (page : Page)
  | misuse
deriving DecidableEq

/-- The argument is a group of one-letter options that starts with this one. -/
def startsOption (letter : Char) (arg : String) : Bool :=
  ['-', letter].isPrefixOf arg.toList

/-- The argument can be the value of an option. -/
def isValue (arg : String) : Bool :=
  arg = "-" || (arg != "" && !startsWithHyphen arg)
where
  /-- A hyphen comes first. -/
  startsWithHyphen (arg : String) : Bool :=
    arg.toList.head? = some '-'

/-- The value that an argument gives to an option of this name behind an equals sign. -/
def attachedValue? (name arg : String) : Option String :=
  if (name ++ "=").toList.isPrefixOf arg.toList then
    some (String.ofList (arg.toList.drop (name.length + 1)))
  else none

namespace Demand

/-- Reads what follows a command, which takes no arguments of its own. -/
def ofCommand (i : Invocation) : List String → Demand
  | [] | ["--"] => .run i
  | arg :: _ =>
    if arg = "--help" || startsOption 'h' arg then .tell (.command i.command) else .misuse

/-- Reads what follows the word help. -/
def ofHelp : List String → Demand
  | [] => .tell .program
  | ["serve"] => .tell (.command .serve)
  | ["migrate"] => .tell (.command .migrate)
  | ["help"] => .tell .help
  | _ => .misuse

/-- Reads the arguments, where `config` is the path of the settings file named so far. It can be
named once. -/
def ofArguments (config : Option String) : List String → Demand
  | [] | ["--"] => .run ⟨config, .serve⟩
  | "serve" :: rest => ofCommand ⟨config, .serve⟩ rest
  | "migrate" :: rest => ofCommand ⟨config, .migrate⟩ rest
  | "help" :: rest => ofHelp rest
  | "--help" :: _ => .tell .program
  | "--version" :: _ => .tell .version
  | ["--config"] => .misuse
  | "--config" :: path :: rest =>
    if config.isSome || !isValue path then .misuse else ofArguments (some path) rest
  | arg :: rest =>
    match attachedValue? "--config" arg with
    | some path =>
      if config.isSome || path = "" then .misuse else ofArguments (some path) rest
    | none =>
      if startsOption 'h' arg then .tell .program
      else if startsOption 'V' arg then .tell .version
      else .misuse

/-- What the arguments ask for, where a variable may name the settings file in their stead. -/
def read (vars : Variables) (args : List String) : Demand :=
  match ofArguments none args with
  | .run ⟨none, command⟩ =>
    match vars Settings.pathVariable with
    | some "" => .misuse
    | path => .run ⟨path, command⟩
  | demand => demand

end Demand

end Payroll.Program
