/-! # Command lines

A command line names a command with its arguments, and options, which may stand before the command or
among its arguments. `Invocation.ofArguments` reads one from left to right and stops at the first word
that does not fit. Words that begin with a dash are options, except a dash alone and whatever follows a
double dash. -/

namespace ResolutionLog

/-! ## What is asked for -/

/-- The commands. -/
inductive CommandName where
  | replay
  | configuration
  | help
deriving DecidableEq, Repr

/-- The command with a name. -/
def CommandName.ofName? : String → Option CommandName
  | "replay" => some .replay
  | "configuration" => some .configuration
  | "help" => some .help
  | _ => none

/-- How many arguments a command takes at most. -/
def CommandName.arity : CommandName → Nat
  | .replay => 1
  | .configuration => 2
  | .help => 1

/-- A command with its arguments. -/
inductive Command where
  /-- Replay the result fixture at a path. -/
  | replay (fixture : String)
  /-- Inspect a configuration of the module fixture at a path. -/
  | configuration (fixture name : String)
deriving DecidableEq, Repr

/-- What a command line asks for. -/
structure Invocation where
  /-- The path of the settings. -/
  config? : Option String
  /-- The threshold that wins over the one in the settings. -/
  threshold? : Option Nat
  /-- Whether the report is for programs. -/
  json : Bool
  command : Command
deriving DecidableEq, Repr

/-- Why there is nothing to run. -/
inductive Stop where
  /-- The command line is wrong. -/
  | misuse
  /-- It asks for the version. -/
  | version
  /-- It asks how the program is used. -/
  | help
deriving DecidableEq, Repr

/-! ## Options -/

/-- The options that take a value. -/
inductive ValueOption where
  | config
  | threshold
deriving DecidableEq, Repr

/-- The options given in one place. None of them may be given twice there. -/
structure OptionValues where
  config? : Option String
  threshold? : Option Nat
  json : Bool
deriving DecidableEq, Repr

/-- The number below two to the sixty-fourth power that a text writes in decimal digits, perhaps behind
a plus sign. -/
def parseWord? (text : String) : Option Nat :=
  let digits := match text.toList with
    | '+' :: rest => rest
    | cs => cs
  if digits ≠ [] && digits.all Char.isDigit then
    let n := digits.foldl (fun n c => n * 10 + (c.toNat - '0'.toNat)) 0
    if n < UInt64.size then some n else none
  else none

namespace OptionValues

/-- No options. -/
def empty : OptionValues := ⟨none, none, false⟩

/-- Give an option its value. A path must not be empty. -/
def set (o : OptionValues) (option : ValueOption) (text : String) : Except Stop OptionValues :=
  match option with
  | .config =>
    if o.config?.isSome || text.isEmpty then .error .misuse else .ok { o with config? := some text }
  | .threshold =>
    match o.threshold?, parseWord? text with
    | none, some n => .ok { o with threshold? := some n }
    | _, _ => .error .misuse

/-- Ask for a report for programs. -/
def setJson (o : OptionValues) : Except Stop OptionValues :=
  if o.json then .error .misuse else .ok { o with json := true }

end OptionValues

/-! ## Words -/

/-- What has been read of a command line. -/
structure Progress where
  /-- The options before the command. -/
  outer : OptionValues
  command? : Option CommandName
  /-- The options behind the command. -/
  inner : OptionValues
  /-- The arguments of the command. -/
  arguments : List String
  /-- The option whose value is the next word. -/
  pending? : Option ValueOption
  /-- Whether no more options are read. -/
  plain : Bool
deriving DecidableEq, Repr

namespace Progress

/-- Nothing has been read. -/
def start : Progress := ⟨.empty, none, .empty, [], none, false⟩

/-- Change the options of the place that has been reached. -/
def change (p : Progress) (f : OptionValues → Except Stop OptionValues) : Except Stop Progress :=
  match p.command? with
  | none => (f p.outer).map fun outer => { p with outer, pending? := none }
  | some _ => (f p.inner).map fun inner => { p with inner, pending? := none }

/-- Read an option, with its value unless that is the next word. -/
def option (p : Progress) (option : ValueOption) : Option String → Except Stop Progress
  | some text => p.change (·.set option text)
  | none => .ok { p with pending? := some option }

/-- Ask for the version, which only the program itself has. -/
def version (p : Progress) : Except Stop Progress :=
  if p.command?.isNone then .error .version else .error .misuse

/-- Read a word that begins with two dashes; `name` is what follows them, up to the value. -/
def long (p : Progress) (name : String) (value? : Option String) : Except Stop Progress :=
  match name, value? with
  | "config", _ => p.option .config value?
  | "spill-threshold", _ => p.option .threshold value?
  | "json", none => p.change OptionValues.setJson
  | "help", none => .error .help
  | "version", none => p.version
  | _, _ => .error .misuse

/-- Read a word that begins with one dash; its letters follow. -/
def short (p : Progress) : List Char → Except Stop Progress
  | ['c'] => p.option .config none
  | 'c' :: '=' :: value => p.option .config (some (String.ofList value))
  | 'c' :: value => p.option .config (some (String.ofList value))
  | 'h' :: _ => .error .help
  | 'V' :: _ => p.version
  | _ => .error .misuse

/-- Read a word that is no option: the command, or the next of its arguments, of which the first is not
empty. -/
def argument (p : Progress) (word : String) : Except Stop Progress :=
  match p.command? with
  | none =>
    match CommandName.ofName? word with
    | some name =>
      if p.plain then .error .misuse
      else .ok { p with command? := some name, plain := name = .help }
    | none => .error .misuse
  | some name =>
    if p.arguments.length < name.arity && !(word.isEmpty && p.arguments.isEmpty) then
      .ok { p with arguments := p.arguments ++ [word] }
    else .error .misuse

/-- Read a word. The value of an option does not look like an option. -/
def next (p : Progress) (word : String) : Except Stop Progress :=
  if p.plain then p.argument word
  else
    match word.toList, p.pending? with
    | '-' :: _ :: _, some _ => .error .misuse
    | _, some option => p.change (·.set option word)
    | ['-', '-'], none => .ok { p with plain := true }
    | '-' :: '-' :: letters, none =>
      let name := letters.takeWhile (· ≠ '=')
      let value? := match letters.drop name.length with
        | _ :: value => some (String.ofList value)
        | [] => none
      p.long (String.ofList name) value?
    | '-' :: c :: letters, none => p.short (c :: letters)
    | _, none => p.argument word

/-- What a whole command line asks for. Options behind the command win over those before it. -/
def finish (p : Progress) : Except Stop Invocation :=
  let invoke (command : Command) : Except Stop Invocation :=
    .ok ⟨p.inner.config?.or p.outer.config?, p.inner.threshold?.or p.outer.threshold?,
      p.inner.json || p.outer.json, command⟩
  match p.pending?, p.command?, p.arguments with
  | none, some .replay, [fixture] => invoke (.replay fixture)
  | none, some .configuration, [fixture, name] => invoke (.configuration fixture name)
  | none, some .help, arguments =>
    if arguments.all fun name => (CommandName.ofName? name).isSome then .error .help
    else .error .misuse
  | _, _, _ => .error .misuse

end Progress

/-- What a command line asks for, or why there is nothing to run. -/
def Invocation.ofArguments (words : List String) : Except Stop Invocation :=
  (words.foldlM Progress.next .start).bind Progress.finish

end ResolutionLog
