import RestQuery.Text.Basic

/-! The arguments of the command. Options and flags stand before or after the subcommand;
those of the subcommand only after it. Arguments are read from left to right, and the first
one that is wrong, or asks for help or the version, ends the reading. -/
namespace RestQuery.Command

inductive Format where
  | json | sql | tree
  deriving DecidableEq, Repr

def Format.ofName? (name : Text) : Option Format :=
  if name = "json".toList then some .json
  else if name = "sql".toList then some .sql
  else if name = "tree".toList then some .tree
  else none

inductive Subcommand where
  | compile | explain | entities | reference
  deriving DecidableEq, Repr

def Subcommand.ofName? (name : Text) : Option Subcommand :=
  if name = "compile".toList then some .compile
  else if name = "explain".toList then some .explain
  else if name = "entities".toList then some .entities
  else if name = "syntax".toList then some .reference
  else none

inductive Request where
  | compile (query : Text) (entity : Option Text) (format : Format)
  | explain (query : Text) (entity : Option Text)
  | entities
  | reference
  deriving DecidableEq, Repr

structure Invocation where
  schema : Option Text
  verbose : Bool
  request : Request
  deriving DecidableEq, Repr

inductive Stop where
  | usage
  | help
  | version
  deriving DecidableEq, Repr

inductive Switch where
  | schema | entity | format | verbose | help | version
  deriving DecidableEq, Repr

namespace Switch

def all : List Switch := [schema, entity, format, verbose, help, version]

def name : Switch → Text
  | schema => "schema".toList
  | entity => "entity".toList
  | format => "format".toList
  | verbose => "verbose".toList
  | help => "help".toList
  | version => "version".toList

def letter : Switch → Char
  | schema => 's'
  | entity => 'e'
  | format => 'f'
  | verbose => 'v'
  | help => 'h'
  | version => 'V'

def takesValue : Switch → Bool
  | schema | entity | format => true
  | verbose | help | version => false

/-- Whether the switch may be given before any subcommand, or after the given one. -/
def allowed : Switch → Option Subcommand → Bool
  | schema, _ | verbose, _ | help, _ => true
  | version, subcommand => subcommand.isNone
  | entity, subcommand => subcommand = some .compile ∨ subcommand = some .explain
  | format, subcommand => subcommand = some .compile

def ofName? (level : Option Subcommand) (name : Text) : Option Switch :=
  all.find? fun switch => switch.name == name && switch.allowed level

def ofLetter? (level : Option Subcommand) (letter : Char) : Option Switch :=
  all.find? fun switch => switch.letter == letter && switch.allowed level

end Switch

/-- What has been read on one side of the subcommand. -/
structure Given where
  schema : Option Text
  entity : Option Text
  format : Option Format
  verbose : Bool
  query : Option Text

namespace Given

def nothing : Given := ⟨none, none, none, false, none⟩

/-- Sets a switch without a value. No switch may be given twice. -/
def flag (given : Given) : Switch → Except Stop Given
  | .verbose => if given.verbose then .error .usage else .ok { given with verbose := true }
  | .help => .error .help
  | .version => .error .version
  | _ => .error .usage

/-- Sets a switch to a value. The path of a schema is not empty. -/
def value (given : Given) (switch : Switch) (value : Text) : Except Stop Given :=
  match switch with
  | .schema =>
    if given.schema.isSome ∨ value = [] then .error .usage
    else .ok { given with schema := some value }
  | .entity =>
    if given.entity.isSome then .error .usage else .ok { given with entity := some value }
  | .format =>
    match given.format, Format.ofName? value with
    | none, some format => .ok { given with format := some format }
    | _, _ => .error .usage
  | _ => .error .usage

/-- Takes the one free argument that a subcommand on a query has. -/
def free (given : Given) (level : Option Subcommand) (argument : Text) : Except Stop Given :=
  if given.query.isNone ∧ (level = some .compile ∨ level = some .explain) then
    .ok { given with query := some argument }
  else .error .usage

end Given

/-- Flags in one argument. The last one may take a value: the rest of the argument, after an
equals sign if there is one, or else the next argument. -/
def readLetters (level : Option Subcommand) : Text → Given → Except Stop (Given × Option Switch)
  | [], given => .ok (given, none)
  | letter :: letters, given =>
    match Switch.ofLetter? level letter with
    | none => .error .usage
    | some switch =>
      if switch.takesValue then
        match letters with
        | [] => .ok (given, some switch)
        | '=' :: value => (given.value switch value).map (·, none)
        | value => (given.value switch value).map (·, none)
      else (given.flag switch).bind (readLetters level letters)

def readName (level : Option Subcommand) (argument : Text) (given : Given) :
    Except Stop (Given × Option Switch) :=
  let (name, value) := Text.cutFirst '=' argument
  match Switch.ofName? level name, value with
  | none, _ => .error .usage
  | some switch, some value =>
    if switch.takesValue then (given.value switch value).map (·, none) else .error .usage
  | some switch, none =>
    if switch.takesValue then .ok (given, some switch) else (given.flag switch).map (·, none)

/-- Whether an argument is one of switches. A lone minus sign is not. -/
def isSwitches : Text → Bool
  | '-' :: _ :: _ => true
  | _ => false

/-- What was given and, where a free argument before any subcommand ends the reading, that
argument and those after it. -/
def readArguments (level : Option Subcommand) :
    List Text → Given → Except Stop (Given × Option (Text × List Text))
  | [], given => .ok (given, none)
  | argument :: arguments, given =>
    if argument = "--".toList then
      (arguments.foldlM (fun given argument => Given.free given level argument) given).map (·, none)
    else if isSwitches argument then do
      let (given, pending) ← match argument with
        | '-' :: '-' :: named => readName level named given
        | letters => readLetters level letters.tail given
      match pending, arguments with
      | none, arguments => readArguments level arguments given
      | some switch, value :: arguments =>
        if isSwitches value then .error .usage
        else readArguments level arguments (← given.value switch value)
      | some _, [] => .error .usage
    else
      match level with
      | none => .ok (given, some (argument, arguments))
      | some _ => do readArguments level arguments (← given.free level argument)

def Request.of (subcommand : Subcommand) (given : Given) : Except Stop Request :=
  match subcommand, given.query with
  | .compile, some query => .ok (.compile query given.entity (given.format.getD .json))
  | .explain, some query => .ok (.explain query given.entity)
  | .entities, _ => .ok .entities
  | .reference, _ => .ok .reference
  | _, none => .error .usage

def helpOn (arguments : List Text) : Stop :=
  match arguments with
  | [] => .help
  | [name] => if (Subcommand.ofName? name).isSome ∨ name = "help".toList then .help else .usage
  | _ => .usage

/-- The invocation that the arguments make. A schema given after the subcommand counts before
one given in front of it, and that before the one of the environment. -/
def Invocation.read (environment : Option Text) (arguments : List Text) :
    Except Stop Invocation := do
  match ← readArguments none arguments .nothing with
  | (_, none) => .error .usage
  | (before, some (name, rest)) =>
    match Subcommand.ofName? name with
    | none => .error (if name = "help".toList then helpOn rest else .usage)
    | some subcommand =>
      let (after, _) ← readArguments (some subcommand) rest .nothing
      let request ← Request.of subcommand after
      if environment = some [] ∧ (before.schema.isNone ∨ after.schema.isNone) then .error .usage
      else
        .ok ⟨after.schema.or (before.schema.or environment), before.verbose || after.verbose,
          request⟩

example :
    (Invocation.read none (["-vs", "a", "compile", "-fsql", "q"].map String.toList)).toOption =
      some ⟨some "a".toList, true, .compile "q".toList none .sql⟩ := by
  decide +kernel

example : (Invocation.read none (["compile", "-id"].map String.toList)).toOption = none := by
  decide +kernel

end RestQuery.Command
