import RestQuery.Command.Arguments
import RestQuery.Command.Files
import RestQuery.Command.Outline
import RestQuery.Descriptor
import RestQuery.Schema.File

/-! What the command prints and how it ends, given its arguments and the file of schemas. -/
namespace RestQuery.Command

/-- The end of a run: its status, and the texts for standard output and standard error. -/
structure Outcome where
  status : Nat
  output : Text
  error : Text
  deriving DecidableEq, Repr

/-- What the command takes from its surroundings: the path of a schema file, and the
directory of configuration files. -/
structure Environment where
  schema : Option Text
  configuration : Option Text

/-- What is wrong with a schema file, or with the choice of an entity in it. -/
inductive Fault where
  | noFile
  | file (path : Text) (fault : FileFault)
  | content (path : Text) (error : SchemaFileError)
  | noEntities (path : Text)
  | severalEntities (names : List Text)
  | unknownEntity (name : Text) (names : List Text)
  deriving DecidableEq, Repr

def Fault.message : Fault → Text
  | noFile => "No schema file. Use --schema or set RELQ_SCHEMA".toList
  | file path fault => "Failed to load schema from ".toList ++ path ++ ": IO error: ".toList ++
      fault.message ++ ": ".toList ++ fault.message
  | content path error => "Failed to load schema from ".toList ++ path ++ ": ".toList ++
      match error with
      | .unreadable => "Schema file error:".toList
      | .schema error => error.message
  | noEntities path => "Schema file ".toList ++ path ++ " declares no entities".toList
  | severalEntities names => "Several entities in schema; pick one with --entity (".toList ++
      listed names ++ [')']
  | unknownEntity name names => "Unknown entity '".toList ++ name ++ "'. Available: ".toList ++
      listed names

def Invocation.path? (invocation : Invocation) (environment : Environment) : Option Text :=
  invocation.schema.or
    (environment.configuration.map (· ++ "/relq/schema.toml".toList))

def Invocation.needs? (invocation : Invocation) (environment : Environment) : Option Text :=
  if invocation.request = .reference then none else invocation.path? environment

def load (path : Text) (content : Except FileFault Text) : Except Fault Registry := do
  let registry ← (Registry.ofToml (← content.mapError (.file path))).mapError (.content path)
  if registry.isEmpty then .error (.noEntities path) else .ok registry

def select (registry : Registry) (entity : Option Text) : Except Fault Schema :=
  match entity, registry.entries with
  | none, [(_, schema)] => .ok schema
  | none, _ => .error (.severalEntities registry.names)
  | some name, _ =>
    match NameMap.get? registry name with
    | some schema => .ok schema
    | none => .error (.unknownEntity name registry.names)

def compiledLines (schema : Schema) (query : Text) : Format → List Text
  | .json => [(Descriptor.ofQuery schema query).result.toJson.pretty 0]
  | .sql => [(Descriptor.ofQuery schema query).result.toSql schema]
  | .tree => descriptorLines (Descriptor.ofQuery schema query).result

/-- The lines that answer a request. The file of schemas is not looked at where none is needed. -/
def answer (request : Request) (registry : Except Fault Registry) : Except Fault (List Text) := do
  match request with
  | .compile query entity format => return compiledLines (← select (← registry) entity) query format
  | .explain query entity => return explanationLines (← select (← registry) entity) query
  | .entities => return registryLines (← registry)
  | .reference => return referenceLines

def version : Text := "relq 0.1.0".toList

def help : List Text := [
  "Compile REST query strings into relational query descriptors".toList, [],
  "Usage: relq [OPTIONS] <COMMAND>".toList, [],
  "Commands:".toList,
  "  compile   Compile a query string into a descriptor".toList,
  "  explain   Compile a query string and explain every part, including dropped fragments".toList,
  "  entities  List the entities in the schema file".toList,
  "  syntax    Show the query-string syntax reference".toList,
  "  help      Print this message or the help of the given subcommand(s)".toList, [],
  "Options:".toList,
  "  -s, --schema <SCHEMA>  Schema file (TOML) [env: RELQ_SCHEMA=]".toList,
  "  -v, --verbose          Verbose output (debug logging)".toList,
  "  -h, --help             Print help".toList,
  "  -V, --version          Print version".toList]

def lines (texts : List Text) : Text := texts.flatMap (· ++ ['\n'])

def stopped : Stop → Outcome
  | .usage => ⟨2, [], lines ["error: invalid arguments".toList, [],
      "Usage: relq [OPTIONS] <COMMAND>".toList, [], "For more information, try '--help'.".toList]⟩
  | .help => ⟨0, lines help, []⟩
  | .version => ⟨0, lines [version], []⟩

def notes (invocation : Invocation) (environment : Environment) : List Text :=
  if invocation.verbose then
    (invocation.needs? environment).toList.map ("Schema: ".toList ++ ·)
  else []

def finish (invocation : Invocation) (environment : Environment) (content : Except FileFault Text) :
    Outcome :=
  let registry := match invocation.path? environment with
    | none => .error .noFile
    | some path => load path content
  let notes := notes invocation environment
  match answer invocation.request registry with
  | .ok texts => ⟨0, lines texts, lines notes⟩
  | .error fault => ⟨1, [], lines (notes ++ ["Error: ".toList ++ fault.message])⟩

end RestQuery.Command
