import RestQuery.Command.Run

/-! The command line. -/

open RestQuery RestQuery.Command

namespace RestQuery.Command

def toFault : IO.Error → FileFault
  | .noFileOrDirectory .. => .notFound
  | .inappropriateType _ _ details =>
    if details = "not a directory" then .notDirectory else .isDirectory
  | .permissionDenied .. => .denied
  | .userError _ => .notText
  | error@(.invalidArgument _ _ details) =>
    if details = "name too long" then .nameTooLong else .other (toString error).toList
  | error => .other (toString error).toList

/-- The directory of configuration files: an absolute one that is set, or the usual one in
the home directory. -/
def configuration? (set home : Option Text) : Option Text :=
  (set.filter (·.head? = some '/')).or (home.map (· ++ "/.config".toList))

def readFile (path : Text) : IO (Except FileFault Text) := do
  match ← (IO.FS.readFile (String.ofList path)).toBaseIO with
  | .ok content => return .ok content.toList
  | .error error => return .error (toFault error)

def finishIO (outcome : Outcome) : IO UInt32 := do
  IO.print (String.ofList outcome.output)
  IO.eprint (String.ofList outcome.error)
  return outcome.status.toUInt32

end RestQuery.Command

def main (arguments : List String) : IO UInt32 := do
  let get (name : String) : IO (Option Text) := do return (← IO.getEnv name).map String.toList
  let environment : Environment :=
    ⟨← get "RELQ_SCHEMA", configuration? (← get "XDG_CONFIG_HOME") (← get "HOME")⟩
  match Invocation.read environment.schema (arguments.map String.toList) with
  | .error stop => finishIO (stopped stop)
  | .ok invocation =>
    let content ← match invocation.needs? environment with
      | none => pure (.error .notFound)
      | some path => readFile path
    finishIO (finish invocation environment content)
