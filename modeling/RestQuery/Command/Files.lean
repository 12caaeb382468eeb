import RestQuery.Text.Basic

/-! Files in directories, and the file that a path leads to. A path is followed step by step
from a working directory or, with a slash at its start, from the root; every step but the
last has to reach a directory. Paths and the names in them have a greatest size in bytes. -/
namespace RestQuery.Command

inductive FileFault where
  | notFound
  | notDirectory
  | isDirectory
  | nameTooLong
  | denied
  | notText
  | other (reason : Text)
  deriving DecidableEq, Repr

def FileFault.message : FileFault → Text
  | notFound => "No such file or directory (os error 2)".toList
  | notDirectory => "Not a directory (os error 20)".toList
  | isDirectory => "Is a directory (os error 21)".toList
  | nameTooLong => "File name too long (os error 36)".toList
  | denied => "Permission denied (os error 13)".toList
  | notText => "stream did not contain valid UTF-8".toList
  | other reason => reason

/-- A file with its text, or a directory with what its names stand for. -/
inductive FileTree where
  | file (content : Text)
  | directory (entries : List (Text × FileTree))

namespace FileTree

def nameLimit : Nat := 255

def pathLimit : Nat := 4095

def size (text : Text) : Nat := (Text.toUtf8 text).length

def entry (entries : List (Text × FileTree)) (name : Text) : Except FileFault FileTree :=
  if nameLimit < size name then .error .nameTooLong
  else
    match entries.lookup name with
    | some tree => .ok tree
    | none => .error .notFound

/-- Follows steps from a tree, given the directories it lies in, the nearest one first. An
empty step and a point stay in a directory, and two points leave it; the root is not left. -/
def follow : (outer : List FileTree) → FileTree → (steps : List Text) → Except FileFault FileTree
  | _, here, [] => .ok here
  | _, file _, _ :: _ => .error .notDirectory
  | outer, directory entries, step :: steps =>
    if step = [] ∨ step = ['.'] then follow outer (directory entries) steps
    else if step = ['.', '.'] then
      match outer with
      | [] => follow [] (directory entries) steps
      | parent :: outer => follow outer parent steps
    else do follow (directory entries :: outer) (← entry entries step) steps

end FileTree

/-- A working directory and the directories it lies in, the nearest one first. -/
structure WorkingDirectory where
  here : FileTree
  outer : List FileTree

namespace WorkingDirectory

def root (place : WorkingDirectory) : WorkingDirectory :=
  ⟨place.outer.getLast?.getD place.here, []⟩

def read (place : WorkingDirectory) (path : Text) : Except FileFault Text := do
  if path = [] then .error .notFound
  else if FileTree.pathLimit < FileTree.size path then .error .nameTooLong
  else
    let start := if path.head? = some '/' then place.root else place
    match ← FileTree.follow start.outer start.here (path.splitOn '/') with
    | .file content => .ok content
    | .directory _ => .error .isDirectory

def sample : WorkingDirectory :=
  ⟨.directory [("a".toList, .directory []), ("f".toList, .file "text".toList)],
    [.directory [("b".toList, .directory [])]]⟩

example : sample.read "./a//../f".toList = .ok "text".toList := by rfl
example : sample.read "f/".toList = .error .notDirectory := by rfl
example : sample.read "f/..".toList = .error .notDirectory := by rfl
example : sample.read "../../b".toList = .error .isDirectory := by rfl
example : sample.read "/a".toList = .error .notFound := by rfl

end WorkingDirectory
end RestQuery.Command
