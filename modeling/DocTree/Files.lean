/-!
# Reading files

What reading a file may come to, whatever the files are kept in, and a small tree of files in
memory, in which paths are followed step by step: a step onto a file that is not the last one fails,
as does a step onto nothing.
-/

namespace DocTree

/-- Why a file cannot be read as text. -/
inductive ReadFault where
  | notFound
  | isDirectory
  | notDirectory
  | notText
  /-- Any other reason, in words. -/
  | other (reason : String)
  deriving DecidableEq, Repr

/-- The reason in words. -/
def ReadFault.reason : ReadFault → String
  | notFound => "No such file or directory (os error 2)"
  | isDirectory => "Is a directory (os error 21)"
  | notDirectory => "Not a directory (os error 20)"
  | notText => "stream did not contain valid UTF-8"
  | other reason => reason

/-- The bytes of files by the steps of their paths from one directory on. -/
structure FileTree where
  files : List (List String × ByteArray) := []

namespace FileTree

/-- What stands at the end of a path. -/
inductive Place where
  | file (bytes : ByteArray)
  | directory (path : List String)
  /-- Above the directory that the tree hangs from, by a number of steps. -/
  | outside (steps : Nat)

/-- What stands under exact steps from the root. -/
def at? (tree : FileTree) (path : List String) : Option Place :=
  match tree.files.find? fun (other, _) => other == path with
  | some (_, bytes) => some (.file bytes)
  | none =>
    if path.isEmpty || tree.files.any fun (other, _) => path.isPrefixOf other then
      some (.directory path)
    else none

/-- Take one step of a path. -/
def step (tree : FileTree) (place : Place) (name : String) : Except ReadFault Place :=
  match place with
  | .file _ => .error .notDirectory
  | .outside steps =>
    if name = "" ∨ name = "." then .ok place
    else if name = ".." then .ok (.outside (steps + 1))
    else .error .notFound
  | .directory path =>
    if name = "" ∨ name = "." then .ok place
    else if name = ".." then
      if path.isEmpty then .ok (.outside 1) else .ok (.directory path.dropLast)
    else match tree.at? (path ++ [name]) with
      | some next => .ok next
      | none => .error .notFound

/-- Follow a path from the root. -/
def follow (tree : FileTree) (path : String) : Except ReadFault Place :=
  if path = "" then .error .notFound
  else if path.startsWith "/" then
    if path.all (· == '/') then .ok (.outside 1) else .error .notFound
  else (path.splitOn "/").foldlM tree.step (.directory [])

/-- The bytes of the file at a path. -/
def read (tree : FileTree) (path : String) : Except ReadFault ByteArray := do
  match ← tree.follow path with
  | .file bytes => return bytes
  | .directory _ | .outside _ => throw .isDirectory

end FileTree

/-- The text of bytes in UTF-8. -/
def decodeText (bytes : ByteArray) : Except ReadFault String :=
  match String.fromUTF8? bytes with
  | some text => .ok text
  | none => .error .notText

end DocTree
