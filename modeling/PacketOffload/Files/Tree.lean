import PacketOffload.Fault
import PacketOffload.Files.Contents
import PacketOffload.Text.Blank
import PacketOffload.Text.Utf8

/-!
# File trees

A tree of directories and files, with the few operations that configuration, firmware and attribute
files need. A path is walked from the root, name by name. Every name is looked up in a directory: a
missing directory on the way is `noEntry`, a file in its place is `notDirectory`, and a name that no
directory can hold is `nameTooLong`.
-/

namespace PacketOffload

/-- The names on the way from the root to a file. The name `.` stays in a directory, and `..` goes
back to the one around it. -/
abbrev Path := List String

namespace Path

def text (path : Path) : String := "/".intercalate path

/-- Paths are written with fewer bytes. -/
def lengthLimit : Nat := 4096

/-- The path that a text names, seen from a directory. It has its names between slashes; with a
slash at the beginning it is seen from the root, with one at the end it leads to a directory. -/
def resolve (here : Path) (text : String) : Except TransferError Path :=
  let whole := if text.toList.head? = some '/' then text else s!"{here.text}/{text}"
  if text.toList.contains (Char.ofNat 0) then .error .zeroInName
  else if lengthLimit ≤ whole.utf8ByteSize then .error (.os .nameTooLong)
  else
    let names := (whole.splitOn "/").filter (· != "")
    .ok (if whole.toList.getLast? = some '/' then names ++ ["."] else names)

end Path

/-- Bytes of the longest name in a directory. -/
def nameLimit : Nat := 255

/-- What stands at a path. -/
inductive FileNode where
  | directory
  | file (contents : FileContents)

structure FileTree where
  node : Path → Option FileNode

namespace FileTree

/-- The tree with nothing but its root. -/
def empty : FileTree := ⟨fun path => if path = [] then some .directory else none⟩

/-- The tree with something else at a path. -/
def put (t : FileTree) (path : Path) (node : FileNode) : FileTree :=
  ⟨fun other => if other = path then some node else t.node other⟩

/-- Where a name leads from `here`, which has to be a directory. -/
def enter (t : FileTree) (here : Path) (name : String) : Except OsError Path :=
  match t.node here with
  | none => .error .noEntry
  | some (.file _) => .error .notDirectory
  | some .directory =>
    if name = "." then .ok here
    else if name = ".." then .ok here.dropLast
    else if nameLimit < name.utf8ByteSize then .error .nameTooLong
    else .ok (here ++ [name])

/-- Where a path leads, as the names from the root on. Something may be there or not. -/
def locate (t : FileTree) (path : Path) : Except OsError Path := path.foldlM t.enter []

/-- What stands at a path. -/
def find (t : FileTree) (path : Path) : Except OsError FileNode :=
  match t.locate path with
  | .error e => .error e
  | .ok place =>
    match t.node place with
    | some node => .ok node
    | none => .error .noEntry

def isDirectory (t : FileTree) (path : Path) : Bool :=
  match t.find path with
  | .ok .directory => true
  | _ => false

def read (t : FileTree) (path : Path) : Except OsError FileContents :=
  match t.find path with
  | .ok (.file contents) => .ok contents
  | .ok .directory => .error .isDirectory
  | .error e => .error e

/-- The tree after a file was given new contents; a file that does not exist is made, in a
directory that does. -/
def write (t : FileTree) (path : Path) (contents : FileContents) : Except OsError FileTree :=
  match t.locate path with
  | .error e => .error e
  | .ok place =>
    match t.node place with
    | some .directory => .error .isDirectory
    | _ => .ok (t.put place (.file contents))

/-- The tree with all directories on the way from `here` to the end of `rest`, as far as names can
be looked up. -/
def makeDirectoriesFrom (t : FileTree) (here : Path) : (rest : Path) → FileTree
  | [] => t
  | name :: rest =>
    match t.enter here name with
    | .error _ => t
    | .ok next =>
      let t := match t.node next with
        | some _ => t
        | none => t.put next .directory
      makeDirectoriesFrom t next rest

/-- The tree with a directory at a path, and all directories on the way there. -/
def makeDirectories (t : FileTree) (path : Path) : FileTree := t.makeDirectoriesFrom [] path

/-- The text of a file, without the blanks at its ends. -/
def readText (t : FileTree) (path : Path) : Except Fault String :=
  match t.read path with
  | .error e => .error (.transfer (.os e))
  | .ok contents =>
    match Utf8.decode? contents.bytes with
    | some text => .ok (Text.trim text)
    | none => .error (.transfer .notUtf8)

end FileTree

end PacketOffload
