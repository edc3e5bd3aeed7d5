import Std.Data.TreeMap
import CriticalSection.Files.Path

/-!
# File trees

A tree holds files and directories, each at its location: the names that lead to it from the root.
A path is followed from the root if it starts with a slash and from the working directory if it
does not. Following it can fail at a name that is missing or that is no directory.
-/

set_option autoImplicit false

namespace CriticalSection

/-- What can stand at a location. -/
inductive Node
  | file (content : ByteArray)
  | directory

/-- The names that lead to a file, with slashes between them. -/
abbrev Location := String

/-- A tree of files, and the names that lead to the working directory. -/
structure FileTree where
  nodes : Std.TreeMap Location Node
  home : List String

namespace FileTree

/-- The location that some names lead to. -/
def locate (names : List String) : Location := String.intercalate "/" names

/-- A tree that holds nothing but its working directory and those above it. -/
def new (home : List String) : FileTree where
  nodes := (List.range home.length).foldl
    (fun nodes depth => nodes.insert (locate (home.take (depth + 1))) .directory) ∅
  home := home

/-- A tree without files, whose working directory is its root. -/
def empty : FileTree := new []

/-- What stands where some names lead. -/
def node? (t : FileTree) (names : List String) : Option Node :=
  if names.isEmpty then some .directory else t.nodes[locate names]?

/-- With something at a location. -/
def put (t : FileTree) (location : Location) (node : Node) : FileTree :=
  { t with nodes := t.nodes.insert location node }

/-- The files of a tree, in the order of their locations. -/
def files (t : FileTree) : List (Location × ByteArray) :=
  t.nodes.toList.filterMap fun (location, node) =>
    match node with
    | .file content => some (location, content)
    | .directory => none

/-- Follows names from a directory; the last one need not exist. -/
def follow (t : FileTree) (here : List String) : List String → Except SystemFailure (List String)
  | [] => .ok here
  | name :: rest =>
    match t.node? here with
    | none => .error .notFound
    | some (.file _) => .error .notADirectory
    | some .directory =>
      if Path.maxNameLength < name.utf8ByteSize then .error .invalidFilename
      else if name = "." then follow t here rest
      else if name = ".." then follow t here.dropLast rest
      else follow t (here ++ [name]) rest

/-- The names that lead to where a path ends. -/
def resolve (t : FileTree) (path : String) : Except SystemFailure (List String) :=
  match Path.defect? path with
  | some failure => .error failure
  | none => t.follow (if Path.isAbsolute path then [] else t.home) (Path.names path)

/-- **The content of a file.** -/
def read (t : FileTree) (path : String) : Except SystemFailure ByteArray :=
  match t.resolve path with
  | .error failure => .error failure
  | .ok names =>
    match t.node? names with
    | none => .error .notFound
    | some .directory => .error .isADirectory
    | some (.file content) =>
      if Path.namesDirectory path then .error .notADirectory else .ok content

/-- The content of a file that holds text. -/
def readText (t : FileTree) (path : String) : Except SystemFailure String :=
  match t.read path with
  | .error failure => .error failure
  | .ok content =>
    match String.fromUTF8? content with
    | some text => .ok text
    | none => .error .invalidData

/-- The location of a file that is to be written. -/
def writable (t : FileTree) (path : String) : Except SystemFailure Location :=
  match t.resolve path with
  | .error failure => .error failure
  | .ok names =>
    match t.node? names with
    | some .directory => .error .isADirectory
    | some (.file _) =>
      if Path.namesDirectory path then .error .notADirectory else .ok (locate names)
    | none => if Path.namesDirectory path then .error .isADirectory else .ok (locate names)

/-- **Writes a file**, which is created if it does not exist and loses its content if it does. -/
def write (t : FileTree) (path : String) (content : ByteArray) : Except SystemFailure FileTree :=
  (t.writable path).map fun location => t.put location (.file content)

/-- The bytes of a content that is overwritten from a position on; a gap before the position is
filled with zeros. -/
def overwrite (content : ByteArray) (position : Nat) (bytes : ByteArray) : ByteArray :=
  let front := content.extract 0 position
  let gap : ByteArray := ⟨(List.replicate (position - front.size) (0 : UInt8)).toArray⟩
  front ++ gap ++ bytes ++ content.extract (position + bytes.size) content.size

/-- Writes into the file at a location, from a position on. -/
def writeAt (t : FileTree) (location : Location) (position : Nat) (bytes : ByteArray) : FileTree :=
  let content := match t.nodes[location]? with
    | some (.file content) => content
    | _ => .empty
  t.put location (.file (overwrite content position bytes))

/-! ## Directories -/

/-- Creates one directory. -/
def createDirectory (t : FileTree) (path : String) : Except SystemFailure FileTree :=
  match t.resolve path with
  | .error failure => .error failure
  | .ok names =>
    match t.node? names with
    | some _ => .error .alreadyExists
    | none => .ok (t.put (locate names) .directory)

/-- Whether a path leads to a directory. -/
def isDirectory (t : FileTree) (path : String) : Bool :=
  match t.resolve path with
  | .error _ => false
  | .ok names => match t.node? names with
    | some .directory => true
    | _ => false

/-- Creates a directory, at most `depth` of those above it first where they are missing. -/
def createWithin (t : FileTree) : Nat → String → Except SystemFailure FileTree
  | depth, path =>
    if path.isEmpty then .ok t
    else match t.createDirectory path with
      | .ok t => .ok t
      | .error .notFound =>
        match depth with
        | 0 => .error .notFound
        | depth + 1 =>
          match createWithin t depth (Path.parent path) with
          | .error failure => .error failure
          | .ok t => t.createDirectory path
      | .error failure => if t.isDirectory path then .ok t else .error failure

/-- **Creates a directory** and those above it that are missing. One that exists is left as it
is. -/
def createDirectories (t : FileTree) (path : String) : Except SystemFailure FileTree :=
  t.createWithin (Path.names path).length path

end FileTree

/-- The outcome of using the file at a path. -/
def Outcome.ofFile {α : Type} (path : String) : Except SystemFailure α → Outcome α
  | .ok value => .ok value
  | .error cause => fail (.file path cause)

end CriticalSection
