import ResolutionLog.Fixture.Parse
import ResolutionLog.Text.Split

/-! # Files

What the program reads: files by their paths, which are UTF-8 texts of limited length. A `FileTree` is
a set of files in one directory and in directories below it, among the directories and files that every
system has. Paths are followed name by name, and the first step that cannot be taken says why. -/

namespace ResolutionLog

/-- What lies around a run of the program. -/
structure Surroundings where
  /-- The content of the file at a path. -/
  read : String → Except IoFault ByteArray
  /-- Why no file can be made in a directory, if none can. -/
  spillFault? : String → Option IoFault

/-- The longest file that is read, in bytes. -/
def fileLimit : Nat := 16 * 1024 * 1024

/-- The text of the file at a path. Its length is looked at before anything else. -/
def Surroundings.readText (s : Surroundings) (path : String) : Except FixtureError String :=
  match s.read path with
  | .error fault => .error (.log (.io fault))
  | .ok bytes =>
    if fileLimit < bytes.size then .error (.oversizedFile bytes.size fileLimit)
    else
      match String.fromUTF8? bytes with
      | some text => .ok text
      | none => .error (.log (.io (.system "stream did not contain valid UTF-8")))

/-! ## Why a path leads nowhere -/

namespace IoFault

/-- Nothing is there. -/
def missing : IoFault := .system "No such file or directory (os error 2)"

/-- A file is where a directory is needed. -/
def notDirectory : IoFault := .system "Not a directory (os error 20)"

/-- A directory is where a file is needed. -/
def isDirectory : IoFault := .system "Is a directory (os error 21)"

/-- A name or a path is too long. -/
def nameTooLong : IoFault := .system "File name too long (os error 36)"

/-- A directory takes no files at all. -/
def readOnly : IoFault := .system "Read-only file system (os error 30)"

/-- No name holds the null character. -/
def nullInName : IoFault := .system "file name contained an unexpected NUL byte"

end IoFault

/-- The longest name, in bytes. -/
def nameLimit : Nat := 255

/-- The longest path, in bytes. -/
def pathLimit : Nat := 4095

/-! ## Trees of files -/

/-- What stands at the end of a path. -/
inductive Place where
  /-- A directory, with its names from the root of all directories. -/
  | directory (names : List String)
  | file (content : ByteArray)

/-- Files by their paths, which are given by their names from the root of all directories. -/
structure FileTree where
  files : List (List String × ByteArray)

namespace FileTree

/-- The directory from which paths are followed, which has no name of its own among those for temporary
files. -/
def home : List String := ["tmp", ""]

/-- Names with the place that they stand for, each by its names from the root of all directories. -/
def links : List (List String × List String) :=
  [(["dev", "fd"], ["proc", "self", "fd"]), (["dev", "stdin"], ["proc", "self", "fd", "0"]),
    (["proc", "self", "cwd"], home), (["proc", "self", "root"], [])]

/-- The directories that every system has, by the directories that they are in. -/
def commonDirectories : List (List String × List String) :=
  [([], ["bin", "boot", "dev", "etc", "home", "lib", "lib64", "media", "mnt", "opt", "proc", "root",
      "run", "sbin", "srv", "sys", "tmp", "usr", "var"]),
    (["dev"], ["mqueue", "pts", "shm"]), (["proc"], ["self", "sys"]), (["proc", "self"], ["fd"]),
    (["run"], ["lock"]), (["sys"], ["block", "bus", "class", "devices", "fs", "kernel"]),
    (["usr"], ["bin", "include", "lib", "local", "sbin", "share", "src"]),
    (["usr", "local"], ["bin", "lib", "share"]),
    (["var"], ["cache", "lib", "local", "lock", "log", "mail", "opt", "run", "spool", "tmp"])]

/-- Files that every system has. The standard input of the program is empty; of other files, which are no
documents, only the kind of their content is given. -/
def commonFiles : List (List String × ByteArray) :=
  let program : ByteArray := ⟨#[0x7F, 0x45, 0x4C, 0x46, 0xFF]⟩
  [(["dev", "null"], ByteArray.empty), (["proc", "self", "fd", "0"], ByteArray.empty),
    (["etc", "group"], "root:x:0:".toUTF8), (["etc", "hostname"], "localhost".toUTF8),
    (["etc", "hosts"], "127.0.0.1 localhost".toUTF8),
    (["etc", "passwd"], "root:x:0:0:root:/root:/bin/sh".toUTF8),
    (["proc", "version"], "Linux version".toUTF8), (["bin", "sh"], program),
    (["usr", "bin", "env"], program)]

/-- The names on a path of a file in the tree. -/
def names (path : String) : List String :=
  (Text.splitAtEach '/' path).filter fun name => name ≠ "" && name ≠ "."

/-- The tree of files that were written to these paths one after the other. -/
def ofList (files : List (String × ByteArray)) : FileTree :=
  ⟨files.reverse.map (fun (path, bytes) => (home ++ names path, bytes)) ++ commonFiles⟩

/-- Whether there is a directory at the end of these names. -/
def isDirectory (t : FileTree) (here : List String) : Bool :=
  here = [] || here = home ||
    commonDirectories.any (fun (parent, children) => children.any fun name => here = parent ++ [name]) ||
    t.files.any fun (path, _) => here.isPrefixOf path

/-- What stands at the end of these names. -/
def place? (t : FileTree) (here : List String) : Option Place :=
  match t.files.lookup here with
  | some content => some (.file content)
  | none => if t.isDirectory here then some (.directory here) else none

/-- The names from the root of all directories to a name in a directory. -/
def enter (here : List String) (name : String) : List String :=
  (links.lookup (here ++ [name])).getD (here ++ [name])

/-- Follow the names of a path from a place. A dot stands for the directory that has been reached, two
dots for the one that it is in, and so does an empty name for the former. -/
def follow (t : FileTree) (here : List String) : List String → Except IoFault Place
  | [] =>
    match t.place? here with
    | some place => .ok place
    | none => .error .missing
  | name :: rest =>
    match t.place? here with
    | none => .error .missing
    | some (.file _) => .error .notDirectory
    | some (.directory _) =>
      if name = "" ∨ name = "." then t.follow here rest
      else if name = ".." then t.follow here.dropLast rest
      else if nameLimit < name.utf8ByteSize then .error .nameTooLong
      else t.follow (enter here name) rest

/-- What stands at the end of a path. -/
def find (t : FileTree) (path : String) : Except IoFault Place :=
  if path.contains '\x00' then .error .nullInName
  else if pathLimit < path.utf8ByteSize then .error .nameTooLong
  else if path.isEmpty then .error .missing
  else t.follow (if path.startsWith "/" then [] else home) (Text.splitAtEach '/' path)

/-- The content of the file at a path. -/
def read (t : FileTree) (path : String) : Except IoFault ByteArray := do
  match ← t.find path with
  | .file content => return content
  | .directory _ => throw .isDirectory

/-- The length of the path of the directory from which paths are followed, in bytes: its own name has ten
characters, like those of other temporary files. -/
def homePathSize : Nat := "/tmp/".utf8ByteSize + 10

/-- The length of the path of a new file in a directory, in bytes, from the root of all directories. -/
def newPathSize (directory : String) : Nat :=
  let above := if directory.startsWith "/" then 0 else homePathSize + 1
  let separator := if directory.endsWith "/" then 0 else 1
  above + directory.utf8ByteSize + separator + 10

/-- Why no file can be made in a directory, if none can. An empty path is the directory from which paths
are followed. Where no directory is found, the path that the file would have decides. -/
def spillFault? (t : FileTree) (path : String) : Option IoFault :=
  let unnamed := if pathLimit < newPathSize path then .nameTooLong else .missing
  match t.find (if path.isEmpty then "." else path) with
  | .ok (.directory names) =>
    match names.head? with
    | some "proc" => some unnamed
    | some "sys" => some .readOnly
    | _ => none
  | .ok (.file _) => some .notDirectory
  | .error fault => some (if fault = .missing then unnamed else fault)

/-- The files of a tree as the surroundings of a run. -/
def surroundings (t : FileTree) : Surroundings := ⟨t.read, t.spillFault?⟩

end FileTree

end ResolutionLog
