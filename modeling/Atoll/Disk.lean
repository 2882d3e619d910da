import Atoll.Path

/-!
# Files and directories

A program sees a disk through what stands at a path.  A `Tree` is a working directory with the files
below it.  Of what lies outside of it, only the usual directories at the root and the null device
are known, and no other names are found there.
-/

set_option autoImplicit false

namespace Atoll

/-- What stands at a path. -/
inductive Disk.Entry where
  | file (bytes : ByteArray)
  | directory
  /-- A device that is always empty and swallows what is written to it. -/
  | device
  /-- There is nothing. -/
  | missing
  /-- A name on the way is that of a file. -/
  | blocked
  /-- A name on the way, or the whole path, is too long. -/
  | tooLong
  /-- A name has a character that names cannot have. -/
  | unnameable
  deriving Inhabited

/-- What stands at every path. -/
abbrev Disk := Path → Disk.Entry

/-- Why a file cannot be read or written. -/
inductive Refusal where
  | missing
  | isDirectory
  | notDirectory
  | tooLong
  | unnameable
  deriving DecidableEq, Repr, Inhabited

namespace Refusal

/-- The reason in words. -/
def message : Refusal → String
  | .missing => "No such file or directory"
  | .isDirectory => "Is a directory"
  | .notDirectory => "Not a directory"
  | .tooLong => "File name too long"
  | .unnameable => "embedded null byte"

end Refusal

namespace Disk

/-- The bytes of a file. -/
def read (disk : Disk) (p : Path) : Except Refusal ByteArray :=
  match disk p with
  | .file bytes => .ok bytes
  | .device => .ok .empty
  | .directory => .error .isDirectory
  | .missing => .error .missing
  | .blocked => .error .notDirectory
  | .tooLong => .error .tooLong
  | .unnameable => .error .unnameable

/-- Why a file cannot be written.  A new file needs a directory to stand in. -/
def refusal? (disk : Disk) (p : Path) : Option Refusal :=
  match disk p with
  | .file _ => none
  | .device => none
  | .directory => some .isDirectory
  | .blocked => some .notDirectory
  | .tooLong => some .tooLong
  | .unnameable => some .unnameable
  | .missing =>
    match disk p.parent with
    | .directory => none
    | _ => some .missing

end Disk

/-! ## A working directory -/

/-- The files below a working directory, by the names on the way to them. -/
structure Tree where
  files : List (List String × ByteArray)
  deriving Inhabited

namespace Tree

/-- A place that a walk through the tree can come to: a directory in it, one above it, one of those
at the root of the disk, or an entry at which the walk ends. -/
inductive Place where
  | inside (names : List String)
  | above
  | atRoot (names : List String)
  | stopped (entry : Disk.Entry)

/-- Whether there are files below a directory. -/
def hasDirectory (t : Tree) (names : List String) : Bool :=
  t.files.any fun (file, _) => names.isPrefixOf file && names.length < file.length

/-- The directories that are there on every disk. -/
def rootDirectories : List String :=
  ["bin", "dev", "etc", "home", "lib", "opt", "proc", "root", "run", "sbin", "sys", "tmp", "usr",
    "var"]

/-- What stands under names from the root on. -/
def rootEntry (names : List String) : Disk.Entry :=
  match names with
  | [] => .directory
  | [name] => if rootDirectories.contains name then .directory else .missing
  | ["dev", "null"] => .device
  | _ => .missing

/-- The most bytes that a name can have. -/
def maxName : Nat :=
  255

/-- The most bytes that a path can have. -/
def maxPath : Nat :=
  4095

/-- The entry at which a walk ends, if names follow or not. -/
def stop (entry : Disk.Entry) (last : Bool) : Place :=
  match entry with
  | .file bytes => .stopped (if last then .file bytes else .blocked)
  | .device => .stopped (if last then .device else .blocked)
  | other => .stopped other

/-- One step of a walk; `last` says that no further name follows. -/
def step (t : Tree) (place : Place) (name : String) (last : Bool) : Place :=
  match place with
  | .stopped entry => .stopped entry
  | .above =>
    if name == ".." then .above
    else .stopped (if maxName < name.utf8ByteSize then .tooLong else .missing)
  | .atRoot names =>
    if name == ".." then .atRoot names.dropLast
    else if maxName < name.utf8ByteSize then .stopped .tooLong
    else
      match rootEntry (names ++ [name]) with
      | .directory => .atRoot (names ++ [name])
      | entry => stop entry last
  | .inside names =>
    if name == ".." then if names.isEmpty then .above else .inside names.dropLast
    else if maxName < name.utf8ByteSize then .stopped .tooLong
    else
      let names := names ++ [name]
      match t.files.lookup names with
      | some bytes => stop (.file bytes) last
      | none => if t.hasDirectory names then .inside names else .stopped .missing

/-- Walks along names. -/
def walk (t : Tree) (place : Place) : List String → Place
  | [] => place
  | name :: rest => walk t (t.step place name rest.isEmpty) rest

/-- The place that a path leads to. -/
def place (t : Tree) (p : Path) : Place :=
  if p.text.toList.contains '\x00' then .stopped .unnameable
  else if maxPath < p.text.utf8ByteSize then .stopped .tooLong
  else t.walk (if p.root.isEmpty then .inside [] else .atRoot []) p.names

/-- What stands at a path. -/
def look (t : Tree) : Disk := fun p =>
  match t.place p with
  | .stopped entry => entry
  | _ => .directory

/-- The names under which a file at a path stands in the tree. -/
def target? (t : Tree) (p : Path) : Option (List String) :=
  match t.place p.parent with
  | .inside names => some (names ++ [p.name])
  | _ => none

end Tree

end Atoll
