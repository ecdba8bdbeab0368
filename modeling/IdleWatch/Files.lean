import IdleWatch.Fault
import IdleWatch.Text.Utf8

/-!
# The files around a run

A working directory holds files and directories, given by their paths from it. Directories that
lie on the way to one exist as well. Outside of it lie the directories above it, and what every
system has: a few directories, programs, and files.

A path is followed part by part, and each part has to be a directory while more of the path is to
come, be it only a slash.
-/

namespace IdleWatch

/-- What lies at a path. -/
inductive FileEntry where
  | file (bytes : List UInt8)
  | directory
  deriving DecidableEq, Repr

/-- The files and directories of a working directory, by the parts of their paths. -/
structure Files where
  entries : List (List String × FileEntry) := []
  deriving DecidableEq, Repr

namespace Files

/-- The directories of every system, by their paths from the root. -/
def usualDirectories : List String :=
  ["bin", "boot", "dev", "dev/fd", "dev/pts", "dev/shm", "etc", "home", "lib", "lib64", "media",
    "mnt", "opt", "proc", "proc/self", "root", "run", "sbin", "srv", "sys", "tmp", "usr",
    "usr/bin", "usr/include", "usr/lib", "usr/lib64", "usr/local", "usr/local/bin",
    "usr/local/lib", "usr/local/sbin", "usr/sbin", "usr/share", "usr/src", "var", "var/lib",
    "var/log", "var/run", "var/tmp"]

/-- The files of every system that can be read, by their paths from the root, and what they hold. -/
def usualFiles : List (String × String) :=
  [("dev/null", ""), ("etc/passwd", "root:x:0:0:root:/root:/bin/bash\n"),
    ("etc/group", "root:x:0:\n"), ("etc/hosts", "127.0.0.1\tlocalhost\n")]

/-- The parts of a path that name something. -/
def parts (path : String) : List String :=
  ((path.toList.splitOn '/').map String.ofList).filter (fun p => p ≠ "" ∧ p ≠ ".")

/-- The working directory with these files. -/
def ofPaths (entries : List (String × FileEntry)) : Files :=
  { entries := entries.map fun (path, entry) => (parts path, entry) }

/-- What lies at these parts below the working directory. -/
def lookup? (files : Files) (parts : List String) : Option FileEntry :=
  match files.entries.find? (·.1 = parts) with
  | some (_, entry) => some entry
  | none =>
    if parts.isEmpty || files.entries.any (fun (p, _) => parts.isPrefixOf p) then some .directory
    else none

/-- What lies at these parts from the root. -/
def usual? (parts : List String) : Option FileEntry :=
  let path := "/".intercalate parts
  if usualDirectories.contains path then some .directory
  else (usualFiles.lookup path).map fun s => .file (Text.Utf8.encode s)

/-- Where following a path has come to. -/
inductive Position where
  /-- The directory at these parts, the last one first. -/
  | inside (parts : List String)
  /-- A directory above the working directory. -/
  | above
  /-- A directory elsewhere, at these parts from the root, the last one first. -/
  | outside (parts : List String)
  /-- A file. -/
  | atFile (bytes : List UInt8)
  deriving DecidableEq, Repr

/-- The longest name that a file can have, in bytes. -/
def nameLimit : Nat := 255

/-- The longest path, in bytes. -/
def pathLimit : Nat := 4095

/-- The directory above a position. -/
def parent : Position → Position
  | .inside [] => .above
  | .inside (_ :: parts) => .inside parts
  | .outside parts => .outside parts.tail
  | position => position

/-- The entry of a name in a directory. -/
def enter (files : Files) (position : Position) (part : String) : Except Fault Position :=
  let found? := match position with
    | .inside parts => files.lookup? (part :: parts).reverse
    | .outside parts => usual? (part :: parts).reverse
    | _ => none
  match found?, position with
  | some (.file bytes), _ => .ok (.atFile bytes)
  | some .directory, .inside parts => .ok (.inside (part :: parts))
  | some .directory, .outside parts => .ok (.outside (part :: parts))
  | _, _ => .error .notFound

/-- Follow one part of a path. -/
def follow (files : Files) (position : Position) (part : String) : Except Fault Position :=
  if position matches .atFile _ then .error .notADirectory
  else if part = "" ∨ part = "." then .ok position
  else if part = ".." then .ok (parent position)
  else if nameLimit < (Text.Utf8.encode part).length then .error .nameTooLong
  else files.enter position part

/-- Follow a whole path, from the working directory or from the root. -/
def resolve (files : Files) (path : String) : Except Fault Position :=
  let start : Position := if path.toList.head? = some '/' then .outside [] else .inside []
  ((path.toList.splitOn '/').map String.ofList).foldlM files.follow start

/-- What is said of a path with a NUL in it. -/
def nulFault : Fault := .reported .other "file name contained an unexpected NUL byte"

/-- What is said of a file that is not UTF-8. -/
def notTextFault : Fault := .reported .other "stream did not contain valid UTF-8"

/-- Read a text file. -/
def readText (files : Files) (path : String) : Except Fault String :=
  if path.toList.contains '\x00' then .error nulFault
  else if path = "" then .error .notFound
  else if pathLimit < (Text.Utf8.encode path).length then .error .nameTooLong
  else
    match files.resolve path with
    | .error fault => .error fault
    | .ok (.atFile bytes) =>
      match Text.Utf8.decode? bytes with
      | some text => .ok text
      | none => .error notTextFault
    | .ok _ => .error .isADirectory

end Files

end IdleWatch
