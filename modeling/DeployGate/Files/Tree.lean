import DeployGate.Files.Reading

/-!
# File trees

A tree of files held in memory, in which paths are looked up as in a working directory. Outside of
it there is nothing but the directories above it.
-/

namespace DeployGate.Files

/-- Files and directories by the names on the way to them. A directory is also there when something
in it is. -/
structure Tree where
  entries : List (List String × Option ByteArray) := []

inductive Node
  | file (contents : ByteArray)
  | directory

namespace Tree

def components (path : String) : List String := path.splitOn "/"

/-- The tree of the given files. A name with a slash at its end is that of a directory. -/
def ofFiles (files : List (String × ByteArray)) : Tree where
  entries := files.map fun (name, contents) =>
    ((components name).filter (· ≠ ""), if name.endsWith "/" then none else some contents)

def node? (tree : Tree) (way : List String) : Option Node :=
  match tree.entries.lookup way with
  | some (some contents) => some (.file contents)
  | _ =>
    if way.isEmpty || tree.entries.any (way.isPrefixOf ·.1) then some .directory else none

/-- Whether a name leads from a directory to itself or to one above it. -/
def isDots (name : String) : Bool := name = "" || name = "." || name = ".."

/-- The longest name, in bytes. -/
def nameLimit : Nat := 255

/-- Reads what the names lead to from a directory. -/
def readFrom (tree : Tree) (way : List String) : List String → Except ReadFault ByteArray
  | [] =>
    match tree.node? way with
    | none => .error .missing
    | some .directory => .error .isDirectory
    | some (.file contents) => .ok contents
  | name :: rest =>
    match tree.node? way with
    | none => .error .missing
    | some (.file _) => .error .notDirectory
    | some .directory =>
      if name = ".." && way.isEmpty then
        .error (if rest.all isDots then .isDirectory else .missing)
      else if name = ".." then tree.readFrom way.dropLast rest
      else if isDots name then tree.readFrom way rest
      else if nameLimit < name.utf8ByteSize then .error .nameTooLong
      else tree.readFrom (way ++ [name]) rest

/-- One more than the length of the longest path, in bytes. -/
def pathLimit : Nat := 4096

def read (tree : Tree) (path : String) : Except ReadFault ByteArray :=
  if path.toList.contains '\x00' then .error .zeroInPath
  else if path = "" then .error .missing
  else if pathLimit ≤ path.utf8ByteSize then .error .nameTooLong
  else if path.startsWith "/" then
    .error (if (components path).all isDots then .isDirectory else .missing)
  else tree.readFrom [] (components path)

end Tree

def Inputs.ofTree (tree : Tree) (standardInput : ByteArray) : Inputs :=
  ⟨tree.read, .ok standardInput⟩

end DeployGate.Files
