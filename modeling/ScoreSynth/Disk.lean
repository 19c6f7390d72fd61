/-!
# Looking up files

A disk holds files, each found under the path it was stored at, and no directory
but the one where the program runs and those above it.  Every other name is
missing.  A lookup walks a path component by component: an empty component and a
single dot stay in place, two dots go up, and a name that is too long is refused
when the walk comes to it.  New files can be created where the program runs.
-/

namespace ScoreSynth

/-- Files under their paths. -/
structure Disk where
  files : List (List Char × List UInt8)
  deriving DecidableEq, Repr

/-- Why a path cannot be opened. -/
inductive OpenFault where
  | missing
  | nameTooLong
  /-- A path cannot hold the character that ends a name. -/
  | nulCharacter
  /-- Any other reason, as the system gives it. -/
  | other (reason : String)
  deriving DecidableEq, Repr

/-- What a path leads to. -/
inductive Entry where
  | file (content : List UInt8)
  | directory
  deriving DecidableEq, Repr

namespace OpenFault

/-- The wording of a fault. -/
def message : OpenFault → String
  | missing => "No such file or directory (os error 2)"
  | nameTooLong => "File name too long (os error 36)"
  | nulCharacter => "file name contained an unexpected NUL byte"
  | other reason => reason

end OpenFault

namespace Disk

/-- A disk without files. -/
def empty : Disk := ⟨[]⟩

/-- The length of a text in octets. -/
def octetLength (text : List Char) : Nat :=
  text.foldl (fun total character => total + character.utf8Size) 0

/-- The longest name of a file or directory, in octets. -/
def longestName : Nat := 255

/-- The longest path, in octets. -/
def longestPath : Nat := 4095

/-- Whether a component of a path leads to no name. -/
def isStep (component : List Char) : Bool :=
  component = [] || component = ['.'] || component = ['.', '.']

/-- Walk the components of a path that is not a file's.  Only steps lead to a
directory. -/
def walk : List (List Char) → Except OpenFault Entry
  | [] => .ok .directory
  | component :: others =>
      if isStep component then walk others
      else if longestName < octetLength component then .error .nameTooLong
      else .error .missing

/-- What a path leads to. -/
def lookUp (disk : Disk) (path : List Char) : Except OpenFault Entry :=
  if '\x00' ∈ path then .error .nulCharacter
  else if path = [] then .error .missing
  else if longestPath < octetLength path then .error .nameTooLong
  else match disk.files.lookup path with
    | some content => .ok (.file content)
    | none => walk (path.splitOn '/')

/-- Whether a missing path is a name where the program runs. -/
def isCreatable (path : List Char) : Bool :=
  let components := path.splitOn '/'
  match components.getLast? with
  | none => false
  | some name =>
      components.dropLast.all isStep && ! isStep name && octetLength name ≤ longestName

/-- Put a file on a disk, in place of the one that was there. -/
def put (disk : Disk) (path : List Char) (content : List UInt8) : Disk :=
  ⟨(path, content) :: disk.files.filter (·.1 ≠ path)⟩

/-- Store a file, if there is a place for it. -/
def store? (disk : Disk) (path : List Char) (content : List UInt8) : Option Disk :=
  match disk.lookUp path with
  | .ok (.file _) => some (disk.put path content)
  | .error .missing => if isCreatable path then some (disk.put path content) else none
  | _ => none

end Disk

end ScoreSynth
