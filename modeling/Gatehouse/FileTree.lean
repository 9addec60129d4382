import Gatehouse.Path
/-!
Files and directories as the program sees them: what lies at a path, and why a file cannot be read.
There are no links and no devices, and every directory may be entered.
-/

namespace Gatehouse

inductive FileFault where
  | notFound
  | notADirectory
  | isADirectory
  | permissionDenied
  | inputOutput
  | invalidPath
  | nameTooLong
  | notText
  deriving DecidableEq

inductive FileEntry where
  | file (contents : List UInt8)
  /-- A file that cannot be opened for reading, and why. -/
  | unreadable (fault : FileFault)
  | directory
  deriving DecidableEq

/-- Files and directories by their places, a place being the names on the way from the root. -/
structure FileTree where
  /-- Of several entries for a place the first one counts. -/
  entries : List (List (List UInt8) × FileEntry) := []
  workingDirectory : Path := ⟨[Path.slash]⟩

namespace FileTree

def get? (tree : FileTree) (place : List (List UInt8)) : Option FileEntry :=
  if place = [] then some .directory else tree.entries.lookup place

def above : List (List UInt8) → List (List (List UInt8))
  | [] | [_] => []
  | name :: rest => [name] :: (above rest).map (name :: ·)

/-- Puts an entry at a place, and directories on the way to it where there is nothing yet. -/
def put (tree : FileTree) (place : List (List UInt8)) (entry : FileEntry) : FileTree :=
  let missing := (above place).filter fun place => (tree.get? place).isNone
  { tree with
    entries := (place, entry) :: missing.map (·, .directory) ++ tree.entries.filter (·.1 != place) }

def remove (tree : FileTree) (place : List (List UInt8)) : FileTree :=
  { tree with entries := tree.entries.filter (·.1 != place) }

@[simp] theorem get?_put (tree : FileTree) {place : List (List UInt8)} (h : place ≠ [])
    (entry : FileEntry) : (tree.put place entry).get? place = some entry := by
  simp [put, get?, h]

def placeOf (path : Path) : List (List UInt8) := path.segments.filter fun s => !Path.isIdle s

def maxName : Nat := 255
def maxPath : Nat := 4095

/-- Walks along segments from an entry at a place. Two dots lead one step up. -/
def walk (tree : FileTree) :
    (place : List (List UInt8)) → FileEntry → List (List UInt8) → Except FileFault FileEntry
  | _, entry, [] => .ok entry
  | _, .file _, _ :: _ | _, .unreadable _, _ :: _ => .error .notADirectory
  | place, .directory, segment :: rest =>
    if Path.isIdle segment then tree.walk place .directory rest
    else if segment = [Path.dot, Path.dot] then tree.walk place.dropLast .directory rest
    else if maxName < segment.length then .error .nameTooLong
    else
      match tree.get? (place ++ [segment]) with
      | some entry => tree.walk (place ++ [segment]) entry rest
      | none => .error .notFound

def find (tree : FileTree) (path : Path) : Except FileFault FileEntry :=
  if path.octets = [] then .error .notFound
  else if 0 ∈ path.octets then .error .invalidPath
  else if maxPath < path.octets.length then .error .nameTooLong
  else tree.walk [] .directory (tree.workingDirectory.join path).segments

def exists? (tree : FileTree) (path : Path) : Bool :=
  match tree.find path with
  | .ok _ => true
  | .error _ => false

def isFile (tree : FileTree) (path : Path) : Bool :=
  match tree.find path with
  | .ok (.file _) | .ok (.unreadable _) => true
  | _ => false

/-- Whether what lies at a path can be opened for reading. So can a directory, although there is
nothing to be read from it. -/
def opens (tree : FileTree) (path : Path) : Bool :=
  match tree.find path with
  | .ok (.file _) | .ok .directory => true
  | _ => false

def read (tree : FileTree) (path : Path) : Except FileFault (List UInt8) :=
  match tree.find path with
  | .ok (.file contents) => .ok contents
  | .ok (.unreadable fault) => .error fault
  | .ok .directory => .error .isADirectory
  | .error fault => .error fault

def readText (tree : FileTree) (path : Path) : Except FileFault String :=
  match tree.read path with
  | .ok contents =>
    match Text.Utf8.decode contents with
    | .ok text => .ok (String.ofList text)
    | .error _ => .error .notText
  | .error fault => .error fault

end FileTree

end Gatehouse
