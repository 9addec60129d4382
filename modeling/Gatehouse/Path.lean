import Gatehouse.Text.Utf8
/-!
File paths, which are octets with slashes between the names. A path need not be the UTF-8 form of a
text; it is shown with replacement characters where it is not.
-/

namespace Gatehouse

structure Path where
  octets : List UInt8
  deriving DecidableEq

namespace Path

def slash : UInt8 := 0x2F

def dot : UInt8 := 0x2E

def ofString (s : String) : Path := ⟨Text.Utf8.encode s.toList⟩

def display (path : Path) : String := String.ofList (Text.Utf8.decodeLossy path.octets)

def isAbsolute (path : Path) : Bool := path.octets.head? == some slash

/-- The path `other` as seen from `base`. An absolute path is the same from everywhere. -/
def join (base other : Path) : Path :=
  if other.isAbsolute then other
  else if base.octets = [] ∨ base.octets.getLast? = some slash then ⟨base.octets ++ other.octets⟩
  else ⟨base.octets ++ [slash] ++ other.octets⟩

def segments (path : Path) : List (List UInt8) := path.octets.splitOn slash

/-- Whether a segment, at the end or between others, stands for no step at all. -/
def isIdle (segment : List UInt8) : Bool := segment == [] || segment == [dot]

def dropIdle (segments : List (List UInt8)) : List (List UInt8) :=
  (segments.reverse.dropWhile isIdle).reverse

def dropStep? (segments : List (List UInt8)) : Option (List (List UInt8)) :=
  match dropIdle segments with
  | [] => none
  | steps => some (dropIdle steps.dropLast)

def ofSegments (segments : List (List UInt8)) : Path := ⟨[slash].intercalate segments⟩

/-- The path without its last step. The root and the empty path have none; a dot that a relative
path begins with counts as a step when no other is left. -/
def parent? (path : Path) : Option Path :=
  match path.segments with
  | [] => none
  | first :: rest =>
    if path.octets = [] then none
    else if first = [] then (dropStep? rest).map fun steps => ⟨slash :: (ofSegments steps).octets⟩
    else if first = [dot] then
      match dropStep? rest with
      | some steps => some (ofSegments (first :: steps))
      | none => some ⟨[]⟩
    else (dropStep? (first :: rest)).map ofSegments

def fileName? (path : Path) : Option (List UInt8) :=
  match (dropIdle path.segments).getLast? with
  | some name => if name = [dot, dot] then none else some name
  | none => none

def extend? (path : Path) (ending : List UInt8) : Option Path := do
  let _ ← path.fileName?
  return ⟨(ofSegments (dropIdle path.segments)).octets ++ ending⟩

end Path

end Gatehouse
