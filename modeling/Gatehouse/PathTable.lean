import Std.Data.TreeMap
import Std.Data.TreeSet
import Gatehouse.Constraint
/-!
Look-up tables from request paths to constraints. A constraint is known by its position in the
descriptor. A look-up asks only for the keys that a path can be filed under (itself, what stands
before each of its slashes, what follows each dot of its last segment), so its cost does not grow
with the descriptor.
-/

namespace Gatehouse

def appendOnce (id : Nat) (ids : List Nat) : List Nat :=
  if ids.getLast? = some id then ids else ids ++ [id]

abbrev Postings := Std.TreeMap String (List Nat)

namespace Postings

def positions (postings : Postings) (key : String) : List Nat := postings.getD key []

def post (postings : Postings) (key : String) (id : Nat) : Postings :=
  postings.insert key (appendOnce id (postings.positions key))

/-- Adds a position to the list of a key, even one that is its last already. -/
def append (postings : Postings) (key : String) (id : Nat) : Postings :=
  postings.insert key (postings.positions key ++ [id])

end Postings

structure PathTable where
  exact : Postings := ∅
  /-- By the root of a subtree pattern, which is never empty here. -/
  subtrees : Postings := ∅
  extensions : Postings := ∅
  catchAll : List Nat := []
  contextRoot : List Nat := []

namespace PathTable

def file (id : Nat) (table : PathTable) : UrlPattern → PathTable
  | .exact path => { table with exact := table.exact.post path id }
  | .subtree root =>
    if root = "" then { table with catchAll := appendOnce id table.catchAll }
    else { table with subtrees := table.subtrees.post root id }
  | .extension suffix => { table with extensions := table.extensions.post suffix id }
  | .default => { table with catchAll := appendOnce id table.catchAll }
  | .contextRoot => { table with contextRoot := appendOnce id table.contextRoot }

def fileAll (table : PathTable) (constraint : Constraint) (id : Nat) : PathTable :=
  constraint.patterns.foldl (file id) table

def ofConstraints (constraints : List Constraint) : PathTable :=
  constraints.zipIdx.foldl (fun table entry => table.fileAll entry.1 entry.2) {}

def beforeSlashes : List Char → List (List Char)
  | [] => []
  | c :: rest =>
    let later := (beforeSlashes rest).map (c :: ·)
    if c = '/' then [] :: later else later

def afterDots : List Char → List (List Char)
  | [] => []
  | c :: rest => if c = '.' then rest :: afterDots rest else afterDots rest

def roots (path : String) : List String :=
  ((beforeSlashes path.toList).filter (· ≠ [])).map String.ofList ++ [path]

/-- The extensions of a path: `tar.gz` and `gz` of `/dist/app.tar.gz`. -/
def suffixes (path : String) : List String :=
  (afterDots (UrlPattern.lastSegment path.toList)).map String.ofList

def candidates (table : PathTable) (path : String) : List Nat :=
  table.catchAll ++ table.exact.positions path ++ (if path = "/" then table.contextRoot else []) ++
    (roots path).flatMap table.subtrees.positions ++
    (suffixes path).flatMap table.extensions.positions

def find (table : PathTable) (path : String) : Std.TreeSet Nat :=
  Std.TreeSet.ofList (table.candidates path)

end PathTable

end Gatehouse
