import Gatehouse.Text.Affix
import Gatehouse.Text.Blank
/-!
URL patterns of a deployment descriptor: how one is read from its text, how it is written, and
which request paths it covers.
-/

namespace Gatehouse

open Text

inductive UrlPattern where
  | exact (path : String)
  /-- The root and everything below it: `/admin/*`. An empty root covers every path. -/
  | subtree (root : String)
  /-- Every path whose last segment ends in a dot and this text: `*.jsp`. -/
  | extension (suffix : String)
  | default
  /-- The empty pattern, which covers the path `/` alone. -/
  | contextRoot
  deriving DecidableEq

namespace UrlPattern

def ofTrimmed (s : List Char) : UrlPattern :=
  if s = [] then contextRoot
  else if s = ['/'] then default
  else
    match beforeEnd? ['/', '*'] s with
    | some root =>
      if root = [] ∨ root.head? = some '/' then subtree (String.ofList root) else other s
    | none => other s
where
  other (s : List Char) : UrlPattern :=
    match afterStart? ['*', '.'] s with
    | some suffix =>
      if suffix ≠ [] ∧ '/' ∉ suffix then extension (String.ofList suffix)
      else exact (String.ofList s)
    | none => exact (String.ofList s)

def parse (raw : String) : UrlPattern := ofTrimmed (trim raw.toList)

def display : UrlPattern → String
  | exact path => path
  | subtree root => root ++ "/*"
  | extension suffix => "*." ++ suffix
  | default => "/"
  | contextRoot => ""

def lastSegment (path : List Char) : List Char := (path.reverse.takeWhile (· != '/')).reverse

def covers (pattern : UrlPattern) (path : String) : Bool :=
  match pattern with
  | exact p => p == path
  | subtree root =>
    root == "" || path == root ||
      match afterStart? root.toList path.toList with
      | some below => below.head? == some '/'
      | none => false
  | extension suffix =>
    match beforeEnd? suffix.toList (lastSegment path.toList) with
    | some stem => stem.getLast? == some '.'
    | none => false
  | default => true
  | contextRoot => path == "/"

end UrlPattern

end Gatehouse
