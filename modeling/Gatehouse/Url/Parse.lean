import Gatehouse.Url.Basic
/-!
Reading URLs. Every part is normalised on the way: the scheme and the host are in lower case, the
usual port is dropped, dot segments are resolved, and what a part cannot hold is percent-encoded.
-/

namespace Gatehouse.Url

open Text

/-! ### Paths -/

def isDrive (segment : List Char) : Bool :=
  match segment with
  | [letter, mark] => letter.isAlpha && (mark == ':' || mark == '|')
  | _ => false

def isDot (segment : List Char) : Bool :=
  segment == ['.'] || segment.map Char.toLower == ['%', '2', 'e']

def isDoubleDot (segment : List Char) : Bool :=
  let s := segment.map Char.toLower
  s == ['.', '.'] || s == ".%2e".toList || s == "%2e.".toList || s == "%2e%2e".toList

/-- Drops the last segment of a path, but no drive. The segments stand last one first. -/
def shorten : List (List Char) → List (List Char)
  | last :: rest => if isDrive last then last :: rest else rest
  | [] => []

/-- Adds segments to a path whose segments stand last one first. A dot stands for the place itself
and two dots for the one above; either leaves the path with a slash when it comes last. -/
def addSegments : (path : List (List Char)) → List (List Char) → List (List Char)
  | path, [] => path
  | path, [last] =>
    if isDoubleDot last then [] :: shorten path
    else if isDot last then [] :: path
    else percentEncode pathSet last :: path
  | path, segment :: rest =>
    if isDoubleDot segment then addSegments (shorten path) rest
    else if isDot segment then addSegments path rest
    else addSegments (percentEncode pathSet segment :: path) rest

def rawSegments (special : Bool) (s : List Char) : List (List Char) :=
  s.splitOnP fun c => c == '/' || (special && c == '\\')

def ofReversed (path : List (List Char)) : Route := .segments (path.reverse.map String.ofList)

/-- The path of a file URL: empty segments at its start go, and a drive there is written with a
colon if `drives` says so. -/
def fileRoute (drives : Bool) (base raw : List (List Char)) : Route :=
  let raw := match raw with
    | first :: rest =>
      if drives && isDrive first then (first.take 1 ++ [':']) :: rest else first :: rest
    | [] => []
  let path := (addSegments base raw).reverse
  let trimmed := path.dropWhile (· == [])
  .segments ((if trimmed = [] then [[]] else trimmed).map String.ofList)

/-! ### The other parts -/

def cutBefore (stops : List Char) (s : List Char) : List Char × List Char :=
  (s.takeWhile (· ∉ stops), s.dropWhile (· ∉ stops))

def queryAndFragment (special : Bool) (s : List Char) : Option String × Option String :=
  let (before, after) := cutBefore ['#'] s
  let fragment := match after with
    | '#' :: text => some (String.ofList (percentEncode fragmentSet text))
    | _ => none
  let query := match before with
    | '?' :: text => some (String.ofList (percentEncode (querySet special) text))
    | _ => none
  (query, fragment)

/-- What stands before the last `@` of an authority, if there is one, and what follows it. -/
def cutUser (s : List Char) : Option (List Char) × List Char :=
  let host := (s.reverse.takeWhile (· != '@')).reverse
  if '@' ∈ s then (some (s.take (s.length - host.length - 1)), host) else (none, s)

def hostAndPort? (scheme : String) (s : List Char) : Option (Host × Option Nat) := do
  let head := match s with
    | '[' :: _ => (s.takeWhile (· != ']')).length
    | _ => 0
  let name := s.take head ++ (s.drop head).takeWhile (· != ':')
  let host ← Host.parse? (isSpecial scheme) name
  match s.drop name.length with
  | [] => return (host, none)
  | _ :: digits =>
    if host = .empty then none
    if digits = [] then return (host, none)
    let port ← numeral? 10 digits
    if 65535 < port then none
    return (host, if usualPort? scheme = some port then none else some port)

def authority? (scheme : String) (s : List Char) : Option Authority := do
  let (user, rest) := cutUser s
  let (host, port) ← hostAndPort? scheme rest
  match user with
  | none => return { host, port }
  | some user =>
    let (name, password) := cutBefore [':'] user
    if host = .empty then none
    return {
      user := String.ofList (percentEncode userSet name)
      password := String.ofList (percentEncode userSet (password.drop 1))
      host, port }

def cutAuthority (special : Bool) (s : List Char) : List Char × List Char :=
  cutBefore (['/', '?', '#'] ++ if special then ['\\'] else []) s

def afterSlashes? (scheme : String) (s : List Char) : Option Url := do
  let special := isSpecial scheme
  let (before, rest) := cutAuthority special s
  let authority ← authority? scheme before
  let (path, rest) := cutBefore ['?', '#'] rest
  let (query, fragment) := queryAndFragment special rest
  let segments := match path with
    | [] => if special then [[]] else []
    | _ :: path => addSegments [] (rawSegments special path)
  return { scheme, authority, route := ofReversed segments, query, fragment }

def file? (s : List Char) : Option Url := do
  let isSlash := fun (c : Char) => c == '/' || c == '\\'
  let finish := fun (host : Host) (drives : Bool) (s : List Char) =>
    let (path, rest) := cutBefore ['?', '#'] s
    let path := if path.head?.any isSlash then path.tail else path
    let (query, fragment) := queryAndFragment true rest
    some { scheme := "file", authority := some { host }
           route := fileRoute drives [] (rawSegments true path), query, fragment }
  match s with
  | a :: b :: rest =>
    if isSlash a && isSlash b then
      let (before, path) := cutAuthority true rest
      if isDrive before then finish .empty true rest
      else if before = [] then finish .empty false path
      else
        let host ← Host.parse? true before
        finish (if host = .domain "localhost" then .empty else host) false path
    else finish .empty true s
  | _ => finish .empty true s

def plain? (scheme : String) (s : List Char) : Option Url :=
  match s with
  | '/' :: '/' :: rest => afterSlashes? scheme rest
  | _ =>
    let (path, rest) := cutBefore ['?', '#'] s
    let (query, fragment) := queryAndFragment false rest
    let route := match path with
      | '/' :: path => ofReversed (addSegments [] (rawSegments false path))
      | _ => .opaqueText (String.ofList (percentEncode [] path))
    some { scheme, authority := none, route, query, fragment }

def scheme? (s : List Char) : Option (String × List Char) :=
  let (name, rest) := cutBefore [':'] s
  let valid := name.head?.any Char.isAlpha &&
    name.all fun c => c.isAlphanum || c == '+' || c == '-' || c == '.'
  match rest with
  | _ :: rest => if valid then some (String.ofList (name.map Char.toLower), rest) else none
  | [] => none

def clean (s : List Char) : List Char :=
  let outside := fun (c : Char) => decide (c.toNat ≤ 0x20)
  let trimmed := ((s.dropWhile outside).reverse.dropWhile outside).reverse
  trimmed.filter fun c => c != '\t' && c != '\n' && c != '\r'

def afterScheme? (scheme : String) (s : List Char) : Option Url :=
  if scheme = "file" then file? s
  else if isSpecial scheme then
    afterSlashes? scheme (s.dropWhile fun c => c == '/' || c == '\\')
  else plain? scheme s

def parse? (s : String) : Option Url := do
  let (scheme, rest) ← scheme? (clean s.toList)
  afterScheme? scheme rest

end Gatehouse.Url
