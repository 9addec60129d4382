import Gatehouse.Url.Host
/-!
URLs and how they are written.
-/

namespace Gatehouse

structure Url.Authority where
  user : String := ""
  password : String := ""
  host : Url.Host
  /-- Nothing when it is the usual port of the scheme. -/
  port : Option Nat := none
  deriving DecidableEq

/-- The path of a URL: segments, before each of which a slash is written, or one text without
structure. -/
inductive Url.Route where
  | segments (list : List String)
  | opaqueText (content : String)
  deriving DecidableEq

/-- A URL. All its parts are in their encoded form. -/
structure Url where
  scheme : String
  authority : Option Url.Authority
  route : Url.Route
  query : Option String := none
  fragment : Option String := none
  deriving DecidableEq

namespace Url

def isSpecial (scheme : String) : Bool :=
  ["http", "https", "ws", "wss", "ftp", "file"].contains scheme

def usualPort? (scheme : String) : Option Nat :=
  [("http", 80), ("https", 443), ("ws", 80), ("wss", 443), ("ftp", 21)].lookup scheme

def Authority.display (authority : Authority) : String :=
  let password := if authority.password = "" then "" else ":" ++ authority.password
  let user := if authority.user = "" ∧ authority.password = "" then "" else
    authority.user ++ password ++ "@"
  let port := match authority.port with
    | some port => ":" ++ toString port
    | none => ""
  "//" ++ user ++ authority.host.display ++ port

def Route.display : Route → String
  | segments list => String.join (list.map ("/" ++ ·))
  | opaqueText content => content

def marked (mark : String) : Option String → String
  | some part => mark ++ part
  | none => ""

/-- The written form of a URL without its fragment. Without an authority a path must not begin with
two slashes, so a dot segment is put before one that does. -/
def withoutFragment (url : Url) : String :=
  let authority := match url.authority, url.route with
    | some authority, _ => authority.display
    | none, .segments ("" :: _ :: _) => "/."
    | none, _ => ""
  url.scheme ++ ":" ++ authority ++ url.route.display ++ marked "?" url.query

def display (url : Url) : String := url.withoutFragment ++ marked "#" url.fragment

end Url

end Gatehouse
