import Gatehouse.Path
import Gatehouse.Url.Parse
/-!
The file paths that URLs denote.
-/

namespace Gatehouse

/-- The path of a URL with no host, or with this one. Its segments are decoded; a path that ends in
a drive gets a slash. -/
def Url.filePath? (url : Url) : Option Path :=
  let isLocal : Bool := match url.authority with
    | none => true
    | some authority => authority.host == .empty || authority.host == .domain "localhost"
  match url.route with
  | .opaqueText _ => none
  | .segments list =>
    let octets := list.flatMap fun segment => Path.slash :: percentDecode segment.toList
    let endsInDrive : Bool := match octets.reverse with
      | mark :: letter :: _ :: _ =>
        (mark == 0x3A || mark == 0x7C) &&
          ((0x41 ≤ letter && letter ≤ 0x5A) || (0x61 ≤ letter && letter ≤ 0x7A))
      | _ => false
    if isLocal then some ⟨octets ++ if endsInDrive then [Path.slash] else []⟩ else none

/-- The path that a locator denotes: a file URL with a local path, or else the text itself, after
`file:` if it begins with that. -/
def Path.ofLocator (locator : String) : Path :=
  let fromUrl := (Url.parse? locator).bind fun url =>
    if url.scheme = "file" then url.filePath? else none
  fromUrl.getD (
    match Text.afterStart? "file:".toList locator.toList with
    | some rest => Path.ofString (String.ofList rest)
    | none => Path.ofString locator)

end Gatehouse
