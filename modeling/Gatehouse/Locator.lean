import Gatehouse.FileTree
import Gatehouse.Url.FilePath
/-!
Where a descriptor can be read from, and how it is found: the host is asked first, and then the
usual place in the web application is looked at.
-/

namespace Gatehouse

inductive Locator where
  | inlineText (content : String)
  | file (path : Path)
  | url (address : Url)
  deriving DecidableEq

def Locator.display : Locator → String
  | inlineText _ => "<inline descriptor>"
  | file path => path.display
  | url address => address.display

structure DescriptorSource where
  host : Option (String → Option Locator) := none
  baseDir : Path
  relativePath : Path := Path.ofString "WEB-INF/web.xml"

namespace DescriptorSource

def resource : String := "/WEB-INF/web.xml"

def ofLocator (locator : Locator) : DescriptorSource where
  host := some fun _ => some locator
  baseDir := Path.ofString "."

def fallback (source : DescriptorSource) (files : FileTree) : Option Locator :=
  let path := source.baseDir.join source.relativePath
  if files.isFile path then some (.file path) else none

/-- The locator to read from: the host's answer, or else the file in the usual place. -/
def locate (source : DescriptorSource) (files : FileTree) : Option Locator :=
  match source.host.bind (· resource) with
  | some locator => some locator
  | none => source.fallback files

end DescriptorSource

end Gatehouse
