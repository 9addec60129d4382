import Gatehouse.Descriptor.NodeList
import Gatehouse.Descriptor.WebApp
/-!
Reading a descriptor of either form.
-/

namespace Gatehouse.Descriptor

open Text

def withoutLead (text : List Char) : List Char := trimStart (text.dropWhile (· == '\uFEFF'))

/-- Reads a descriptor. A text whose first character is `<`, byte-order marks and blanks aside, is a
`web-app` document, and any other is a KDL document. A blank one declares nothing. -/
def read (text : String) : Reading :=
  match withoutLead text.toList with
  | [] => ⟨.ok {}, []⟩
  | '<' :: rest => readWebApp (String.ofList ('<' :: rest))
  | _ => readKdl text

end Gatehouse.Descriptor
