import Gatehouse.Xml.Scan
/-!
Document type declarations. All that is kept of one are the entities that it declares with a text;
other declarations are skipped over.
-/

namespace Gatehouse.Xml

open Text

abbrev Entities := List (List Char × List Char)

/-- The text of an entity. Of several declarations the first one counts. -/
def Entities.text? (entities : Entities) (name : List Char) : Option (List Char) :=
  entities.lookup name

namespace Doctype

def literal? (s : List Char) : Option (List Char × List Char) := quoted? (fun _ => true) s

def externalId? (s : List Char) : Option (List Char) :=
  match afterStart? "SYSTEM".toList s with
  | some s => do
    let (_, s) ← literal? (← spaces? s)
    return s
  | none => do
    let s ← afterStart? "PUBLIC".toList s
    let (_, s) ← literal? (← spaces? s)
    let (_, s) ← literal? (← spaces? s)
    return s

def skipExternalId? (s : List Char) : Option (List Char) :=
  if (afterStart? "SYSTEM".toList s).isSome || (afterStart? "PUBLIC".toList s).isSome then
    externalId? s
  else some s

/-- What an entity stands for: a text, or nothing when it is kept outside the document. A general
entity kept outside may name a notation. -/
def definition? (general : Bool) (s : List Char) : Option (Option (List Char) × List Char) :=
  match s with
  | 'S' :: _ | 'P' :: _ => do
    let s ← externalId? s
    match general, afterStart? "NDATA".toList (skipSpaces s) with
    | true, some s => do
      let (_, s) ← name? (← spaces? s)
      return (none, s)
    | true, none => return (none, skipSpaces s)
    | false, _ => return (none, s)
  | _ => do
    let (value, s) ← literal? s
    return (some value, s)

/-- The rest of an entity declaration, after `<!ENTITY`. Parameter entities, marked by `%`, are
kept under their names like the others. -/
def entity? (s : List Char) : Option (Entities × List Char) := do
  let s ← spaces? s
  let (general, s) ← match s with
    | '%' :: s => do pure (false, ← spaces? s)
    | s => some (true, s)
  let (name, s) ← name? s
  let (value, s) ← definition? general (← spaces? s)
  let s ← expect? '>' (skipSpaces s)
  return ((value.map (name, ·)).toList, s)

def skipDeclaration? (s : List Char) : Option (List Char) := (cutAt? ['>'] s).map (·.2)

def item? (s : List Char) : Option (Entities × List Char) :=
  match afterStart? "<!ENTITY".toList s with
  | some s => entity? s
  | none =>
    match afterStart? "<!--".toList s, afterStart? "<?".toList s with
    | some s, _ => (comment? s).map fun (_, s) => ([], s)
    | none, some s => (instruction? s).map fun (_, s) => ([], s)
    | none, none => do
      let s ← ["<!ELEMENT", "<!ATTLIST", "<!NOTATION"].findSome? (afterStart? ·.toList s)
      return ([], ← skipDeclaration? s)

def subset? : Nat → List Char → Option (Entities × List Char)
  | 0, _ => none
  | n + 1, s =>
    match skipSpaces s with
    | ']' :: s => do return ([], ← expect? '>' (skipSpaces s))
    | s => do
      let (here, s) ← item? s
      let (later, s) ← subset? n s
      return (here ++ later, s)

end Doctype

def doctype? (s : List Char) : Option (Entities × List Char) := do
  let (_, s) ← name? (← spaces? s)
  let s ← Doctype.skipExternalId? (skipSpaces s)
  match skipSpaces s with
  | '>' :: s => return ([], s)
  | '[' :: s => Doctype.subset? (s.length + 1) s
  | _ => none

end Gatehouse.Xml
