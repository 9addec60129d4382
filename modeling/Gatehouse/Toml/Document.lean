import Gatehouse.Toml.Expression
/-!
A TOML document as a table: its expressions take effect one after the other, values in the table of
the last header before them.
-/

namespace Gatehouse.Toml

/-- A document that is read up to some expression. -/
structure Document where
  table : Table := []
  current : List String := []

namespace Document

def add? (document : Document) : Expression → Option Document
  | .header key => do
    let table ← (addHeader key.last).within false key.path .header document.table
    return ⟨table, key.path ++ [key.last]⟩
  | .element key => do
    let table ← (addElement key.last).within false key.path .header document.table
    return ⟨table, key.path ++ [key.last]⟩
  | .assignment key value => do
    let change := addValue key.path key.last value
    return { document with table := ← change.within false document.current .header document.table }

end Document

def Table.ofText? (s : List Char) : Option Table := do
  return (← (← Expression.ofText? s).foldlM Document.add? {}).table

end Gatehouse.Toml
