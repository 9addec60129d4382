import Gatehouse.Proofs.Xml.Mark
import Gatehouse.Xml.Document
/-!
Written documents, read back. Main statement: `root?_write`, which says that the element that a
document is written from is what is read from it.
-/

namespace Gatehouse.Xml

/-! ### What is read -/

namespace Spaces

/-- The name space as it is read: each blank in it has become a space. -/
def seen : Spaces → Spaces
  | absent => absent
  | default space => default (String.ofList (space.toList.map blankToSpace))
  | tagged tag space => tagged tag (String.ofList (space.toList.map blankToSpace))

@[simp] theorem name_name (spaces : Spaces) (name : String) : (spaces.name name).name = name := by
  cases spaces <;> rfl

end Spaces

namespace Node

mutual

/-- What is left of a node in the document that is read. Its name space is that of the document, and
there is no text without characters. -/
def seen (spaces : Spaces) : Node → List Node
  | element name _ children => [element (spaces.seen.name name.name) [] (seenAll spaces children)]
  | text content => if content = "" then [] else [text content]
  | comment _ | instruction _ => []

def seenAll (spaces : Spaces) : List Node → List Node
  | [] => []
  | node :: rest => node.seen spaces ++ seenAll spaces rest

end

end Node

/-! ### Name spaces -/

theorem map_blankToSpace_ne {s t : List Char} (other : s ≠ t)
    (visible : t.any isSpace = false) : s.map blankToSpace ≠ t := by
  -- A blank would have become a space, so there was none and nothing was changed.
  rintro rfl
  apply other
  symm
  refine (List.map_congr_left fun c member => ?_).trans (List.map_id s)
  have seen := List.any_eq_false.1 visible (blankToSpace c) (List.mem_map_of_mem member)
  unfold blankToSpace at seen ⊢
  split
  · next blank =>
    rw [if_pos blank] at seen
    exact absurd rfl seen
  · rfl

theorem IsFreeSpace.map_blankToSpace_ne {space : String} (free : IsFreeSpace space) :
    space.toList.map blankToSpace ≠ Scope.xmlSpace ∧
      space.toList.map blankToSpace ≠ Scope.declarationSpace :=
  ⟨Xml.map_blankToSpace_ne free.2.1 (by decide +kernel),
    Xml.map_blankToSpace_ne free.2.2 (by decide +kernel)⟩

namespace Spaces

def scope : Spaces → Scope
  | absent => []
  | default space => [([], space.toList.map blankToSpace)]
  | tagged tag space => [(tag.toList, space.toList.map blankToSpace)]

variable {spaces : Spaces}

theorem IsUsable.elementName?_qname (usable : spaces.IsUsable) (name : String) :
    spaces.scope.elementName? (spaces.qname name) = some (spaces.seen.name name) := by
  cases spaces with
  | absent =>
    simp [scope, qname, Spaces.tag, seen, Spaces.name, Scope.elementName?, Scope.resolve?,
      Scope.nameOf]
  | default space =>
    simp [scope, qname, Spaces.tag, seen, Spaces.name, Scope.elementName?, Scope.resolve?,
      Scope.nameOf]
  | tagged tag space =>
    have other : tag.toList ≠ "xmlns".toList := fun same => usable.2.2.1 (String.toList_inj.1 same)
    simpa [scope, qname, Spaces.tag, seen, Spaces.name, Scope.elementName?, Scope.resolve?,
      Scope.nameOf] using other

theorem IsUsable.part?_declarations (usable : spaces.IsUsable) :
    Scope.part? (spaces.declarations.map Given.value) = some (spaces.scope, []) := by
  cases spaces with
  | absent => rfl
  | default space =>
    obtain ⟨other, another⟩ := usable.map_blankToSpace_ne
    simp [declarations, scope, Given.value, Scope.part?, Scope.take?, other, another]
  | tagged tag space =>
    obtain ⟨_, other, _, free⟩ := usable
    obtain ⟨apart, declaring⟩ := free.map_blankToSpace_ne
    have other : tag.toList ≠ "xml".toList := fun same => other (String.toList_inj.1 same)
    simpa [declarations, scope, Given.value, Scope.part?, Scope.take?, apart, declaring] using other

end Spaces

/-! ### Attributes -/

theorem foldlM_take? {all : List Attribute} (undeclaring : ∀ given ∈ all,
      given.1.tag = [] ∧ given.1.name ≠ "xmlns".toList) (own : Scope) (before : List Attribute) :
    all.foldlM Scope.take? (own, before) = some (own, before ++ all) := by
  induction all generalizing before with
  | nil => simp
  | cons given all ih =>
    obtain ⟨⟨untagged, other⟩, later⟩ := List.forall_mem_cons.1 undeclaring
    have taken : Scope.take? (own, before) given = some (own, before ++ [given]) := by
      rw [Scope.take?, if_neg (by rw [untagged]; decide), if_neg other]
    rw [List.foldlM_cons, taken]
    simpa using ih later (before ++ [given])

namespace Spaces

variable {spaces : Spaces} {attributes : List (Name × String)}

/-- The attribute that comes from one written without a tag. -/
def plainValue (held : Name × String) : Attribute :=
  Given.value (⟨[], held.1.name.toList⟩, held.2)

theorem IsUsable.part?_given (usable : spaces.IsUsable)
    (plain : ∀ held ∈ attributes, IsPlainAttribute held) :
    Scope.part? ((spaces.given attributes).map Given.value) =
      some (spaces.scope, attributes.map plainValue) := by
  have undeclaring : ∀ given ∈ attributes.map plainValue,
      given.1.tag = [] ∧ given.1.name ≠ "xmlns".toList := by
    intro given member
    obtain ⟨held, inside, rfl⟩ := List.mem_map.1 member
    exact ⟨rfl, fun same => (plain held inside).undeclaring (String.toList_inj.1 same)⟩
  have declared := usable.part?_declarations
  unfold Scope.part? at declared ⊢
  have values : (spaces.given attributes).map Given.value =
      spaces.declarations.map Given.value ++ attributes.map plainValue := by
    simp [given, plainValue]
  rw [values, List.foldlM_append, declared]
  simpa using foldlM_take? undeclaring spaces.scope []

end Spaces

theorem mapM_map_eq_some {α β : Type} {f : β → Option α} {g : α → β} {l : List α}
    (back : ∀ a ∈ l, f (g a) = some a) : (l.map g).mapM f = some l := by
  induction l with
  | nil => rfl
  | cons a l ih =>
    obtain ⟨first, later⟩ := List.forall_mem_cons.1 back
    simp [first, ih later]

theorem attributes?_plain (scope : Scope) {attributes : List (Name × String)}
    (plain : ∀ held ∈ attributes, IsPlainAttribute held)
    (apart : (attributes.map (·.1)).Nodup) :
    scope.attributes? (attributes.map Spaces.plainValue) = some attributes := by
  unfold Scope.attributes?
  rw [mapM_map_eq_some]
  · simp [apart]
  · rintro ⟨⟨space, name⟩, value⟩ member
    obtain ⟨untagged, _, _, _, spaced⟩ := plain _ member
    obtain rfl : space = none := untagged
    simp [Spaces.plainValue, Given.value, Scope.attributeName?, Scope.nameOf, spaced]

/-! ### Trees -/

namespace Growth

variable {growth : Growth}

/-- The tree after one more element is opened. -/
def push (growth : Growth) (element : OpenElement) : Growth :=
  { growth with stack := element :: growth.stack }

@[simp] theorem pending_add (growth : Growth) (node : Node) :
    (growth.add node).pending = growth.pending := by
  unfold add
  split <;> rfl

@[simp] theorem scope_add (growth : Growth) (node : Node) :
    (growth.add node).scope = growth.scope := by
  unfold add
  split
  · rfl
  · next stack => simp [scope, stack]

@[simp] theorem pending_foldl_add (growth : Growth) (nodes : List Node) :
    (nodes.foldl add growth).pending = growth.pending := by
  induction nodes generalizing growth with
  | nil => rfl
  | cons node nodes ih => rw [List.foldl_cons, ih, pending_add]

@[simp] theorem scope_foldl_add (growth : Growth) (nodes : List Node) :
    (nodes.foldl add growth).scope = growth.scope := by
  induction nodes generalizing growth with
  | nil => rfl
  | cons node nodes ih => rw [List.foldl_cons, ih, scope_add]

theorem foldl_add_push (growth : Growth) (element : OpenElement) (nodes : List Node) :
    nodes.foldl add (growth.push element) =
      growth.push { element with children := nodes.reverse ++ element.children } := by
  induction nodes generalizing element with
  | nil => rfl
  | cons node nodes ih =>
    have added : (growth.push element).add node =
        growth.push { element with children := node :: element.children } := rfl
    rw [List.foldl_cons, added, ih]
    simp

theorem leave?_push (growth : Growth) (element : OpenElement) :
    (growth.push element).leave? element.tag =
      some (growth.add (.element element.name element.attributes element.children.reverse)) := by
  simp [leave?, push]

/-- A whole element is added at once, if what is inside it is. -/
theorem foldlM_element {element : OpenElement} {tag : QName} {attributes : List Attribute}
    {inside : List Mark} {children : List Node}
    (entered : growth.enter? tag attributes = some (growth.push element))
    (tagged : element.tag = tag) (fresh : element.children = [])
    (content : inside.foldlM step? (growth.push element) =
      some (children.foldl add (growth.push element))) :
    (.opening tag attributes :: (inside ++ [.closing tag])).foldlM step? growth =
      some (growth.add (.element element.name element.attributes children)) := by
  have left := leave?_push growth { element with children := children.reverse }
  rw [foldl_add_push, fresh, List.append_nil] at content
  subst tagged
  simp only [List.foldlM_cons, List.foldlM_append, List.foldlM_nil, step?, entered]
  simp [content, left]

/-- Whether elements may be opened as they are written: their name space is declared. -/
def Ready (spaces : Spaces) (growth : Growth) : Prop :=
  growth.pending = [] ∧
    ∀ name, growth.scope.elementName? (spaces.qname name) = some (spaces.seen.name name)

variable {spaces : Spaces}

theorem Ready.foldl_add (ready : growth.Ready spaces) (nodes : List Node) :
    (nodes.foldl add growth).Ready spaces := by
  simpa [Ready] using ready

theorem Ready.enter? (ready : growth.Ready spaces) (name : String) :
    let element : OpenElement :=
      ⟨spaces.qname name, spaces.seen.name name, [], growth.scope, []⟩
    growth.enter? (spaces.qname name) [] = some (growth.push element) ∧
      (growth.push element).Ready spaces := by
  obtain ⟨nothing, named⟩ := ready
  constructor
  · simp [Growth.enter?, nothing, Scope.part?, named, Scope.attributes?, push]
  · exact ⟨nothing, named⟩

mutual

theorem foldlM_marks (node : Node) (growth : Growth) (ready : growth.Ready spaces) :
    (node.marks spaces).foldlM step? growth = some ((node.seen spaces).foldl add growth) := by
  cases node with
  | element name attributes children =>
    obtain ⟨entered, inside⟩ := ready.enter? name.name
    exact foldlM_element entered rfl rfl (foldlM_marksAll children _ inside)
  | text content =>
    unfold Node.marks Node.seen
    split
    · rfl
    · simp [step?]
  | comment => rfl
  | instruction => rfl

theorem foldlM_marksAll (nodes : List Node) (growth : Growth) (ready : growth.Ready spaces) :
    (Node.marksAll spaces nodes).foldlM step? growth =
      some ((Node.seenAll spaces nodes).foldl add growth) := by
  cases nodes with
  | nil => rfl
  | cons node nodes =>
    have first := foldlM_marks node growth ready
    have later := foldlM_marksAll nodes _ (ready.foldl_add (node.seen spaces))
    simp [Node.marksAll, Node.seenAll, first, later]

end

end Growth

theorem ofMarks?_element {spaces : Spaces} (usable : spaces.IsUsable) (name : String)
    {attributes : List (Name × String)} (plain : ∀ held ∈ attributes, IsPlainAttribute held)
    (apart : (attributes.map (·.1)).Nodup) (children : List Node) :
    Node.ofMarks? (.opening (spaces.qname name) ((spaces.given attributes).map Given.value) ::
        (Node.marksAll spaces children ++ [.closing (spaces.qname name)])) =
      some [.element (spaces.seen.name name) attributes (Node.seenAll spaces children)] := by
  let element : OpenElement :=
    ⟨spaces.qname name, spaces.seen.name name, attributes, spaces.scope, []⟩
  have entered : Growth.enter? {} (spaces.qname name) ((spaces.given attributes).map Given.value) =
      some (Growth.push {} element) := by
    simp [Growth.enter?, usable.part?_given plain, attributes?_plain _ plain apart, Growth.scope,
      usable.elementName?_qname, Growth.push, element]
  have ready : (Growth.push {} element).Ready spaces := ⟨rfl, usable.elementName?_qname⟩
  have grown := Growth.foldlM_element entered rfl rfl
    (Growth.foldlM_marksAll children _ ready)
  unfold Node.ofMarks?
  rw [grown]
  rfl

/-! ### Documents -/

namespace Lexeme

/-- Lexemes that close all that they open. -/
inductive Balanced : List Lexeme → Prop where
  | nil : Balanced []
  | text (raw : List Char) : Balanced [.text raw]
  | element {inside : List Lexeme} (name : QName) (raws : List RawAttribute)
      (content : Balanced inside) : Balanced (.opening name raws :: (inside ++ [.closing name]))
  | append {before after : List Lexeme} (first : Balanced before) (second : Balanced after) :
      Balanced (before ++ after)

/-- Balanced lexemes stay inside the element that they stand in. -/
theorem Balanced.splitAtClosing {lexemes : List Lexeme} (balanced : Balanced lexemes) (depth : Nat)
    (rest : List Lexeme) :
    Lexeme.splitAtClosing depth (lexemes ++ rest) =
      (lexemes ++ (Lexeme.splitAtClosing depth rest).1,
        (Lexeme.splitAtClosing depth rest).2) := by
  induction balanced generalizing depth rest with
  | nil => rfl
  | text raw => cases depth <;> rfl
  | element name raws _ ih => simp [Lexeme.splitAtClosing, ih]
  | append _ _ first second => simp [first, second]

mutual

theorem balanced_lexemes (spaces : Spaces) (node : Node) : Balanced (node.lexemes spaces) := by
  cases node with
  | element name attributes children =>
    exact .element _ [] (balanced_lexemesAll spaces children)
  | text content =>
    unfold Node.lexemes
    split
    · exact .nil
    · exact .text _
  | comment => exact .nil
  | instruction => exact .nil

theorem balanced_lexemesAll (spaces : Spaces) (nodes : List Node) :
    Balanced (Node.lexemesAll spaces nodes) := by
  cases nodes with
  | nil => exact .nil
  | cons node nodes =>
    exact .append (balanced_lexemes spaces node) (balanced_lexemesAll spaces nodes)

end

end Lexeme

namespace Document

variable {spaces : Spaces} {attributes : List (Name × String)} {children : List Node}

theorem skipDeclaration?_declaration (s : List Char) :
    skipDeclaration? (skipMark (declaration ++ s)) = some ('\n' :: s) := by
  rfl

/-- The lexemes of a document, after its declaration. -/
theorem ofText_write (usable : spaces.IsUsable) {name : String} (simple : IsSimpleName name.toList)
    (plain : ∀ held ∈ attributes, IsPlainAttribute held) (plainAll : Node.ArePlain children) :
    Lexeme.ofText ('\n' :: (writeElement (spaces.qname name).write
        (spaces.declare ++ writeAttributes attributes) (Node.writeAll spaces children) ++ ['\n'])) =
      .text ['\n'] ::
        (.opening (spaces.qname name) ((spaces.given attributes).map Given.raw) ::
          (Node.lexemesAll spaces children ++ [.closing (spaces.qname name)]) ++
            [.text ['\n']]) := by
  have line (rest : List Char) (stop : rest.head?.all (· == '<') = true) :
      Lexeme.Cuts ('\n' :: rest) [.text ['\n']] rest :=
    .text (List.cons_ne_nil '\n' []) (by simp) (by decide) stop (.nil rest)
  have content := Lexeme.cuts_writeAll usable children plainAll
    ('<' :: '/' :: ((spaces.qname name).write ++ '>' :: ['\n'])) rfl
  have element := Lexeme.cuts_element (usable.isWritable_qname simple) _
    (usable.isWritable_given plain) content
  rw [Spaces.flatMap_write_given] at element
  have whole := ((line _ rfl).append element).append (line [] rfl)
  exact whole.scan_eq (Nat.lt_succ_self _)

theorem splitRoot?_balanced (name : QName) (raws : List RawAttribute) {inside : List Lexeme}
    (balanced : Lexeme.Balanced inside) (after : List Lexeme) :
    splitRoot? (.opening name raws :: (inside ++ [.closing name]) ++ after) =
      some (.opening name raws :: (inside ++ [.closing name]), after) := by
  have split := balanced.splitAtClosing 0 (.closing name :: after)
  have ended : Lexeme.splitAtClosing 0 (.closing name :: after) = ([.closing name], after) := rfl
  simp [splitRoot?, split, ended]

/-- A written document is read back as the element that it is written from. -/
theorem root?_write (usable : spaces.IsUsable) (name : String) (simple : IsSimpleName name.toList)
    (plain : ∀ held ∈ attributes, IsPlainAttribute held) (apart : (attributes.map (·.1)).Nodup)
    (plainAll : Node.ArePlain children) :
    root? (write spaces (spaces.name name) attributes children) =
      some (.element (spaces.seen.name name) attributes (Node.seenAll spaces children)) := by
  have prolog (tag : QName) (raws : List RawAttribute) (inside after : List Lexeme) :
      splitProlog (.text ['\n'] :: (.opening tag raws :: inside ++ after)) =
        ([], .opening tag raws :: inside ++ after) := rfl
  have split := splitRoot?_balanced (spaces.qname name) ((spaces.given attributes).map Given.raw)
    (Lexeme.balanced_lexemesAll spaces children) [.text ['\n']]
  have marks := Mark.ofContent?_element [] spaces (spaces.qname name)
    (fun given member => (usable.of_mem_given plain given member).2) plainAll
  have built := ofMarks?_element usable name plain apart children
  rw [root?, write, usable.writeName_eq, Spaces.name_name, List.append_assoc,
    skipDeclaration?_declaration]
  simp only [Option.bind_eq_bind, Option.bind_some, ofText_write usable simple plain plainAll,
    prolog, split, marks, built]
  rfl

end Document

end Gatehouse.Xml
