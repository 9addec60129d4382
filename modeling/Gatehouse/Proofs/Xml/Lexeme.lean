import Gatehouse.Proofs.Xml.Tag
import Gatehouse.Xml.Namespace
import Gatehouse.Xml.Printer
/-!
Written elements as lexemes. Main statement: `cuts_writeAll`, which says that the text of a tree is
cut into its tags and its runs of text.
-/

namespace Gatehouse.Xml

open Text

namespace Lexeme

/-! ### Cutting a text -/

/-- What a text begins with as lexemes, and what is left after them. -/
inductive Cuts : List Char → List Lexeme → List Char → Prop where
  | nil (s : List Char) : Cuts s [] s
  | markup {s middle rest : List Char} {lexeme : Lexeme} {lexemes : List Lexeme}
      (first : markup? s = some (lexeme, middle)) (shorter : middle.length ≤ s.length)
      (more : Cuts middle lexemes rest) : Cuts ('<' :: s) (lexeme :: lexemes) rest
  | text {raw middle rest : List Char} {lexemes : List Lexeme} (nonempty : raw ≠ [])
      (inside : '<' ∉ raw) (proper : isText raw = true)
      (stop : middle.head?.all (· == '<') = true)
      (more : Cuts middle lexemes rest) : Cuts (raw ++ middle) (.text raw :: lexemes) rest

namespace Cuts

variable {s middle rest : List Char} {lexemes more : List Lexeme}

theorem append (first : Cuts s lexemes middle) (second : Cuts middle more rest) :
    Cuts s (lexemes ++ more) rest := by
  induction first with
  | nil => exact second
  | markup first shorter _ ih => exact .markup first shorter (ih second)
  | text nonempty inside proper stop _ ih => exact .text nonempty inside proper stop (ih second)

theorem scan_eq (cuts : Cuts s lexemes []) {n : Nat} (enough : s.length < n) :
    scan n s = lexemes := by
  generalize ending : ([] : List Char) = rest at cuts
  induction cuts generalizing n with
  | nil s =>
    subst ending
    obtain ⟨n, rfl⟩ : ∃ m, n = m + 1 := ⟨n - 1, by omega⟩
    rfl
  | @markup s middle rest lexeme lexemes first shorter _ ih =>
    simp only [List.length_cons] at enough
    obtain ⟨n, rfl⟩ : ∃ m, n = m + 1 := ⟨n - 1, by omega⟩
    simp [scan, first, ih (n := n) (by omega) ending]
  | @text raw middle rest lexemes nonempty inside proper stop _ ih =>
    obtain ⟨c, raw, rfl⟩ := List.exists_cons_of_ne_nil nonempty
    simp only [List.length_append, List.length_cons] at enough
    obtain ⟨n, rfl⟩ : ∃ m, n = m + 1 := ⟨n - 1, by omega⟩
    have others : ∀ d ∈ c :: raw, (d != '<') = true := by
      intro d member
      simpa using fun same : d = '<' => inside (same ▸ member)
    have bounded : middle.head?.all (fun d => !(d != '<')) = true := by simpa [bne] using stop
    obtain ⟨before, after⟩ := span_append others middle bounded
    have apart : c ≠ '<' := fun same => inside (same ▸ List.mem_cons_self)
    simp only [List.cons_append] at before after ⊢
    simp [scan, apart, before, after, proper, ih (n := n) (by omega) ending]

end Cuts

end Lexeme

/-! ### Escaped text -/

/-- Whether a document holds this text as it is: any character of XML but the carriage return. -/
def IsPlainText (content : String) : Prop :=
  ∀ c ∈ content.toList, isCharacter c = true ∧ c ≠ '\r'

instance (content : String) : Decidable (IsPlainText content) := List.decidableBAll _ _

/-- Whether a character stands for itself wherever it is written. -/
def isHarmless (c : Char) : Bool := isCharacter c && c != '<' && c != '>' && c != '"'

theorem isHarmless_iff {c : Char} :
    isHarmless c = true ↔ isCharacter c = true ∧ c ≠ '<' ∧ c ≠ '>' ∧ c ≠ '"' := by
  simp [isHarmless, and_assoc]

theorem mem_escape {c d : Char} (member : d ∈ escape c) :
    isHarmless d = true ∨ d = c ∧ c ≠ '<' ∧ c ≠ '>' := by
  unfold escape at member
  split at member
  · exact Or.inl (List.all_eq_true.1 (by decide) d member)
  · exact Or.inl (List.all_eq_true.1 (by decide) d member)
  · exact Or.inl (List.all_eq_true.1 (by decide) d member)
  · next below above => exact Or.inr ⟨by simpa using member, below, above⟩

theorem mem_escapeQuote {c d : Char} (member : d ∈ escapeQuote c) :
    isHarmless d = true ∨ d = c ∧ c ≠ '<' ∧ c ≠ '"' := by
  unfold escapeQuote at member
  split at member
  · exact Or.inl (List.all_eq_true.1 (by decide) d member)
  · next other => exact (mem_escape member).imp_right fun ⟨same, below, _⟩ => ⟨same, below, other⟩

theorem isText_escape {s : List Char} (allowed : ∀ c ∈ s, isCharacter c = true) :
    '<' ∉ s.flatMap escape ∧ Lexeme.isText (s.flatMap escape) = true := by
  have escaped : ∀ d ∈ s.flatMap escape, isCharacter d = true ∧ d ≠ '<' ∧ d ≠ '>' := by
    intro d member
    obtain ⟨c, inside, member⟩ := List.mem_flatMap.1 member
    obtain harmless | ⟨rfl, below, above⟩ := mem_escape member
    · obtain ⟨proper, below, above, _⟩ := isHarmless_iff.1 harmless
      exact ⟨proper, below, above⟩
    · exact ⟨allowed d inside, below, above⟩
  -- No `]]>` is left, since no `>` is.
  have whole : cutAt? [']', ']', '>'] (s.flatMap escape) = none := by
    rw [Option.eq_none_iff_forall_ne_some]
    rintro ⟨before, rest⟩ found
    have bracket : '>' ∈ s.flatMap escape := by rw [eq_append_of_cutAt? found]; simp
    exact (escaped '>' bracket).2.2 rfl
  have characters : (s.flatMap escape).all isCharacter = true :=
    List.all_eq_true.2 fun d member => (escaped d member).1
  exact ⟨fun bracket => (escaped '<' bracket).2.1 rfl, by simp [Lexeme.isText, characters, whole]⟩

/-- A name together with the value it is given. -/
abbrev Given := QName × String

namespace Given

def raw (given : Given) : RawAttribute := (given.1, given.2.toList.flatMap escapeQuote)

theorem isWritable_raw {given : Given} (named : given.1.IsWritable)
    (valued : IsPlainText given.2) : given.raw.IsWritable := by
  refine ⟨named, fun d member => ?_⟩
  obtain ⟨c, inside, member⟩ := List.mem_flatMap.1 member
  obtain harmless | ⟨rfl, below, quote⟩ := mem_escapeQuote member
  · obtain ⟨proper, below, _, quote⟩ := isHarmless_iff.1 harmless
    exact ⟨proper, below, quote⟩
  · exact ⟨(valued d inside).1, below, quote⟩

end Given

/-! ### Name spaces and attributes -/

/-- A name space of one's own: none of the two that are reserved. -/
def IsFreeSpace (space : String) : Prop :=
  IsPlainText space ∧ space.toList ≠ Scope.xmlSpace ∧ space.toList ≠ Scope.declarationSpace

instance (space : String) : Decidable (IsFreeSpace space) := inferInstanceAs (Decidable (_ ∧ _))

namespace Spaces

/-- Whether a document may be written so. The tag is a name that has no fixed meaning. -/
def IsUsable : Spaces → Prop
  | absent => True
  | default space => IsFreeSpace space
  | tagged tag space =>
    IsSimpleName tag.toList ∧ tag ≠ "xml" ∧ tag ≠ "xmlns" ∧ IsFreeSpace space

instance (spaces : Spaces) : Decidable spaces.IsUsable :=
  match spaces with
  | absent => inferInstanceAs (Decidable True)
  | default _ => inferInstanceAs (Decidable (IsFreeSpace _))
  | tagged _ _ => inferInstanceAs (Decidable (_ ∧ _))

/-- The tag of the elements, which is empty where they have none. -/
def tag : Spaces → List Char
  | tagged tag _ => tag.toList
  | _ => []

def qname (spaces : Spaces) (name : String) : QName := ⟨spaces.tag, name.toList⟩

variable {spaces : Spaces}

theorem IsUsable.isWritable_qname (usable : spaces.IsUsable) {name : String}
    (simple : IsSimpleName name.toList) : (spaces.qname name).IsWritable := by
  cases spaces with
  | absent => exact ⟨Or.inl rfl, simple⟩
  | default => exact ⟨Or.inl rfl, simple⟩
  | tagged tag space => exact ⟨Or.inr usable.1, simple⟩

theorem IsUsable.writeName_eq (usable : spaces.IsUsable) (name : Name) :
    spaces.writeName name = (spaces.qname name.name).write := by
  cases spaces with
  | absent => rfl
  | default => rfl
  | tagged tag space =>
    obtain ⟨c, s, same, _⟩ := usable.1.begins
    simp [writeName, qname, Spaces.tag, QName.write, same]

end Spaces

/-- An attribute without a tag that declares nothing, and whose value has no blank but the space. -/
structure IsPlainAttribute (held : Name × String) : Prop where
  untagged : held.1.space = none
  simple : IsSimpleName held.1.name.toList
  undeclaring : held.1.name ≠ "xmlns"
  plain : IsPlainText held.2
  spaced : held.2.toList.map blankToSpace = held.2.toList

namespace Spaces

def declarations : Spaces → List Given
  | absent => []
  | default space => [(⟨[], "xmlns".toList⟩, space)]
  | tagged tag space => [(⟨"xmlns".toList, tag.toList⟩, space)]

/-- What the first tag of a document holds: its name space is declared there. -/
def given (spaces : Spaces) (attributes : List (Name × String)) : List Given :=
  spaces.declarations ++ attributes.map fun (name, value) => (⟨[], name.name.toList⟩, value)

variable {spaces : Spaces} {attributes : List (Name × String)}

theorem flatMap_write_given (spaces : Spaces) (attributes : List (Name × String)) :
    ((spaces.given attributes).map Given.raw).flatMap RawAttribute.write =
      spaces.declare ++ writeAttributes attributes := by
  have declared : (spaces.declarations.map Given.raw).flatMap RawAttribute.write =
      spaces.declare := by
    cases spaces <;>
      simp [declarations, declare, writeAttribute, RawAttribute.write, Given.raw, QName.write]
  have others : ((attributes.map fun (name, value) =>
      ((⟨[], name.name.toList⟩, value) : Given)).map Given.raw).flatMap RawAttribute.write =
        writeAttributes attributes := by
    simp [writeAttributes, writeAttribute, RawAttribute.write, Given.raw, QName.write,
      List.flatMap_map]
  simp only [given, List.map_append, List.flatMap_append, declared, others]

theorem IsUsable.of_mem_given (usable : spaces.IsUsable)
    (plain : ∀ held ∈ attributes, IsPlainAttribute held) :
    ∀ given ∈ spaces.given attributes, given.1.IsWritable ∧ IsPlainText given.2 := by
  have declaring : IsSimpleName "xmlns".toList := by decide
  simp only [given, List.mem_append, List.mem_map]
  rintro given (declared | ⟨held, member, rfl⟩)
  · cases spaces with
    | absent => cases declared
    | default space =>
      obtain rfl := List.mem_singleton.1 declared
      exact ⟨⟨Or.inl rfl, declaring⟩, usable.1⟩
    | tagged tag space =>
      obtain rfl := List.mem_singleton.1 declared
      exact ⟨⟨Or.inr declaring, usable.1⟩, usable.2.2.2.1⟩
  · obtain ⟨_, simple, _, valued, _⟩ := plain held member
    exact ⟨⟨Or.inl rfl, simple⟩, valued⟩

theorem IsUsable.isWritable_given (usable : spaces.IsUsable)
    (plain : ∀ held ∈ attributes, IsPlainAttribute held) :
    ∀ raw ∈ (spaces.given attributes).map Given.raw, raw.IsWritable := by
  intro raw member
  obtain ⟨given, inside, rfl⟩ := List.mem_map.1 member
  obtain ⟨named, valued⟩ := usable.of_mem_given plain given inside
  exact Given.isWritable_raw named valued

end Spaces

/-! ### Trees -/

namespace Node

mutual

/-- Elements without attributes, and texts that are no neighbours of each other. -/
def IsPlain : Node → Prop
  | element name attributes children =>
    IsSimpleName name.name.toList ∧ attributes = [] ∧ ArePlain children
  | text content => IsPlainText content
  | comment _ | instruction _ => False

def ArePlain : List Node → Prop
  | [] => True
  | node :: rest =>
    node.IsPlain ∧ (node.isElement = true ∨ rest.head?.all isElement = true) ∧ ArePlain rest

end

mutual

def lexemes (spaces : Spaces) : Node → List Lexeme
  | element name _ children =>
    .opening (spaces.qname name.name) [] ::
      (lexemesAll spaces children ++ [.closing (spaces.qname name.name)])
  | text content => if content = "" then [] else [.text (content.toList.flatMap escape)]
  | comment _ | instruction _ => []

def lexemesAll (spaces : Spaces) : List Node → List Lexeme
  | [] => []
  | node :: rest => node.lexemes spaces ++ lexemesAll spaces rest

end

end Node

namespace Lexeme

variable {spaces : Spaces} {rest : List Char}

theorem cuts_element {name : QName} (named : name.IsWritable) (raws : List RawAttribute)
    (writable : ∀ raw ∈ raws, raw.IsWritable) {content : List Char} {inside : List Lexeme}
    (cuts : Cuts (content ++ '<' :: '/' :: (name.write ++ '>' :: rest)) inside
      ('<' :: '/' :: (name.write ++ '>' :: rest))) :
    Cuts (writeElement name.write (raws.flatMap RawAttribute.write) content ++ rest)
      (opening name raws :: (inside ++ [closing name])) rest := by
  have closed : Cuts ('<' :: '/' :: (name.write ++ '>' :: rest)) [closing name] rest :=
    .markup (markup?_closing named rest) (by simp; omega) (.nil rest)
  have opened := Cuts.markup (markup?_opening named writable _) (by simp; omega)
    (cuts.append closed)
  simpa [writeElement] using opened

theorem cuts_text {content : String} (plain : IsPlainText content)
    (stop : rest.head?.all (· == '<') = true) :
    Cuts (content.toList.flatMap escape ++ rest) ((Node.text content).lexemes spaces) rest := by
  unfold Node.lexemes
  split
  · next empty =>
    rw [empty]
    exact .nil rest
  · next full =>
    obtain ⟨inside, proper⟩ := isText_escape fun c member => (plain c member).1
    have nonempty : content.toList.flatMap escape ≠ [] := by
      obtain ⟨c, s, same⟩ : ∃ c s, content.toList = c :: s := by
        apply List.exists_cons_of_ne_nil
        simpa using full
      intro none
      rw [same, List.flatMap_cons, List.append_eq_nil_iff] at none
      revert none
      unfold escape
      split <;> simp
    exact .text nonempty inside proper stop (.nil rest)

theorem head?_write (spaces : Spaces) (node : Node) (element : node.isElement = true) :
    (node.write spaces).head? = some '<' := by
  cases node <;> first | rfl | cases element

mutual

theorem cuts_write (usable : spaces.IsUsable) (node : Node) (plain : node.IsPlain)
    (rest : List Char) (stop : node.isElement = true ∨ rest.head?.all (· == '<') = true) :
    Cuts (node.write spaces ++ rest) (node.lexemes spaces) rest := by
  cases node with
  | element name attributes children =>
    obtain ⟨simple, rfl, inside⟩ := plain
    have content := cuts_writeAll usable children inside
      ('<' :: '/' :: ((spaces.qname name.name).write ++ '>' :: rest)) rfl
    rw [Node.write, usable.writeName_eq]
    exact cuts_element (usable.isWritable_qname simple) [] (by simp) content
  | text content =>
    obtain element | stop := stop
    · cases element
    · exact cuts_text plain stop
  | comment => exact plain.elim
  | instruction => exact plain.elim

/-- A written tree is cut into its tags and its texts. -/
theorem cuts_writeAll (usable : spaces.IsUsable) (nodes : List Node) (plain : Node.ArePlain nodes)
    (rest : List Char) (stop : rest.head?.all (· == '<') = true) :
    Cuts (Node.writeAll spaces nodes ++ rest) (Node.lexemesAll spaces nodes) rest := by
  cases nodes with
  | nil => exact .nil rest
  | cons node nodes =>
    obtain ⟨first, apart, others⟩ := plain
    -- A text goes on to the next tag, which is that of its neighbour or the one that ends the list.
    have stops : node.isElement = true ∨
        (Node.writeAll spaces nodes ++ rest).head?.all (· == '<') = true := by
      refine apart.imp_right fun next => ?_
      cases nodes with
      | nil => exact stop
      | cons node nodes =>
        have begins := head?_write spaces node (by simpa using next)
        simp [Node.writeAll, List.head?_append, begins]
    have before := cuts_write usable node first _ stops
    have after := cuts_writeAll usable nodes others rest stop
    rw [Node.writeAll, List.append_assoc]
    exact before.append after

end

end Lexeme

end Gatehouse.Xml
