import Gatehouse.Descriptor.Read
import Gatehouse.Proofs.Descriptor.Draft
import Gatehouse.Proofs.Kdl.Node
/-!
Descriptors as KDL documents, written and read back. Main statements: `read_nodeList`, which says
what the document of any draft is read as, and `read_nodeList_draft`, which says that a descriptor
comes back from its own document.
-/

namespace Gatehouse

namespace NodeList

open Kdl

theorem arePlain_iff {nodes : List Node} :
    Node.ArePlain nodes ↔ ∀ node ∈ nodes, node.IsPlain := by
  induction nodes with
  | nil => simp [Node.ArePlain]
  | cons node nodes ih => simp [Node.ArePlain, ih]

theorem isPlain_withText (name content : String) : (withText name content).IsPlain :=
  ⟨rfl, by simp [Entry.IsText], trivial⟩

theorem isPlain_withBlock {nodes : List Node} (name : String)
    (plain : ∀ node ∈ nodes, node.IsPlain) : (withBlock name nodes).IsPlain :=
  ⟨rfl, by simp, arePlain_iff.2 plain⟩

theorem isPlain_constraintNode (draft : DraftConstraint) : (constraintNode draft).IsPlain := by
  have dashes (name : String) (texts : List String) :
      (withBlock name (texts.map (withText "-"))).IsPlain := by
    apply isPlain_withBlock
    intro node member
    obtain ⟨text, _, rfl⟩ := List.mem_map.1 member
    exact isPlain_withText "-" text
  apply isPlain_withBlock
  simp only [List.forall_mem_cons, List.not_mem_nil, false_implies, implies_true, and_true]
  exact ⟨dashes _ _, dashes _ _⟩

theorem dashList_withBlock (name : String) (texts : List String) :
    (withBlock name (texts.map (withText "-"))).dashList = texts := by
  have dashes : (texts.map (withText "-")).filter (·.name == "-") = texts.map (withText "-") := by
    rw [List.filter_eq_self]
    intro node member
    obtain ⟨text, _, rfl⟩ := List.mem_map.1 member
    rfl
  simp only [Node.dashList, withBlock, Node.children, Option.getD_some, dashes, List.filterMap_map]
  exact List.filterMap_some

theorem addChild_patterns (constraint : Constraint) (texts : List String) :
    addChild constraint (withBlock "url-patterns" (texts.map (withText "-"))) =
      .ok { constraint with patterns := texts.map UrlPattern.parse } := by
  have named : (withBlock "url-patterns" (texts.map (withText "-"))).name = "url-patterns" := rfl
  rw [addChild, if_pos named, dashList_withBlock]

theorem addChild_roles (constraint : Constraint) (texts : List String) :
    addChild constraint (withBlock "roles" (texts.map (withText "-"))) =
      .ok { constraint with roles := texts.eraseDups.map Role.mk } := by
  have named : (withBlock "roles" (texts.map (withText "-"))).name = "roles" := rfl
  rw [addChild, named, if_neg (by decide), if_pos rfl, dashList_withBlock]

theorem constraint_constraintNode (draft : DraftConstraint) :
    constraint (constraintNode draft) = .ok draft.constraint := by
  have children : (constraintNode draft).children =
      [withBlock "url-patterns" (draft.patterns.map (withText "-")),
        withBlock "roles" (draft.roles.map (withText "-"))] := rfl
  simp only [constraint, children, List.foldlM_cons, addChild_patterns, List.foldlM_nil]
  calc ((.ok ⟨draft.patterns.map UrlPattern.parse, []⟩ : Except Defect Constraint) >>=
        fun read => addChild read (withBlock "roles" (draft.roles.map (withText "-"))) >>= pure)
      = addChild ⟨draft.patterns.map UrlPattern.parse, []⟩
          (withBlock "roles" (draft.roles.map (withText "-"))) >>= pure := rfl
    _ = .ok draft.constraint := by rw [addChild_roles]; rfl

/-- The nodes of a draft's document. -/
def nodes (draft : Draft) : List Node :=
  draft.constraints.map constraintNode ++ draft.declaredRoles.map (withText "role")

theorem arePlain_nodes (draft : Draft) : Node.ArePlain (nodes draft) := by
  rw [arePlain_iff]
  intro node member
  simp only [nodes, List.mem_append, List.mem_map] at member
  obtain ⟨constraint, _, rfl⟩ | ⟨name, _, rfl⟩ := member
  · exact isPlain_constraintNode constraint
  · exact isPlain_withText "role" name

theorem name_of_mem_nodes {draft : Draft} {node : Node} (member : node ∈ nodes draft) :
    node.name = "constraint" ∨ node.name = "role" := by
  simp only [nodes, List.mem_append, List.mem_map] at member
  obtain ⟨constraint, _, rfl⟩ | ⟨name, _, rfl⟩ := member
  · exact Or.inl rfl
  · exact Or.inr rfl

theorem read_roles (names : List String) :
    read (names.map (withText "role")) = ⟨.ok ⟨[], names.map Role.mk⟩, []⟩ := by
  induction names with
  | nil => rfl
  | cons name names ih =>
    have named : (withText "role" name).name = "role" := rfl
    have first : (withText "role" name).firstString? = some name := rfl
    rw [List.map_cons, read, named, if_neg (by decide), if_pos rfl, first, ih]
    rfl

theorem read_nodes (draft : Draft) : read (nodes draft) = ⟨.ok draft.descriptor, []⟩ := by
  obtain ⟨constraints, names⟩ := draft
  induction constraints with
  | nil => exact read_roles names
  | cons constraint constraints ih =>
    have named : (constraintNode constraint).name = "constraint" := rfl
    simp only [nodes] at ih
    rw [nodes, List.map_cons, List.cons_append, read, if_pos named, constraint_constraintNode, ih]
    rfl

end NodeList

namespace Draft

open Kdl

theorem toList_nodeList (draft : Draft) :
    draft.nodeList.toList = Node.writeAll 0 (NodeList.nodes draft) := by
  simp [nodeList, NodeList.nodes]

/-- The document begins with the name of a node, so it is not taken for one of another form. -/
theorem head?_nodeList (draft : Draft) :
    NodeList.nodes draft = [] ∨ draft.nodeList.toList.head? = some 'c' ∨
      draft.nodeList.toList.head? = some 'r' := by
  have plain := NodeList.arePlain_nodes draft
  rw [toList_nodeList]
  cases nodes : NodeList.nodes draft with
  | nil => exact Or.inl rfl
  | cons node rest =>
    rw [nodes] at plain
    rw [Node.head?_writeAll plain.1]
    have member : node ∈ NodeList.nodes draft := by rw [nodes]; exact List.mem_cons_self
    rcases NodeList.name_of_mem_nodes member with name | name
    · rw [name]
      exact Or.inr (Or.inl (by decide +kernel))
    · rw [name]
      exact Or.inr (Or.inr (by decide +kernel))

end Draft

namespace Descriptor

theorem withoutLead_cons {c : Char} (visible : Text.isBlank c = false) (unmarked : c ≠ '\uFEFF')
    (rest : List Char) : withoutLead (c :: rest) = c :: rest := by
  simp [withoutLead, Text.trimStart, visible, unmarked]

end Descriptor

/-- Whether a text is a KDL document with the nodes of the draft. How these are laid out does not
matter, nor how their strings are quoted. -/
def Draft.IsNodeList (draft : Draft) (text : String) : Prop :=
  let document := Descriptor.withoutLead text.toList
  document.head? ≠ some '<' ∧
    if document = [] then draft = {}
    else Kdl.Node.ofText? text.toList = some (NodeList.nodes draft)

namespace Descriptor

/-- Any document of a draft declares what the draft does, and nothing is told about it. -/
theorem read_of_isNodeList {draft : Draft} {text : String} (lists : draft.IsNodeList text) :
    read text = ⟨.ok draft.descriptor, []⟩ := by
  obtain ⟨unmarked, lists⟩ := lists
  unfold read
  split
  · next blank =>
    rw [if_pos blank] at lists
    rw [lists]
    rfl
  · next markup =>
    rw [markup] at unmarked
    exact absurd rfl unmarked
  · next visible _ =>
    rw [if_neg visible] at lists
    rw [readKdl, lists]
    exact NodeList.read_nodes draft

end Descriptor

theorem Draft.eq_nothing_of_nodes {draft : Draft} (none : NodeList.nodes draft = []) :
    draft = {} := by
  obtain ⟨constraints, names⟩ := draft
  simpa [NodeList.nodes] using none

theorem Draft.isNodeList_nodeList (draft : Draft) : draft.IsNodeList draft.nodeList := by
  have parsed : Kdl.Node.ofText? draft.nodeList.toList = some (NodeList.nodes draft) := by
    rw [draft.toList_nodeList, Kdl.Node.ofText?_writeAll _ (NodeList.arePlain_nodes draft)]
  unfold IsNodeList
  rcases draft.head?_nodeList with none | begins | begins
  · have blank : draft.nodeList.toList = [] := by rw [draft.toList_nodeList, none]; rfl
    rw [blank]
    exact ⟨by decide, eq_nothing_of_nodes none⟩
  · obtain ⟨rest, letters⟩ := List.head?_eq_some_iff.1 begins
    have lead : Descriptor.withoutLead draft.nodeList.toList = 'c' :: rest := by
      rw [letters, Descriptor.withoutLead_cons (by decide) (by decide)]
    simp [lead, parsed]
  · obtain ⟨rest, letters⟩ := List.head?_eq_some_iff.1 begins
    have lead : Descriptor.withoutLead draft.nodeList.toList = 'r' :: rest := by
      rw [letters, Descriptor.withoutLead_cons (by decide) (by decide)]
    simp [lead, parsed]

namespace Descriptor

/-- The document of a draft declares what the draft does, and nothing is told about it. -/
theorem read_nodeList (draft : Draft) : read draft.nodeList = ⟨.ok draft.descriptor, []⟩ :=
  read_of_isNodeList draft.isNodeList_nodeList

/-- A descriptor with canonical patterns, and with no role twice in a constraint, comes back from
the KDL document that it is written as, and nothing is told. Its roles may have any names. -/
theorem read_nodeList_draft (descriptor : Descriptor)
    (canonical : ∀ constraint ∈ descriptor.constraints, ∀ pattern ∈ constraint.patterns,
      pattern.IsCanonical)
    (once : ∀ constraint ∈ descriptor.constraints, constraint.roles.Nodup) :
    read descriptor.draft.nodeList = ⟨.ok descriptor, []⟩ := by
  rw [read_nodeList, descriptor_draft canonical once]

/-- Texts that need care: quotes, backslashes, line ends, blanks, a byte-order mark, no text at all,
and a role that is declared twice. -/
def withUnusualTexts : Descriptor where
  constraints := [
    ⟨[.contextRoot, .default, .subtree "", .extension "tar.gz", .exact "/a\"b\\\n*."],
      [⟨""⟩, ⟨" Zoë\t"⟩, ⟨"\uFEFF\x00"⟩]⟩,
    ⟨[], []⟩]
  declaredRoles := [⟨"Admin"⟩, ⟨""⟩, ⟨"Admin"⟩]

theorem read_withUnusualTexts :
    (∀ constraint ∈ withUnusualTexts.constraints, ∀ pattern ∈ constraint.patterns,
        pattern.IsCanonical) ∧
      (∀ constraint ∈ withUnusualTexts.constraints, constraint.roles.Nodup) ∧
      read withUnusualTexts.draft.nodeList = ⟨.ok withUnusualTexts, []⟩ := by
  have canonical : ∀ constraint ∈ withUnusualTexts.constraints, ∀ pattern ∈ constraint.patterns,
      pattern.IsCanonical := by decide +kernel
  have once : ∀ constraint ∈ withUnusualTexts.constraints, constraint.roles.Nodup := by
    decide +kernel
  exact ⟨canonical, once, read_nodeList_draft withUnusualTexts canonical once⟩

end Descriptor

end Gatehouse
