import Gatehouse.Descriptor.Read
import Gatehouse.Proofs.Descriptor.Draft
import Gatehouse.Proofs.Xml.Document
/-!
Descriptors as `web-app` documents, written and read back. Main statements: `read_webApp`, which
says what the document of any draft is read as, and `read_webApp_draft`, which says when a
descriptor comes back from its own document.
-/

namespace Gatehouse

open Xml

/-! ### What a document shows of a draft -/

/-- What is read of elements with these texts. -/
def WebApp.shown (texts : List String) : List String := (texts.map Text.strip).filter (· ≠ "")

/-- A draft constraint without the blanks around its texts, and without the texts that are blank. -/
def DraftConstraint.trimmed (draft : DraftConstraint) : DraftConstraint where
  patterns := WebApp.shown draft.patterns
  roles := WebApp.shown draft.roles

namespace Draft

def trimmed (draft : Draft) : Draft where
  constraints := draft.constraints.map DraftConstraint.trimmed
  declaredRoles := WebApp.shown draft.declaredRoles

/-- Whether a document can hold the texts of the draft as they are. -/
def IsPlain (draft : Draft) : Prop :=
  (∀ constraint ∈ draft.constraints,
    (∀ text ∈ constraint.patterns, IsPlainText text) ∧
      ∀ text ∈ constraint.roles, IsPlainText text) ∧
    ∀ text ∈ draft.declaredRoles, IsPlainText text

instance (draft : Draft) : Decidable draft.IsPlain := inferInstanceAs (Decidable (_ ∧ _))

end Draft

namespace WebApp

/-! ### The draft in a tree -/

/-- The texts of the elements of this name inside a node, as they stand there. -/
def held (node : Node) (name : String) : List String :=
  (node.childrenNamed name).map Node.deepText

def heldIn (node : Node) (group name : String) : List String :=
  (node.childrenNamed group).flatMap (held · name)

def draftConstraint (node : Node) : DraftConstraint where
  patterns := heldIn node "web-resource-collection" "url-pattern"
  roles := heldIn node "auth-constraint" "role-name"

/-- The draft whose texts a tree holds. -/
def draft (root : Node) : Draft where
  constraints := (root.childrenNamed "security-constraint").map draftConstraint
  declaredRoles := (root.childrenNamed "security-role").flatMap (held · "role-name")

theorem shown_flatMap {α : Type} (texts : α → List String) (l : List α) :
    shown (l.flatMap texts) = l.flatMap fun a => shown (texts a) := by
  simp only [shown, List.map_flatMap, List.filter_flatMap]

theorem texts_eq_shown (node : Node) (name : String) : texts node name = shown (held node name) := by
  simp only [texts, shown, held, List.map_map, Function.comp_def]

theorem textsIn_eq_shown (node : Node) (group name : String) :
    textsIn node group name = shown (heldIn node group name) := by
  simp only [textsIn, heldIn, shown_flatMap, texts_eq_shown]

/-- The reader takes from a tree what its draft declares, once the blanks are gone. -/
theorem descriptor_eq (root : Node) : descriptor root = (draft root).trimmed.descriptor := by
  have constraints : constraint = fun node => (draftConstraint node).trimmed.constraint := by
    funext node
    rw [constraint, textsIn_eq_shown, textsIn_eq_shown]
    rfl
  have roles : declaredRoles = fun node => (shown (held node "role-name")).map Role.mk := by
    funext node
    rw [declaredRoles, texts_eq_shown]
  simp only [descriptor, draft, Draft.trimmed, Draft.descriptor, shown_flatMap, List.map_flatMap,
    List.map_map, Function.comp_def, constraints, roles]

/-! ### Queries on what is left of a tree -/

/-- Whether a query has the same answer for an element and for what is left of it in a document. -/
def Survives {α : Type} (spaces : Spaces) (query : Node → α) : Prop :=
  ∀ name attributes others children,
    query (.element (spaces.seen.name name.name) others (Node.seenAll spaces children)) =
      query (.element name attributes children)

theorem map_childrenNamed_seenAll {α : Type} {spaces : Spaces} {query : Node → α}
    (survives : Survives spaces query) (children : List Node) (name : String) :
    ((Node.seenAll spaces children).filter (·.name? == some name)).map query =
      (children.filter (·.name? == some name)).map query := by
  induction children with
  | nil => rfl
  | cons child children ih =>
    have first : ((child.seen spaces).filter (·.name? == some name)).map query =
        ([child].filter (·.name? == some name)).map query := by
      cases child with
      | element tag attributes inside =>
        by_cases named : tag.name = name <;>
          simp [Node.seen, Node.name?, named, ← survives tag attributes [] inside]
      | text content => unfold Node.seen; split <;> rfl
      | comment => rfl
      | instruction => rfl
    rw [Node.seenAll, List.filter_append, List.map_append, first, ih, ← List.map_append,
      ← List.filter_append, List.singleton_append]

section

variable (spaces : Spaces)

mutual

theorem deepTextAll_seen (node : Node) :
    Node.deepTextAll (node.seen spaces) = node.deepText := by
  cases node with
  | element name attributes children =>
    simp [Node.seen, Node.deepTextAll, Node.deepText, deepTextAll_seenAll children]
  | text content =>
    unfold Node.seen
    split <;> simp_all [Node.deepTextAll, Node.deepText]
  | comment => rfl
  | instruction => rfl

theorem deepTextAll_seenAll (nodes : List Node) :
    Node.deepTextAll (Node.seenAll spaces nodes) = Node.deepTextAll nodes := by
  cases nodes with
  | nil => rfl
  | cons node nodes =>
    rw [Node.seenAll, Node.deepTextAll, Node.deepTextAll_append, deepTextAll_seen node,
      deepTextAll_seenAll nodes]

end

theorem survives_deepText : Survives spaces Node.deepText :=
  fun _ _ _ children => deepTextAll_seenAll spaces children

theorem survives_held (name : String) : Survives spaces (held · name) :=
  fun _ _ _ children => map_childrenNamed_seenAll (survives_deepText spaces) children name

theorem survives_heldIn (group name : String) : Survives spaces (heldIn · group name) := by
  intro tag attributes others children
  have inside := map_childrenNamed_seenAll (survives_held spaces name) children group
  exact congrArg List.flatten inside

theorem survives_draftConstraint : Survives spaces draftConstraint := by
  intro tag attributes others children
  have held (group name : String) := survives_heldIn spaces group name tag attributes others
    children
  simp only at held
  simp only [draftConstraint, held]

theorem survives_draft : Survives spaces draft := by
  intro tag attributes others children
  have constraints :=
    map_childrenNamed_seenAll (survives_draftConstraint spaces) children "security-constraint"
  have roles :=
    map_childrenNamed_seenAll (survives_held spaces "role-name") children "security-role"
  have flat := congrArg List.flatten roles
  simpa [draft, Node.childrenNamed, Node.children, List.flatMap, constraints] using flat

end

/-! ### The tree of a draft -/

section

variable (spaces : Spaces) (depth : Nat)

theorem onLines_cons (node : Node) (nodes : List Node) :
    onLines depth (node :: nodes) = newline (depth + 1) :: node :: onLines depth nodes := rfl

theorem filter_onLines (nodes : List Node) (name : String) :
    (onLines depth nodes).filter (·.name? == some name) =
      nodes.filter (·.name? == some name) := by
  induction nodes with
  | nil => rfl
  | cons node nodes ih =>
    have line : (newline (depth + 1)).name? = none := rfl
    simp [onLines_cons, List.filter_cons, ih, line]

theorem childrenNamed_group (tag : String) (nodes : List Node) (name : String) :
    (group spaces depth tag nodes).childrenNamed name =
      nodes.filter (·.name? == some name) :=
  filter_onLines depth nodes name

theorem filter_map_named {α : Type} {write : α → Node} {name : String}
    (named : ∀ a, (write a).name? = some name) (items : List α) :
    (items.map write).filter (·.name? == some name) = items.map write := by
  simp [List.filter_eq_self, named]

theorem filter_map_other {α : Type} {write : α → Node} {name other : String}
    (named : ∀ a, (write a).name? = some other) (different : other ≠ name) (items : List α) :
    (items.map write).filter (·.name? == some name) = [] := by
  simp [List.filter_eq_nil_iff, named, different]

theorem name?_leaf (name content : String) : (leaf spaces name content).name? = some name := by
  simp [leaf, Node.name?]

theorem name?_group (name : String) (nodes : List Node) :
    (group spaces depth name nodes).name? = some name := by
  simp [group, Node.name?]

theorem held_group (tag name : String) (before : List Node)
    (others : before.filter (·.name? == some name) = []) (contents : List String) :
    held (group spaces depth tag (before ++ contents.map (leaf spaces name))) name = contents := by
  have leaves := filter_map_named (name?_leaf spaces name) contents
  have content (text : String) : (leaf spaces name text).deepText = text := by
    simp [leaf, Node.deepText, Node.deepTextAll]
  simp [held, childrenNamed_group, others, leaves, content, Function.comp_def]

theorem heldIn_constraintNode (draft : DraftConstraint) :
    heldIn (constraintNode spaces draft) "web-resource-collection" "url-pattern" =
        draft.patterns ∧
      heldIn (constraintNode spaces draft) "auth-constraint" "role-name" = draft.roles := by
  have patterns := held_group spaces 2 "web-resource-collection" "url-pattern"
    [leaf spaces "web-resource-name" "Protected"] (by simp [name?_leaf]) draft.patterns
  have roles := held_group spaces 2 "auth-constraint" "role-name" [] rfl draft.roles
  unfold heldIn constraintNode
  simp only [childrenNamed_group]
  split
  · next none =>
    have nobody : draft.roles = [] := by simpa using none
    simpa [List.filter_cons, name?_group, nobody] using patterns
  · simpa [List.filter_cons, name?_group] using And.intro patterns roles

theorem draftConstraint_constraintNode (draft : DraftConstraint) :
    draftConstraint (constraintNode spaces draft) = draft := by
  obtain ⟨patterns, roles⟩ := heldIn_constraintNode spaces draft
  rw [draftConstraint, patterns, roles]

theorem held_roleNode (name : String) : held (roleNode spaces name) "role-name" = [name] :=
  held_group spaces 1 "security-role" "role-name" [] rfl [name]

/-- The elements inside the document element of a draft. -/
def elements (draft : Draft) : List Node :=
  draft.constraints.map (constraintNode spaces) ++ draft.declaredRoles.map (roleNode spaces)

theorem draft_elements (attributes : List (Name × String)) (written : Draft) :
    draft (.element (spaces.name "web-app") attributes (onLines 0 (elements spaces written))) =
      written := by
  have constraintsNamed (draft : DraftConstraint) :
      (constraintNode spaces draft).name? = some "security-constraint" := name?_group spaces 1 _ _
  have rolesNamed (name : String) : (roleNode spaces name).name? = some "security-role" :=
    name?_group spaces 1 _ _
  have constraintNodes : (Node.element (spaces.name "web-app") attributes
      (onLines 0 (elements spaces written))).childrenNamed "security-constraint" =
        written.constraints.map (constraintNode spaces) := by
    refine (filter_onLines 0 _ _).trans ?_
    rw [elements, List.filter_append, filter_map_named constraintsNamed,
      filter_map_other rolesNamed (by decide), List.append_nil]
  have roleNodes : (Node.element (spaces.name "web-app") attributes
      (onLines 0 (elements spaces written))).childrenNamed "security-role" =
        written.declaredRoles.map (roleNode spaces) := by
    refine (filter_onLines 0 _ _).trans ?_
    rw [elements, List.filter_append, filter_map_named rolesNamed,
      filter_map_other constraintsNamed (by decide), List.nil_append]
  have constraints : (written.constraints.map (constraintNode spaces)).map draftConstraint =
      written.constraints := by
    rw [List.map_map]
    exact (List.map_congr_left fun constraint _ =>
      draftConstraint_constraintNode spaces constraint).trans (List.map_id _)
  have roles : (written.declaredRoles.map (roleNode spaces)).flatMap (held · "role-name") =
      written.declaredRoles := by
    simp only [List.flatMap_map, held_roleNode, List.flatMap_singleton']
  rw [draft, constraintNodes, roleNodes, constraints, roles]

/-! ### What a document can hold -/

theorem arePlain_onLines {nodes : List Node}
    (plain : ∀ node ∈ nodes, node.isElement = true ∧ node.IsPlain) :
    Node.ArePlain (onLines depth nodes) := by
  have line (depth : Nat) : (newline depth).IsPlain := by
    show IsPlainText _
    intro c member
    simp only [String.toList_ofList, List.mem_cons, List.mem_replicate] at member
    obtain rfl | ⟨_, rfl⟩ := member <;> decide
  induction nodes with
  | nil => exact ⟨line depth, Or.inr rfl, trivial⟩
  | cons node nodes ih =>
    obtain ⟨⟨element, first⟩, later⟩ := List.forall_mem_cons.1 plain
    rw [onLines_cons]
    exact ⟨line _, Or.inr (by simpa using element), first, Or.inl element, ih later⟩

theorem isPlain_leaf (name : String) {content : String} (simple : IsSimpleName name.toList)
    (plain : IsPlainText content) : (leaf spaces name content).IsPlain := by
  refine ⟨?_, rfl, plain, Or.inr rfl, trivial⟩
  rwa [Spaces.name_name]

theorem isPlain_group (name : String) (simple : IsSimpleName name.toList) {nodes : List Node}
    (plain : ∀ node ∈ nodes, node.isElement = true ∧ node.IsPlain) :
    (group spaces depth name nodes).IsPlain := by
  refine ⟨?_, rfl, arePlain_onLines depth plain⟩
  rwa [Spaces.name_name]

theorem isPlain_leaves (name : String) (simple : IsSimpleName name.toList) {contents : List String}
    (plain : ∀ content ∈ contents, IsPlainText content) :
    ∀ node ∈ contents.map (leaf spaces name), node.isElement = true ∧ node.IsPlain := by
  intro node member
  obtain ⟨content, inside, rfl⟩ := List.mem_map.1 member
  exact ⟨rfl, isPlain_leaf spaces name simple (plain content inside)⟩

theorem isPlain_constraintNode {draft : DraftConstraint}
    (patterns : ∀ text ∈ draft.patterns, IsPlainText text)
    (roles : ∀ text ∈ draft.roles, IsPlainText text) :
    (constraintNode spaces draft).IsPlain := by
  have patternLeaves := isPlain_leaves spaces "url-pattern" (by decide) patterns
  have roleLeaves := isPlain_leaves spaces "role-name" (by decide) roles
  have resources : (group spaces 2 "web-resource-collection"
      (leaf spaces "web-resource-name" "Protected" ::
        draft.patterns.map (leaf spaces "url-pattern"))).IsPlain :=
    isPlain_group spaces 2 _ (by decide) (List.forall_mem_cons.2
      ⟨⟨rfl, isPlain_leaf spaces _ (by decide) (by decide)⟩, patternLeaves⟩)
  have holders := isPlain_group spaces 2 "auth-constraint" (by decide) roleLeaves
  apply isPlain_group spaces 1 _ (by decide)
  split
  · simpa using ⟨rfl, resources⟩
  · simpa using ⟨⟨rfl, resources⟩, rfl, holders⟩

theorem isPlain_elements {draft : Draft} (plain : draft.IsPlain) :
    ∀ node ∈ elements spaces draft, node.isElement = true ∧ node.IsPlain := by
  simp only [elements, List.mem_append, List.mem_map]
  rintro node (⟨constraint, member, rfl⟩ | ⟨name, member, rfl⟩)
  · obtain ⟨patterns, roles⟩ := plain.1 constraint member
    exact ⟨rfl, isPlain_constraintNode spaces patterns roles⟩
  · have leaf := isPlain_leaf spaces "role-name" (by decide) (plain.2 name member)
    exact ⟨rfl, isPlain_group spaces 1 _ (by decide) (by simpa using ⟨rfl, leaf⟩)⟩

end

end WebApp

/-! ### Whole documents -/

open WebApp

/-- What is told about a descriptor while it is read from a `web-app` document. -/
def Descriptor.warnings (descriptor : Descriptor) : Log :=
  (descriptor.constraints.filter (·.patterns = [])).map fun _ => .patternlessConstraint

/-- The draft in the document element of a tree, if it is of the right name. -/
def WebApp.draft? (root : Node) : Option Draft :=
  if root.name? = some "web-app" then some (WebApp.draft root) else none

/-- Whether a text is a `web-app` document whose elements have the texts of the draft, one element
for each. How these texts are marked up does not matter, nor what else stands in the document. -/
def Draft.IsWebApp (draft : Draft) (text : String) : Prop :=
  let document := Descriptor.withoutLead text.toList
  document.head? = some '<' ∧ (Document.root? document).bind WebApp.draft? = some draft

theorem Draft.isWebApp_ofList {draft : Draft} {letters : List Char} :
    draft.IsWebApp (String.ofList letters) ↔
      let document := Descriptor.withoutLead letters
      document.head? = some '<' ∧ (Document.root? document).bind WebApp.draft? = some draft := by
  unfold IsWebApp
  rw [String.toList_ofList]

namespace Descriptor

/-- Any document of a draft is read as the draft without blanks. -/
theorem read_of_isWebApp {draft : Draft} {text : String} (holds : draft.IsWebApp text) :
    read text = ⟨.ok draft.trimmed.descriptor, draft.trimmed.descriptor.warnings⟩ := by
  obtain ⟨begins, found⟩ := holds
  obtain ⟨root, parsed, held⟩ := Option.bind_eq_some_iff.1 found
  obtain ⟨rest, lead⟩ := List.head?_eq_some_iff.1 begins
  obtain ⟨named, same⟩ := Option.ite_none_right_eq_some.1 held
  obtain rfl := Option.some.inj same
  rw [lead] at parsed
  rw [read, lead]
  simp only [readWebApp, String.toList_ofList, parsed, WebApp.read, named, if_true,
    WebApp.descriptor_eq, warnings]

end Descriptor

theorem Draft.isWebApp_webApp {spaces : Spaces} (usable : spaces.IsUsable) {draft : Draft}
    (plain : draft.IsPlain) : draft.IsWebApp (draft.webApp spaces) := by
  let version : List (Name × String) :=
    if spaces = .absent then [] else [(⟨none, "version"⟩, "2.4")]
  have versions : (∀ held ∈ version, IsPlainAttribute held) ∧ (version.map (·.1)).Nodup := by
    unfold version
    split
    · simp
    · simpa using ⟨rfl, by decide, by decide, by decide, by decide⟩
  have letters : (draft.webApp spaces).toList =
      Document.write spaces (spaces.name "web-app") version
        (onLines 0 (elements spaces draft)) := by
    simp [Draft.webApp, elements, version]
  have lead : Descriptor.withoutLead (draft.webApp spaces).toList =
      (draft.webApp spaces).toList := by
    rw [letters]
    rfl
  have root := Document.root?_write usable "web-app" (by decide) versions.1 versions.2
    (arePlain_onLines 0 (isPlain_elements spaces plain))
  have survived := survives_draft spaces (spaces.name "web-app") version version
    (onLines 0 (elements spaces draft))
  rw [Spaces.name_name, draft_elements] at survived
  have named : (Node.element (spaces.seen.name "web-app") version
      (Node.seenAll spaces (onLines 0 (elements spaces draft)))).name? = some "web-app" := by
    simp [Node.name?]
  rw [IsWebApp, lead, letters]
  refine ⟨rfl, ?_⟩
  rw [root, Option.bind_some, WebApp.draft?, if_pos named, survived]

/-- The document of a draft is read as the draft without blanks, whatever its name space is. -/
theorem Descriptor.read_webApp {spaces : Spaces} (usable : spaces.IsUsable) {draft : Draft}
    (plain : draft.IsPlain) :
    read (draft.webApp spaces) =
      ⟨.ok draft.trimmed.descriptor, draft.trimmed.descriptor.warnings⟩ :=
  read_of_isWebApp (Draft.isWebApp_webApp usable plain)

/-! ### Descriptors that documents show whole -/

/-- Whether a text is not empty and has no blanks around it. -/
def IsTrimmed (text : String) : Prop := text ≠ "" ∧ Text.strip text = text

instance (text : String) : Decidable (IsTrimmed text) := inferInstanceAs (Decidable (_ ∧ _))

theorem WebApp.shown_eq_self {texts : List String} (trimmed : ∀ text ∈ texts, IsTrimmed text) :
    shown texts = texts := by
  have same : texts.map Text.strip = texts :=
    (List.map_congr_left fun text member => (trimmed text member).2).trans (List.map_id texts)
  rw [shown, same, List.filter_eq_self]
  simpa using fun text member => (trimmed text member).1

theorem UrlPattern.IsCanonical.isTrimmed_display {pattern : UrlPattern}
    (canonical : pattern.IsCanonical) (named : pattern ≠ contextRoot) :
    IsTrimmed pattern.display :=
  ⟨canonical.display_ne_empty named, canonical.strip_display⟩

theorem Constraint.trimmed_draft {constraint : Constraint}
    (patterns : ∀ pattern ∈ constraint.patterns, pattern.IsCanonical ∧ pattern ≠ .contextRoot)
    (roles : ∀ role ∈ constraint.roles, IsTrimmed role.name) :
    constraint.draft.trimmed = constraint.draft := by
  have patternTexts : WebApp.shown (constraint.patterns.map UrlPattern.display) =
      constraint.patterns.map UrlPattern.display := by
    apply WebApp.shown_eq_self
    intro text member
    obtain ⟨pattern, inside, rfl⟩ := List.mem_map.1 member
    obtain ⟨canonical, named⟩ := patterns pattern inside
    exact canonical.isTrimmed_display named
  have roleTexts : WebApp.shown (constraint.roles.map Role.name) =
      constraint.roles.map Role.name := WebApp.shown_eq_self (by simpa using roles)
  simp only [DraftConstraint.trimmed, draft, patternTexts, roleTexts]

namespace Descriptor

theorem trimmed_draft {descriptor : Descriptor}
    (patterns : ∀ constraint ∈ descriptor.constraints, ∀ pattern ∈ constraint.patterns,
      pattern.IsCanonical ∧ pattern ≠ .contextRoot)
    (roles : ∀ constraint ∈ descriptor.constraints, ∀ role ∈ constraint.roles,
      IsTrimmed role.name)
    (declared : ∀ role ∈ descriptor.declaredRoles, IsTrimmed role.name) :
    descriptor.draft.trimmed = descriptor.draft := by
  have constraints : (descriptor.constraints.map Constraint.draft).map DraftConstraint.trimmed =
      descriptor.constraints.map Constraint.draft := by
    rw [List.map_map]
    refine List.map_congr_left fun constraint member => ?_
    exact Constraint.trimmed_draft (patterns constraint member) (roles constraint member)
  have names : WebApp.shown (descriptor.declaredRoles.map Role.name) =
      descriptor.declaredRoles.map Role.name := WebApp.shown_eq_self (by simpa using declared)
  simp only [Draft.trimmed, draft, constraints, names]

/-- A descriptor comes back from the `web-app` document that it is written as, whatever the name
space is, if its patterns are canonical and name a path, if its roles have names without blanks
around them, none twice in a constraint, and if XML has all the characters. -/
theorem read_webApp_draft {spaces : Spaces} (usable : spaces.IsUsable) (descriptor : Descriptor)
    (plain : descriptor.draft.IsPlain)
    (patterns : ∀ constraint ∈ descriptor.constraints, ∀ pattern ∈ constraint.patterns,
      pattern.IsCanonical ∧ pattern ≠ .contextRoot)
    (roles : ∀ constraint ∈ descriptor.constraints, ∀ role ∈ constraint.roles,
      IsTrimmed role.name)
    (once : ∀ constraint ∈ descriptor.constraints, constraint.roles.Nodup)
    (declared : ∀ role ∈ descriptor.declaredRoles, IsTrimmed role.name) :
    read (descriptor.draft.webApp spaces) = ⟨.ok descriptor, descriptor.warnings⟩ := by
  have canonical : ∀ constraint ∈ descriptor.constraints, ∀ pattern ∈ constraint.patterns,
      pattern.IsCanonical := fun constraint member pattern inside =>
    (patterns constraint member pattern inside).1
  rw [read_webApp usable plain, trimmed_draft patterns roles declared,
    descriptor_draft canonical once]

/-- Texts that need care: markup characters, what looks like a reference or the end of marked text,
line ends inside a name, and characters beyond ASCII. A name space with such characters is read
with its line end as a blank. -/
def withMarkup : Descriptor where
  constraints := [
    ⟨[.default, .subtree "", .extension "j<s>p", .exact "/a&amp;b]]>*."],
      [⟨"Zoë\n<Admin>"⟩, ⟨"R&D \"x\""⟩]⟩,
    ⟨[], [⟨"\u00e9"⟩]⟩,
    ⟨[.exact "/plain"], []⟩]
  declaredRoles := [⟨"&"⟩, ⟨"&"⟩]

def markupSpaces : Spaces := .tagged "ée" "urn:\"a\"\n&<b>"

theorem read_withMarkup :
    markupSpaces.IsUsable ∧ withMarkup.draft.IsPlain ∧
      read (withMarkup.draft.webApp markupSpaces) =
        ⟨.ok withMarkup, [.patternlessConstraint]⟩ := by
  have usable : markupSpaces.IsUsable := by decide +kernel
  have plain : withMarkup.draft.IsPlain := by decide +kernel
  have patterns : ∀ constraint ∈ withMarkup.constraints, ∀ pattern ∈ constraint.patterns,
      pattern.IsCanonical ∧ pattern ≠ .contextRoot := by decide +kernel
  have roles : ∀ constraint ∈ withMarkup.constraints, ∀ role ∈ constraint.roles,
      IsTrimmed role.name := by decide +kernel
  have once : ∀ constraint ∈ withMarkup.constraints, constraint.roles.Nodup := by decide +kernel
  have declared : ∀ role ∈ withMarkup.declaredRoles, IsTrimmed role.name := by decide +kernel
  exact ⟨usable, plain,
    read_webApp_draft usable withMarkup plain patterns roles once declared⟩

end Descriptor

end Gatehouse
