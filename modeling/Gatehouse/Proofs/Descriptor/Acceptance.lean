import Gatehouse.Descriptor.NodeList
import Mathlib
/-!
Which KDL documents are descriptors, and of what. A document is refused for the first of its nodes
that cannot be understood. Else it declares what its nodes declare one by one, and nodes of other
names only leave a warning. Main statement: `readKdl_outcome`.
-/

namespace Gatehouse

namespace Kdl

def Value.text? : Value → Option String
  | string content => some content
  | number _ | keyword _ => none

namespace Node

/-- The values of a node that have no key. -/
def arguments (node : Node) : List Value :=
  (node.entries.filter (·.key.isNone)).map Entry.value

/-- The first argument of a node, if it is a text. -/
def content? (node : Node) : Option String := node.arguments.head?.bind Value.text?

/-- The texts of the dashes in a block. A dash without a text counts for nothing. -/
def items (block : Node) : List String :=
  block.children.filterMap fun child => if child.name = "-" then child.content? else none

/-- The texts in the last one of some blocks that has this name. -/
def itemsOf (blocks : List Node) (name : String) : List String :=
  match (blocks.filter (·.name = name)).getLast? with
  | some block => block.items
  | none => []

theorem firstString?_eq_content? (node : Node) : node.firstString? = node.content? := by
  unfold firstString? content? arguments
  rw [List.head?_map, List.head?_filter]
  cases node.entries.find? (·.key.isNone) with
  | none => rfl
  | some entry =>
    obtain ⟨key, type, value⟩ := entry
    cases value <;> rfl

theorem dashList_eq_items (block : Node) : block.dashList = block.items := by
  rw [dashList, items, List.filterMap_filter]
  simp only [firstString?_eq_content?, beq_iff_eq]

end Node

end Kdl

open Kdl

namespace NodeList

/-! ### Constraints -/

/-- The names that a block inside a constraint can have. -/
def IsExpected (child : Node) : Prop := child.name = "url-patterns" ∨ child.name = "roles"

instance (child : Node) : Decidable (IsExpected child) := inferInstanceAs (Decidable (_ ∨ _))

/-- What a node declares as a constraint: for its patterns and for its roles the last block counts,
and each role counts once. -/
def declaredConstraint (node : Node) : Constraint where
  patterns := (Node.itemsOf node.children "url-patterns").map UrlPattern.parse
  roles := (Node.itemsOf node.children "roles").eraseDups.map Role.mk

theorem itemsOf_concat_same {child : Node} {name : String} (named : child.name = name)
    (children : List Node) : Node.itemsOf (children ++ [child]) name = child.items := by
  simp [Node.itemsOf, List.filter_append, named]

theorem itemsOf_concat_other {child : Node} {name : String} (named : child.name ≠ name)
    (children : List Node) :
    Node.itemsOf (children ++ [child]) name = Node.itemsOf children name := by
  simp [Node.itemsOf, List.filter_append, named]

theorem addChild_of_patterns {child : Node} (named : child.name = "url-patterns")
    (constraint : Constraint) :
    addChild constraint child =
      .ok { constraint with patterns := child.items.map UrlPattern.parse } := by
  rw [addChild, if_pos named, Node.dashList_eq_items]

theorem addChild_of_roles {child : Node} (named : child.name = "roles")
    (constraint : Constraint) :
    addChild constraint child =
      .ok { constraint with roles := child.items.eraseDups.map Role.mk } := by
  have other : child.name ≠ "url-patterns" := by
    rw [named]
    decide
  rw [addChild, if_neg other, if_pos named, Node.dashList_eq_items]

theorem addChild_of_not_isExpected {child : Node} (unexpected : ¬IsExpected child)
    (constraint : Constraint) :
    addChild constraint child = .error (.unexpectedChild child.name) := by
  obtain ⟨patterns, roles⟩ := not_or.1 unexpected
  rw [addChild, if_neg patterns, if_neg roles]

theorem foldlM_addChild {children : List Node} (expected : ∀ child ∈ children, IsExpected child) :
    children.foldlM addChild ⟨[], []⟩ =
      .ok ⟨(Node.itemsOf children "url-patterns").map UrlPattern.parse,
        (Node.itemsOf children "roles").eraseDups.map Role.mk⟩ := by
  -- From the end, since it is the last block of a name that counts.
  induction children using List.reverseRecOn with
  | nil => rfl
  | append_singleton children child ih =>
    obtain ⟨earlier, last⟩ := List.forall_mem_append.1 expected
    have split : (children ++ [child]).foldlM addChild ⟨[], []⟩ =
        (children.foldlM addChild ⟨[], []⟩ >>= fun constraint => addChild constraint child) := by
      simp [List.foldlM_append]
    rw [split, ih earlier]
    rcases last child (List.mem_singleton_self child) with named | named
    · have other : child.name ≠ "roles" := by
        rw [named]
        decide
      rw [itemsOf_concat_same named, itemsOf_concat_other other]
      exact addChild_of_patterns named _
    · have other : child.name ≠ "url-patterns" := by
        rw [named]
        decide
      rw [itemsOf_concat_same named, itemsOf_concat_other other]
      exact addChild_of_roles named _

theorem constraint_of_expected {node : Node}
    (expected : ∀ child ∈ node.children, IsExpected child) :
    constraint node = .ok (declaredConstraint node) := foldlM_addChild expected

theorem constraint_of_unexpected {node child : Node} {before after : List Node}
    (children : node.children = before ++ child :: after)
    (expected : ∀ earlier ∈ before, IsExpected earlier) (unexpected : ¬IsExpected child) :
    constraint node = .error (.unexpectedChild child.name) := by
  rw [constraint, children, List.foldlM_append, foldlM_addChild expected]
  show (child :: after).foldlM addChild _ = _
  rw [List.foldlM_cons, addChild_of_not_isExpected unexpected]
  rfl

/-! ### Nodes -/

/-- What is wrong with a node: a role has no name, or a constraint has a block of another name, the
first of which is told. -/
inductive IsRefused : Node → Defect → Prop
  | namelessRole {node : Node} (named : node.name = "role") (nameless : node.content? = none) :
      IsRefused node .namelessRole
  | unexpectedChild {node child : Node} {before after : List Node}
      (named : node.name = "constraint") (children : node.children = before ++ child :: after)
      (expected : ∀ earlier ∈ before, IsExpected earlier) (unexpected : ¬IsExpected child) :
      IsRefused node (.unexpectedChild child.name)

/-- A role with a name, a constraint without an unexpected block, or a node of another name. -/
def IsUnderstood (node : Node) : Prop :=
  (node.name = "role" → node.content? ≠ none) ∧
    (node.name = "constraint" → ∀ child ∈ node.children, IsExpected child)

instance (node : Node) : Decidable (IsUnderstood node) := inferInstanceAs (Decidable (_ ∧ _))

theorem exists_first {α : Type} {P : α → Prop} {l : List α} (found : ¬∀ a ∈ l, P a) :
    ∃ before a after, l = before ++ a :: after ∧ (∀ b ∈ before, P b) ∧ ¬P a := by
  induction l with
  | nil => exact absurd (List.forall_mem_nil P) found
  | cons a l ih =>
    by_cases holds : P a
    · obtain ⟨before, b, after, rfl, earlier, fails⟩ :=
        ih fun later => found (List.forall_mem_cons.2 ⟨holds, later⟩)
      exact ⟨a :: before, b, after, rfl, List.forall_mem_cons.2 ⟨holds, earlier⟩, fails⟩
    · exact ⟨[], a, l, rfl, List.forall_mem_nil P, holds⟩

theorem exists_isRefused_iff {node : Node} :
    (∃ defect, IsRefused node defect) ↔ ¬IsUnderstood node := by
  constructor
  · rintro ⟨defect, refused⟩ ⟨role, constraint⟩
    cases refused with
    | namelessRole named nameless => exact role named nameless
    | unexpectedChild named children _ unexpected =>
      exact unexpected (constraint named _ (by rw [children]; simp))
  · intro puzzling
    by_cases role : node.name = "role" → node.content? ≠ none
    · have constraint := fun expected => puzzling ⟨role, expected⟩
      obtain ⟨named, unexpected⟩ := Classical.not_imp.1 constraint
      obtain ⟨before, child, after, children, expected, fails⟩ := exists_first unexpected
      exact ⟨_, .unexpectedChild named children expected fails⟩
    · obtain ⟨named, nameless⟩ := Classical.not_imp.1 role
      exact ⟨_, .namelessRole named (Classical.not_not.1 nameless)⟩

def IsOther (node : Node) : Prop := node.name ≠ "constraint" ∧ node.name ≠ "role"

instance (node : Node) : Decidable (IsOther node) := inferInstanceAs (Decidable (_ ∧ _))

/-- What the nodes of a document declare together. -/
def declared (nodes : List Node) : Descriptor where
  constraints := (nodes.filter (·.name = "constraint")).map declaredConstraint
  declaredRoles := ((nodes.filter (·.name = "role")).filterMap Node.content?).map Role.mk

def warnings (nodes : List Node) : Log :=
  (nodes.filter IsOther).map fun node => .ignoredNode node.name

/-- A descriptor with another one after it. -/
def followedBy (first second : Descriptor) : Descriptor :=
  ⟨first.constraints ++ second.constraints, first.declaredRoles ++ second.declaredRoles⟩

theorem declared_append (before after : List Node) :
    declared (before ++ after) = followedBy (declared before) (declared after) := by
  simp [declared, followedBy]

theorem warnings_append (before after : List Node) :
    warnings (before ++ after) = warnings before ++ warnings after := by
  simp [warnings]

theorem read_cons_of_isUnderstood {node : Node} (understood : IsUnderstood node)
    (rest : List Node) :
    read (node :: rest) = ⟨(read rest).result.map (followedBy (declared [node])),
      warnings [node] ++ (read rest).log⟩ := by
  obtain ⟨role, constraint⟩ := understood
  rw [read]
  split
  · next named =>
    have alone : declared [node] = ⟨[declaredConstraint node], []⟩ := by simp [declared, named]
    have silent : warnings [node] = [] := by simp [warnings, IsOther, named]
    rw [constraint_of_expected (constraint named), alone, silent]
    rfl
  split
  · next other named =>
    obtain ⟨name, content⟩ := Option.ne_none_iff_exists'.1 (role named)
    have alone : declared [node] = ⟨[], [⟨name⟩]⟩ := by simp [declared, named, content]
    have silent : warnings [node] = [] := by simp [warnings, IsOther, named]
    rw [Node.firstString?_eq_content?, content, alone, silent]
    rfl
  · next noConstraint noRole =>
    have alone : declared [node] = ⟨[], []⟩ := by simp [declared, noConstraint, noRole]
    have warned : warnings [node] = [.ignoredNode node.name] := by
      simp [warnings, IsOther, noConstraint, noRole]
    rw [alone, warned]
    cases read rest with
    | mk result log => cases result <;> rfl

theorem read_append {before : List Node} (understood : ∀ node ∈ before, IsUnderstood node)
    (rest : List Node) :
    read (before ++ rest) = ⟨(read rest).result.map (followedBy (declared before)),
      warnings before ++ (read rest).log⟩ := by
  induction before with
  | nil =>
    rw [List.nil_append]
    cases read rest with
    | mk result log => cases result <;> rfl
  | cons node before ih =>
    obtain ⟨first, later⟩ := List.forall_mem_cons.1 understood
    have parts := declared_append [node] before
    have told := warnings_append [node] before
    rw [List.singleton_append] at parts told
    rw [List.cons_append, read_cons_of_isUnderstood first, ih later, parts, told]
    cases (read rest).result with
    | error defect => simp [Except.map]
    | ok descriptor => simp [Except.map, followedBy]

theorem read_of_isUnderstood {nodes : List Node}
    (understood : ∀ node ∈ nodes, IsUnderstood node) :
    read nodes = ⟨.ok (declared nodes), warnings nodes⟩ := by
  have whole := read_append understood []
  simpa [read, Except.map, followedBy] using whole

theorem read_cons_of_isRefused {node : Node} {defect : Defect} (refused : IsRefused node defect)
    (rest : List Node) : read (node :: rest) = .fail defect := by
  rw [read]
  cases refused with
  | namelessRole named nameless =>
    have other : node.name ≠ "constraint" := by
      rw [named]
      decide
    rw [if_neg other, if_pos named, Node.firstString?_eq_content?, nameless]
  | unexpectedChild named children expected unexpected =>
    rw [if_pos named, constraint_of_unexpected children expected unexpected]

theorem read_of_isRefused {before after : List Node} {node : Node} {defect : Defect}
    (understood : ∀ earlier ∈ before, IsUnderstood earlier) (refused : IsRefused node defect) :
    read (before ++ node :: after) = ⟨.error defect, warnings before⟩ := by
  rw [read_append understood, read_cons_of_isRefused refused]
  simp [Reading.fail, Except.map]

theorem result_read_without {other : Node} (unknown : IsOther other) (before after : List Node) :
    (read (before ++ after)).result = (read (before ++ other :: after)).result := by
  have understood : IsUnderstood other :=
    ⟨fun role => absurd role unknown.2, fun constraint => absurd constraint unknown.1⟩
  have nothing : declared [other] = ⟨[], []⟩ := by simp [declared, unknown.1, unknown.2]
  by_cases earlier : ∀ node ∈ before, IsUnderstood node
  · rw [read_append earlier, read_append earlier, read_cons_of_isUnderstood understood, nothing]
    cases (read after).result <;> rfl
  · -- The first node that is refused stands before the other one, which is not even looked at.
    obtain ⟨start, node, later, rfl, fine, puzzling⟩ := exists_first earlier
    obtain ⟨defect, refused⟩ := exists_isRefused_iff.2 puzzling
    simp only [List.append_assoc, List.cons_append, read_of_isRefused fine refused]

theorem level_of_mem_warnings {nodes : List Node} :
    ∀ event ∈ warnings nodes, event.level = .warn := by
  intro event member
  obtain ⟨node, -, rfl⟩ := List.mem_map.1 member
  rfl

theorem exists_error_iff {nodes : List Node} :
    (∃ defect, (read nodes).result = .error defect) ↔ ∃ node ∈ nodes, ¬IsUnderstood node := by
  constructor
  · rintro ⟨defect, failed⟩
    by_contra none
    have understood : ∀ node ∈ nodes, IsUnderstood node := by simpa using none
    rw [read_of_isUnderstood understood] at failed
    cases failed
  · rintro ⟨node, member, puzzling⟩
    obtain ⟨before, first, after, rfl, fine, puzzling⟩ :=
      exists_first fun all => puzzling (all node member)
    obtain ⟨defect, refused⟩ := exists_isRefused_iff.2 puzzling
    exact ⟨defect, by rw [read_of_isRefused fine refused]⟩

theorem not_isUnderstood_iff {node : Node} :
    ¬IsUnderstood node ↔ (node.name = "role" ∧ node.content? = none) ∨
      node.name = "constraint" ∧ ∃ child ∈ node.children, ¬IsExpected child := by
  simp only [IsUnderstood, not_and_or, Classical.not_imp, Ne, not_not, not_forall]

theorem level_of_mem_log {nodes : List Node} : ∀ event ∈ (read nodes).log, event.level = .warn := by
  by_cases understood : ∀ node ∈ nodes, IsUnderstood node
  · rw [read_of_isUnderstood understood]
    exact level_of_mem_warnings
  · obtain ⟨before, node, after, rfl, fine, refused⟩ := exists_first understood
    obtain ⟨defect, refused⟩ := exists_isRefused_iff.2 refused
    rw [read_of_isRefused fine refused]
    exact level_of_mem_warnings

end NodeList

namespace Descriptor

open NodeList

/-- A KDL document is refused exactly if a role in it has no text as its first argument, or a
constraint has a block of another name. The first such node is told, and nothing after it is looked
at. A document with no such node declares what its constraints and roles do, in their order. Each
node of another name is told, up to the node that is refused, and can as well be left out. -/
theorem readKdl_outcome {text : String} {nodes : List Node}
    (document : Node.ofText? text.toList = some nodes) :
    ((∃ defect, (readKdl text).result = .error defect) ↔
      ∃ node ∈ nodes, (node.name = "role" ∧ node.content? = none) ∨
        node.name = "constraint" ∧ ∃ child ∈ node.children, ¬IsExpected child) ∧
    (∀ before node after defect, nodes = before ++ node :: after →
      (∀ earlier ∈ before, IsUnderstood earlier) → IsRefused node defect →
        readKdl text = ⟨.error defect, warnings before⟩) ∧
    ((∀ node ∈ nodes, IsUnderstood node) →
      readKdl text = ⟨.ok (declared nodes), warnings nodes⟩) ∧
    (∀ event ∈ (readKdl text).log, event.level = .warn) ∧
    (∀ before other after, nodes = before ++ other :: after → IsOther other →
      ∀ shorter : String, Node.ofText? shorter.toList = some (before ++ after) →
        (readKdl shorter).result = (readKdl text).result) := by
  have readKdl_eq {text : String} {nodes : List Node}
      (document : Node.ofText? text.toList = some nodes) : readKdl text = read nodes := by
    simp only [readKdl, document]
  rw [readKdl_eq document]
  simp only [← not_isUnderstood_iff]
  refine ⟨exists_error_iff, ?_, read_of_isUnderstood, level_of_mem_log, ?_⟩
  · rintro before node after defect rfl fine refused
    exact read_of_isRefused fine refused
  · rintro before other after rfl unknown shorter remaining
    rw [readKdl_eq remaining]
    exact result_read_without unknown before after

/-- A constraint in which a block comes twice, and a role with a value that has a key before its
name. -/
def declaringNodes : List Node :=
  [.mk none "constraint" [] (some [
      .mk none "roles" [] (some [.mk none "-" [⟨none, none, .string "A"⟩] none]),
      .mk none "roles" [] (some [.mk none "-" [⟨none, none, .string "B"⟩] none,
        .mk none "-" [⟨none, none, .keyword "true"⟩] none,
        .mk none "-" [⟨none, none, .string "B"⟩] none])]),
    .mk none "role" [⟨some "k", none, .string "x"⟩, ⟨none, none, .string "C"⟩] none]

def declaringText : String :=
  "constraint \x7broles \x7b- A\x7d;roles \x7b- B;- #true;- B\x7d\x7d;role k=x C"

/-- The same after a node of another name. -/
def notedText : String := "note;" ++ declaringText

/-- A constraint with a block that is none of its own, before a role without a name. -/
def refusedNodes : List Node :=
  [.mk none "note" [] none, .mk none "constraint" [] (some [.mk none "methods" [] none]),
    .mk none "role" [] none]

def refusedText : String := "note;constraint \x7bmethods\x7d;role"

theorem readKdl_notedText :
    (∀ node ∈ declaringNodes, IsUnderstood node) ∧
      readKdl declaringText = ⟨.ok ⟨[⟨[], [⟨"B"⟩]⟩], [⟨"C"⟩]⟩, []⟩ ∧
      (readKdl declaringText).result = (readKdl notedText).result ∧
      readKdl refusedText = ⟨.error (.unexpectedChild "methods"), [.ignoredNode "note"]⟩ := by
  have declaring : Node.ofText? declaringText.toList = some declaringNodes := by cbv
  have noted :
      Node.ofText? notedText.toList = some (.mk none "note" [] none :: declaringNodes) := by cbv
  have refused : Node.ofText? refusedText.toList = some refusedNodes := by cbv
  have understood : ∀ node ∈ declaringNodes, IsUnderstood node := by decide +kernel
  obtain ⟨-, -, accepts, -, -⟩ := readKdl_outcome declaring
  obtain ⟨-, -, -, -, ignores⟩ := readKdl_outcome noted
  obtain ⟨-, refuses, -, -, -⟩ := readKdl_outcome refused
  refine ⟨understood, accepts understood,
    ignores [] _ declaringNodes rfl (by decide) declaringText declaring, ?_⟩
  have block : (Node.mk none "constraint" [] (some [.mk none "methods" [] none])).children =
      [] ++ .mk none "methods" [] none :: [] := rfl
  have unexpected := IsRefused.unexpectedChild rfl block (by simp) (by decide)
  exact refuses [.mk none "note" [] none] _ _ _ rfl (by decide +kernel) unexpected

end Descriptor

end Gatehouse
