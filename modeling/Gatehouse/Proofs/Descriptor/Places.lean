import Gatehouse.Descriptor.WebApp
import Mathlib
/-!
The places of a `web-app` document in which something can be declared. Main statement:
`read_edited`, which says that a document is read the same after any number of changes to what
stands elsewhere.
-/

namespace Gatehouse

open Xml

/-! ### Places -/

/-- Where a list of nodes stands in a document. -/
inductive Place where
  | application
  | constraint
  | resources
  /-- In an element that holds the names of roles. -/
  | roles
  /-- In a text that counts, however deep. -/
  | value
  | ignored
  deriving DecidableEq

namespace Place

/-- The place inside an element of this name. -/
def inner : Place → String → Place
  | application, name =>
    if name = "security-constraint" then constraint
    else if name = "security-role" then roles
    else ignored
  | constraint, name =>
    if name = "web-resource-collection" then resources
    else if name = "auth-constraint" then roles
    else ignored
  | resources, name => if name = "url-pattern" then value else ignored
  | roles, name => if name = "role-name" then value else ignored
  | value, _ => value
  | ignored, _ => ignored

end Place

/-- One change to the nodes in a place. Comments and instructions may be put anywhere, text anywhere
but in a value, and an element wherever none of its name is looked for. A text may be cut in two, an
element may get another name space and other attributes, and a role may go behind what else stands
in the application. All this may also be done inside an element and among other nodes. -/
inductive Edit : Place → List Node → List Node → Prop where
  | comment {place : Place} (content : String) : Edit place [] [.comment content]
  | instruction {place : Place} (target : String) : Edit place [] [.instruction target]
  | text {place : Place} (content : String) (outside : place ≠ .value) :
    Edit place [] [.text content]
  | element {place : Place} (name : Name) (attributes : List (Name × String))
    (children : List Node) (unasked : place.inner name.name = .ignored) :
    Edit place [] [.element name attributes children]
  | cut {place : Place} (first second : String) :
    Edit place [.text (first ++ second)] [.text first, .text second]
  | retag {place : Place} {name name' : Name} (attributes attributes' : List (Name × String))
    (children : List Node) (same : name'.name = name.name) :
    Edit place [.element name attributes children] [.element name' attributes' children]
  | move {role : Node} {between : List Node} (declares : role.name? = some "security-role")
    (others : ∀ node ∈ between, node.name? ≠ some "security-role") :
    Edit .application (role :: between) (between ++ [role])
  | inside {place : Place} (name : Name) (attributes : List (Name × String))
    {children children' : List Node} (edit : Edit (place.inner name.name) children children') :
    Edit place [.element name attributes children] [.element name attributes children']
  | among {place : Place} (before after : List Node) {nodes nodes' : List Node}
    (edit : Edit place nodes nodes') :
    Edit place (before ++ nodes ++ after) (before ++ nodes' ++ after)

/-- One change to a document, to the tag of its element or anywhere inside. -/
inductive DocumentEdit : Node → Node → Prop where
  | retag {name name' : Name} (attributes attributes' : List (Name × String))
    (children : List Node) (same : name'.name = name.name) :
    DocumentEdit (.element name attributes children) (.element name' attributes' children)
  | inside (name : Name) (attributes : List (Name × String)) {children children' : List Node}
    (edit : Edit .application children children') :
    DocumentEdit (.element name attributes children) (.element name attributes children')

/-! ### What a place yields -/

/-- What is collected from a list of nodes. -/
structure Yield where
  constraints : List Constraint := []
  declaredRoles : List Role := []
  patterns : List String := []
  roles : List String := []
  content : String := ""

namespace Yield

instance : Append Yield where
  append first second :=
    { constraints := first.constraints ++ second.constraints
      declaredRoles := first.declaredRoles ++ second.declaredRoles
      patterns := first.patterns ++ second.patterns
      roles := first.roles ++ second.roles
      content := first.content ++ second.content }

end Yield

namespace Place

/-- Nodes in an element, whose name does not matter. -/
def wrap (nodes : List Node) : Node := .element ⟨none, ""⟩ [] nodes

def yield : Place → List Node → Yield
  | application, nodes =>
    { constraints := (WebApp.descriptor (wrap nodes)).constraints
      declaredRoles := (WebApp.descriptor (wrap nodes)).declaredRoles }
  | constraint, nodes =>
    { patterns := WebApp.textsIn (wrap nodes) "web-resource-collection" "url-pattern"
      roles := WebApp.textsIn (wrap nodes) "auth-constraint" "role-name" }
  | resources, nodes => { patterns := WebApp.texts (wrap nodes) "url-pattern" }
  | roles, nodes => { roles := WebApp.texts (wrap nodes) "role-name" }
  | value, nodes => { content := Node.deepTextAll nodes }
  | ignored, _ => {}

/-- What an element of this name adds to the place it stands in, by what is inside. -/
def outward (inside : Yield) : Place → String → Yield
  | application, name =>
    if name = "security-constraint" then
      { constraints :=
          [⟨inside.patterns.map UrlPattern.parse, inside.roles.eraseDups.map Role.mk⟩] }
    else if name = "security-role" then { declaredRoles := inside.roles.map Role.mk }
    else {}
  | constraint, name =>
    if name = "web-resource-collection" then { patterns := inside.patterns }
    else if name = "auth-constraint" then { roles := inside.roles }
    else {}
  | resources, name =>
    if name = "url-pattern" then { patterns := [Text.strip inside.content].filter (· ≠ "") } else {}
  | roles, name =>
    if name = "role-name" then { roles := [Text.strip inside.content].filter (· ≠ "") } else {}
  | value, _ => { content := inside.content }
  | ignored, _ => {}

theorem childrenNamed_wrap_append (nodes more : List Node) (name : String) :
    (wrap (nodes ++ more)).childrenNamed name =
      (wrap nodes).childrenNamed name ++ (wrap more).childrenNamed name := List.filter_append ..

theorem texts_wrap_append (nodes more : List Node) (name : String) :
    WebApp.texts (wrap (nodes ++ more)) name =
      WebApp.texts (wrap nodes) name ++ WebApp.texts (wrap more) name := by
  simp only [WebApp.texts, childrenNamed_wrap_append, List.map_append, List.filter_append]

theorem textsIn_wrap_append (nodes more : List Node) (group name : String) :
    WebApp.textsIn (wrap (nodes ++ more)) group name =
      WebApp.textsIn (wrap nodes) group name ++ WebApp.textsIn (wrap more) group name := by
  simp only [WebApp.textsIn, childrenNamed_wrap_append, List.flatMap_append]

theorem yield_append (place : Place) (nodes more : List Node) :
    place.yield (nodes ++ more) = place.yield nodes ++ place.yield more := by
  cases place with
  | application =>
    simp only [yield, WebApp.descriptor, childrenNamed_wrap_append, List.map_append,
      List.flatMap_append]
    rfl
  | constraint =>
    simp only [yield, textsIn_wrap_append]
    rfl
  | resources =>
    simp only [yield, texts_wrap_append]
    rfl
  | roles =>
    simp only [yield, texts_wrap_append]
    rfl
  | value =>
    simp only [yield, Node.deepTextAll_append]
    rfl
  | ignored => rfl

theorem yield_nil (place : Place) : place.yield [] = {} := by
  cases place <;> rfl

/-! ### Single elements -/

section

variable (name : Name) (attributes : List (Name × String)) (children : List Node)

theorem childrenNamed_wrap_element (asked : String) :
    (wrap [.element name attributes children]).childrenNamed asked =
      if name.name = asked then [.element name attributes children] else [] := by
  simp [wrap, Node.childrenNamed, Node.children, Node.name?, List.filter_cons]

theorem texts_wrap_element (asked : String) :
    WebApp.texts (wrap [.element name attributes children]) asked =
      if name.name = asked then [Text.strip (Node.deepTextAll children)].filter (· ≠ "")
      else [] := by
  rw [WebApp.texts, childrenNamed_wrap_element]
  split <;> rfl

theorem textsIn_wrap_element (group asked : String) :
    WebApp.textsIn (wrap [.element name attributes children]) group asked =
      if name.name = group then WebApp.texts (wrap children) asked else [] := by
  rw [WebApp.textsIn, childrenNamed_wrap_element]
  split
  · exact List.flatMap_singleton ..
  · rfl

theorem descriptor_wrap_element :
    WebApp.descriptor (wrap [.element name attributes children]) =
      if name.name = "security-constraint" then ⟨[WebApp.constraint (wrap children)], []⟩
      else if name.name = "security-role" then ⟨[], WebApp.declaredRoles (wrap children)⟩
      else {} := by
  rw [WebApp.descriptor, childrenNamed_wrap_element, childrenNamed_wrap_element]
  by_cases constrains : name.name = "security-constraint"
  · rw [if_pos constrains, if_pos constrains, if_neg (by simp [constrains])]
    rfl
  · rw [if_neg constrains, if_neg constrains]
    split
    · exact congrArg (Descriptor.mk []) (List.flatMap_singleton ..)
    · rfl

/-- What is inside an element counts in its own place first, and then around it as the names say. -/
theorem yield_element (place : Place) :
    place.yield [.element name attributes children] =
      place.outward ((place.inner name.name).yield children) name.name := by
  cases place with
  | application =>
    simp only [yield, inner, outward, descriptor_wrap_element]
    split
    · rfl
    · split <;> rfl
  | constraint =>
    simp only [yield, inner, outward, textsIn_wrap_element]
    by_cases protects : name.name = "web-resource-collection"
    · simp [protects]
    · by_cases authorizes : name.name = "auth-constraint"
      · simp [authorizes]
      · simp [protects, authorizes]
  | resources =>
    simp only [yield, inner, outward, texts_wrap_element]
    split <;> rfl
  | roles =>
    simp only [yield, inner, outward, texts_wrap_element]
    split <;> rfl
  | value => simp [yield, inner, outward, Node.deepTextAll, Node.deepText]
  | ignored => rfl

end

/-! ### Changes -/

theorem yield_unnamed {node : Node} (unnamed : node.name? = none) {place : Place}
    (outside : place ≠ .value) : place.yield [node] = {} := by
  have none (name : String) : (wrap [node]).childrenNamed name = [] := by
    simp [wrap, Node.childrenNamed, Node.children, unnamed]
  cases place with
  | value => exact (outside rfl).elim
  | _ => simp [yield, WebApp.descriptor, WebApp.textsIn, WebApp.texts, none]

theorem yield_silent {node : Node} (unnamed : node.name? = none) (silent : node.deepText = "")
    (place : Place) : place.yield [node] = {} := by
  by_cases inside : place = .value
  · subst inside
    simp [yield, Node.deepTextAll, silent]
  · exact yield_unnamed unnamed inside

theorem outward_of_ignored {place : Place} {name : String} (unasked : place.inner name = .ignored) :
    place.outward {} name = {} := by
  cases place <;> grind [inner, outward]

theorem yield_cut (place : Place) (first second : String) :
    place.yield [.text first, .text second] = place.yield [.text (first ++ second)] := by
  by_cases inside : place = .value
  · subst inside
    simp [yield, Node.deepTextAll, Node.deepText]
  · have silent (content : String) : place.yield [.text content] = {} := yield_unnamed rfl inside
    calc place.yield ([.text first] ++ [.text second])
        = {} ++ {} := by rw [yield_append, silent, silent]
      _ = place.yield [.text (first ++ second)] := (silent _).symm

theorem yield_move {role : Node} {between : List Node}
    (declares : role.name? = some "security-role")
    (others : ∀ node ∈ between, node.name? ≠ some "security-role") :
    application.yield (between ++ [role]) = application.yield (role :: between) := by
  have unconstrained : (wrap [role]).childrenNamed "security-constraint" = [] := by
    simp [wrap, Node.childrenNamed, Node.children, declares]
  have undeclared : (wrap between).childrenNamed "security-role" = [] :=
    List.filter_eq_nil_iff.2 fun node member => by simpa using others node member
  have split : role :: between = [role] ++ between := rfl
  simp only [yield, WebApp.descriptor, split, childrenNamed_wrap_append, unconstrained, undeclared,
    List.append_nil, List.nil_append]

/-- What is collected in a place stays the same through every change. -/
theorem yield_edit {place : Place} {nodes nodes' : List Node} (edit : Edit place nodes nodes') :
    place.yield nodes' = place.yield nodes := by
  induction edit with
  | comment content => rw [yield_silent rfl rfl, yield_nil]
  | instruction target => rw [yield_silent rfl rfl, yield_nil]
  | text content outside => rw [yield_unnamed rfl outside, yield_nil]
  | @element place name attributes children unasked =>
    rw [yield_element, unasked, yield_nil]
    exact outward_of_ignored unasked
  | @cut place first second => exact yield_cut place first second
  | retag attributes attributes' children same => rw [yield_element, yield_element, same]
  | move declares others => exact yield_move declares others
  | inside name attributes edit ih => rw [yield_element, yield_element, ih]
  | among before after edit ih => simp only [yield_append, ih]

end Place

namespace WebApp

theorem read_congr {root root' : Node} (named : root'.name? = root.name?)
    (declared : descriptor root' = descriptor root) : read root' = read root := by
  rw [read, read, named, declared]

theorem read_documentEdit {root root' : Node} (edit : DocumentEdit root root') :
    read root' = read root := by
  cases edit with
  | retag attributes attributes' children same =>
    exact read_congr (congrArg some same) rfl
  | @inside name attributes children children' edit =>
    have yielded := Place.yield_edit edit
    have constraints := congrArg Yield.constraints yielded
    have roles := congrArg Yield.declaredRoles yielded
    refine read_congr rfl ?_
    calc descriptor (Place.wrap children')
        = ⟨(Place.application.yield children').constraints,
            (Place.application.yield children').declaredRoles⟩ := rfl
      _ = descriptor (Place.wrap children) := by
        rw [constraints, roles]
        rfl

/-- A document is read the same after any changes that leave the declared places alone, whether they
are made or taken back. -/
theorem read_edited {root root' : Node} (edited : Relation.EqvGen DocumentEdit root root') :
    read root' = read root ∧
      ∀ text text' : String, Document.root? text.toList = some root →
        Document.root? text'.toList = some root' →
          Descriptor.readWebApp text' = Descriptor.readWebApp text := by
  have same : read root' = read root := by
    induction edited with
    | rel root root' edit => exact read_documentEdit edit
    | refl root => rfl
    | symm root root' _ ih => exact ih.symm
    | trans root middle root' _ _ first second => exact second.trans first
  refine ⟨same, fun text text' found found' => ?_⟩
  simp only [Descriptor.readWebApp, found, found', same]

def plainText : String :=
  "<web-app><security-role><role-name>Ab</role-name></security-role>" ++
    "<security-constraint/></web-app>"

/-- The same declarations, with the role behind the constraint and its name in two texts, and with
an element before them that declares nothing. -/
def strewnText : String :=
  "<web-app><x/><security-constraint/><security-role><role-name>A<!--c-->b</role-name>" ++
    "</security-role></web-app>"

theorem readWebApp_strewnText :
    Descriptor.readWebApp strewnText = Descriptor.readWebApp plainText := by
  let document (nodes : List Node) : Node := .element ⟨none, "web-app"⟩ [] nodes
  let constraint : Node := .element ⟨none, "security-constraint"⟩ [] []
  let role (content : List Node) : Node :=
    .element ⟨none, "security-role"⟩ [] [.element ⟨none, "role-name"⟩ [] content]
  have plain : Document.root? plainText.toList =
      some (document [role [.text "Ab"], constraint]) := by cbv
  have strewn : Document.root? strewnText.toList =
      some (document [.element ⟨none, "x"⟩ [] [], constraint,
        role [.text "A", .comment "c", .text "b"]]) := by cbv
  have moved : DocumentEdit (document [role [.text "Ab"], constraint])
      (document [constraint, role [.text "Ab"]]) :=
    .inside _ [] (.move rfl (by simp [constraint, Node.name?]))
  have named {content content' : List Node} (edit : Edit .value content content') :
      DocumentEdit (document [constraint, role content])
        (document [constraint, role content']) := by
    have inRole : Edit .roles [.element ⟨none, "role-name"⟩ [] content]
        [.element ⟨none, "role-name"⟩ [] content'] := .inside _ [] edit
    have inApplication : Edit .application [role content] [role content'] := .inside _ [] inRole
    exact .inside _ [] (.among [constraint] [] inApplication)
  have cut := named (.cut "A" "b")
  have commented := named (.among [.text "A"] [.text "b"] (.comment "c"))
  have prefixed := DocumentEdit.inside ⟨none, "web-app"⟩ []
    (.among [] [constraint, role [.text "A", .comment "c", .text "b"]]
      (.element ⟨none, "x"⟩ [] [] rfl))
  refine (read_edited ?_).2 plainText strewnText plain strewn
  exact (((Relation.EqvGen.rel _ _ moved).trans _ _ _ (.rel _ _ cut)).trans _ _ _
    (.rel _ _ commented)).trans _ _ _ (.rel _ _ prefixed)

end WebApp

end Gatehouse
