import Gatehouse.Proofs.Descriptor.NodeList
import Gatehouse.Proofs.Descriptor.WebApp
/-!
A `web-app` document and a KDL document with the same texts. A blank text is the pattern of the
context root in one of them and nothing in the other. Main statement: `read_forms`, which says that
this is all that the two readers disagree on.
-/

namespace Gatehouse

namespace DraftConstraint

/-- The draft without those of its patterns that are blank. -/
def withoutBlankPatterns (draft : DraftConstraint) : DraftConstraint :=
  { draft with patterns := draft.patterns.filter (Text.strip · ≠ "") }

/-- Blanks around the text of a pattern do not matter, so it is the same to trim the texts. -/
theorem constraint_trimmed {draft : DraftConstraint} (roles : ∀ role ∈ draft.roles, IsTrimmed role) :
    draft.trimmed.constraint = draft.withoutBlankPatterns.constraint := by
  have patterns : (WebApp.shown draft.patterns).map UrlPattern.parse =
      (draft.patterns.filter (Text.strip · ≠ "")).map UrlPattern.parse := by
    simp only [WebApp.shown, List.filter_map, List.map_map, Function.comp_def,
      UrlPattern.parse_strip]
  simp only [constraint, trimmed, withoutBlankPatterns, patterns, WebApp.shown_eq_self roles]

theorem constraint_withoutBlankPatterns_eq_iff {draft : DraftConstraint} :
    draft.withoutBlankPatterns.constraint = draft.constraint ↔
      ∀ pattern ∈ draft.patterns, Text.strip pattern ≠ "" := by
  constructor
  · intro same
    have lengths := congrArg (fun constraint => constraint.patterns.length) same
    simp only [constraint, withoutBlankPatterns, List.length_map,
      List.length_filter_eq_length_iff, decide_eq_true_eq] at lengths
    exact lengths
  · intro visible
    have all : draft.patterns.filter (Text.strip · ≠ "") = draft.patterns :=
      List.filter_eq_self.2 fun pattern member => decide_eq_true (visible pattern member)
    rw [withoutBlankPatterns, all]

end DraftConstraint

namespace Draft

def withoutBlankPatterns (draft : Draft) : Draft :=
  { draft with constraints := draft.constraints.map DraftConstraint.withoutBlankPatterns }

theorem descriptor_trimmed {draft : Draft}
    (roles : ∀ constraint ∈ draft.constraints, ∀ role ∈ constraint.roles, IsTrimmed role)
    (declared : ∀ role ∈ draft.declaredRoles, IsTrimmed role) :
    draft.trimmed.descriptor = draft.withoutBlankPatterns.descriptor := by
  have constraints : (draft.constraints.map DraftConstraint.trimmed).map DraftConstraint.constraint =
      (draft.constraints.map DraftConstraint.withoutBlankPatterns).map
        DraftConstraint.constraint := by
    rw [List.map_map, List.map_map]
    exact List.map_congr_left fun constraint member =>
      DraftConstraint.constraint_trimmed (roles constraint member)
  simp only [descriptor, trimmed, withoutBlankPatterns, constraints,
    WebApp.shown_eq_self declared]

theorem descriptor_withoutBlankPatterns_eq_iff {draft : Draft} :
    draft.withoutBlankPatterns.descriptor = draft.descriptor ↔
      ∀ constraint ∈ draft.constraints, ∀ pattern ∈ constraint.patterns,
        Text.strip pattern ≠ "" := by
  simp only [descriptor, withoutBlankPatterns, Descriptor.mk.injEq, and_true, List.map_map,
    List.map_inj_left, Function.comp_apply,
    DraftConstraint.constraint_withoutBlankPatterns_eq_iff]

/-- Any `web-app` document of a draft and any KDL document of it are understood. The patterns that
are blank are lost from the first one, and nothing is lost from the second one. So the two documents
mean the same exactly if no pattern is blank. -/
theorem read_forms {draft : Draft} {document text : String}
    (roles : ∀ constraint ∈ draft.constraints, ∀ role ∈ constraint.roles, IsTrimmed role)
    (declared : ∀ role ∈ draft.declaredRoles, IsTrimmed role)
    (holds : draft.IsWebApp document) (lists : draft.IsNodeList text) :
    (Descriptor.read document).result = .ok draft.withoutBlankPatterns.descriptor ∧
      (Descriptor.read text).result = .ok draft.descriptor ∧
      ((Descriptor.read document).result = (Descriptor.read text).result ↔
        ∀ constraint ∈ draft.constraints, ∀ pattern ∈ constraint.patterns,
          Text.strip pattern ≠ "") := by
  have first := Descriptor.read_of_isWebApp holds
  have second := Descriptor.read_of_isNodeList lists
  rw [descriptor_trimmed roles declared] at first
  refine ⟨congrArg Reading.result first, congrArg Reading.result second, ?_⟩
  rw [first, second, ← descriptor_withoutBlankPatterns_eq_iff]
  exact ⟨Except.ok.inj, congrArg Except.ok⟩

/-- A line end that only a reference can bring into a document, a blank pattern, and a markup
character. -/
def mixedDraft : Draft where
  constraints := [⟨["/a\rb", "", " *.jsp\n"], ["R&D"]⟩]
  declaredRoles := ["R&D"]

def mixedDocument : String :=
  String.ofList (List.flatMap String.toList [
    "<web-app><security-constraint><web-resource-collection>",
    "<url-pattern>/a&#13;b</url-pattern>", "<url-pattern/>",
    "<url-pattern> *.<!-- pages -->jsp\n</url-pattern>", "</web-resource-collection>",
    "<auth-constraint><role-name>R&amp;D</role-name></auth-constraint>", "</security-constraint>",
    "<security-role><role-name><![CDATA[R&D]]></role-name></security-role></web-app>"])

theorem read_forms_mixedDraft :
    (∀ constraint ∈ mixedDraft.constraints, ∀ role ∈ constraint.roles, IsTrimmed role) ∧
      (∀ role ∈ mixedDraft.declaredRoles, IsTrimmed role) ∧
      mixedDraft.IsWebApp mixedDocument ∧ mixedDraft.IsNodeList mixedDraft.nodeList ∧
      (Descriptor.read mixedDocument).result = .ok mixedDraft.withoutBlankPatterns.descriptor ∧
      (Descriptor.read mixedDraft.nodeList).result = .ok mixedDraft.descriptor ∧
      (Descriptor.read mixedDocument).result ≠ (Descriptor.read mixedDraft.nodeList).result := by
  have roles : ∀ constraint ∈ mixedDraft.constraints, ∀ role ∈ constraint.roles, IsTrimmed role := by
    decide +kernel
  have declared : ∀ role ∈ mixedDraft.declaredRoles, IsTrimmed role := by decide +kernel
  have holds : mixedDraft.IsWebApp mixedDocument := isWebApp_ofList.2 (by decide +kernel)
  have lists := mixedDraft.isNodeList_nodeList
  have blank : ¬ ∀ constraint ∈ mixedDraft.constraints, ∀ pattern ∈ constraint.patterns,
      Text.strip pattern ≠ "" := by decide +kernel
  obtain ⟨first, second, same⟩ := read_forms roles declared holds lists
  exact ⟨roles, declared, holds, lists, first, second, fun agree => blank (same.1 agree)⟩

/-- The empty pattern is lost from a `web-app` document, although it is one that covers a path. -/
theorem not_read_forms_same :
    ¬ ∀ (draft : Draft) (document text : String),
      (∀ constraint ∈ draft.constraints, ∀ role ∈ constraint.roles, IsTrimmed role) →
      (∀ role ∈ draft.declaredRoles, IsTrimmed role) →
      draft.IsWebApp document → draft.IsNodeList text →
        (Descriptor.read document).result = (Descriptor.read text).result := by
  intro always
  let draft : Draft := { constraints := [⟨[""], ["Admin"]⟩] }
  have plain : draft.IsPlain := by decide +kernel
  have usable : Xml.Spaces.absent.IsUsable := trivial
  have same := always draft (draft.webApp .absent) draft.nodeList (by decide +kernel)
    (by decide +kernel) (isWebApp_webApp usable plain) draft.isNodeList_nodeList
  rw [Descriptor.read_webApp usable plain, Descriptor.read_nodeList] at same
  have different : draft.trimmed.descriptor ≠ draft.descriptor := by decide +kernel
  exact different (Except.ok.inj same)

end Draft

end Gatehouse
