import Gatehouse.Descriptor.Read
import Gatehouse.Proofs.Kdl.Node
import Gatehouse.Proofs.Text.Trim
import Gatehouse.Proofs.Xml.Remainder
import Mathlib.Data.List.TakeWhile
/-!
What may stand before a descriptor. The form of a text is told from its first character behind
byte-order marks and blanks, while each of the two readers has its own rules for what it skips.
Main statement: `read_agrees`, which says that no document of either form is lost by this.
-/

namespace Gatehouse

/-! ### Leads -/

namespace Text

/-- Byte-order marks and then blanks. -/
def IsLead (lead : List Char) : Prop :=
  ∃ marks blanks, lead = marks ++ blanks ∧ (∀ c ∈ marks, c = '\uFEFF') ∧
    ∀ c ∈ blanks, isBlank c = true

end Text

namespace Descriptor

open Text

variable {lead rest : List Char}

theorem exists_eq_append_withoutLead (s : List Char) :
    ∃ lead, IsLead lead ∧ s = lead ++ withoutLead s := by
  obtain ⟨blanks, blank, cut⟩ := exists_eq_append_trimStart (s.dropWhile (· == '\uFEFF'))
  have marked : ∀ c ∈ s.takeWhile (· == '\uFEFF'), c = '\uFEFF' := by
    simpa using List.all_eq_true.1 (List.all_takeWhile (l := s) (p := (· == '\uFEFF')))
  refine ⟨s.takeWhile (· == '\uFEFF') ++ blanks, ⟨_, blanks, rfl, marked, blank⟩, ?_⟩
  rw [withoutLead, List.append_assoc, ← cut, List.takeWhile_append_dropWhile]

theorem withoutLead_append (led : IsLead lead)
    (visible : ∀ c ∈ rest.head?, c ≠ '\uFEFF' ∧ isBlank c = false) :
    withoutLead (lead ++ rest) = rest := by
  obtain ⟨marks, blanks, rfl, marked, blank⟩ := led
  -- The first character behind the marks is none of them, blank or not.
  have unmarked : (blanks ++ rest).head?.all (fun c => !(c == '\uFEFF')) = true := by
    cases blanks with
    | nil =>
      cases rest with
      | nil => rfl
      | cons c rest => simpa using (visible c rfl).1
    | cons c blanks =>
      have other : c ≠ '\uFEFF' := by
        rintro rfl
        cases blank '\uFEFF' List.mem_cons_self
      simpa using other
  have unblank : rest.head?.all (fun c => !isBlank c) = true := by
    cases rest with
    | nil => rfl
    | cons c rest => simpa using (visible c rfl).2
  obtain ⟨_, skipped⟩ := span_append (p := (· == '\uFEFF')) (by simpa using marked) _ unmarked
  obtain ⟨_, trimmed⟩ := span_append blank rest unblank
  rw [withoutLead, List.append_assoc, skipped, trimStart, trimmed]

theorem withoutLead_of_isLead (led : IsLead lead) : withoutLead lead = [] := by
  have nothing : withoutLead (lead ++ []) = [] := withoutLead_append led (by simp)
  rwa [List.append_nil] at nothing

theorem withoutLead_bracket (led : IsLead lead) (rest : List Char) :
    withoutLead (lead ++ '<' :: rest) = '<' :: rest :=
  withoutLead_append led (by rintro c ⟨⟩; decide)

end Descriptor

/-! ### Before the first tag of a document -/

namespace Xml.Document

open Text

/-- The document element of a document that is cut into lexemes. -/
def rootOf? (lexemes : List Lexeme) : Option Node := do
  let (entities, lexemes) := splitProlog lexemes
  let (content, after) ← splitRoot? lexemes
  if !after.all Lexeme.isMisc then none
  let nodes ← Node.ofMarks? (← Mark.ofContent? entities content)
  nodes.find? Node.isElement

theorem root?_eq (s : List Char) :
    root? s = (skipDeclaration? (skipMark s)).bind fun s => rootOf? (Lexeme.ofText s) := rfl

theorem rootOf?_misc {lexeme : Lexeme} (misc : lexeme.isMisc = true) (lexemes : List Lexeme) :
    rootOf? (lexeme :: lexemes) = rootOf? lexemes := by
  simp only [rootOf?, splitProlog, List.dropWhile_cons_of_pos misc]

theorem rootOf?_text {raw : List Char} (visible : raw.all isSpace = false)
    (lexemes : List Lexeme) : rootOf? (.text raw :: lexemes) = none := by
  have kept : splitProlog (.text raw :: lexemes) = ([], .text raw :: lexemes) := by
    simp [splitProlog, Lexeme.isMisc, visible]
  simp [rootOf?, kept, splitRoot?]

theorem isBlank_of_isSpace {c : Char} (space : isSpace c = true) : isBlank c = true := by
  simp only [isSpace, Bool.or_eq_true, beq_iff_eq] at space
  rcases space with ((rfl | rfl) | rfl) | rfl <;> rfl

/-- A declaration is read only where a document begins, and anywhere else it is no markup. -/
theorem root?_of_rootOf?_bracket {s : List Char} {root : Node}
    (found : rootOf? (Lexeme.ofText ('<' :: s)) = some root) : root? ('<' :: s) = some root := by
  have undeclared : afterStart? "<?xml ".toList ('<' :: s) = none := by
    rw [Option.eq_none_iff_forall_ne_some]
    intro rest declared
    obtain ⟨rfl⟩ := (List.cons.inj (afterStart?_eq_some_iff.1 declared)).2
    cases found
  have unmarked : skipMark ('<' :: s) = '<' :: s := rfl
  have whole : skipDeclaration? ('<' :: s) = some ('<' :: s) := by
    rw [skipDeclaration?, undeclared]
  rw [root?_eq, unmarked, whole, Option.bind_some, found]

theorem exists_lead_of_root?_text {c : Char} {s : List Char} {root : Node} (other : c ≠ '<')
    (found : rootOf? (Lexeme.ofText (c :: s)) = some root) :
    ∃ blanks rest, (∀ c ∈ blanks, isBlank c = true) ∧ c :: s = blanks ++ '<' :: rest ∧
      root? ('<' :: rest) = some root := by
  rw [Lexeme.ofText_text other] at found
  split at found
  case isFalse => cases found
  have blank : (c :: s.takeWhile (· != '<')).all isSpace = true := by
    rw [← Bool.not_eq_false]
    intro visible
    rw [rootOf?_text visible] at found
    cases found
  have misc : (Lexeme.text (c :: s.takeWhile (· != '<'))).isMisc = true := blank
  rw [rootOf?_misc misc] at found
  have cut : c :: s = (c :: s.takeWhile (· != '<')) ++ s.dropWhile (· != '<') := by simp
  cases left : s.dropWhile (· != '<') with
  | nil =>
    rw [left] at found
    cases found
  | cons d rest =>
    have bracket := List.head?_dropWhile_not (· != '<') s
    obtain rfl : d = '<' := by simpa [left] using bracket
    rw [left] at found cut
    exact ⟨_, rest, fun c member => isBlank_of_isSpace (List.all_eq_true.1 blank c member), cut,
      root?_of_rootOf?_bracket found⟩

/-- Nothing but a lead stands before a document's first tag, and without that it is the same
document. -/
theorem exists_lead_of_root? {s : List Char} {root : Node} (found : root? s = some root) :
    ∃ lead rest, IsLead lead ∧ s = lead ++ '<' :: rest ∧ root? ('<' :: rest) = some root := by
  obtain ⟨marks, marked, cut⟩ :
      ∃ marks, (∀ c ∈ marks, c = '\uFEFF') ∧ s = marks ++ skipMark s := by
    unfold skipMark
    split
    · exact ⟨['\uFEFF'], by simp, rfl⟩
    · exact ⟨[], by simp, rfl⟩
  have behind (blanks rest : List Char) (blank : ∀ c ∈ blanks, isBlank c = true)
      (left : skipMark s = blanks ++ '<' :: rest) (read : root? ('<' :: rest) = some root) :
      ∃ lead rest, IsLead lead ∧ s = lead ++ '<' :: rest ∧ root? ('<' :: rest) = some root := by
    refine ⟨marks ++ blanks, rest, ⟨marks, blanks, rfl, marked, blank⟩, ?_, read⟩
    rw [List.append_assoc, ← left, ← cut]
  rw [root?_eq] at found
  cases left : skipMark s with
  | nil =>
    rw [left] at found
    cases found
  | cons c t =>
    rw [left] at found
    by_cases bracket : c = '<'
    · subst bracket
      exact behind [] t (by simp) left found
    · have undeclared : skipDeclaration? (c :: t) = some (c :: t) := by
        simp [skipDeclaration?, afterStart?, Ne.symm bracket]
      rw [undeclared, Option.bind_some] at found
      obtain ⟨blanks, rest, blank, cut, read⟩ := exists_lead_of_root?_text bracket found
      exact behind blanks rest blank (left.trans cut) read

end Xml.Document

/-! ### Blank KDL documents -/

namespace Kdl

open Text

theorem isSpace_or_isNewline {c : Char} (blank : Text.isBlank c = true) :
    isSpace c = true ∨ isNewline c = true := by
  simp only [Text.isBlank, isSpace, isNewline, Bool.or_eq_true, Bool.and_eq_true, beq_iff_eq,
    decide_eq_true_eq] at blank ⊢
  omega

theorem first?_of_isBlank {c : Char} (blank : Text.isBlank c = true) (s : List Char) :
    Token.first? (c :: s) = some (.space, s.dropWhile isSpace) ∨
      Token.first? (c :: s) = some (.newline, s) := by
  have special : ∀ d ∈ "/\\;\x7b\x7d()=\"#".toList, c ≠ d := by
    rintro d member rfl
    have visible : "/\\;\x7b\x7d()=\"#".toList.all (!Text.isBlank ·) = true := by decide
    simpa [blank] using List.all_eq_true.1 visible c member
  simp at special
  obtain space | newline := isSpace_or_isNewline blank
  · simp [Token.first?, special, space]
  · by_cases space : isSpace c = true
    · simp [Token.first?, special, space]
    · simp [Token.first?, special, space, newline]

theorem blank_of_scan? {n : Nat} {s : List Char} {tokens : List Token}
    (blank : ∀ c ∈ s, Text.isBlank c = true) (scanned : Token.scan? n s = some tokens) :
    ∀ token ∈ tokens, token.isBlank = true := by
  induction n generalizing s tokens with
  | zero =>
    cases s with
    | nil => cases scanned; simp
    | cons c s => cases scanned
  | succ n ih =>
    cases s with
    | nil => cases scanned; simp
    | cons c s =>
      obtain ⟨⟨token, rest⟩, first, scanned⟩ := Option.bind_eq_some_iff.1 scanned
      obtain ⟨tokens, more, ⟨⟩⟩ := Option.bind_eq_some_iff.1 scanned
      have kind : token.isBlank = true ∧ ∀ c ∈ rest, Text.isBlank c = true := by
        obtain found | found := first?_of_isBlank (blank c List.mem_cons_self) s
        · obtain ⟨⟩ := found.symm.trans first
          exact ⟨rfl, fun d member => blank d (List.mem_cons_of_mem c
            ((List.dropWhile_sublist isSpace).subset member))⟩
        · obtain ⟨⟩ := found.symm.trans first
          exact ⟨rfl, fun d member => blank d (List.mem_cons_of_mem c member)⟩
      exact List.forall_mem_cons.2 ⟨kind.1, ih kind.2 more⟩

theorem Node.ofTokens?_blank {tokens : List Token}
    (blank : ∀ token ∈ tokens, token.isBlank = true) : Node.ofTokens? tokens = some [] := by
  have skipped : Token.skipBlanks tokens = [] := List.dropWhile_eq_nil_iff.2 blank
  have nothing := nodes?_end (n := 3 * tokens.length + 2) (.inl skipped)
  simp only [Node.ofTokens?, nothing, skipped]

theorem Token.ofText?_of_isBlank {s : List Char} (blank : ∀ c ∈ s, Text.isBlank c = true) :
    Token.ofText? s = Token.scan? s.length s := by
  unfold Token.ofText?
  split
  · cases blank '\uFEFF' List.mem_cons_self
  · rfl

/-- One byte-order mark is skipped, and no token begins with another. -/
theorem ofText?_lead {lead : List Char} {nodes : List Node} (led : IsLead lead)
    (found : Node.ofText? lead = some nodes) : nodes = [] := by
  obtain ⟨tokens, scanned, read⟩ := Option.bind_eq_some_iff.1 found
  obtain ⟨marks, blanks, rfl, marked, blank⟩ := led
  have empty (scanned : Token.scan? blanks.length blanks = some tokens) : nodes = [] := by
    rw [Node.ofTokens?_blank (blank_of_scan? blank scanned)] at read
    exact (Option.some.inj read).symm
  cases marks with
  | nil => exact empty ((Token.ofText?_of_isBlank blank).symm.trans scanned)
  | cons mark marks =>
    obtain rfl := marked mark List.mem_cons_self
    cases marks with
    | nil => exact empty scanned
    | cons second marks =>
      obtain rfl := marked second (List.mem_cons_of_mem _ List.mem_cons_self)
      have none : Token.ofText? ('\uFEFF' :: '\uFEFF' :: marks ++ blanks) = none := rfl
      cases none.symm.trans scanned

end Kdl

namespace Descriptor

open Text

theorem read_bracket {text : String} {rest : List Char}
    (left : withoutLead text.toList = '<' :: rest) :
    read text = readWebApp (String.ofList ('<' :: rest)) := by
  simp only [read, left]

theorem read_of_isLead {text : String} (blank : IsLead text.toList) : read text = ⟨.ok {}, []⟩ := by
  rw [read, withoutLead_of_isLead blank]

theorem read_of_readWebApp {text : String} {descriptor : Descriptor}
    (accepted : (readWebApp text).result = .ok descriptor) : read text = readWebApp text := by
  cases found : Xml.Document.root? text.toList with
  | none => simp [readWebApp, found, Reading.fail] at accepted
  | some root =>
    obtain ⟨lead, rest, led, cut, same⟩ := Xml.Document.exists_lead_of_root? found
    have left : withoutLead text.toList = '<' :: rest := by
      rw [cut, withoutLead_bracket led]
    rw [read_bracket left, readWebApp, readWebApp, String.toList_ofList, same, found]

theorem readKdl_of_isLead {text : String} {descriptor : Descriptor} (blank : IsLead text.toList)
    (accepted : (readKdl text).result = .ok descriptor) : readKdl text = ⟨.ok {}, []⟩ := by
  cases found : Kdl.Node.ofText? text.toList with
  | none => simp [readKdl, found, Reading.fail] at accepted
  | some nodes =>
    obtain rfl := Kdl.ofText?_lead blank found
    simp only [readKdl, found, NodeList.read]

theorem read_of_readKdl {text : String} {descriptor : Descriptor}
    (accepted : (readKdl text).result = .ok descriptor)
    (other : ∀ lead rest, IsLead lead → text.toList ≠ lead ++ '<' :: rest) :
    read text = readKdl text := by
  obtain ⟨lead, led, cut⟩ := exists_eq_append_withoutLead text.toList
  unfold read
  split
  · next nothing =>
    rw [nothing, List.append_nil] at cut
    exact (readKdl_of_isLead (cut ▸ led) accepted).symm
  · next rest bracket =>
    rw [bracket] at cut
    exact (other lead rest led cut).elim
  · rfl

theorem read_lead_append {text : String} {lead : List Char} (begins : text.toList.head? = some '<')
    (led : IsLead lead) : read (String.ofList (lead ++ text.toList)) = read text := by
  obtain ⟨rest, cut⟩ := List.head?_eq_some_iff.1 begins
  have bare : IsLead [] := ⟨[], [], rfl, by simp, by simp⟩
  have left : withoutLead (String.ofList (lead ++ text.toList)).toList = '<' :: rest := by
    rw [String.toList_ofList, cut, withoutLead_bracket led]
  have same : withoutLead text.toList = '<' :: rest := by
    rw [cut]
    exact withoutLead_bracket bare rest
  rw [read_bracket left, read_bracket same]

/-- Reading a text by its first character agrees with both readers. What the reader of `web-app`
documents accepts is read by it, and so is by the other one what that accepts, unless the first
character is `<`; if there is none, both readings declare nothing. What stands before the first
character of a `web-app` document does not matter. -/
theorem read_agrees (text : String) :
    (∀ descriptor, (readWebApp text).result = .ok descriptor → read text = readWebApp text) ∧
    (∀ descriptor, (readKdl text).result = .ok descriptor →
      (∀ lead rest, IsLead lead → text.toList ≠ lead ++ '<' :: rest) →
        read text = readKdl text) ∧
    (IsLead text.toList → read text = ⟨.ok {}, []⟩ ∧
      ∀ descriptor, (readKdl text).result = .ok descriptor → readKdl text = ⟨.ok {}, []⟩) ∧
    (text.toList.head? = some '<' → ∀ lead, IsLead lead →
      read (String.ofList (lead ++ text.toList)) = read text) := by
  refine ⟨fun descriptor accepted => ?_, fun descriptor accepted other => ?_, fun blank => ?_,
    fun begins lead led => ?_⟩
  · exact read_of_readWebApp accepted
  · exact read_of_readKdl accepted other
  · exact ⟨read_of_isLead blank, fun descriptor accepted => readKdl_of_isLead blank accepted⟩
  · exact read_lead_append begins led

theorem read_agrees_marked :
    (read "\uFEFF\n<web-app><security-role><role-name>A</role-name></security-role></web-app>" =
      readWebApp
        "\uFEFF\n<web-app><security-role><role-name>A</role-name></security-role></web-app>") ∧
    read "\uFEFF role A" = readKdl "\uFEFF role A" ∧
    read "\uFEFF\u2003" = ⟨.ok {}, []⟩ ∧
    read "\uFEFF\uFEFF\u2003<web-app/>" = read "<web-app/>" := by
  have spaced : IsLead "\uFEFF\u2003".toList :=
    ⟨['\uFEFF'], ['\u2003'], rfl, by simp, List.forall_mem_singleton.2 rfl⟩
  have doubled : IsLead "\uFEFF\uFEFF\u2003".toList :=
    ⟨['\uFEFF', '\uFEFF'], ['\u2003'], rfl, by simp, List.forall_mem_singleton.2 rfl⟩
  have other (lead rest : List Char) (led : IsLead lead) :
      "\uFEFF role A".toList ≠ lead ++ '<' :: rest := by
    intro cut
    have begins : (withoutLead "\uFEFF role A".toList).head? = some 'r' := by decide
    rw [cut, withoutLead_bracket led] at begins
    cases begins
  refine ⟨?_, ?_, ?_, ?_⟩
  · exact (read_agrees _).1 { declaredRoles := [⟨"A"⟩] } (by decide +kernel)
  · exact (read_agrees _).2.1 { declaredRoles := [⟨"A"⟩] } (by decide +kernel) other
  · exact ((read_agrees _).2.2.1 spaced).1
  · exact (read_agrees "<web-app/>").2.2.2 (by decide) _ doubled

end Descriptor

end Gatehouse
