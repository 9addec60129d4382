import Gatehouse.Proofs.Xml.Lexeme
/-!
Marks of written elements. Main statement: `ofContent?_element`, which says that the lexemes of a
written element give back its texts without escapes, and the values of its attributes.
-/

namespace Gatehouse.Xml

namespace Piece

/-- A character as it is written where the characters in `referred` need a reference. -/
def written (referred : List Char) (c : Char) : Piece :=
  if c ∈ referred then referenced c else plain c

/-- What a writer of single characters does: the pieces of its texts are the characters. -/
def Writes (write : Char → List Char) (referred : List Char) : Prop :=
  ∀ c rest, scan? none (write c ++ rest) = (scan? none rest).map (written referred c :: ·)

theorem scan?_inside {body : List Char} (whole : ';' ∉ body) (before rest : List Char) :
    scan? (some before) (body ++ ';' :: rest) =
      (ofReference? (before.reverse ++ body)).bind fun piece =>
        (scan? none rest).map (piece :: ·) := by
  induction body generalizing before with
  | nil =>
    simp only [List.nil_append, List.append_nil, scan?]
    cases ofReference? before.reverse with
    | none => rfl
    | some piece => cases scan? none rest <;> rfl
  | cons c body ih =>
    simp only [List.mem_cons, not_or] at whole
    obtain ⟨first, later⟩ := whole
    rw [List.cons_append, scan?.eq_6 _ _ _ (fun same => first same.symm), ih later]
    simp

theorem scan?_reference (body : List Char) {piece : Piece} (read : ofReference? body = some piece)
    (whole : ';' ∉ body) (rest : List Char) :
    scan? none ('&' :: (body ++ ';' :: rest)) = (scan? none rest).map (piece :: ·) := by
  rw [scan?, scan?_inside whole]
  simp [read]

theorem writes_escape : Writes escape ['&', '<', '>'] := by
  intro c rest
  unfold escape
  split
  · exact scan?_reference "amp".toList rfl (by decide) rest
  · exact scan?_reference "lt".toList rfl (by decide) rest
  · exact scan?_reference "gt".toList rfl (by decide) rest
  · next other below above =>
    have plain : written ['&', '<', '>'] c = plain c := by
      simp only [written, List.mem_cons, List.not_mem_nil, or_false]
      rw [if_neg (by rintro (rfl | rfl | rfl) <;> contradiction)]
    rw [plain]
    exact scan?.eq_4 c rest other

theorem writes_escapeQuote : Writes escapeQuote ['"', '&', '<', '>'] := by
  intro c rest
  unfold escapeQuote
  split
  · next quote =>
    subst quote
    exact scan?_reference "quot".toList rfl (by decide) rest
  · next other =>
    have same : written ['"', '&', '<', '>'] c = written ['&', '<', '>'] c := by
      simp [written, other]
    rw [same]
    exact writes_escape c rest

theorem ofText?_flatMap {write : Char → List Char} {referred : List Char}
    (writes : Writes write referred) (s : List Char) :
    ofText? (s.flatMap write) = some (s.map (written referred)) := by
  unfold ofText?
  induction s with
  | nil => rfl
  | cons c s ih => simp [writes c, ih]

theorem settle_eq_self {pieces : List Piece} (unreturned : plain '\r' ∉ pieces) :
    settle pieces = pieces := by
  fun_induction settle pieces <;> simp_all

theorem plain_not_mem_written (referred : List Char) {s : List Char} {c : Char} (other : c ∉ s) :
    plain c ∉ s.map (written referred) := by
  intro member
  obtain ⟨d, inside, same⟩ := List.mem_map.1 member
  unfold written at same
  split at same
  · cases same
  · cases same
    exact other inside

theorem valueOf_map_written {referred s : List Char} (visible : referred.any isSpace = false)
    (unreturned : '\r' ∉ s) (refer : List Char → Expansion (List Char)) :
    valueOf refer false (s.map (written referred)) = pure (s.map blankToSpace) := by
  induction s with
  | nil => rfl
  | cons c s ih =>
    simp only [List.mem_cons, not_or] at unreturned
    obtain ⟨first, later⟩ := unreturned
    rw [List.map_cons, written]
    split
    · next member =>
      have same : blankToSpace c = c := if_neg (List.any_eq_false.1 visible c member)
      simp [valueOf, ih later, same]
    · rw [valueOf]
      · simp [ih later]
      · rintro _ _ rfl
        exact first rfl

end Piece

theorem ofPieces_written_cons (referred : List Char) (c : Char) {pieces : List Piece}
    {content : List Char} {runs : List Run}
    (later : Run.ofPieces pieces = .chars content :: runs) :
    Run.ofPieces (Piece.written referred c :: pieces) = .chars (c :: content) :: runs := by
  unfold Piece.written
  split <;> simp [Run.ofPieces, later]

theorem ofPieces_map_written (referred : List Char) {s : List Char} (full : s ≠ []) :
    Run.ofPieces (s.map (Piece.written referred)) = [.chars s] := by
  induction s with
  | nil => exact absurd rfl full
  | cons c s ih =>
    cases s with
    | nil =>
      unfold Piece.written
      simp only [List.map_cons, List.map_nil]
      split <;> rfl
    | cons d s => exact ofPieces_written_cons referred c (ih (by simp))

theorem ofText?_flatMap_escape {s : List Char} (full : s ≠ []) (unreturned : '\r' ∉ s) :
    Run.ofText? false (s.flatMap escape) = some [.chars s] := by
  have settled := Piece.settle_eq_self
    (Piece.plain_not_mem_written ['&', '<', '>'] unreturned)
  simp [Run.ofText?, Piece.ofText?_flatMap Piece.writes_escape, settled,
    ofPieces_map_written _ full]

def Given.value (given : Given) : Attribute := (given.1, given.2.toList.map blankToSpace)

namespace Node

mutual

def marks (spaces : Spaces) : Node → List Mark
  | element name _ children =>
    .opening (spaces.qname name.name) [] ::
      (marksAll spaces children ++ [.closing (spaces.qname name.name)])
  | text content => if content = "" then [] else [.text content.toList]
  | comment _ | instruction _ => []

def marksAll (spaces : Spaces) : List Node → List Mark
  | [] => []
  | node :: rest => node.marks spaces ++ marksAll spaces rest

end

end Node

namespace Mark

variable {replace : Replacement}

@[simp] theorem liftM_some {α : Type} (a : α) : (liftM (some a) : Expansion α) = pure a := rfl

theorem ofLexemes_cons (lexeme : Lexeme) (lexemes : List Lexeme) :
    ofLexemes replace (lexeme :: lexemes) =
      return (← ofLexeme replace lexeme) ++ (← ofLexemes replace lexemes) := by
  simp [ofLexemes]

theorem ofLexemes_append (before after : List Lexeme) :
    ofLexemes replace (before ++ after) =
      return (← ofLexemes replace before) ++ (← ofLexemes replace after) := by
  simp [ofLexemes, List.mapM_append]

theorem readAttribute_raw (direct : replace.nested = false) {given : Given}
    (valued : IsPlainText given.2) :
    readAttribute replace given.raw = pure given.value := by
  have unreturned : '\r' ∉ given.2.toList := fun member => (valued _ member).2 rfl
  have value := Piece.valueOf_map_written (by decide : ['"', '&', '<', '>'].any isSpace = false)
    unreturned replace.value
  have pieces := Piece.ofText?_flatMap Piece.writes_escapeQuote given.2.toList
  simp [readAttribute, Given.raw, Given.value, pieces, direct, value]

theorem mapM_readAttribute_raw (direct : replace.nested = false) {all : List Given}
    (valued : ∀ given ∈ all, IsPlainText given.2) :
    (all.map Given.raw).mapM (readAttribute replace) = pure (all.map Given.value) := by
  induction all with
  | nil => rfl
  | cons given all ih =>
    obtain ⟨first, later⟩ := List.forall_mem_cons.1 valued
    simp [readAttribute_raw direct first, ih later]

theorem ofLexeme_text (direct : replace.nested = false) {s : List Char} (full : s ≠ [])
    (unreturned : '\r' ∉ s) :
    ofLexeme replace (.text (s.flatMap escape)) = pure [.text s] := by
  simp [ofLexeme, direct, ofText?_flatMap_escape full unreturned, ofRun]

theorem ofLexemes_element (direct : replace.nested = false) (name : QName) (all : List Given)
    (valued : ∀ given ∈ all, IsPlainText given.2) {inside : List Lexeme} {marks : List Mark}
    (content : ofLexemes replace inside = pure marks) :
    ofLexemes replace (.opening name (all.map Given.raw) :: (inside ++ [.closing name])) =
      pure (.opening name (all.map Given.value) :: (marks ++ [.closing name])) := by
  have closed : ofLexemes replace [.closing name] = pure [.closing name] := rfl
  simp [ofLexemes_cons, ofLexemes_append, ofLexeme, mapM_readAttribute_raw direct valued, content,
    closed]

mutual

theorem ofLexemes_lexemes (direct : replace.nested = false) (spaces : Spaces) (node : Node)
    (plain : node.IsPlain) :
    ofLexemes replace (node.lexemes spaces) = pure (node.marks spaces) := by
  cases node with
  | element name attributes children =>
    have content := ofLexemes_lexemesAll direct spaces children plain.2.2
    exact ofLexemes_element direct (spaces.qname name.name) [] (by simp) content
  | text content =>
    unfold Node.lexemes Node.marks
    split
    · rfl
    · next full =>
      have unreturned : '\r' ∉ content.toList := fun member => (plain _ member).2 rfl
      have read := ofLexeme_text direct (by simpa using full) unreturned
      simp [ofLexemes, read]
  | comment => exact plain.elim
  | instruction => exact plain.elim

theorem ofLexemes_lexemesAll (direct : replace.nested = false) (spaces : Spaces)
    (nodes : List Node) (plain : Node.ArePlain nodes) :
    ofLexemes replace (Node.lexemesAll spaces nodes) = pure (Node.marksAll spaces nodes) := by
  cases nodes with
  | nil => rfl
  | cons node nodes =>
    have first := ofLexemes_lexemes direct spaces node plain.1
    have later := ofLexemes_lexemesAll direct spaces nodes plain.2.2
    simp [Node.lexemesAll, Node.marksAll, ofLexemes_append, first, later]

end

theorem ofContent?_element (entities : Entities) (spaces : Spaces) (name : QName)
    {all : List Given} (valued : ∀ given ∈ all, IsPlainText given.2) {children : List Node}
    (plain : Node.ArePlain children) :
    ofContent? entities
        (.opening name (all.map Given.raw) ::
          (Node.lexemesAll spaces children ++ [.closing name])) =
      some (.opening name (all.map Given.value) ::
        (Node.marksAll spaces children ++ [.closing name])) := by
  unfold ofContent?
  rw [ofLexemes_element rfl name all valued (ofLexemes_lexemesAll rfl spaces children plain)]
  rfl

end Mark

end Gatehouse.Xml
