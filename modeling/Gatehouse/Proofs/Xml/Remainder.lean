import Gatehouse.Xml.Lexeme
/-!
What scanners leave. Each of them takes what it reads from the front, so the rest is an end of the
text. Main statement: `Lexeme.scan_eq_ofText`, which says that the lexemes of a text do not depend
on how many steps are allowed, if these are enough.
-/

namespace Gatehouse.Xml

open Text

/-! ### Small parts -/

section

variable {s rest : List Char}

theorem isSuffix_of_afterStart? {start : List Char} (found : afterStart? start s = some rest) :
    rest <:+ s := ⟨start, (afterStart?_eq_some_iff.1 found).symm⟩

theorem isSuffix_of_cutAt? {stop before : List Char} (found : cutAt? stop s = some (before, rest)) :
    rest <:+ s := ⟨before ++ stop, (eq_append_of_cutAt? found).symm⟩

theorem isSuffix_skipSpaces (s : List Char) : skipSpaces s <:+ s := List.dropWhile_suffix _

theorem isSuffix_of_spaces? (found : spaces? s = some rest) : rest <:+ s := by
  obtain ⟨-, ⟨⟩⟩ := Option.ite_none_right_eq_some.1 found
  exact isSuffix_skipSpaces s

theorem isSuffix_of_expect? {c : Char} (found : expect? c s = some rest) : rest <:+ s := by
  cases s with
  | nil => cases found
  | cons d s =>
    obtain ⟨-, ⟨⟩⟩ := Option.ite_none_right_eq_some.1 found
    exact List.suffix_cons d _

theorem isSuffix_of_name? {name : List Char} (found : name? s = some (name, rest)) :
    rest <:+ s := by
  cases s with
  | nil => cases found
  | cons c s =>
    obtain ⟨-, ⟨⟩⟩ := Option.ite_none_right_eq_some.1 found
    exact (List.dropWhile_suffix _).trans (List.suffix_cons c s)

theorem isSuffix_of_qname? {name : QName} (found : qname? s = some (name, rest)) : rest <:+ s := by
  obtain ⟨_, -, ⟨⟩⟩ := Option.bind_eq_some_iff.1 found
  exact List.dropWhile_suffix _

theorem isSuffix_of_quoted? {allowed : Char → Bool} {value : List Char}
    (found : quoted? allowed s = some (value, rest)) : rest <:+ s := by
  cases s with
  | nil => cases found
  | cons q s =>
    obtain ⟨-, found⟩ := Option.ite_none_right_eq_some.1 found
    obtain ⟨after, closed, found⟩ := Option.bind_eq_some_iff.1 found
    obtain ⟨-, ⟨⟩⟩ := Option.ite_none_right_eq_some.1 found
    exact (isSuffix_of_expect? closed).trans
      ((List.dropWhile_suffix _).trans (List.suffix_cons q s))

theorem isSuffix_of_upTo? {stop content : List Char}
    (found : upTo? stop s = some (content, rest)) : rest <:+ s := by
  obtain ⟨⟨before, after⟩, cut, found⟩ := Option.bind_eq_some_iff.1 found
  obtain ⟨-, ⟨⟩⟩ := Option.ite_none_right_eq_some.1 found
  exact isSuffix_of_cutAt? cut

theorem isSuffix_of_attribute? {read : QName × List Char}
    (found : attribute? s = some (read, rest)) : rest <:+ s := by
  obtain ⟨⟨name, afterName⟩, named, found⟩ := Option.bind_eq_some_iff.1 found
  obtain ⟨afterEquals, equals, found⟩ := Option.bind_eq_some_iff.1 found
  obtain ⟨⟨value, afterValue⟩, valued, ⟨⟩⟩ := Option.bind_eq_some_iff.1 found
  exact (isSuffix_of_quoted? valued).trans <| (isSuffix_skipSpaces _).trans <|
    (isSuffix_of_expect? equals).trans <| (isSuffix_skipSpaces _).trans (isSuffix_of_qname? named)

theorem isSuffix_of_comment? {content : List Char} (found : comment? s = some (content, rest)) :
    rest <:+ s := by
  obtain ⟨⟨before, after⟩, cut, found⟩ := Option.bind_eq_some_iff.1 found
  obtain ⟨-, ⟨⟩⟩ := Option.ite_none_right_eq_some.1 found
  exact isSuffix_of_upTo? cut

theorem isSuffix_of_instruction? {target : List Char}
    (found : instruction? s = some (target, rest)) : rest <:+ s := by
  unfold instruction? at found
  split at found
  · cases found
  · obtain ⟨⟨name, afterName⟩, named, found⟩ := Option.bind_eq_some_iff.1 found
    obtain ⟨⟨content, after⟩, cut, ⟨⟩⟩ := Option.bind_eq_some_iff.1 found
    exact (isSuffix_of_upTo? cut).trans <|
      (isSuffix_skipSpaces _).trans (isSuffix_of_name? named)

/-! ### Document types -/

namespace Doctype

theorem isSuffix_of_externalId? (found : externalId? s = some rest) : rest <:+ s := by
  unfold externalId? at found
  split at found
  · next after system =>
    obtain ⟨afterSpaces, spaced, found⟩ := Option.bind_eq_some_iff.1 found
    obtain ⟨⟨value, after⟩, quoted, ⟨⟩⟩ := Option.bind_eq_some_iff.1 found
    exact (isSuffix_of_quoted? quoted).trans <|
      (isSuffix_of_spaces? spaced).trans (isSuffix_of_afterStart? system)
  · obtain ⟨after, isPublic, found⟩ := Option.bind_eq_some_iff.1 found
    obtain ⟨_, spaced, found⟩ := Option.bind_eq_some_iff.1 found
    obtain ⟨⟨_, _⟩, quoted, found⟩ := Option.bind_eq_some_iff.1 found
    obtain ⟨_, spacedAgain, found⟩ := Option.bind_eq_some_iff.1 found
    obtain ⟨⟨_, _⟩, quotedAgain, ⟨⟩⟩ := Option.bind_eq_some_iff.1 found
    exact (isSuffix_of_quoted? quotedAgain).trans <| (isSuffix_of_spaces? spacedAgain).trans <|
      (isSuffix_of_quoted? quoted).trans <|
        (isSuffix_of_spaces? spaced).trans (isSuffix_of_afterStart? isPublic)

theorem isSuffix_of_skipExternalId? (found : skipExternalId? s = some rest) : rest <:+ s := by
  unfold skipExternalId? at found
  split at found
  · exact isSuffix_of_externalId? found
  · cases found
    exact List.suffix_rfl

theorem isSuffix_of_definition? {general : Bool} {value : Option (List Char)}
    (found : definition? general s = some (value, rest)) : rest <:+ s := by
  unfold definition? at found
  split at found
  case h_3 =>
    obtain ⟨⟨_, _⟩, quoted, ⟨⟩⟩ := Option.bind_eq_some_iff.1 found
    exact isSuffix_of_quoted? quoted
  -- Both keywords that an identifier can begin with are read alike.
  all_goals
    obtain ⟨after, identified, found⟩ := Option.bind_eq_some_iff.1 found
    have beyond := isSuffix_of_externalId? identified
    split at found
    · next marked _ =>
      obtain ⟨_, spaced, found⟩ := Option.bind_eq_some_iff.1 found
      obtain ⟨⟨_, _⟩, named, ⟨⟩⟩ := Option.bind_eq_some_iff.1 found
      exact (isSuffix_of_name? named).trans <| (isSuffix_of_spaces? spaced).trans <|
        (isSuffix_of_afterStart? marked).trans <| (isSuffix_skipSpaces _).trans beyond
    · cases found
      exact (isSuffix_skipSpaces _).trans beyond
    · cases found
      exact beyond

theorem isSuffix_of_entity? {entities : Entities} (found : entity? s = some (entities, rest)) :
    rest <:+ s := by
  obtain ⟨afterSpaces, spaced, found⟩ := Option.bind_eq_some_iff.1 found
  -- A parameter entity has its mark and more spaces before the name.
  split at found
  case' h_1 _ marked =>
    obtain ⟨afterMark, spacedAgain, found⟩ := Option.bind_eq_some_iff.1 found
    have mark : afterMark <:+ '%' :: marked :=
      (isSuffix_of_spaces? spacedAgain).trans (List.suffix_cons '%' marked)
  case' h_2 => have mark : afterSpaces <:+ afterSpaces := List.suffix_rfl
  all_goals
    obtain ⟨⟨_, _⟩, ⟨⟩, found⟩ := Option.bind_eq_some_iff.1 found
    obtain ⟨⟨name, afterName⟩, named, found⟩ := Option.bind_eq_some_iff.1 found
    obtain ⟨_, spacedAgain, found⟩ := Option.bind_eq_some_iff.1 found
    obtain ⟨⟨value, afterValue⟩, defined, found⟩ := Option.bind_eq_some_iff.1 found
    obtain ⟨_, closed, ⟨⟩⟩ := Option.bind_eq_some_iff.1 found
    exact (isSuffix_of_expect? closed).trans <| (isSuffix_skipSpaces _).trans <|
      (isSuffix_of_definition? defined).trans <| (isSuffix_of_spaces? spacedAgain).trans <|
        (isSuffix_of_name? named).trans <| mark.trans (isSuffix_of_spaces? spaced)

theorem isSuffix_of_skipDeclaration? (found : skipDeclaration? s = some rest) : rest <:+ s := by
  obtain ⟨⟨before, after⟩, cut, rfl⟩ := Option.map_eq_some_iff.1 found
  exact isSuffix_of_cutAt? cut

theorem isSuffix_of_item? {entities : Entities} (found : item? s = some (entities, rest)) :
    rest <:+ s := by
  unfold item? at found
  split at found
  · next entity => exact (isSuffix_of_entity? found).trans (isSuffix_of_afterStart? entity)
  split at found
  · next comment =>
    obtain ⟨⟨_, _⟩, read, ⟨⟩⟩ := Option.map_eq_some_iff.1 found
    exact (isSuffix_of_comment? read).trans (isSuffix_of_afterStart? comment)
  · next instruction =>
    obtain ⟨⟨_, _⟩, read, ⟨⟩⟩ := Option.map_eq_some_iff.1 found
    exact (isSuffix_of_instruction? read).trans (isSuffix_of_afterStart? instruction)
  · obtain ⟨after, declared, found⟩ := Option.bind_eq_some_iff.1 found
    obtain ⟨_, skipped, ⟨⟩⟩ := Option.bind_eq_some_iff.1 found
    obtain ⟨word, -, begun⟩ := List.exists_of_findSome?_eq_some declared
    exact (isSuffix_of_skipDeclaration? skipped).trans (isSuffix_of_afterStart? begun)

theorem isSuffix_of_subset? {n : Nat} {entities : Entities}
    (found : subset? n s = some (entities, rest)) : rest <:+ s := by
  induction n generalizing s entities with
  | zero => cases found
  | succ n ih =>
    unfold subset? at found
    split at found
    · next after closed =>
      obtain ⟨_, expected, ⟨⟩⟩ := Option.bind_eq_some_iff.1 found
      have close : after <:+ s := (List.suffix_cons _ _).trans (closed ▸ isSuffix_skipSpaces s)
      exact (isSuffix_of_expect? expected).trans <| (isSuffix_skipSpaces _).trans close
    · obtain ⟨⟨here, afterItem⟩, item, found⟩ := Option.bind_eq_some_iff.1 found
      obtain ⟨⟨later, _⟩, more, ⟨⟩⟩ := Option.bind_eq_some_iff.1 found
      exact (ih more).trans <| (isSuffix_of_item? item).trans (isSuffix_skipSpaces s)

end Doctype

theorem isSuffix_of_doctype? {entities : Entities} (found : doctype? s = some (entities, rest)) :
    rest <:+ s := by
  obtain ⟨_, spaced, found⟩ := Option.bind_eq_some_iff.1 found
  obtain ⟨⟨name, afterName⟩, named, found⟩ := Option.bind_eq_some_iff.1 found
  obtain ⟨afterId, skipped, found⟩ := Option.bind_eq_some_iff.1 found
  have beyond : skipSpaces afterId <:+ s := (isSuffix_skipSpaces _).trans <|
    (Doctype.isSuffix_of_skipExternalId? skipped).trans <| (isSuffix_skipSpaces _).trans <|
      (isSuffix_of_name? named).trans (isSuffix_of_spaces? spaced)
  split at found
  · next closed =>
    cases found
    exact (List.suffix_cons _ _).trans (closed ▸ beyond)
  · next opened =>
    exact (Doctype.isSuffix_of_subset? found).trans <|
      (List.suffix_cons _ _).trans (opened ▸ beyond)
  · cases found

/-! ### Lexemes -/

namespace Lexeme

theorem isSuffix_of_tag? {name : QName} {n : Nat} {attributes : List RawAttribute} {lexeme : Lexeme}
    (found : tag? name n attributes s = some (lexeme, rest)) : rest <:+ s := by
  induction n generalizing s attributes with
  | zero => cases found
  | succ n ih =>
    cases s with
    | nil =>
      cases found
      exact List.suffix_rfl
    | cons c s =>
      unfold tag? at found
      split at found
      · next ended =>
        cases found
        have after := (ended ▸ isSuffix_skipSpaces (c :: s))
        exact (List.suffix_cons _ _).trans <| (List.suffix_cons _ _).trans after
      · next ended =>
        cases found
        exact (List.suffix_cons _ _).trans (ended ▸ isSuffix_skipSpaces (c :: s))
      · obtain ⟨afterSpaces, spaced, found⟩ := Option.bind_eq_some_iff.1 found
        obtain ⟨⟨next, after⟩, read, found⟩ := Option.bind_eq_some_iff.1 found
        exact (ih found).trans <| (isSuffix_of_attribute? read).trans (isSuffix_of_spaces? spaced)

theorem isSuffix_of_closing? {lexeme : Lexeme} (found : closing? s = some (lexeme, rest)) :
    rest <:+ s := by
  obtain ⟨⟨name, after⟩, named, found⟩ := Option.bind_eq_some_iff.1 found
  obtain ⟨_, closed, ⟨⟩⟩ := Option.bind_eq_some_iff.1 found
  exact (isSuffix_of_expect? closed).trans <|
    (isSuffix_skipSpaces _).trans (isSuffix_of_qname? named)

theorem isSuffix_of_declaration? {lexeme : Lexeme} (found : declaration? s = some (lexeme, rest)) :
    rest <:+ s := by
  unfold declaration? at found
  split at found
  · next comment =>
    obtain ⟨⟨_, _⟩, read, ⟨⟩⟩ := Option.map_eq_some_iff.1 found
    exact (isSuffix_of_comment? read).trans (isSuffix_of_afterStart? comment)
  · next marked _ =>
    obtain ⟨⟨_, _⟩, read, ⟨⟩⟩ := Option.map_eq_some_iff.1 found
    exact (isSuffix_of_upTo? read).trans (isSuffix_of_afterStart? marked)
  · next doctype _ _ =>
    obtain ⟨⟨_, _⟩, read, ⟨⟩⟩ := Option.map_eq_some_iff.1 found
    exact (isSuffix_of_doctype? read).trans (isSuffix_of_afterStart? doctype)
  · cases found

theorem isSuffix_of_markup? {lexeme : Lexeme} (found : markup? s = some (lexeme, rest)) :
    rest <:+ s := by
  unfold markup? at found
  split at found
  · exact (isSuffix_of_declaration? found).trans (List.suffix_cons _ _)
  · obtain ⟨⟨_, _⟩, read, ⟨⟩⟩ := Option.map_eq_some_iff.1 found
    exact (isSuffix_of_instruction? read).trans (List.suffix_cons _ _)
  · exact (isSuffix_of_closing? found).trans (List.suffix_cons _ _)
  · obtain ⟨⟨name, after⟩, named, found⟩ := Option.bind_eq_some_iff.1 found
    exact (isSuffix_of_tag? found).trans (isSuffix_of_qname? named)

end Lexeme

end

namespace Lexeme

theorem scan_markup (n : Nat) (s : List Char) :
    scan (n + 1) ('<' :: s) = match markup? s with
      | some (lexeme, rest) => lexeme :: scan n rest
      | none => [fault] := rfl

theorem scan_text {c : Char} (other : c ≠ '<') (n : Nat) (s : List Char) :
    scan (n + 1) (c :: s) =
      if isText (c :: s.takeWhile (· != '<')) then
        text (c :: s.takeWhile (· != '<')) :: scan n (s.dropWhile (· != '<'))
      else [fault] := by
  simp [scan, other]

theorem scan_eq_scan {n m : Nat} {s : List Char} (enough : s.length < n) (enough' : s.length < m) :
    scan n s = scan m s := by
  induction n generalizing m s with
  | zero => omega
  | succ n ih =>
    obtain ⟨m, rfl⟩ : ∃ k, m = k + 1 := ⟨m - 1, by omega⟩
    cases s with
    | nil => rfl
    | cons c s =>
      rw [List.length_cons] at enough enough'
      by_cases bracket : c = '<'
      · subst bracket
        rw [scan_markup, scan_markup]
        cases found : markup? s with
        | none => rfl
        | some read =>
          have shorter := (isSuffix_of_markup? found).length_le
          simp only [ih (m := m) (s := read.2) (by omega) (by omega)]
      · have shorter := (List.dropWhile_suffix (l := s) (· != '<')).length_le
        rw [scan_text bracket, scan_text bracket, ih (m := m) (by omega) (by omega)]

/-- A text is cut alike whatever number of steps is allowed, if there is one for every character and
one for the end. -/
theorem scan_eq_ofText {n : Nat} {s : List Char} (enough : s.length < n) : scan n s = ofText s :=
  scan_eq_scan enough (Nat.lt_succ_self _)

theorem ofText_text {c : Char} (other : c ≠ '<') (s : List Char) :
    ofText (c :: s) =
      if isText (c :: s.takeWhile (· != '<')) then
        text (c :: s.takeWhile (· != '<')) :: ofText (s.dropWhile (· != '<'))
      else [fault] := by
  have shorter := (List.dropWhile_suffix (l := s) (· != '<')).length_le
  rw [ofText, scan_text other, scan_eq_ofText (by simp only [List.length_cons]; omega)]

end Lexeme

end Gatehouse.Xml
