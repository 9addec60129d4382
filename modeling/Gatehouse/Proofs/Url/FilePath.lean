import Gatehouse.Proofs.Url.Spelling
import Gatehouse.Security.Provider
import Mathlib.Data.List.Forall2
/-!
The paths that file URLs and other locators denote. Main statement: `ofLocator_spelling`, which says
that a path and all the file URLs that spell it are locators of the same file, and that a locator
that is no file URL is a path itself.
-/

namespace Gatehouse

open Text

namespace Url

/-! ### Segments that are taken over as they are -/

/-- Parts of a path that a URL keeps: no part is empty or a dot segment, and all their characters
stand for themselves or are part of an escape. -/
def AreKept (parts : List (List Char)) : Prop :=
  ∀ part ∈ parts, part ≠ [] ∧ isDot part = false ∧ isDoubleDot part = false ∧
    ∀ c ∈ part, isSpelled c = true

/-- Parts with a slash before each. -/
def afterSlashes (parts : List (List Char)) : List Char := parts.flatMap ('/' :: ·)

theorem rawSegments_of_kept {first : List Char} {later : List (List Char)}
    (kept : AreKept (first :: later)) :
    rawSegments true (first ++ afterSlashes later) = first :: later := by
  have apart {part : List Char} (spelled : ∀ c ∈ part, isSpelled c = true) :
      ∀ c ∈ part, (c == '/' || (true && c == '\\')) = false := by
    intro c member
    have other := of_isSpelled (p := fun c => !(c == '/' || (true && c == '\\'))) (by decide)
      (spelled c member)
    rwa [Bool.not_eq_true'] at other
  rw [rawSegments]
  induction later generalizing first with
  | nil =>
    rw [afterSlashes, List.flatMap_nil, List.append_nil]
    exact List.splitOnP_eq_singleton (apart (kept first (by simp)).2.2.2)
  | cons second later ih =>
    obtain ⟨here, there⟩ := List.forall_mem_cons.1 kept
    rw [afterSlashes, List.flatMap_cons, List.cons_append,
      List.splitOnP_append_cons_of_forall_mem (apart here.2.2.2) _ (by rfl)]
    exact congrArg (first :: ·) (ih there)

theorem percentEncode_of_spelled {part : List Char} (spelled : ∀ c ∈ part, isSpelled c = true) :
    percentEncode pathSet part = part := by
  induction part with
  | nil => rfl
  | cons c rest ih =>
    obtain ⟨here, there⟩ := List.forall_mem_cons.1 spelled
    have free : ¬(c.toNat < 0x20 ∨ 0x7E < c.toNat ∨ c ∈ pathSet) :=
      of_decide_eq_true (of_isSpelled
        (p := fun c => ¬(c.toNat < 0x20 ∨ 0x7E < c.toNat ∨ c ∈ pathSet)) (by decide) here)
    rw [percentEncode, List.flatMap_cons, if_neg free]
    exact congrArg (c :: ·) (ih there)

theorem addSegments_of_kept {parts : List (List Char)} (kept : AreKept parts)
    (base : List (List Char)) : addSegments base parts = parts.reverse ++ base := by
  induction parts generalizing base with
  | nil => rfl
  | cons part later ih =>
    obtain ⟨⟨_, no_dot, no_dots, spelled⟩, there⟩ := List.forall_mem_cons.1 kept
    cases later with
    | nil =>
      simp only [addSegments, no_dots, no_dot, Bool.false_eq_true, if_false,
        percentEncode_of_spelled spelled]
      rfl
    | cons next later =>
      rw [addSegments, no_dots, no_dot, percentEncode_of_spelled spelled]
      · simp only [Bool.false_eq_true, if_false, ih there, List.reverse_cons, List.append_assoc,
          List.cons_append, List.nil_append]
      · simp

theorem isDrive_of_spelled {part : List Char} (spelled : ∀ c ∈ part, isSpelled c = true) :
    isDrive part = false := by
  unfold isDrive
  split
  · next letter mark =>
    have no_mark := of_isSpelled (p := fun c => !(c == ':' || c == '|')) (by decide)
      (spelled mark (by simp))
    rw [Bool.not_eq_true'] at no_mark
    rw [no_mark, Bool.and_false]
  · rfl

theorem fileRoute_of_kept {parts : List (List Char)} (some_part : parts ≠ []) (kept : AreKept parts)
    (drives : Bool) : fileRoute drives [] parts = .segments (parts.map String.ofList) := by
  obtain ⟨first, later, rfl⟩ := List.exists_cons_of_ne_nil some_part
  obtain ⟨nonempty, _, _, spelled⟩ := kept first (by simp)
  have no_drive : (drives && isDrive first) = false := by
    rw [isDrive_of_spelled spelled, Bool.and_false]
  have nothing_dropped : (first :: later).dropWhile (· == []) = first :: later := by
    rw [List.dropWhile_cons_of_neg]
    simpa using nonempty
  simp only [fileRoute, no_drive, Bool.false_eq_true, if_false, addSegments_of_kept kept,
    List.append_nil, List.reverse_reverse, nothing_dropped, reduceCtorEq]

/-! ### Reading a file URL -/

/-- A file URL on no host. -/
def ofParts (parts : List (List Char)) : Url where
  scheme := "file"
  authority := some { host := .empty }
  route := .segments (parts.map String.ofList)

theorem cutBefore_of_kept {parts : List (List Char)} (kept : AreKept parts) :
    cutBefore ['?', '#'] (afterSlashes parts) = (afterSlashes parts, []) := by
  have inside : ∀ c ∈ afterSlashes parts, decide (c ∉ ['?', '#']) = true := by
    intro c member
    obtain ⟨part, here, found⟩ := List.mem_flatMap.1 member
    rcases List.mem_cons.1 found with rfl | inner
    · rfl
    · exact of_isSpelled (p := fun c => decide (c ∉ ['?', '#'])) (by decide)
        ((kept part here).2.2.2 c inner)
  have span := span_append inside [] rfl
  rw [List.append_nil] at span
  exact Prod.ext span.1 span.2

/-- The start of such a path, as the reader of file URLs looks at it. -/
theorem exists_begin_of_kept {parts : List (List Char)} (some_part : parts ≠ [])
    (kept : AreKept parts) :
    ∃ c rest, afterSlashes parts = '/' :: c :: rest ∧ (c == '/' || c == '\\') = false ∧
      rawSegments true (c :: rest) = parts := by
  obtain ⟨first, later, rfl⟩ := List.exists_cons_of_ne_nil some_part
  obtain ⟨nonempty, _, _, spelled⟩ := kept first (by simp)
  have raw := rawSegments_of_kept kept
  obtain ⟨c, rest, rfl⟩ := List.exists_cons_of_ne_nil nonempty
  refine ⟨c, rest ++ afterSlashes later, rfl, ?_, raw⟩
  have no_slash := of_isSpelled (p := fun c => !(c == '/' || c == '\\')) (by decide)
    (spelled c (by simp))
  rwa [Bool.not_eq_true'] at no_slash

theorem file?_path {parts : List (List Char)} (some_part : parts ≠ []) (kept : AreKept parts) :
    file? (afterSlashes parts) = some (ofParts parts) := by
  have cut := cutBefore_of_kept kept
  obtain ⟨c, rest, same, no_slash, raw⟩ := exists_begin_of_kept some_part kept
  rw [same] at cut ⊢
  simp only [file?, no_slash, Bool.and_false, Bool.false_eq_true, if_false, cut, List.head?_cons,
    Option.any_some, beq_self_eq_true, Bool.true_or, if_true, List.tail_cons, raw,
    fileRoute_of_kept some_part kept]
  rfl

/-- The host of a file URL may be left out, or be the one that all such URLs are on. -/
theorem file?_host {parts : List (List Char)} {host : List Char} (some_part : parts ≠ [])
    (kept : AreKept parts) (free : host.all (· ∉ ['/', '?', '#', '\\']) = true)
    (no_drive : isDrive host = false)
    (here : host = [] ∨ Host.parse? true host = some (.domain "localhost")) :
    file? ('/' :: '/' :: (host ++ afterSlashes parts)) = some (ofParts parts) := by
  have cut := cutBefore_of_kept kept
  obtain ⟨c, rest, same, _, raw⟩ := exists_begin_of_kept some_part kept
  have authority : cutAuthority true (host ++ afterSlashes parts) = (host, afterSlashes parts) := by
    have span := span_append (List.all_eq_true.1 free) (afterSlashes parts) (by rw [same]; rfl)
    exact Prod.ext span.1 span.2
  rw [same] at cut authority ⊢
  simp only [file?, beq_self_eq_true, Bool.true_or, Bool.and_self, if_true, authority, no_drive,
    Bool.false_eq_true, if_false, cut, List.head?_cons, Option.any_some, List.tail_cons, raw,
    fileRoute_of_kept some_part kept]
  rcases here with rfl | localhost
  · rfl
  · by_cases none : host = []
    · rw [if_pos none]
      rfl
    · rw [if_neg none, localhost]
      rfl

theorem parse?_localhost : Host.parse? true "localhost".toList = some (.domain "localhost") := by
  have decoded : Utf8.decodeLossy (percentDecode "localhost".toList) = "localhost".toList := by
    have same : percentDecode "localhost".toList = Utf8.encode "localhost".toList := rfl
    rw [same, Utf8.decodeLossy, Utf8.pieces_eq_map_char_iff.2 rfl, List.map_map]
    rfl
  have name : Host.domainName? "localhost".toList = some "localhost".toList := by
    rw [Host.domainName?, decoded]
    rfl
  have parsed : Host.parse? true "localhost".toList =
      (Host.domainName? "localhost".toList).bind fun name =>
        if endsInNumber name then address? name
        else some (.domain (String.ofList name)) := rfl
  rw [parsed, name]
  rfl

/-! ### The text of a locator -/

theorem dropWhile_of_none {p : Char → Bool} {s : List Char} (stop : ∀ c ∈ s, p c = false) :
    s.dropWhile p = s := by
  cases s with
  | nil => rfl
  | cons c rest =>
    rw [List.dropWhile_cons_of_neg]
    rw [stop c (by simp)]
    exact Bool.false_ne_true

/-- Neither a blank of ASCII nor a control character. -/
def isVisible (c : Char) : Bool := decide (0x20 < c.toNat)

/-- What a text starts with is kept if it is visible; at the end something may be cut off. -/
theorem exists_clean_append {start : List Char} (some_char : start ≠ [])
    (visible : start.all isVisible = true) (s : List Char) :
    ∃ later, clean (start ++ s) = start ++ later ∧ (s = [] → later = []) := by
  rw [List.all_eq_true] at visible
  have inside : ∀ c ∈ start, decide (c.toNat ≤ 0x20) = false := by
    intro c member
    have seen : 0x20 < c.toNat := of_decide_eq_true (visible c member)
    exact decide_eq_false (Nat.not_le.2 seen)
  have stays : start.filter (fun c => c != '\t' && c != '\n' && c != '\r') = start := by
    rw [List.filter_eq_self]
    intro c member
    have seen := visible c member
    simp only [Bool.and_eq_true, bne_iff_ne]
    refine ⟨⟨?_, ?_⟩, ?_⟩ <;> (rintro rfl; cases seen)
  have begins : (start ++ s).dropWhile (fun c => decide (c.toNat ≤ 0x20)) = start ++ s := by
    obtain ⟨c, rest, rfl⟩ := List.exists_cons_of_ne_nil some_char
    rw [List.cons_append, List.dropWhile_cons_of_neg]
    rw [inside c (by simp)]
    exact Bool.false_ne_true
  have ends := dropWhile_of_none fun c (member : c ∈ start.reverse) =>
    inside c (List.mem_reverse.1 member)
  refine ⟨(s.reverse.dropWhile (fun c => decide (c.toNat ≤ 0x20))).reverse.filter
    (fun c => c != '\t' && c != '\n' && c != '\r'), ?_, ?_⟩
  · simp only [clean, begins, List.reverse_append, List.dropWhile_append]
    split
    · next empty =>
      rw [List.isEmpty_iff.1 empty, ends, List.reverse_reverse, stays]
      simp
    · rw [List.reverse_append, List.reverse_reverse, List.filter_append, stays]
  · rintro rfl
    rfl

theorem parse?_file {s : String} (visible : s.toList.all isVisible = true) :
    parse? ("file:" ++ s) = file? s.toList := by
  have all : ("file:".toList ++ s.toList).all isVisible = true := by
    rw [List.all_append, visible]
    rfl
  obtain ⟨later, kept, nothing⟩ := exists_clean_append (by simp) all []
  rw [List.append_nil, nothing rfl, List.append_nil] at kept
  have scheme : scheme? ("file:".toList ++ s.toList) = some ("file", s.toList) := rfl
  rw [parse?, String.toList_append, kept, scheme]
  rfl

theorem visible_of_kept {parts : List (List Char)} (kept : AreKept parts) :
    (afterSlashes parts).all isVisible = true := by
  rw [List.all_eq_true]
  intro c member
  obtain ⟨part, here, found⟩ := List.mem_flatMap.1 member
  rcases List.mem_cons.1 found with rfl | inner
  · rfl
  · exact of_isSpelled (by decide) ((kept part here).2.2.2 c inner)

/-- The URLs that spell a path out, without an authority or with one of these hosts. -/
theorem parse?_of_kept {parts : List (List Char)} {spelling : String} (some_part : parts ≠ [])
    (kept : AreKept parts) (same : spelling.toList = afterSlashes parts) :
    parse? ("file:" ++ spelling) = some (ofParts parts) ∧
      parse? ("file://" ++ spelling) = some (ofParts parts) ∧
      parse? ("file://localhost" ++ spelling) = some (ofParts parts) := by
  have visible := visible_of_kept kept
  have behind {start : String} (shown : start.toList.all isVisible = true) :
      parse? ("file:" ++ (start ++ spelling)) = file? (start.toList ++ afterSlashes parts) := by
    rw [parse?_file, String.toList_append, same]
    rw [String.toList_append, same, List.all_append, shown, visible]
    rfl
  refine ⟨?_, ?_, ?_⟩
  · rw [parse?_file (by rwa [same]), same]
    exact file?_path some_part kept
  · rw [show "file://" = "file:" ++ "//" from rfl, String.append_assoc, behind rfl]
    exact file?_host some_part kept rfl rfl (.inl rfl)
  · rw [show "file://localhost" = "file:" ++ "//localhost" from rfl, String.append_assoc,
      behind rfl]
    exact @file?_host _ "localhost".toList some_part kept rfl rfl (.inr parse?_localhost)

theorem cut_of_scheme? {s rest : List Char} {scheme : String}
    (read : scheme? s = some (scheme, rest)) :
    ∃ name, s = name ++ ':' :: rest ∧ name.map Char.toLower = scheme.toList := by
  unfold scheme? cutBefore at read
  dsimp only at read
  split at read
  · next colon after found =>
    split at read
    · cases read
      have stop := List.head?_dropWhile_not (fun c => decide (c ∉ [':'])) s
      rw [found] at stop
      obtain rfl : colon = ':' := by simpa using stop
      refine ⟨s.takeWhile (· ∉ [':']), ?_, by simp⟩
      rw [← found, List.takeWhile_append_dropWhile]
    · cases read
  · cases read

theorem scheme_of_file? {s : List Char} {url : Url} (read : file? s = some url) :
    url.scheme = "file" := by
  unfold file? at read
  dsimp only at read
  split at read
  · split at read
    · split at read
      · cases read
        rfl
      split at read
      · cases read
        rfl
      · obtain ⟨host, _, rest⟩ := Option.bind_eq_some_iff.1 read
        cases rest
        rfl
    · cases read
      rfl
  · cases read
    rfl

theorem scheme_of_afterSlashes? {scheme : String} {s : List Char} {url : Url}
    (read : afterSlashes? scheme s = some url) : url.scheme = scheme := by
  unfold afterSlashes? at read
  obtain ⟨authority, _, rest⟩ := Option.bind_eq_some_iff.1 read
  cases rest
  rfl

theorem scheme_of_afterScheme? {scheme : String} {s : List Char} {url : Url}
    (read : afterScheme? scheme s = some url) : url.scheme = scheme := by
  unfold afterScheme? at read
  split at read
  · next file => exact (scheme_of_file? read).trans file.symm
  split at read
  · exact scheme_of_afterSlashes? read
  · unfold plain? at read
    split at read
    · exact scheme_of_afterSlashes? read
    · cases read
      rfl

theorem begins_of_scheme_file {s : String} {url : Url} (read : parse? s = some url)
    (file : url.scheme = "file") : "file:".toList <+: (clean s.toList).map Char.toLower := by
  obtain ⟨⟨scheme, rest⟩, cut, after⟩ := Option.bind_eq_some_iff.1 read
  obtain ⟨name, same, lower⟩ := cut_of_scheme? cut
  rw [← scheme_of_afterScheme? after, file] at lower
  rw [same, List.map_append, lower]
  exact ⟨rest.map Char.toLower, by simp⟩

end Url

/-! ### Names and their spellings -/

/-- A last octet of ASCII is the last character. -/
theorem Text.Utf8.getLast?_of_encode {s : List Char} {b : UInt8} (small : b < 0x80)
    (last : (encode s).getLast? = some b) : s.getLast? = some (join b.toNat []) := by
  rcases List.eq_nil_or_concat s with rfl | ⟨front, c, rfl⟩
  · cases last
  · have tail {d : UInt8} (tail : isTail d = true) (same : some d = some b) : False := by
      cases same
      have low := (isTail_iff.1 tail).1
      have high := UInt8.lt_iff_toNat_lt.1 small
      exact absurd high (Nat.not_lt.2 low)
    have spelled := spells_utf8EncodeChar c
    have split : encode (front ++ [c]) = encode front ++ String.utf8EncodeChar c := by
      simp [encode]
    rw [List.concat_eq_append, split, List.getLast?_append] at last
    rw [List.concat_eq_append, List.getLast?_append]
    generalize String.utf8EncodeChar c = octets at spelled last
    cases spelled with
    | one _ =>
      cases last
      rfl
    | two _ _ second => exact (tail second last).elim
    | three _ _ _ third => exact (tail third last).elim
    | four _ _ _ _ fourth => exact (tail fourth last).elim

namespace Path

/-- The absolute path that leads through names. -/
def through (names : List String) : String :=
  String.ofList (names.flatMap fun name => '/' :: name.toList)

/-- Names on the way to a file: none of them is empty or a dot segment, and the last one does not
end like a drive. -/
structure AreSteps (names : List String) : Prop where
  some_name : names ≠ []
  proper : ∀ name ∈ names, name ≠ "" ∧ name ≠ "." ∧ name ≠ ".."
  no_drive : ∀ name ∈ names.getLast?,
    name.toList.getLast? ≠ some ':' ∧ name.toList.getLast? ≠ some '|'

/-- A text that spells every name and keeps the slashes before them. -/
def IsSpelledOut (names : List String) (spelling : String) : Prop :=
  ∃ parts,
    List.Forall₂ (fun name part => Url.IsSpelling (Utf8.encode name.toList) part) names parts ∧
    spelling.toList = Url.afterSlashes parts

theorem octets_through (names : List String) :
    (ofString (through names)).octets =
      names.flatMap fun name => slash :: Utf8.encode name.toList := by
  simp only [ofString, through, String.toList_ofList, Utf8.encode, List.flatMap_assoc,
    List.flatMap_cons]
  rfl

theorem areKept_of_spelled {names : List String} {parts : List (List Char)}
    (spelled : List.Forall₂ (fun name part => Url.IsSpelling (Utf8.encode name.toList) part) names
      parts)
    (proper : ∀ name ∈ names, name ≠ "" ∧ name ≠ "." ∧ name ≠ "..") : Url.AreKept parts := by
  induction spelled with
  | nil =>
    intro part member
    cases member
  | @cons name part names parts first _ ih =>
    obtain ⟨⟨nonempty, no_dot, no_dots⟩, later⟩ := List.forall_mem_cons.1 proper
    have read : Url.percentDecode part = Utf8.encode name.toList := first.percentDecode_eq
    have differs {text : String} (different : name ≠ text) :
        Url.percentDecode part ≠ Utf8.encode text.toList := by
      rw [read, Ne, Utf8.encode_inj, String.toList_inj]
      exact different
    rw [Url.AreKept, List.forall_mem_cons]
    refine ⟨⟨?_, ?_, ?_, first.isSpelled⟩, ih later⟩
    · rintro rfl
      exact differs nonempty rfl
    · rw [← Bool.not_eq_true]
      intro dot
      exact differs no_dot (Url.percentDecode_of_isDot dot)
    · rw [← Bool.not_eq_true]
      intro dots
      exact differs no_dots (Url.percentDecode_of_isDoubleDot dots)

theorem octets_of_spelled {names : List String} {parts : List (List Char)}
    (spelled : List.Forall₂ (fun name part => Url.IsSpelling (Utf8.encode name.toList) part) names
      parts) :
    (parts.map String.ofList).flatMap (fun segment => slash :: Url.percentDecode segment.toList) =
      names.flatMap fun name => slash :: Utf8.encode name.toList := by
  induction spelled with
  | nil => rfl
  | cons first _ ih =>
    rw [List.map_cons, List.flatMap_cons, ih, String.toList_ofList, first.percentDecode_eq,
      List.flatMap_cons]

/-- The last octet of such a path is no sign of a drive. -/
theorem AreSteps.last_octet {names : List String} (steps : AreSteps names) {mark : UInt8}
    (last : (names.flatMap fun name => slash :: Utf8.encode name.toList).getLast? = some mark) :
    (mark == 0x3A || mark == 0x7C) = false := by
  obtain ⟨front, name, rfl⟩ : ∃ front name, names = front ++ [name] := by
    rcases List.eq_nil_or_concat names with rfl | ⟨front, name, rfl⟩
    · exact absurd rfl steps.some_name
    · exact ⟨front, name, List.concat_eq_append⟩
  have nonempty : name ≠ "" := (steps.proper name (by simp)).1
  have last_name : (Utf8.encode name.toList).getLast? = some mark := by
    have some_octet : Utf8.encode name.toList ≠ [] := by
      rw [Ne, show ([] : List UInt8) = Utf8.encode "".toList from rfl, Utf8.encode_inj,
        String.toList_inj]
      exact nonempty
    rw [List.flatMap_append, List.getLast?_append, List.flatMap_cons, List.flatMap_nil,
      List.append_nil] at last
    obtain ⟨octet, others, same⟩ := List.exists_cons_of_ne_nil some_octet
    rw [same] at last ⊢
    simpa using last
  have no_drive := steps.no_drive name (by simp)
  rw [← Bool.not_eq_true, Bool.or_eq_true, beq_iff_eq, beq_iff_eq]
  rintro (rfl | rfl)
  · exact no_drive.1 (Utf8.getLast?_of_encode (by decide) last_name)
  · exact no_drive.2 (Utf8.getLast?_of_encode (by decide) last_name)

theorem filePath?_ofParts {names : List String} {parts : List (List Char)}
    (steps : AreSteps names)
    (spelled : List.Forall₂ (fun name part => Url.IsSpelling (Utf8.encode name.toList) part) names
      parts) : (Url.ofParts parts).filePath? = some (ofString (through names)) := by
  have octets := octets_through names
  simp only [Url.filePath?, Url.ofParts, octets_of_spelled spelled, ← octets, beq_self_eq_true,
    Bool.true_or, if_true]
  split
  · next mark letter before after same =>
    have last : (ofString (through names)).octets.getLast? = some mark := by
      rw [← List.head?_reverse, same]
      rfl
    rw [octets] at last
    have no_drive := steps.last_octet last
    rw [if_neg (by rw [no_drive, Bool.false_and]; exact Bool.false_ne_true), List.append_nil]
  · rw [if_neg Bool.false_ne_true, List.append_nil]

/-! ### Locators -/

theorem ofLocator_of_parse {locator : String} {url : Url} {path : Path}
    (read : Url.parse? locator = some url) (file : url.scheme = "file")
    (denotes : url.filePath? = some path) : ofLocator locator = path := by
  simp only [ofLocator, read, Option.bind_some, if_pos file, denotes, Option.getD_some]

/-- A locator is a path itself if it is no file URL, however its letters are written. -/
theorem ofLocator_of_noFile {locator : String}
    (other : ¬ "file:".toList <+: (Url.clean locator.toList).map Char.toLower) :
    ofLocator locator = ofString locator := by
  have no_url : ((Url.parse? locator).bind fun url =>
      if url.scheme = "file" then url.filePath? else none) = none := by
    rw [Option.bind_eq_none_iff]
    intro url read
    rw [if_neg]
    intro file
    exact other (Url.begins_of_scheme_file read file)
  have no_start : afterStart? "file:".toList locator.toList = none := by
    rw [Option.eq_none_iff_forall_ne_some]
    intro rest cut
    have same := afterStart?_eq_some_iff.1 cut
    obtain ⟨later, kept, _⟩ := @Url.exists_clean_append "file:".toList (by simp) rfl rest
    apply other
    rw [same, kept, List.map_append]
    exact List.prefix_append _ _
  simp only [ofLocator, no_url, no_start, Option.getD_none]

theorem through_begins {names : List String} (some_name : names ≠ []) :
    ¬ "file:".toList <+: (Url.clean (through names).toList).map Char.toLower := by
  obtain ⟨name, rest, rfl⟩ := List.exists_cons_of_ne_nil some_name
  obtain ⟨later, kept, _⟩ := @Url.exists_clean_append ['/'] (by simp) rfl
    (name.toList ++ rest.flatMap fun name => '/' :: name.toList)
  have begins : (through (name :: rest)).toList =
      ['/'] ++ (name.toList ++ rest.flatMap fun name => '/' :: name.toList) := by
    simp [through]
  rw [begins, kept]
  rintro ⟨_, same⟩
  cases same

theorem contents_load (half : SecurityHalf) (files : FileTree) (locator : String) :
    (FileProvider.load half files locator).map (·.contents) =
      files.readText (ofLocator locator) := by
  rw [FileProvider.load]
  cases files.readText (ofLocator locator) <;> rfl

/-- A path and the file URLs that spell it denote the same file, with the host left out, empty or
`localhost`, so a provider reads the same text through each of them. A locator that does not begin
with `file:` is taken for the path that it is. -/
theorem ofLocator_spelling {names : List String} {spelling : String} (steps : AreSteps names)
    (spelled : IsSpelledOut names spelling) :
    (∀ locator ∈ [through names, "file:" ++ spelling, "file://" ++ spelling,
        "file://localhost" ++ spelling],
      ofLocator locator = ofString (through names) ∧
      ∀ half files, (FileProvider.load half files locator).map (·.contents) =
        files.readText (ofString (through names))) ∧
    ∀ locator : String, ¬ "file:".toList <+: (Url.clean locator.toList).map Char.toLower →
      ofLocator locator = ofString locator := by
  obtain ⟨parts, spelled, same⟩ := spelled
  have kept := areKept_of_spelled spelled steps.proper
  have some_part : parts ≠ [] := by
    rintro rfl
    cases spelled
    exact steps.some_name rfl
  have path := filePath?_ofParts steps spelled
  obtain ⟨plain, noHost, localhost⟩ := Url.parse?_of_kept some_part kept same
  have denotes : ∀ locator ∈ [through names, "file:" ++ spelling, "file://" ++ spelling,
      "file://localhost" ++ spelling], ofLocator locator = ofString (through names) := by
    simp only [List.forall_mem_cons]
    refine ⟨?_, ?_, ?_, ?_, ?_⟩
    · exact ofLocator_of_noFile (through_begins steps.some_name)
    · exact ofLocator_of_parse plain rfl path
    · exact ofLocator_of_parse noHost rfl path
    · exact ofLocator_of_parse localhost rfl path
    · intro _ member
      cases member
  refine ⟨?_, fun _ => ofLocator_of_noFile⟩
  intro locator member
  refine ⟨denotes locator member, ?_⟩
  intro half files
  rw [contents_load, denotes locator member]

/-- A space and a letter that takes two octets are escaped, and so is a dot that need not be. -/
theorem ofLocator_spelling_accented :
    AreSteps ["my apps", "é.jks"] ∧ IsSpelledOut ["my apps", "é.jks"] "/my%20apps/%C3%a9%2Ejks" ∧
      ofLocator "file://localhost/my%20apps/%C3%a9%2Ejks" = ofString "/my apps/é.jks" ∧
      ofLocator "FILE.jks" = ofString "FILE.jks" := by
  have steps : AreSteps ["my apps", "é.jks"] :=
    ⟨by decide, by decide, by decide⟩
  have first : Url.IsSpelling (Utf8.encode "my apps".toList) "my%20apps".toList :=
    .plain (c := 'm') rfl <| .plain (c := 'y') rfl <|
      @Url.IsSpelling.escaped '2' '0' 2 0 _ _ rfl rfl <|
      .plain (c := 'a') rfl <| .plain (c := 'p') rfl <| .plain (c := 'p') rfl <|
      .plain (c := 's') rfl .nil
  have second : Url.IsSpelling (Utf8.encode "é.jks".toList) "%C3%a9%2Ejks".toList :=
    @Url.IsSpelling.escaped 'C' '3' 12 3 _ _ rfl rfl <|
      @Url.IsSpelling.escaped 'a' '9' 10 9 _ _ rfl rfl <|
      @Url.IsSpelling.escaped '2' 'E' 2 14 _ _ rfl rfl <|
      .plain (c := 'j') rfl <| .plain (c := 'k') rfl <| .plain (c := 's') rfl .nil
  have spelled : IsSpelledOut ["my apps", "é.jks"] "/my%20apps/%C3%a9%2Ejks" :=
    ⟨["my%20apps".toList, "%C3%a9%2Ejks".toList], .cons first (.cons second .nil), by decide⟩
  obtain ⟨each, other⟩ := ofLocator_spelling steps spelled
  exact ⟨steps, spelled, (each _ (by simp)).1, other "FILE.jks" (by decide)⟩

end Path

end Gatehouse
