import Gatehouse.Proofs.Settings.Layer
import Gatehouse.Proofs.Text.Utf8
import Gatehouse.Proofs.Toml.Sections
/-!
The sources of the settings, and when they give a text for some of the settings. Main statements:
`IsAt.fromFile` and `IsInEnvironment.lays`, which say that such a source is laid over the tree of
settings.
-/

namespace Gatehouse

open Setting

/-- What one source gives: texts for some of the settings. The time limit is the plain numeral of a
number of 64 bits. -/
structure SettingsLayer where
  text? : SettingKey → Option String
  numeral : ∀ text, text? .fetchTimeoutSecs = some text → ∃ n < naturals, text = toString n

/-! ### Numerals -/

theorem smallLetter_of_isDigit {c : Char} (digit : Text.isDigit 10 c = true) :
    smallLetter c = c := by
  have same : ∀ n < 0x67, Text.isDigit 10 (Char.ofNat n) = true →
      smallLetter (Char.ofNat n) = Char.ofNat n := by decide
  exact Text.of_toNat_lt (p := fun c => Text.isDigit 10 c = true → smallLetter c = c) same
    (Text.toNat_lt_of_isDigit digit) digit

theorem natural?_toString {n : Nat} (bounded : n < naturals) :
    (text (toString n)).natural? = some n := by
  have digits : (toString n).toList = Nat.toDigits 10 n := by simp [toString]
  have denoted : Text.numeralFrom? 10 0 (Nat.toDigits 10 n) = some n :=
    Text.numeralFrom?_toDigits (by decide) (by decide) n
  have allDigits := Text.isDigit_of_numeralFrom? denoted
  have unchanged : small (toString n) = toString n := by
    rw [small, digits, List.map_congr_left fun c member =>
      smallLetter_of_isDigit (allDigits c member), List.map_id', ← digits, String.ofList_toList]
  have noWord : ∀ word ∈ wordsForOne ++ wordsForZero, toString n ≠ word := by
    rintro word member rfl
    have letters : ∀ word ∈ wordsForOne ++ wordsForZero,
        word.toList.all (Text.isDigit 10) = false := by decide
    have broken := letters _ member
    rw [digits, List.all_eq_true.2 allDigits] at broken
    cases broken
  have noOne : toString n ∉ wordsForOne := fun member =>
    noWord _ (List.mem_append_left _ member) rfl
  have noZero : toString n ∉ wordsForZero := fun member =>
    noWord _ (List.mem_append_right _ member) rfl
  have numeral : numeral? (toString n).toList = some n := by
    have read := @Text.numeral?_toDigits 10 (by decide) (by decide) n
    rw [digits, numeral?]
    · simp [read, bounded]
    · intro rest signed
      have plus := allDigits '+' (signed ▸ List.mem_cons_self)
      exact absurd plus (by decide)
  rw [natural?, unchanged, if_neg noOne, if_neg noZero, numeral]

namespace SettingKey

/-- What a value in the file says of a setting. The time limit may stand there without quotes. -/
inductive IsToldBy : SettingKey → Toml.Value → String → Prop
  | string (key : SettingKey) (text : String) : IsToldBy key (.string text) text
  | integer (n : Nat) : IsToldBy fetchTimeoutSecs (.integer n) (toString n)

end SettingKey

namespace SettingsLayer

variable (layer : SettingsLayer)

theorem read?_text {key : SettingKey} {text : String} (given : layer.text? key = some text) :
    key.read? (.text text) = some text := by
  cases key with
  | fetchTimeoutSecs =>
    obtain ⟨n, bounded, rfl⟩ := layer.numeral text given
    rw [SettingKey.read?, natural?_toString bounded, Option.map_some]
  | _ => rfl

theorem read?_ofToml {key : SettingKey} {value : Toml.Value} {text : String}
    (given : layer.text? key = some text) (told : key.IsToldBy value text) :
    key.read? (ofToml value) = some text := by
  cases told with
  | string => exact layer.read?_text given
  | integer n =>
    have whole : (0 : Int) ≤ n := Int.natCast_nonneg n
    simp only [ofToml, SettingKey.read?, natural?, if_pos whole, Int.toNat_natCast, Option.map_some]

/-! ### Sources that give a layer -/

/-- A table whose entries are the groups, with the settings that the layer gives in them. -/
structure IsInTable (table : Toml.Table) : Prop where
  only : ∀ name value, (name, value) ∈ table → ∃ group : SettingKey, ∃ form entries,
    name = group.group ∧ value = .table form entries ∧
      ∀ written inner, (written, inner) ∈ entries → ∃ key : SettingKey, ∃ text,
        key.group = group.group ∧ written = key.name ∧ layer.text? key = some text ∧
          key.IsToldBy inner text
  whole : ∀ key text, layer.text? key = some text → ∃ form entries value,
    (key.group, .table form entries) ∈ table ∧ (key.name, value) ∈ entries

/-- A file that gives what the layer does, with or without a byte-order mark. -/
inductive IsInFile : List UInt8 → Prop
  | plain {text : List Char} {table : Toml.Table} (unmarked : text.head? ≠ some '\uFEFF')
      (read : Toml.Table.ofText? text = some table) (inTable : layer.IsInTable table) :
      IsInFile (Text.Utf8.encode text)
  | marked {text : List Char} {table : Toml.Table}
      (read : Toml.Table.ofText? text = some table) (inTable : layer.IsInTable table) :
      IsInFile (Text.Utf8.encode ('\uFEFF' :: text))

/-- The file at a path gives what the layer does. If there is something at the path that is no file,
it is the one beside it that counts. -/
inductive IsAt (files : FileTree) (path : Path) : Prop
  | nowhere (missing : files.exists? path = false) (nothing : ∀ key, layer.text? key = none)
  | there {octets stem : List UInt8} (something : files.exists? path = true)
      (found : files.find (files.workingDirectory.join path) = .ok (.file octets))
      (named : (files.workingDirectory.join path).fileName? = some (stem ++ Settings.fileEnding))
      (some_stem : stem ≠ []) (inFile : layer.IsInFile octets)
  | beside {octets : List UInt8} {other : Path} (something : files.exists? path = true)
      (noFile : files.isFile (files.workingDirectory.join path) = false)
      (next : (files.workingDirectory.join path).extend? Settings.fileEnding = some other)
      (found : files.find other = .ok (.file octets)) (inFile : layer.IsInFile octets)

/-- An environment whose variables are the settings that the layer gives, beside those of other
programs. -/
structure IsInEnvironment (environment : List (String × String)) : Prop where
  only : ∀ name text, (name, text) ∈ environment →
    (∃ key : SettingKey, name = key.variableName ∧ layer.text? key = some text) ∨
      ¬ Settings.variablePrefix <+: (small name).toList
  whole : ∀ key text, layer.text? key = some text → (key.variableName, text) ∈ environment

variable {layer}

/-! ### A table laid over the defaults -/

theorem ofTomlEntries_eq_map (entries : List (String × Toml.Value)) :
    ofTomlEntries entries = entries.map fun (key, value) => (key, ofToml value) := by
  induction entries with
  | nil => rfl
  | cons entry entries ih => rw [ofTomlEntries, ih, List.map_cons]

/-- An entry of the file is a group, with texts for some of the keys in it. -/
theorem IsInTable.group_of {table : Toml.Table} (given : layer.IsInTable table)
    {entry : String × Setting} (member : entry ∈ ofTomlEntries table) :
    ∃ group : SettingKey, entry.1 = group.group ∧ entry.2 = .table entry.2.entries ∧
      ∀ leaf ∈ entry.2.entries, ∃ key : SettingKey, ∃ text, key.group = group.group ∧
        leaf.1 = key.name ∧ layer.text? key = some text ∧ key.read? leaf.2 = some text := by
  rw [ofTomlEntries_eq_map, List.mem_map] at member
  obtain ⟨⟨name, value⟩, inTable, rfl⟩ := member
  obtain ⟨group, form, entries, rfl, rfl, leaves⟩ := given.only name value inTable
  refine ⟨group, rfl, rfl, ?_⟩
  intro leaf inGroup
  have inEntries : leaf ∈ ofTomlEntries entries := inGroup
  rw [ofTomlEntries_eq_map, List.mem_map] at inEntries
  obtain ⟨⟨written, inner⟩, inside, rfl⟩ := inEntries
  obtain ⟨key, text, same, named, gives, told⟩ := leaves written inner inside
  exact ⟨key, text, same, named, gives, layer.read?_ofToml gives told⟩

theorem IsInTable.text_of_lookup {table : Toml.Table} (given : layer.IsInTable table)
    {entry : String × Setting} (member : entry ∈ ofTomlEntries table) {key : SettingKey}
    {value : Setting} (found : entry.2.entries.reverse.lookup key.name = some value) :
    ∃ text, layer.text? key = some text ∧ key.read? value = some text := by
  obtain ⟨group, _, _, leaves⟩ := given.group_of member
  have inside := List.mem_reverse.1 (Keyed.mem_of_lookup found)
  obtain ⟨other, text, _, named, gives, told⟩ := leaves _ inside
  obtain rfl := SettingKey.name_inj.1 named
  exact ⟨text, gives, told⟩

theorem IsInTable.lays {table : Toml.Table} (given : layer.IsInTable table) :
    Lays (·.overlay (ofTomlEntries table)) layer.text? := by
  apply @Lays.overlay _ _ fun entry key =>
    if key.group = entry.1 then (entry.2.entries.reverse.lookup key.name).bind key.read? else none
  · intro entry member
    obtain ⟨group, named, grouped, leaves⟩ := given.group_of member
    rw [named, grouped]
    apply lays_group
    intro leaf inside
    obtain ⟨key, text, same, written, _, told⟩ := leaves leaf inside
    exact ⟨key, text, same, written, told⟩
  · intro entry member key text told
    split at told
    · obtain ⟨value, found, reads⟩ := Option.bind_eq_some_iff.1 told
      obtain ⟨same, gives, again⟩ := given.text_of_lookup member found
      rw [gives, ← again, reads]
    · cases told
  · intro key text gives
    obtain ⟨form, entries, value, inTable, inGroup⟩ := given.whole key text gives
    have member : (key.group, ofToml (.table form entries)) ∈ ofTomlEntries table := by
      rw [ofTomlEntries_eq_map]
      exact List.mem_map_of_mem inTable
    have leaf : (key.name, ofToml value) ∈ (ofTomlEntries entries).reverse := by
      rw [List.mem_reverse, ofTomlEntries_eq_map]
      exact List.mem_map_of_mem inGroup
    refine ⟨_, member, ?_⟩
    rw [if_pos rfl]
    cases found : (ofTomlEntries entries).reverse.lookup key.name with
    | none =>
      have absent := List.lookup_eq_none_iff.1 found _ leaf
      simp at absent
    | some value =>
      obtain ⟨same, givesSame, told⟩ := given.text_of_lookup member found
      have begun : (ofToml (.table form entries)).entries = ofTomlEntries entries := rfl
      rw [begun, found, Option.bind_some, told, ← givesSame, gives]

/-! ### An environment laid over the file -/

theorem variableKey?_variableName (key : SettingKey) :
    Settings.variableKey? key.variableName = some key.path := by
  cases key <;> decide

theorem IsInEnvironment.lays {environment : List (String × String)}
    (given : layer.IsInEnvironment environment) :
    Lays (·.overlay (Settings.ofEnvironment environment)) layer.text? := by
  have key_of : ∀ entry ∈ Settings.ofEnvironment environment, ∃ key : SettingKey, ∃ text,
      entry = (key.path, .text text) ∧ layer.text? key = some text := by
    intro entry member
    obtain ⟨⟨name, text⟩, inEnvironment, kept⟩ := List.mem_filterMap.1 member
    obtain ⟨path, read, rfl⟩ := Option.map_eq_some_iff.1 kept
    rcases given.only name text inEnvironment with ⟨key, rfl, gives⟩ | foreign
    · rw [variableKey?_variableName] at read
      exact ⟨key, text, by rw [← Option.some.inj read], gives⟩
    · obtain ⟨rest, cut, _⟩ := Option.map_eq_some_iff.1 read
      exact absurd ⟨rest, (Text.afterStart?_eq_some_iff.1 cut).symm⟩ foreign
  apply @Lays.overlay _ _ fun entry key =>
    if key.path = entry.1 then entry.2.text? else none
  · intro entry member
    obtain ⟨key, text, rfl, gives⟩ := key_of entry member
    simpa only [SettingKey.path_inj, Setting.text?] using lays_variable (layer.read?_text gives)
  · intro entry member key text told
    obtain ⟨other, same, rfl, gives⟩ := key_of entry member
    split at told
    · next eq =>
      obtain rfl := SettingKey.path_inj.1 eq
      exact gives.trans told
    · cases told
  · intro key text gives
    have member := given.whole key text gives
    refine ⟨(key.path, .text text), ?_, if_pos rfl⟩
    refine List.mem_filterMap.2 ⟨_, member, ?_⟩
    simp only [variableKey?_variableName, Option.map_some]

/-! ### Reading the file -/

theorem IsInFile.read {octets : List UInt8} (given : layer.IsInFile octets) :
    ∃ table, layer.IsInTable table ∧ Toml.Table.ofText? (Text.Utf8.decodeLossy
      ((Text.afterStart? (Text.Utf8.encode ['\uFEFF']) octets).getD octets)) = some table := by
  cases given with
  | @plain text table unmarked read inTable =>
    have unmarkedOctets :
        Text.afterStart? (Text.Utf8.encode ['\uFEFF']) (Text.Utf8.encode text) = none := by
      apply Option.eq_none_iff_forall_ne_some.2
      intro rest cut
      obtain ⟨later, same, _⟩ :=
        Text.Utf8.encode_eq_append_iff.1 (Text.afterStart?_eq_some_iff.1 cut)
      exact unmarked (same ▸ rfl)
    refine ⟨table, inTable, ?_⟩
    rw [unmarkedOctets, Option.getD_none, Text.Utf8.decodeLossy_encode, read]
  | @marked text table read inTable =>
    have cut : Text.afterStart? (Text.Utf8.encode ['\uFEFF'])
        (Text.Utf8.encode ('\uFEFF' :: text)) = some (Text.Utf8.encode text) :=
      Text.afterStart?_eq_some_iff.2 (Text.Utf8.encode_eq_append_iff.2 ⟨text, rfl, rfl⟩)
    refine ⟨table, inTable, ?_⟩
    rw [cut, Option.getD_some, Text.Utf8.decodeLossy_encode, read]

theorem IsInFile.readFile {files : FileTree} {path place : Path} {octets : List UInt8}
    (given : layer.IsInFile octets) (located : Settings.locateFile files path = .ok place)
    (found : files.find place = .ok (.file octets)) :
    ∃ entries, Settings.readFile files path = .ok entries ∧
      Lays (·.overlay entries) layer.text? := by
  obtain ⟨table, inTable, read⟩ := given.read
  have contents : files.read place = .ok octets := by rw [FileTree.read, found]
  refine ⟨ofTomlEntries table, ?_, inTable.lays⟩
  simp only [Settings.readFile, located, bind, Except.bind, contents, read]
  rfl

theorem IsAt.fromFile {files : FileTree} {path : Path} (given : layer.IsAt files path) :
    ∃ entries, (if files.exists? path = true then Settings.readFile files path else .ok []) =
      .ok entries ∧ Lays (·.overlay entries) layer.text? := by
  cases given with
  | nowhere missing nothing =>
    have silent : Lays (·.overlay []) layer.text? := by
      intro root below reads
      simpa only [overlay, List.foldl_nil, nothing, Option.none_or] using reads
    exact ⟨[], by simp [missing], silent⟩
  | @there octets stem something found named some_stem inFile =>
    have file : files.isFile (files.workingDirectory.join path) = true := by
      rw [FileTree.isFile, found]
    have ending : Text.beforeEnd? Settings.fileEnding (stem ++ Settings.fileEnding) = some stem :=
      Text.beforeEnd?_eq_some_iff.2 rfl
    have located : Settings.locateFile files path = .ok (files.workingDirectory.join path) := by
      simp [Settings.locateFile, file, named, Settings.isFileName, ending, some_stem]
    rw [if_pos something]
    exact inFile.readFile located found
  | @beside octets other something noFile next found inFile =>
    have file : files.isFile other = true := by rw [FileTree.isFile, found]
    have located : Settings.locateFile files path = .ok other := by
      simp [Settings.locateFile, noFile, next, file]
    rw [if_pos something]
    exact inFile.readFile located found

end SettingsLayer

end Gatehouse
