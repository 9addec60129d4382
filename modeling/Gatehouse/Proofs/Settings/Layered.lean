import Gatehouse.Proofs.Settings.Sources
import Mathlib.Data.List.Nodup
/-!
Loading the settings from all sources. Main statement: `load_layered`, which says that every setting
is what the highest source says that says anything of it, the environment above the file and the
file above the defaults, whichever settings the sources give.
-/

namespace Gatehouse

open Setting

/-! ### The directory of the web application -/

namespace Path

theorem isAbsolute_join {base : Path} (absolute : base.isAbsolute = true) (other : Path) :
    (base.join other).isAbsolute = true := by
  rw [join]
  split
  · next already => exact already
  · have begins : base.octets.head? = some slash := by simpa [isAbsolute] using absolute
    split
    · simp [isAbsolute, begins]
    · simp [isAbsolute, begins]

end Path

/-! ### All sources -/

namespace Settings

/-- What the sources say of a setting, the environment above the file and both above the default. -/
def layered (fromEnvironment fromFile : SettingsLayer) (key : SettingKey) : Option String :=
  (fromEnvironment.text? key).or ((fromFile.text? key).or (({} : Settings).valueOf key))

theorem load_eq (files : FileTree) (path : String) (environment : List (String × String)) :
    load files path environment =
      (if files.exists? (Path.ofString path) = true then readFile files (Path.ofString path)
        else .ok []).bind fun fromFile =>
          match ofSetting? ((defaults.overlay fromFile).overlay (ofEnvironment environment)) with
          | some settings => .ok (settings.located files.workingDirectory)
          | none => .error .unusable := by
  unfold load
  by_cases something : files.exists? (Path.ofString path) = true
  · simp only [something, if_true]
    rfl
  · simp only [something]
    rfl

/-- The settings are what the sources say, a relative directory being seen from the working
directory. -/
structure IsLayered (settings : Settings) (workingDirectory : Path)
    (fromEnvironment fromFile : SettingsLayer) : Prop where
  others : ∀ key, key ≠ .baseDir → settings.valueOf key = layered fromEnvironment fromFile key
  relativePath : ∃ given, layered fromEnvironment fromFile .relativePath = some given ∧
    settings.descriptor.relativePath = Path.ofString given
  baseDir : ∃ given, layered fromEnvironment fromFile .baseDir = some given ∧
    settings.descriptor.baseDir =
      if (Path.ofString given).isAbsolute = true then Path.ofString given
      else workingDirectory.join (Path.ofString given)

theorem load_of_layers {fromEnvironment fromFile : SettingsLayer} {files : FileTree} {path : String}
    {environment : List (String × String)} (inFile : fromFile.IsAt files (Path.ofString path))
    (inEnvironment : fromEnvironment.IsInEnvironment environment) :
    ∃ settings, load files path environment = .ok settings ∧
      settings.IsLayered files.workingDirectory fromEnvironment fromFile := by
  obtain ⟨entries, read, laysFile⟩ := inFile.fromFile
  have reads : ((defaults.overlay entries).overlay (ofEnvironment environment)).Reads
      (layered fromEnvironment fromFile) := inEnvironment.lays _ _ (laysFile _ _ reads_defaults)
  have needed : ∀ key, (({} : Settings).valueOf key).isSome = true →
      (layered fromEnvironment fromFile key).isSome = true := by
    intro key default
    simp [layered, Option.isSome_or, default]
  obtain ⟨settings, built, texts, ⟨given, said, place⟩, relativePath⟩ :=
    ofSetting?_of_reads reads needed
  refine ⟨settings.located files.workingDirectory, ?_, ?_, relativePath, given, said, ?_⟩
  · rw [load_eq, read]
    simp only [Except.bind, built]
  · intro key other
    rw [← texts key]
    cases key with
    | baseDir => exact absurd rfl other
    | _ => simp only [valueOf, located]
  · simp only [located, place, Path.join]
    split <;> rfl

theorem baseDir_of_load {files : FileTree} (rooted : files.workingDirectory.isAbsolute = true)
    {path : String} {environment : List (String × String)} {settings : Settings}
    (loaded : load files path environment = .ok settings) :
    settings.descriptor.baseDir.isAbsolute = true := by
  rw [load_eq] at loaded
  cases read : if files.exists? (Path.ofString path) = true
      then readFile files (Path.ofString path) else .ok [] with
  | error fault =>
    rw [read] at loaded
    cases loaded
  | ok entries =>
    rw [read, Except.bind] at loaded
    split at loaded
    · cases loaded
      exact Path.isAbsolute_join rooted _
    · cases loaded

end Settings

/-! ### Every choice can be made -/

namespace SettingsLayer

variable (layer : SettingsLayer)

/-- The part of the file with the settings that are in one group with `member`. -/
def block (member : SettingKey) : Toml.Section where
  name := member.group
  entries := SettingKey.all.filterMap fun key =>
    if key.group = member.group then (layer.text? key).map (key.name, ·) else none

def blocks : List Toml.Section := [SettingKey.baseDir, SettingKey.policy].map layer.block

def write : List Char := layer.blocks.flatMap Toml.Section.write

def environment : List (String × String) :=
  SettingKey.all.filterMap fun key => (layer.text? key).map (key.variableName, ·)

variable {layer}

theorem mem_block_iff {member : SettingKey} {name text : String} :
    (name, text) ∈ (layer.block member).entries ↔
      ∃ key : SettingKey, key.group = member.group ∧ name = key.name ∧
        layer.text? key = some text := by
  simp only [block, List.mem_filterMap]
  constructor
  · rintro ⟨key, _, kept⟩
    split at kept
    · next same =>
      obtain ⟨found, gives, eq⟩ := Option.map_eq_some_iff.1 kept
      obtain ⟨rfl, rfl⟩ := Prod.mk.inj eq
      exact ⟨key, same, rfl, gives⟩
    · cases kept
  · rintro ⟨key, same, rfl, gives⟩
    exact ⟨key, key.mem_all, by rw [if_pos same, gives, Option.map_some]⟩

theorem isName_group (key : SettingKey) : Toml.IsName key.group := by cases key <;> decide

theorem isName_name (key : SettingKey) : Toml.IsName key.name := by cases key <;> decide

theorem isProper_block (member : SettingKey) : (layer.block member).IsProper where
  name := isName_group member
  keys := by
    rintro ⟨name, text⟩ inside
    obtain ⟨key, _, rfl, _⟩ := mem_block_iff.1 inside
    exact isName_name key
  distinct := by
    rw [block, List.map_filterMap]
    apply List.Nodup.filterMap
    · intro key other name first second
      have named : ∀ key : SettingKey, name ∈ Option.map Prod.fst
          (if key.group = member.group then (layer.text? key).map (key.name, ·) else none) →
          name = key.name := by
        intro key shown
        simp only [Option.mem_def, Option.map_eq_some_iff] at shown
        obtain ⟨⟨_, text⟩, kept, rfl⟩ := shown
        split at kept
        · obtain ⟨found, _, eq⟩ := Option.map_eq_some_iff.1 kept
          exact (Prod.mk.inj eq).1.symm
        · cases kept
      exact SettingKey.name_inj.1 ((named key first).symm.trans (named other second))
    · decide

theorem isInTable_blocks :
    layer.IsInTable (layer.blocks.map fun block => (block.name, .table .header block.table)) where
  only := by
    intro name value inside
    obtain ⟨_, block, eq⟩ := List.mem_map.1 inside
    obtain ⟨member, _, rfl⟩ := List.mem_map.1 block
    obtain ⟨rfl, rfl⟩ := Prod.mk.inj eq
    refine ⟨member, .header, _, rfl, rfl, ?_⟩
    intro written inner leaf
    obtain ⟨⟨name, text⟩, entry, eq⟩ := List.mem_map.1 leaf
    obtain ⟨rfl, rfl⟩ := Prod.mk.inj eq
    obtain ⟨key, same, named, gives⟩ := mem_block_iff.1 entry
    exact ⟨key, text, same, named, gives, .string key text⟩
  whole := by
    intro key text gives
    obtain ⟨member, listed, same⟩ : ∃ member ∈ [SettingKey.baseDir, SettingKey.policy],
        key.group = member.group := by cases key <;> decide
    have entry : (key.name, text) ∈ (layer.block member).entries :=
      mem_block_iff.2 ⟨key, same, rfl, gives⟩
    refine ⟨.header, (layer.block member).table, .string text, ?_, ?_⟩
    · rw [same]
      exact List.mem_map.2 ⟨layer.block member, List.mem_map_of_mem listed, rfl⟩
    · exact List.mem_map.2 ⟨_, entry, rfl⟩

theorem isInFile_write : layer.IsInFile (Text.Utf8.encode layer.write) := by
  apply IsInFile.plain
  · show some '[' ≠ some '\uFEFF'
    decide
  · apply Toml.ofText?_sections
    · intro block inside
      obtain ⟨member, _, rfl⟩ := List.mem_map.1 inside
      exact isProper_block member
    · show ["descriptor", "security"].Nodup
      decide
  · exact isInTable_blocks

theorem isInEnvironment_environment : layer.IsInEnvironment layer.environment where
  only := by
    intro name text inside
    obtain ⟨key, _, kept⟩ := List.mem_filterMap.1 inside
    obtain ⟨found, gives, eq⟩ := Option.map_eq_some_iff.1 kept
    obtain ⟨rfl, rfl⟩ := Prod.mk.inj eq
    exact .inl ⟨key, rfl, gives⟩
  whole := by
    intro key text gives
    exact List.mem_filterMap.2 ⟨key, key.mem_all, by rw [gives, Option.map_some]⟩

/-- A root directory with nothing in it but the file. -/
def files : FileTree where
  entries := [([Text.Utf8.encode "settings.toml".toList],
    .file (Text.Utf8.encode layer.write))]

theorem isAt_files : layer.IsAt layer.files (Path.ofString "settings.toml") := by
  have found :
      layer.files.find (layer.files.workingDirectory.join (Path.ofString "settings.toml")) =
        .ok (.file (Text.Utf8.encode layer.write)) := by
    rfl
  exact @IsAt.there _ _ _ _ (Text.Utf8.encode "settings".toList) rfl found rfl (by decide)
    isInFile_write

end SettingsLayer

/-! ### The main statement -/

namespace Settings

/-- Whichever settings the file and the environment give, there are such a file and such an
environment, and with any of them the settings are what the sources say, the highest one first. The
directory of the web application is absolute after every loading. -/
theorem load_layered :
    (∀ fromEnvironment fromFile : SettingsLayer,
      (∃ files path environment, fromFile.IsAt files (Path.ofString path) ∧
        fromEnvironment.IsInEnvironment environment) ∧
      ∀ files path environment, fromFile.IsAt files (Path.ofString path) →
        fromEnvironment.IsInEnvironment environment →
          ∃ settings, load files path environment = .ok settings ∧
            settings.IsLayered files.workingDirectory fromEnvironment fromFile) ∧
    ∀ files path environment settings, files.workingDirectory.isAbsolute = true →
      load files path environment = .ok settings →
        settings.descriptor.baseDir.isAbsolute = true := by
  refine ⟨?_, ?_⟩
  · intro fromEnvironment fromFile
    refine ⟨?_, ?_⟩
    · exact ⟨fromFile.files, "settings.toml", fromEnvironment.environment,
        SettingsLayer.isAt_files, SettingsLayer.isInEnvironment_environment⟩
    · intro files path environment inFile inEnvironment
      exact load_of_layers inFile inEnvironment
  · intro files path environment settings rooted loaded
    exact baseDir_of_load rooted loaded

def mixedText : String :=
  "descriptor = \x7b fetch_timeout_secs = 3 \x7d # \n[security]\npolicy = \"\\u00e9\"\n"

def mixedTable : Toml.Table :=
  [("descriptor", .table .closed [("fetch_timeout_secs", .integer 3)]),
    ("security", .table .header [("policy", .string "é")])]

def mixedFile : SettingsLayer where
  text?
    | .fetchTimeoutSecs => some "3"
    | .policy => some "é"
    | _ => none
  numeral := by
    rintro text ⟨⟩
    exact ⟨3, by decide, rfl⟩

def mixedEnvironment : SettingsLayer where
  text?
    | .baseDir => some "web apps"
    | .policyProvider => some ""
    | _ => none
  numeral := by
    rintro text ⟨⟩

def mixedFiles : FileTree where
  entries :=
    [([Text.Utf8.encode "etc".toList], .directory),
      ([Text.Utf8.encode "etc".toList, Text.Utf8.encode "gate.toml".toList],
        .file (Text.Utf8.encode mixedText.toList))]
  workingDirectory := Path.ofString "/etc"

def mixedVariables : List (String × String) :=
  [("HOME", "/root"), ("WARDEN__DESCRIPTOR__BASE_DIR", "web apps"),
    ("WARDEN__SECURITY__POLICY_PROVIDER", "")]

set_option maxRecDepth 2000 in
theorem ofText?_mixedText : Toml.Table.ofText? mixedText.toList = some mixedTable := by rfl

theorem isInTable_mixedTable : mixedFile.IsInTable mixedTable where
  only := by
    intro name value inside
    rcases List.mem_pair.1 inside with eq | eq
    · obtain ⟨rfl, rfl⟩ := Prod.mk.inj eq
      refine ⟨.fetchTimeoutSecs, .closed, _, rfl, rfl, ?_⟩
      intro written inner leaf
      obtain ⟨rfl, rfl⟩ := Prod.mk.inj (List.mem_singleton.1 leaf)
      exact ⟨.fetchTimeoutSecs, "3", rfl, rfl, rfl, .integer 3⟩
    · obtain ⟨rfl, rfl⟩ := Prod.mk.inj eq
      refine ⟨.policy, .header, _, rfl, rfl, ?_⟩
      intro written inner leaf
      obtain ⟨rfl, rfl⟩ := Prod.mk.inj (List.mem_singleton.1 leaf)
      exact ⟨.policy, "é", rfl, rfl, rfl, .string .policy "é"⟩
  whole := by
    intro key text gives
    cases key with
    | fetchTimeoutSecs =>
      exact ⟨.closed, _, _, List.mem_cons_self, List.mem_singleton.2 rfl⟩
    | policy =>
      exact ⟨.header, _, _, List.mem_cons_of_mem _ List.mem_cons_self, List.mem_singleton.2 rfl⟩
    | _ => cases gives

theorem isInEnvironment_mixedVariables : mixedEnvironment.IsInEnvironment mixedVariables where
  only := by
    intro name text inside
    rcases List.mem_cons.1 inside with eq | later
    · obtain ⟨rfl, rfl⟩ := Prod.mk.inj eq
      exact .inr (by decide)
    · rcases List.mem_pair.1 later with eq | eq
      · obtain ⟨rfl, rfl⟩ := Prod.mk.inj eq
        exact .inl ⟨.baseDir, by decide, rfl⟩
      · obtain ⟨rfl, rfl⟩ := Prod.mk.inj eq
        exact .inl ⟨.policyProvider, by decide, rfl⟩
  whole := by
    intro key text gives
    cases key with
    | baseDir =>
      cases gives
      decide
    | policyProvider =>
      cases gives
      decide
    | _ => cases gives

theorem load_layered_mixedSources :
    ∃ settings, load mixedFiles "gate.toml" mixedVariables = .ok settings ∧
      settings.descriptor.baseDir = Path.ofString "/etc/web apps" ∧
      settings.valueOf .fetchTimeoutSecs = some "3" ∧
      settings.valueOf .policyProvider = some "" ∧
      settings.valueOf .policy = some "é" ∧
      settings.valueOf .sentinelLogin = some "/Login.jsp" ∧
      settings.descriptor.baseDir.isAbsolute = true := by
  have written : mixedFile.IsInFile (Text.Utf8.encode mixedText.toList) :=
    .plain (by decide) ofText?_mixedText isInTable_mixedTable
  have inFile : mixedFile.IsAt mixedFiles (Path.ofString "gate.toml") :=
    @SettingsLayer.IsAt.there _ _ _ _ (Text.Utf8.encode "gate".toList) rfl rfl rfl (by decide)
      written
  obtain ⟨settings, loaded, others, -, given, said, baseDir⟩ :=
    (load_layered.1 mixedEnvironment mixedFile).2 _ _ _ inFile isInEnvironment_mixedVariables
  refine ⟨settings, loaded, ?_, ?_, ?_, ?_, ?_, load_layered.2 _ _ _ _ (by decide) loaded⟩
  · have place : mixedFiles.workingDirectory.join (Path.ofString "web apps") =
        Path.ofString "/etc/web apps" := by decide
    obtain rfl : "web apps" = given := Option.some.inj said
    rw [baseDir, if_neg (by decide), place]
  · rw [others _ (by decide)]
    rfl
  · rw [others _ (by decide)]
    rfl
  · rw [others _ (by decide)]
    rfl
  · rw [others _ (by decide)]
    rfl

end Settings

end Gatehouse
