import Gatehouse.Proofs.Text.Utf8
import Gatehouse.Settings.Load
/-!
Settings by their keys. A tree of settings reads as a text for some of the keys, and a source laid
over it changes that reading at the keys that it gives and at no others. Main statements:
`Lays.overlay`, which says so of a whole source, and `ofSetting?_of_reads`, which says that the
settings are what the tree reads as.
-/

namespace Gatehouse

inductive SettingKey where
  | baseDir
  | relativePath
  | fetchTimeoutSecs
  | sentinelDelete
  | sentinelLogin
  | loginConfigurationProvider
  | policyProvider
  | loginConfig
  | policy
  | keystoreName
  deriving DecidableEq

namespace SettingKey

def all : List SettingKey :=
  [baseDir, relativePath, fetchTimeoutSecs, sentinelDelete, sentinelLogin,
    loginConfigurationProvider, policyProvider, loginConfig, policy, keystoreName]

theorem mem_all (key : SettingKey) : key ∈ all := by cases key <;> decide

def group : SettingKey → String
  | baseDir | relativePath | fetchTimeoutSecs | sentinelDelete | sentinelLogin => "descriptor"
  | loginConfigurationProvider | policyProvider | loginConfig | policy | keystoreName => "security"

def name : SettingKey → String
  | baseDir => "base_dir"
  | relativePath => "relative_path"
  | fetchTimeoutSecs => "fetch_timeout_secs"
  | sentinelDelete => "sentinel_delete"
  | sentinelLogin => "sentinel_login"
  | loginConfigurationProvider => "login_configuration_provider"
  | policyProvider => "policy_provider"
  | loginConfig => "login_config"
  | policy => "policy"
  | keystoreName => "keystore_name"

def capitals (s : String) : String := String.ofList (s.toList.map Char.toUpper)

/-- The name of the setting among the variables of the environment. -/
def variableName (key : SettingKey) : String :=
  "WARDEN__" ++ capitals key.group ++ "__" ++ capitals key.name

example : policyProvider.variableName = "WARDEN__SECURITY__POLICY_PROVIDER" := by decide

theorem name_inj {key other : SettingKey} : key.name = other.name ↔ key = other := by
  constructor
  · intro same
    have distinct : ∀ a ∈ all, ∀ b ∈ all, a.name = b.name → a = b := by decide
    exact distinct key key.mem_all other other.mem_all same
  · rintro rfl
    rfl

/-- The way to the setting, as the environment has it. -/
def path (key : SettingKey) : String := key.group ++ "." ++ key.name

theorem path_inj {key other : SettingKey} : key.path = other.path ↔ key = other := by
  constructor
  · intro same
    have distinct : ∀ a ∈ all, ∀ b ∈ all, a.path = b.path → a = b := by decide
    exact distinct key key.mem_all other other.mem_all same
  · rintro rfl
    rfl

/-- What a single value says of a setting. The time limit is a number, and shown by its digits. -/
def read? : SettingKey → Setting → Option String
  | fetchTimeoutSecs, value => value.natural?.map toString
  | _, value => value.text?

end SettingKey

theorem Path.display_ofString (s : String) : (ofString s).display = s := by
  rw [display, ofString, Text.Utf8.decodeLossy_encode, String.ofList_toList]

/-- What the settings say under a key, which is nothing if they leave it open. -/
def Settings.valueOf (settings : Settings) : SettingKey → Option String
  | .baseDir => some settings.descriptor.baseDir.display
  | .relativePath => some settings.descriptor.relativePath.display
  | .fetchTimeoutSecs => some (toString settings.descriptor.fetchTimeoutSecs)
  | .sentinelDelete => some settings.descriptor.sentinelDelete
  | .sentinelLogin => some settings.descriptor.sentinelLogin
  | .loginConfigurationProvider => settings.security.loginConfigurationProvider
  | .policyProvider => settings.security.policyProvider
  | .loginConfig => settings.security.loginConfig
  | .policy => settings.security.policy
  | .keystoreName => some settings.security.keystoreName

example : SettingKey.all.map ({} : Settings).valueOf =
    [some ".", some "WEB-INF/web.xml", some "10", some "/Delete.jsp", some "/Login.jsp",
      none, none, none, none, some "keystore.jks"] := by
  simp only [SettingKey.all, List.map_cons, List.map_nil, Settings.valueOf, Path.display_ofString]
  rfl

/-! ### The tree of settings -/

namespace Setting

def leaf? (root : Setting) (key : SettingKey) : Option Setting :=
  (root.get? key.group).bind (·.get? key.name)

/-- What a tree says of each setting, if both groups are tables in it. -/
structure Reads (root : Setting) (text? : SettingKey → Option String) : Prop where
  grouped : ∀ key : SettingKey, ∃ entries, root.get? key.group = some (table entries)
  leaves : ∀ key, (root.leaf? key).map key.read? = (text? key).map some

/-- Putting texts at some keys, over whatever a tree says there, and leaving it at the others. -/
def Lays (change : Setting → Setting) (text? : SettingKey → Option String) : Prop :=
  ∀ (root : Setting) (below : SettingKey → Option String), root.Reads below →
    (change root).Reads fun key => (text? key).or (below key)

theorem reads_defaults : Settings.defaults.Reads ({} : Settings).valueOf where
  grouped key := by cases key <;> exact ⟨_, rfl⟩
  leaves key := by cases key <;> rfl

theorem Lays.foldl {α : Type} {change : Setting → α → Setting}
    {said : α → SettingKey → Option String} {entries : List α}
    (each : ∀ entry ∈ entries, Lays (change · entry) (said entry)) :
    Lays (entries.foldl change ·) fun key => entries.reverse.findSome? (said · key) := by
  induction entries with
  | nil => exact fun root below reads => reads
  | cons entry entries ih =>
    obtain ⟨here, later⟩ := List.forall_mem_cons.1 each
    intro root below reads
    have result := ih later _ _ (here root below reads)
    simpa only [List.foldl_cons, List.reverse_cons, List.findSome?_append,
      List.findSome?_singleton, Option.or_assoc] using result

/-- A source lays what its entries say, if they all say the same of a setting. -/
theorem Lays.overlay {entries : Keyed Setting} {text? : SettingKey → Option String}
    {said : String × Setting → SettingKey → Option String}
    (each : ∀ entry ∈ entries, Lays (setAt entry.2 (KeyPath.ofText entry.1)) (said entry))
    (only : ∀ entry ∈ entries, ∀ key text, said entry key = some text → text? key = some text)
    (whole : ∀ key text, text? key = some text → ∃ entry ∈ entries, said entry key = some text) :
    Lays (·.overlay entries) text? := by
  have joint : (fun key => entries.reverse.findSome? (said · key)) = text? := by
    funext key
    cases found : entries.reverse.findSome? (said · key) with
    | some text =>
      obtain ⟨entry, member, told⟩ := List.exists_of_findSome?_eq_some found
      exact (only entry (List.mem_reverse.1 member) key text told).symm
    | none =>
      symm
      apply Option.eq_none_iff_forall_ne_some.2
      intro text given
      obtain ⟨entry, member, told⟩ := whole key text given
      have silent := List.findSome?_eq_none_iff.1 found entry (List.mem_reverse.2 member)
      rw [told] at silent
      cases silent
  rw [← joint]
  exact Lays.foldl each

/-! ### One entry of a source -/

theorem small_group (key : SettingKey) : small key.group = key.group := by cases key <;> decide

theorem small_name (key : SettingKey) : small key.name = key.name := by cases key <;> decide

/-- A change under the name of a group, by what it does to the settings in that group. -/
theorem lays_change {group : String} {f : Option Setting → Setting}
    {text? : SettingKey → Option String}
    (grouped : ∀ entries, ∃ changed, f (some (table entries)) = table changed)
    (inside : ∀ entries, ∀ key : SettingKey, key.group = group →
      ((f (some (table entries))).get? key.name).map key.read? =
        ((text? key).map some).or ((get? (table entries) key.name).map key.read?))
    (outside : ∀ key : SettingKey, key.group ≠ group → text? key = none)
    (spelled : small group = group) : Lays (change group f) text? := by
  intro root below reads
  refine ⟨?_, ?_⟩
  · intro key
    obtain ⟨entries, here⟩ := reads.grouped key
    rw [get?_change, spelled]
    split
    · next same =>
      rw [← same, here]
      obtain ⟨changed, eq⟩ := grouped entries
      exact ⟨changed, congrArg some eq⟩
    · exact ⟨entries, here⟩
  · intro key
    obtain ⟨entries, here⟩ := reads.grouped key
    have before := reads.leaves key
    rw [leaf?, here, Option.bind_some] at before
    rw [leaf?, get?_change, spelled]
    by_cases same : key.group = group
    · rw [if_pos same, ← same, here, Option.bind_some, inside entries key same, before]
      cases text? key <;> rfl
    · rw [if_neg same, here, Option.bind_some, before, outside key same, Option.none_or]

/-- A table says nothing of a setting, so that what says something is put in whole. -/
theorem put_of_read? {key : SettingKey} {value : Setting} {text : String}
    (told : key.read? value = some text) (name : String) (root : Setting) :
    put name value root = root.change name fun _ => value := by
  cases value with
  | table entries => cases key <;> cases told
  | _ => simp [put]

theorem ofText_path (key : SettingKey) :
    KeyPath.ofText key.path = [.name key.group, .name key.name] := by
  cases key <;> decide

theorem ofText_group (key : SettingKey) : KeyPath.ofText key.group = [.name key.group] := by
  cases key <;> decide

theorem lays_variable {key : SettingKey} {value : Setting} {text : String}
    (told : key.read? value = some text) :
    Lays (setAt value (KeyPath.ofText key.path))
      fun other => if other = key then some text else none := by
  have single : setAt value (KeyPath.ofText key.path) =
      change key.group fun old => (old.getD nothing).change key.name fun _ => value := by
    funext root
    rw [ofText_path]
    simp only [setAt, put_of_read? told]
  rw [single]
  apply lays_change
  · intro entries
    exact ⟨_, rfl⟩
  · intro entries other _
    rw [Option.getD_some, get?_change, small_name]
    by_cases same : other = key
    · subst same
      simp [told]
    · have different : other.name ≠ key.name := fun eq => same (SettingKey.name_inj.1 eq)
      simp [same, different]
  · intro other different
    have unlike : other ≠ key := fun eq => different (eq ▸ rfl)
    exact if_neg unlike
  · exact small_group key

theorem get?_merge {entries : List (String × Setting)}
    (said : ∀ entry ∈ entries, ∃ key : SettingKey, ∃ text, entry.1 = key.name ∧
      key.read? entry.2 = some text) (root : Setting) (name : String) :
    (merge entries root).get? name = (entries.reverse.lookup name).or (root.get? name) := by
  induction entries generalizing root with
  | nil => simp [merge]
  | cons entry entries ih =>
    obtain ⟨⟨key, text, same, told⟩, later⟩ := List.forall_mem_cons.1 said
    obtain ⟨written, value⟩ := entry
    simp only at same told
    subst same
    rw [merge, ih later, put_of_read? told, get?_change, small_name, List.reverse_cons,
      List.lookup_append, Option.or_assoc]
    by_cases eq : name = key.name
    · simp [eq]
    · have unlike : (name == key.name) = false := by simpa using eq
      rw [List.lookup_cons, unlike, List.lookup_nil, if_neg eq, Option.none_or]

theorem merge_table (entries inner : List (String × Setting)) :
    ∃ changed, merge entries (table inner) = table changed := by
  induction entries generalizing inner with
  | nil => exact ⟨inner, by rw [merge]⟩
  | cons entry entries ih =>
    obtain ⟨name, value⟩ := entry
    obtain ⟨after, eq⟩ : ∃ after, put name value (table inner) = table after := by
      cases value <;> exact ⟨_, rfl⟩
    rw [merge, eq]
    exact ih after

theorem lays_group {group : SettingKey} {entries : List (String × Setting)}
    (said : ∀ entry ∈ entries, ∃ key : SettingKey, ∃ text, key.group = group.group ∧
      entry.1 = key.name ∧ key.read? entry.2 = some text) :
    Lays (setAt (table entries) (KeyPath.ofText group.group)) fun key =>
      if key.group = group.group then (entries.reverse.lookup key.name).bind key.read?
      else none := by
  have merged : setAt (table entries) (KeyPath.ofText group.group) =
      change group.group fun old => merge entries (old.getD (table [])) := by
    funext root
    rw [ofText_group]
    simp only [setAt, put]
  have leaf : ∀ entry ∈ entries, ∃ key : SettingKey, ∃ text, entry.1 = key.name ∧
      key.read? entry.2 = some text := by
    intro entry member
    obtain ⟨key, text, _, same, told⟩ := said entry member
    exact ⟨key, text, same, told⟩
  rw [merged]
  apply lays_change
  · intro inner
    exact merge_table entries inner
  · intro inner key same
    rw [Option.getD_some, get?_merge leaf, if_pos same]
    cases found : entries.reverse.lookup key.name with
    | none => simp
    | some value =>
      have member := List.mem_reverse.1 (Keyed.mem_of_lookup found)
      obtain ⟨other, text, named, told⟩ := leaf _ member
      obtain rfl := SettingKey.name_inj.1 named
      simp [told]
  · intro key different
    exact if_neg different
  · exact small_group group

end Setting

/-! ### From the tree to the settings -/

namespace Settings

open Setting

variable {root : Setting} {said : SettingKey → Option String}

theorem exists_of_reads (reads : root.Reads said) {key : SettingKey}
    {entries : List (String × Setting)} (group : root.get? key.group = some (table entries))
    (needed : (said key).isSome = true) :
    ∃ value text, get? (table entries) key.name = some value ∧ key.read? value = some text ∧
      said key = some text := by
  obtain ⟨text, given⟩ := Option.isSome_iff_exists.1 needed
  have leaf := reads.leaves key
  rw [leaf?, group, Option.bind_some, given, Option.map_some, Option.map_eq_some_iff] at leaf
  obtain ⟨value, found, told⟩ := leaf
  exact ⟨value, text, found, told, given⟩

theorem optionalText?_of_reads (reads : root.Reads said) {key : SettingKey}
    {entries : List (String × Setting)} (group : root.get? key.group = some (table entries))
    (plain : key.read? = Setting.text?) (position : Nat) :
    optionalText? (table entries) position key.name = some (said key) := by
  have leaf := reads.leaves key
  rw [leaf?, group, Option.bind_some, plain] at leaf
  rw [optionalText?.eq_def]
  simp only [field?]
  cases found : get? (table entries) key.name with
  | none =>
    rw [found] at leaf
    rw [Option.map_eq_none_iff.1 leaf.symm]
  | some value =>
    rw [found, Option.map_some] at leaf
    obtain ⟨text, given, shown⟩ := Option.map_eq_some_iff.1 leaf.symm
    rw [given]
    cases value with
    | nothing => cases shown
    | _ => simp only [← shown, Option.map_some]

theorem descriptor?_of_reads (reads : root.Reads said)
    (needed : ∀ key, (({} : Settings).valueOf key).isSome = true → (said key).isSome = true)
    {entries : List (String × Setting)} (group : root.get? "descriptor" = some (table entries)) :
    ∃ settings, descriptor? (table entries) = some settings ∧
      (∃ text, said .baseDir = some text ∧ settings.baseDir = Path.ofString text) ∧
      (∃ text, said .relativePath = some text ∧ settings.relativePath = Path.ofString text) ∧
      said .fetchTimeoutSecs = some (toString settings.fetchTimeoutSecs) ∧
      said .sentinelDelete = some settings.sentinelDelete ∧
      said .sentinelLogin = some settings.sentinelLogin := by
  have exists_of (key : SettingKey) (inside : key.group = "descriptor")
      (default : (({} : Settings).valueOf key).isSome = true) :
      ∃ value text, get? (table entries) key.name = some value ∧ key.read? value = some text ∧
        said key = some text :=
    exists_of_reads reads (inside ▸ group) (needed key default)
  obtain ⟨_, baseDir, found0, told0, given0⟩ := exists_of .baseDir rfl rfl
  obtain ⟨_, relativePath, found1, told1, given1⟩ := exists_of .relativePath rfl rfl
  obtain ⟨_, digits, found2, told2, given2⟩ := exists_of .fetchTimeoutSecs rfl rfl
  obtain ⟨_, delete, found3, told3, given3⟩ := exists_of .sentinelDelete rfl rfl
  obtain ⟨_, login, found4, told4, given4⟩ := exists_of .sentinelLogin rfl rfl
  obtain ⟨seconds, natural, rfl⟩ := Option.map_eq_some_iff.1 told2
  refine ⟨⟨Path.ofString baseDir, Path.ofString relativePath, seconds, delete, login⟩, ?_,
    ⟨baseDir, given0, rfl⟩, ⟨relativePath, given1, rfl⟩, given2, given3, given4⟩
  simp only [SettingKey.name] at found0 found1 found2 found3 found4
  simp only [SettingKey.read?] at told0 told1 told3 told4
  simp only [descriptor?, field?, found0, told0, found1, told1, found2, natural, found3, told3,
    found4, told4, Option.bind_eq_bind, Option.bind_some, Option.pure_def]

theorem security?_of_reads (reads : root.Reads said)
    (needed : ∀ key, (({} : Settings).valueOf key).isSome = true → (said key).isSome = true)
    {entries : List (String × Setting)} (group : root.get? "security" = some (table entries)) :
    ∃ settings, security? (table entries) = some settings ∧
      said .loginConfigurationProvider = settings.loginConfigurationProvider ∧
      said .policyProvider = settings.policyProvider ∧
      said .loginConfig = settings.loginConfig ∧
      said .policy = settings.policy ∧
      said .keystoreName = some settings.keystoreName := by
  obtain ⟨_, keystore, found, told, given⟩ :=
    @exists_of_reads _ _ reads .keystoreName _ group (needed _ rfl)
  have optional0 := @optionalText?_of_reads _ _ reads .loginConfigurationProvider _ group rfl 0
  have optional1 := @optionalText?_of_reads _ _ reads .policyProvider _ group rfl 1
  have optional2 := @optionalText?_of_reads _ _ reads .loginConfig _ group rfl 2
  have optional3 := @optionalText?_of_reads _ _ reads .policy _ group rfl 3
  refine ⟨⟨said .loginConfigurationProvider, said .policyProvider, said .loginConfig,
    said .policy, keystore⟩, ?_, rfl, rfl, rfl, rfl, given⟩
  simp only [SettingKey.name] at found optional0 optional1 optional2 optional3
  simp only [SettingKey.read?] at told
  simp only [security?, field?, found, told, optional0, optional1, optional2, optional3,
    Option.bind_eq_bind, Option.bind_some, Option.pure_def]

/-- The settings are what the tree says, if it says something wherever the program has a default. -/
theorem ofSetting?_of_reads (reads : root.Reads said)
    (needed : ∀ key, (({} : Settings).valueOf key).isSome = true → (said key).isSome = true) :
    ∃ settings, ofSetting? root = some settings ∧ (∀ key, settings.valueOf key = said key) ∧
      (∃ text, said .baseDir = some text ∧ settings.descriptor.baseDir = Path.ofString text) ∧
      ∃ text, said .relativePath = some text ∧
        settings.descriptor.relativePath = Path.ofString text := by
  obtain ⟨entries, group⟩ := reads.grouped .baseDir
  obtain ⟨descriptor, readDescriptor, texts⟩ := descriptor?_of_reads reads needed group
  obtain ⟨others, inSecurity⟩ := reads.grouped .policy
  obtain ⟨security, readSecurity, more⟩ := security?_of_reads reads needed inSecurity
  obtain ⟨⟨place, said0, baseDir⟩, ⟨below, said1, relativePath⟩, text2, text3, text4⟩ := texts
  obtain ⟨more0, more1, more2, more3, more4⟩ := more
  refine ⟨⟨descriptor, security⟩, ?_, ?_, ⟨place, said0, baseDir⟩, ⟨below, said1, relativePath⟩⟩
  · simp only [SettingKey.group] at group inSecurity
    simp only [ofSetting?, group, inSecurity, Option.map_some, Option.getD_some, readDescriptor,
      readSecurity, Option.bind_eq_bind, Option.bind_some, Option.pure_def]
  · intro key
    cases key <;> simp only [valueOf, Path.display_ofString, *]

end Settings

end Gatehouse
