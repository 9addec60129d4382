import Gatehouse.FileTree
import Gatehouse.Settings.Basic
import Gatehouse.Settings.KeyPath
import Gatehouse.Toml.Document
/-!
Loading the settings: what the environment says stands above what the file says, and that above the
defaults.
-/

namespace Gatehouse

inductive SettingsError where
  /-- What is at the file's path is no file, and neither is there one beside it. -/
  | noFile
  | unknownFormat
  | unreadable (fault : FileFault)
  | malformed
  | unusable
  deriving DecidableEq

namespace Settings

/-! ### The file -/

def fileEnding : List UInt8 := Text.Utf8.encode ".toml".toList

def isFileName (name : List UInt8) : Bool :=
  (Text.beforeEnd? fileEnding name).any fun stem => !stem.isEmpty

/-- Where the settings file is. If there is something else at the path, the file is beside it. -/
def locateFile (files : FileTree) (path : Path) : Except SettingsError Path :=
  let path := files.workingDirectory.join path
  if files.isFile path then
    if path.fileName?.any isFileName then .ok path else .error .unknownFormat
  else
    match path.extend? fileEnding with
    | some path => if files.isFile path then .ok path else .error .noFile
    | none => .error .noFile

/-- What a settings file says. A byte-order mark may stand at its start, and what is not UTF-8 is
replaced. -/
def readFile (files : FileTree) (path : Path) : Except SettingsError (Keyed Setting) := do
  match files.read (← locateFile files path) with
  | .error fault => throw (.unreadable fault)
  | .ok octets =>
    let octets := (Text.afterStart? (Text.Utf8.encode ['\uFEFF']) octets).getD octets
    match Toml.Table.ofText? (Text.Utf8.decodeLossy octets) with
    | some table => return Setting.ofTomlEntries table
    | none => throw .malformed

/-! ### The environment -/

def variablePrefix : List Char := "warden__".toList

def withPoints : List Char → List Char
  | '_' :: '_' :: s => '.' :: withPoints s
  | c :: s => c :: withPoints s
  | [] => []

def variableKey? (name : String) : Option String :=
  (Text.afterStart? variablePrefix (Setting.small name).toList).map fun rest =>
    String.ofList (withPoints rest)

def ofEnvironment (environment : List (String × String)) : Keyed Setting :=
  environment.filterMap fun (name, value) => (variableKey? name).map (·, .text value)

/-! ### From the tree to the settings -/

def defaults : Setting :=
  let descriptor : DescriptorSettings := {}
  let security : SecuritySettings := {}
  .table [
    ("descriptor", .table [
      ("base_dir", .text descriptor.baseDir.display),
      ("relative_path", .text descriptor.relativePath.display),
      ("fetch_timeout_secs", .integer descriptor.fetchTimeoutSecs),
      ("sentinel_delete", .text descriptor.sentinelDelete),
      ("sentinel_login", .text descriptor.sentinelLogin)]),
    ("security", .table [("keystore_name", .text security.keystoreName)])]

def field? (group : Setting) (position : Nat) (key : String) : Option Setting :=
  match group with
  | .table _ => group.get? key
  | .list items => items[position]?
  | _ => none

/-- A field that may be missing from a table, but not from a list. -/
def optionalText? (group : Setting) (position : Nat) (key : String) : Option (Option String) :=
  match group, field? group position key with
  | _, some .nothing => some none
  | _, some value => value.text?.map some
  | .table _, none => some none
  | _, none => none

def descriptor? (group : Setting) : Option DescriptorSettings := do
  return {
    baseDir := Path.ofString (← (← field? group 0 "base_dir").text?)
    relativePath := Path.ofString (← (← field? group 1 "relative_path").text?)
    fetchTimeoutSecs := ← (← field? group 2 "fetch_timeout_secs").natural?
    sentinelDelete := ← (← field? group 3 "sentinel_delete").text?
    sentinelLogin := ← (← field? group 4 "sentinel_login").text? }

def security? (group : Setting) : Option SecuritySettings := do
  return {
    loginConfigurationProvider := ← optionalText? group 0 "login_configuration_provider"
    policyProvider := ← optionalText? group 1 "policy_provider"
    loginConfig := ← optionalText? group 2 "login_config"
    policy := ← optionalText? group 3 "policy"
    keystoreName := ←
      match field? group 4 "keystore_name" with
      | some value => value.text?
      | none => some ({} : SecuritySettings).keystoreName }

def ofSetting? (root : Setting) : Option Settings := do
  return {
    descriptor := ← ((root.get? "descriptor").map descriptor?).getD (some {})
    security := ← ((root.get? "security").map security?).getD (some {}) }

/-- The settings with the directory of the web application as seen from the working directory. -/
def located (settings : Settings) (workingDirectory : Path) : Settings :=
  { settings with descriptor.baseDir := workingDirectory.join settings.descriptor.baseDir }

def load (files : FileTree) (path : String) (environment : List (String × String)) :
    Except SettingsError Settings := do
  let path := Path.ofString path
  let fromFile ← if files.exists? path then readFile files path else .ok []
  let root := (defaults.overlay fromFile).overlay (ofEnvironment environment)
  match ofSetting? root with
  | some settings => return settings.located files.workingDirectory
  | none => throw .unusable

end Settings

end Gatehouse
