import Gatehouse.Security.Configurator
/-!
What callers rely on when they set a half of the security state, in terms of what they themselves
have written: the settings' overrides and the registrations. Main statements: `provider_eq`, which
says which provider is asked for, and `build_eq_ok_iff`, which says that it is built by the factory
that was last registered under its name.
-/

namespace Gatehouse

/-! ### Both halves -/

/-- What is agreed on for one half. -/
structure HalfContract where
  /-- The property that its locator is published under. -/
  property : String
  /-- The provider that is asked for: the one that the settings name, or else a built-in one. -/
  provider : SecuritySettings → String
  /-- The rights that it takes to set the half, in the order in which they are asked for. -/
  rights : List Permission

namespace SecurityHalf

def contract : SecurityHalf → HalfContract
  | login => {
      property := "security.auth.login.config"
      provider := fun settings => settings.loginConfigurationProvider.getD "file-login-config"
      rights := [.readSecurityProperty, .setLoginConfiguration, .writeLoginConfigProperty] }
  | policy => {
      property := "security.policy"
      provider := fun settings => settings.policyProvider.getD "file-policy"
      rights := [.readSecurityProperty, .setPolicy, .writePolicyProperty] }

theorem property_eq (half : SecurityHalf) : half.property = half.contract.property := by
  cases half <;> rfl

theorem needed_eq (half : SecurityHalf) : half.needed = half.contract.rights := by
  cases half <;> rfl

end SecurityHalf

theorem SecuritySettings.provider_eq (settings : SecuritySettings) (half : SecurityHalf) :
    settings.provider half = half.contract.provider settings := by
  cases half <;> rfl

/-! ### Registrations -/

namespace Registry

/-- A factory is the one that counts under a name. Newer entries are for other names. -/
def Registers (registry : Registry) (half : SecurityHalf) (name : String) (factory : Factory) :
    Prop :=
  ∃ newer older, registry.entries = newer ++ ((half, name), factory) :: older ∧
    ∀ entry ∈ newer, entry.1 ≠ (half, name)

def LeavesOut (registry : Registry) (half : SecurityHalf) (name : String) : Prop :=
  ∀ entry ∈ registry.entries, entry.1 ≠ (half, name)

/-- What the factory that counts makes of a locator. -/
def Builds (registry : Registry) (half : SecurityHalf) (name : String) (files : FileTree)
    (locator : String) (provider : Provider) : Prop :=
  ∃ factory, registry.Registers half name factory ∧ factory files locator = .ok provider

/-- Why nothing is built under a name: nothing is registered under it for this half, or the factory
that counts refuses the locator. -/
inductive Fails (registry : Registry) (half : SecurityHalf) (name : String) (files : FileTree)
    (locator : String) : ProviderFault → Prop where
  | unregistered (missing : registry.LeavesOut half name) :
      Fails registry half name files locator (.unknown half name)
  | refused {factory : Factory} {fault : ProviderFault}
      (registered : registry.Registers half name factory)
      (refused : factory files locator = .error fault) :
      Fails registry half name files locator fault

variable {registry : Registry} {half : SecurityHalf} {name : String} {files : FileTree}
  {locator : String} {fault : ProviderFault}

theorem factory?_eq_some_iff {factory : Factory} :
    registry.factory? half name = some factory ↔ registry.Registers half name factory := by
  simp only [factory?, List.lookup_eq_some_iff, Registers, bne_iff_ne, ne_comm]

theorem factory?_eq_none_iff :
    registry.factory? half name = none ↔ registry.LeavesOut half name := by
  simp only [factory?, List.lookup_eq_none_iff, LeavesOut, bne_iff_ne, ne_comm]

theorem registers_register (registry : Registry) (half : SecurityHalf) (name : String)
    (factory : Factory) : (registry.register half name factory).Registers half name factory :=
  ⟨[], registry.entries, rfl, List.forall_mem_nil _⟩

theorem build_eq_ok_iff {provider : Provider} :
    registry.build half name files locator = .ok provider ↔
      registry.Builds half name files locator provider := by
  simp only [build, Builds, ← factory?_eq_some_iff]
  cases registry.factory? half name <;> simp

theorem build_eq_error_iff :
    registry.build half name files locator = .error fault ↔
      registry.Fails half name files locator fault := by
  constructor
  · intro failed
    unfold build at failed
    split at failed
    · next factory found => exact .refused (factory?_eq_some_iff.1 found) failed
    · next missing =>
      obtain rfl := Except.error.inj failed
      exact .unregistered (factory?_eq_none_iff.1 missing)
  · rintro (missing | ⟨registered, refused⟩)
    · simp only [build, factory?_eq_none_iff.2 missing]
    · simp only [build, factory?_eq_some_iff.2 registered, refused]

theorem Fails.unique {other : ProviderFault} (failed : registry.Fails half name files locator fault)
    (also : registry.Fails half name files locator other) : fault = other := by
  rw [← build_eq_error_iff] at failed also
  exact Except.error.inj (failed.symm.trans also)

theorem Builds.unique {provider other : Provider}
    (builds : registry.Builds half name files locator provider)
    (also : registry.Builds half name files locator other) : provider = other := by
  rw [← build_eq_ok_iff] at builds also
  exact Except.ok.inj (builds.symm.trans also)

theorem Builds.not_fails {provider : Provider}
    (builds : registry.Builds half name files locator provider) :
    ¬ registry.Fails half name files locator fault := by
  rw [← build_eq_ok_iff] at builds
  rw [← build_eq_error_iff, builds]
  exact nofun

/-- Something is built, or there is a reason why nothing is. -/
theorem exists_builds_iff :
    (∃ provider, registry.Builds half name files locator provider) ↔
      ∀ fault, ¬ registry.Fails half name files locator fault := by
  simp only [← build_eq_ok_iff, ← build_eq_error_iff]
  cases registry.build half name files locator <;> simp

end Registry

namespace Configurator

/-- Its settings name a policy provider other than the built-in one, and both are registered. -/
def withVault : Configurator where
  registry := Registry.withDefaults.register .policy "vault" fun _ locator => .ok ⟨"vault", locator⟩
  settings := { policyProvider := some "vault" }

theorem builds_withVault (files : FileTree) (locator : String) :
    withVault.registry.Builds .policy "vault" files locator ⟨"vault", locator⟩ :=
  ⟨_, Registry.registers_register .., rfl⟩

end Configurator

end Gatehouse
