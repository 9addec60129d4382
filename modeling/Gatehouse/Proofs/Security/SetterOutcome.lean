import Gatehouse.Proofs.Security.Attempt
import Gatehouse.Proofs.Security.Registration
import Gatehouse.Proofs.Text.Trim
/-!
What comes of a single setter. A blank locator is found first, then a missing right, then a provider
that cannot be built. Main statement: `outcome_set`, which says exactly when each of them stops the
setter, and what it leaves of the state.
-/

namespace Gatehouse

/-! ### Rights -/

namespace CallerContext

def Holds (context : CallerContext) (needed : List Permission) : Prop :=
  ∀ permission ∈ needed, context.allows permission = true

/-- Of the rights that are needed, in their order, this one is the first that the caller lacks. -/
def LacksFirst (context : CallerContext) (needed : List Permission) (permission : Permission) :
    Prop :=
  ∃ held rest, needed = held ++ permission :: rest ∧ context.Holds held ∧
    context.allows permission = false

variable {context : CallerContext} {needed : List Permission} {permission : Permission}

theorem firstDenied?_eq_some_iff :
    context.firstDenied? needed = some permission ↔ context.LacksFirst needed permission := by
  simp only [firstDenied?, List.find?_eq_some_iff_append, Bool.not_eq_true', Bool.not_not,
    LacksFirst, Holds]
  constructor
  · rintro ⟨denied, held, rest, same, allowed⟩
    exact ⟨held, rest, same, allowed, denied⟩
  · rintro ⟨held, rest, same, allowed, denied⟩
    exact ⟨denied, held, rest, same, allowed⟩

theorem LacksFirst.not_holds (lacks : context.LacksFirst needed permission) :
    ¬ context.Holds needed := by
  obtain ⟨held, rest, rfl, _, denied⟩ := lacks
  intro holds
  rw [holds permission (by simp)] at denied
  cases denied

theorem Holds.not_lacksFirst (holds : context.Holds needed) (permission : Permission) :
    ¬ context.LacksFirst needed permission :=
  fun lacks => lacks.not_holds holds

theorem LacksFirst.unique {other : Permission} (lacks : context.LacksFirst needed permission)
    (also : context.LacksFirst needed other) : permission = other := by
  rw [← firstDenied?_eq_some_iff] at lacks also
  exact Option.some.inj (lacks.symm.trans also)

end CallerContext

/-! ### The state after a setter -/

/-- One half holds what is given here, and all else is as it was before. -/
def SecurityState.IsUpdate (before after : SecurityState) (half : SecurityHalf)
    (provider : Option Provider) (locator : String) : Prop :=
  (∀ other, after.installed other = if other = half then provider else before.installed other) ∧
    ∀ name, after.property? name =
      if name = half.contract.property then some locator else before.property? name

theorem SecurityState.isUpdate_emptied (state : SecurityState) (half : SecurityHalf)
    (locator : String) :
    state.IsUpdate ((state.install half none).publish half.property locator) half none locator := by
  refine ⟨fun other => ?_, fun name => ?_⟩
  · rw [installed_publish, installed_install]
  · rw [property?_publish, property?_install, half.property_eq]

theorem SecurityState.isUpdate_filled (state : SecurityState) (half : SecurityHalf)
    (locator : String) (provider : Provider) :
    state.IsUpdate (((state.install half none).publish half.property locator).install half
      (some provider)) half (some provider) locator := by
  refine ⟨fun other => ?_, fun name => ?_⟩
  · rw [installed_install, installed_publish, installed_install]
    split <;> rfl
  · rw [property?_install, property?_publish, property?_install, half.property_eq]

/-! ### Setters -/

namespace Configurator

variable (configurator : Configurator) (half : SecurityHalf) (files : FileTree)
  (context : CallerContext) (locator : String) (state : SecurityState)

theorem set_of_blank (blank : ∀ c ∈ locator.toList, Text.isBlank c = true) :
    configurator.set half files context locator state = ⟨.error (.blankLocator half), [], state⟩ := by
  have nothing := Text.strip_eq_empty_iff.2 blank
  simp only [set, nothing, if_true]

theorem set_of_lacksFirst {permission : Permission}
    (visible : ¬ ∀ c ∈ locator.toList, Text.isBlank c = true)
    (lacks : context.LacksFirst half.needed permission) :
    configurator.set half files context locator state =
      ⟨.error (.permissionDenied permission), [.denied permission], state⟩ := by
  rw [← Text.strip_eq_empty_iff] at visible
  simp only [set, visible, if_false]
  exact CallerContext.guarded_of_denied (CallerContext.firstDenied?_eq_some_iff.2 lacks) _ _

theorem set_of_holds (visible : ¬ ∀ c ∈ locator.toList, Text.isBlank c = true)
    (holds : context.Holds half.needed) :
    configurator.set half files context locator state =
      configurator.replace half files (Text.strip locator) state :=
  set_of_accepts ⟨fun nothing => visible (Text.strip_eq_empty_iff.1 nothing), holds⟩

/-- The ways in which a setter can end, each with what decides for it and with all that comes of
it. -/
theorem set_cases :
    let outcome := configurator.set half files context locator state
    let provider := half.contract.provider configurator.settings
    let trimmed := Text.strip locator
    let blank : Prop := ∀ c ∈ locator.toList, Text.isBlank c = true
    let emptied := (state.install half none).publish half.property trimmed
    (blank ∧ outcome = ⟨.error (.blankLocator half), [], state⟩) ∨
      (¬ blank ∧ ∃ permission, context.LacksFirst half.needed permission ∧
        outcome = ⟨.error (.permissionDenied permission), [.denied permission], state⟩) ∨
      (¬ blank ∧ context.Holds half.needed ∧ ∃ fault,
        configurator.registry.Fails half provider files trimmed fault ∧
        outcome = ⟨.error (.notInstalled provider fault), [], emptied⟩) ∨
      (¬ blank ∧ context.Holds half.needed ∧ ∃ built,
        configurator.registry.Builds half provider files trimmed built ∧
        outcome = ⟨.ok (), [half.installedEvent provider trimmed],
          emptied.install half (some built)⟩) := by
  intro outcome provider trimmed blank emptied
  have selected : configurator.settings.provider half = provider :=
    configurator.settings.provider_eq half
  by_cases nothing : blank
  · exact Or.inl ⟨nothing, configurator.set_of_blank half files context locator state nothing⟩
  right
  cases denied : context.firstDenied? half.needed with
  | some permission =>
    have lacks := CallerContext.firstDenied?_eq_some_iff.1 denied
    exact Or.inl ⟨nothing, permission, lacks,
      configurator.set_of_lacksFirst half files context locator state nothing lacks⟩
  | none =>
    right
    have holds := CallerContext.firstDenied?_eq_none_iff.1 denied
    have replaced := configurator.set_of_holds half files context locator state nothing holds
    cases build : configurator.registry.build half (configurator.settings.provider half) files
        trimmed with
    | error fault =>
      replace replaced := replaced.trans (replace_of_fault build)
      rw [selected] at build replaced
      exact Or.inl ⟨nothing, holds, fault, Registry.build_eq_error_iff.1 build, replaced⟩
    | ok built =>
      replace replaced := replaced.trans (replace_of_built build)
      rw [selected] at build replaced
      exact Or.inr ⟨nothing, holds, built, Registry.build_eq_ok_iff.1 build, replaced⟩

/-- A setter ends in one of four ways. A blank locator comes first, whoever the caller is, then the
first right that is missing, then a provider that cannot be built: the one that the settings name, or
else a built-in one, is not registered, or its factory refuses the locator. Else the setter succeeds
with what that factory has built. The first two leave the state alone, and no settings, registry or
file changes them. The other two publish the locator without its outer blanks and touch nothing but
their own half, and a provider that cannot be built leaves that half empty. -/
theorem outcome_set :
    let outcome := configurator.set half files context locator state
    let provider := half.contract.provider configurator.settings
    let rights := half.contract.rights
    let trimmed := Text.strip locator
    let blank : Prop := ∀ c ∈ locator.toList, Text.isBlank c = true
    let fails := configurator.registry.Fails half provider files trimmed
    let builds := configurator.registry.Builds half provider files trimmed
    ((∀ other, outcome.result = .error (.blankLocator other) ↔ blank ∧ other = half) ∧
      (∀ permission, outcome.result = .error (.permissionDenied permission) ↔
        ¬ blank ∧ context.LacksFirst rights permission) ∧
      (∀ name fault, outcome.result = .error (.notInstalled name fault) ↔
        ¬ blank ∧ context.Holds rights ∧ name = provider ∧ fails fault) ∧
      (outcome.result = .ok () ↔ ¬ blank ∧ context.Holds rights ∧ ∃ built, builds built) ∧
      ((∃ built, builds built) ↔ ∀ fault, ¬ fails fault)) ∧
    match outcome.result with
    | .error (.blankLocator _) => outcome.state = state ∧
        ∀ (other : Configurator) files context,
          other.set half files context locator state = outcome
    | .error (.permissionDenied _) => outcome.state = state ∧
        ∀ (other : Configurator) files, other.set half files context locator state = outcome
    | .error (.notInstalled _ _) => state.IsUpdate outcome.state half none trimmed
    | .ok () => ∃ built, builds built ∧ state.IsUpdate outcome.state half (some built) trimmed := by
  intro outcome provider rights trimmed blank fails builds
  have needed : half.needed = rights := half.needed_eq
  have either : (∃ built, builds built) ↔ ∀ fault, ¬ fails fault := Registry.exists_builds_iff
  obtain ⟨nothing, same⟩ | ⟨visible, denied, lacks, same⟩ | ⟨visible, holds, fault, failed, same⟩ |
      ⟨visible, holds, built, build, same⟩ := configurator.set_cases half files context locator state
  · have always (other : Configurator) (files : FileTree) (context : CallerContext) :
        other.set half files context locator state = outcome :=
      (other.set_of_blank half files context locator state nothing).trans same.symm
    have nothing : blank := nothing
    have itself (other : SecurityHalf) : half = other ↔ other = half := eq_comm
    rw [show outcome = _ from same] at always ⊢
    exact ⟨by simpa [nothing, itself] using either, rfl, always⟩
  · have always (other : Configurator) (files : FileTree) :
        other.set half files context locator state = outcome :=
      (other.set_of_lacksFirst half files context locator state visible lacks).trans same.symm
    have visible : ¬ blank := visible
    rw [needed] at lacks
    have only (permission : Permission) :
        denied = permission ↔ context.LacksFirst rights permission :=
      ⟨fun same => same ▸ lacks, lacks.unique⟩
    rw [show outcome = _ from same] at always ⊢
    exact ⟨by simpa [visible, lacks.not_holds, only] using either, rfl, always⟩
  · have visible : ¬ blank := visible
    rw [needed] at holds
    have only (name : String) (other : ProviderFault) :
        provider = name ∧ fault = other ↔ name = provider ∧ fails other :=
      and_congr eq_comm ⟨fun same => same ▸ failed, failed.unique⟩
    have never : ¬ ∃ built, builds built := fun ⟨_, build⟩ => build.not_fails failed
    rw [show outcome = ⟨.error (.notInstalled provider fault), [], _⟩ from same]
    refine ⟨⟨by simp [visible], by simp [holds.not_lacksFirst], ?_, by simp [never], either⟩,
      state.isUpdate_emptied half trimmed⟩
    intro name other
    rw [Except.error.injEq, SecurityError.notInstalled.injEq, only]
    exact ⟨fun named => ⟨visible, holds, named⟩, fun all => all.2.2⟩
  · have visible : ¬ blank := visible
    rw [needed] at holds
    have works (fault : ProviderFault) : ¬ fails fault := build.not_fails
    rw [show outcome = _ from same]
    refine ⟨⟨by simp [visible], by simp [holds.not_lacksFirst], by simp [works], ?_, either⟩, built, build,
      state.isUpdate_filled half trimmed built⟩
    exact iff_of_true rfl ⟨visible, holds, built, build⟩

/-- A setter takes the provider that the settings name, although the built-in one is registered,
too. The same caller has no such provider for logins, and no file for the built-in one. -/
theorem outcome_set_withVault :
    let policy := withVault.set .policy {} .unrestricted " app.policy" {}
    let login := withVault.set .login {} .unrestricted "login.conf" policy.state
    policy.result = .ok () ∧
      SecurityState.IsUpdate {} policy.state .policy (some ⟨"vault", "app.policy"⟩) "app.policy" ∧
      (∃ fault, login.result = .error (.notInstalled "file-login-config" fault)) ∧
      policy.state.IsUpdate login.state .login none "login.conf" := by
  intro policy login
  have trimmed : Text.strip " app.policy" = "app.policy" := by decide
  have bare : Text.strip "login.conf" = "login.conf" := by decide
  obtain ⟨⟨-, -, -, succeeds, -⟩, state⟩ :=
    withVault.outcome_set .policy {} .unrestricted " app.policy" {}
  rw [← Text.strip_eq_empty_iff, trimmed] at succeeds
  rw [trimmed] at state
  have ok := succeeds.2 ⟨by decide, fun _ _ => rfl, _, builds_withVault {} "app.policy"⟩
  obtain ⟨⟨-, -, fails, -, -⟩, after⟩ :=
    withVault.outcome_set .login {} .unrestricted "login.conf" policy.state
  simp only [← Text.strip_eq_empty_iff, bare] at fails
  have missing : withVault.registry.build .login "file-login-config" {} "login.conf" =
      .error (.unreadable .notFound) := rfl
  have failed := (fails _ _).2
    ⟨by decide, fun _ _ => rfl, rfl, Registry.build_eq_error_iff.1 missing⟩
  rw [ok] at state
  obtain ⟨built, builds, update⟩ := state
  obtain rfl := builds.unique (builds_withVault {} "app.policy")
  rw [failed] at after
  exact ⟨ok, update, ⟨_, failed⟩, after⟩

end Configurator

end Gatehouse
