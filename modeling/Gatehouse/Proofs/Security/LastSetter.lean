import Gatehouse.Proofs.Security.Attempt
import Gatehouse.Proofs.Security.Registration
/-!
Runs of calls by many callers on one security state. Main statement: `run_last_accepted_setter`,
which says that each half is what the last accepted setter made of it, and that nothing else in the
state changes.
-/

namespace Gatehouse

/-! ### What no setter touches -/

namespace Configurator

variable {configurator : Configurator} {half : SecurityHalf} {name : String}

theorem property?_replace_other (different : name ≠ half.property) (files : FileTree)
    (locator : String) (state : SecurityState) :
    (configurator.replace half files locator state).state.property? name = state.property? name := by
  cases build : configurator.registry.build half (configurator.settings.provider half) files
      locator with
  | ok provider =>
    rw [replace_of_built build]
    simp only [SecurityState.property?_install, SecurityState.property?_publish, if_neg different]
  | error fault =>
    rw [replace_of_fault build]
    simp only [SecurityState.property?_install, SecurityState.property?_publish, if_neg different]

theorem property?_set_other (different : name ≠ half.property) (files : FileTree)
    (context : CallerContext) (locator : String) (state : SecurityState) :
    (configurator.set half files context locator state).state.property? name =
      state.property? name := by
  by_cases accepted : Accepts context half locator
  · rw [set_of_accepts accepted, property?_replace_other different]
  · rw [(set_of_not_accepts accepted).1]

end Configurator

namespace MadeCall

theorem property?_perform_other {name : String}
    (other : ∀ half : SecurityHalf, name ≠ half.property) (made : MadeCall) (state : SecurityState) :
    (made.perform state).state.property? name = state.property? name := by
  obtain ⟨configurator, files, context, call⟩ := made
  cases call with
  | isAuthConfigured =>
    exact congrArg (SecurityState.property? · name)
      (configurator.state_isAuthConfigured context state)
  | isPolicyConfigured =>
    exact congrArg (SecurityState.property? · name)
      (configurator.state_isPolicyConfigured files context state)
  | set half locator =>
    simp only [perform, Configurator.perform, CallOutcome.map]
    exact Configurator.property?_set_other (other half) files context locator state

theorem property?_run_other {name : String} (other : ∀ half : SecurityHalf, name ≠ half.property)
    (calls : List MadeCall) (state : SecurityState) :
    (run calls state).state.property? name = state.property? name := by
  induction calls generalizing state with
  | nil => rfl
  | cons made rest ih => rw [run, ih, property?_perform_other other]

/-! ### Accepted setters -/

/-- The call sets the half, its locator is not blank, and its caller has the three rights that this
takes. -/
def Sets (made : MadeCall) (half : SecurityHalf) (locator : String) : Prop :=
  made.call = .set half locator ∧ Text.strip locator ≠ "" ∧
    ∀ permission ∈ half.contract.rights, made.context.allows permission = true

theorem sets_iff {made : MadeCall} {half : SecurityHalf} {locator : String} :
    made.Sets half locator ↔
      made.call = .set half locator ∧ Configurator.Accepts made.context half locator := by
  rw [Sets, Configurator.Accepts, half.needed_eq]

theorem attempt?_eq_some_iff {made : MadeCall} {half : SecurityHalf} {attempt : Attempt} :
    made.attempt? half = some attempt ↔
      ∃ locator, made.Sets half locator ∧
        made.configurator.attempt half made.files locator = attempt := by
  obtain ⟨configurator, files, context, call⟩ := made
  cases call with
  | isAuthConfigured => simp [attempt?, sets_iff]
  | isPolicyConfigured => simp [attempt?, sets_iff]
  | set target locator =>
    simp only [attempt?, sets_iff, SecurityCall.set.injEq]
    constructor
    · intro accepted
      split at accepted
      · next passes =>
        obtain ⟨rfl, accepts⟩ := passes
        exact ⟨locator, ⟨⟨rfl, rfl⟩, accepts⟩, Option.some.inj accepted⟩
      · cases accepted
    · rintro ⟨_, ⟨⟨rfl, rfl⟩, accepts⟩, rfl⟩
      rw [if_pos ⟨rfl, accepts⟩]

theorem attempt?_eq_none_iff {made : MadeCall} {half : SecurityHalf} :
    made.attempt? half = none ↔ ∀ locator, ¬ made.Sets half locator := by
  constructor
  · intro refused locator sets
    rw [attempt?_eq_some_iff.2 ⟨locator, sets, rfl⟩] at refused
    cases refused
  · intro refused
    rw [Option.eq_none_iff_forall_ne_some]
    intro attempt accepted
    obtain ⟨locator, sets, _⟩ := attempt?_eq_some_iff.1 accepted
    exact refused locator sets

theorem lastAttempt?_eq_none_iff {half : SecurityHalf} {calls : List MadeCall} :
    lastAttempt? half calls = none ↔ ∀ made ∈ calls, ∀ locator, ¬ made.Sets half locator := by
  simp only [lastAttempt?, List.getLast?_eq_none_iff, List.filterMap_eq_nil_iff,
    attempt?_eq_none_iff]

theorem lastAttempt?_eq_some {half : SecurityHalf} {calls : List MadeCall} {attempt : Attempt}
    (last : lastAttempt? half calls = some attempt) :
    ∃ earlier made later, calls = earlier ++ made :: later ∧ made.attempt? half = some attempt ∧
      ∀ other ∈ later, other.attempt? half = none := by
  obtain ⟨before, attempts⟩ := List.getLast?_eq_some_iff.1 last
  obtain ⟨earlier, rest, rfl, _, ending⟩ := List.filterMap_eq_append_iff.1 attempts
  obtain ⟨refused, made, later, rfl, _, accepted, none⟩ := List.filterMap_eq_cons_iff.1 ending
  exact ⟨earlier ++ refused, made, later, by rw [List.append_assoc], accepted,
    List.filterMap_eq_nil_iff.1 none⟩

end MadeCall

/-! ### Providers that know their locator -/

/-- What is built from a locator reports that locator. -/
def Registry.ReportsLocators (registry : Registry) (half : SecurityHalf) : Prop :=
  ∀ name files locator provider, registry.Builds half name files locator provider →
    provider.locator = locator

/-- A provider that is installed in the half reports the locator that is published for it. -/
def SecurityState.InStep (state : SecurityState) (half : SecurityHalf) : Prop :=
  ∀ provider, state.installed half = some provider →
    state.property? half.contract.property = some provider.locator

theorem SecurityState.InStep.of_view_eq {state later : SecurityState} {half : SecurityHalf}
    (before : state.InStep half) (same : later.view half = state.view half) :
    later.InStep half := by
  intro provider installed
  have installedBefore := (congrArg HalfView.installed same).symm.trans installed
  have published : later.property? half.property = state.property? half.property :=
    congrArg HalfView.published same
  rw [half.property_eq] at published
  exact published.trans (before provider installedBefore)

theorem FileProvider.locator_load {half : SecurityHalf} {files : FileTree} {locator : String}
    {loaded : FileProvider} (ok : FileProvider.load half files locator = .ok loaded) :
    loaded.locator = locator := by
  unfold load at ok
  cases read : files.readText (Path.ofLocator locator) with
  | ok contents =>
    rw [read] at ok
    rw [← Except.ok.inj ok]
  | error fault =>
    rw [read] at ok
    cases ok

theorem Registry.factory?_register (registry : Registry) (half other : SecurityHalf)
    (name asked : String) (factory : Factory) :
    (registry.register half name factory).factory? other asked =
      if other = half ∧ asked = name then some factory else registry.factory? other asked := by
  rw [register, factory?, List.lookup_cons]
  by_cases same : (other, asked) = (half, name)
  · rw [if_pos (Prod.mk.inj same), beq_iff_eq.2 same]
  · rw [if_neg fun both => same (Prod.ext both.1 both.2), beq_false_of_ne same]
    rfl

theorem Registry.reportsLocators_empty (half : SecurityHalf) : empty.ReportsLocators half := by
  rintro name files locator provider ⟨factory, ⟨newer, older, entries, -⟩, -⟩
  exact absurd entries (by simp [empty])

theorem Registry.ReportsLocators.register {registry : Registry} {half : SecurityHalf}
    (reports : registry.ReportsLocators half) (other : SecurityHalf) (name : String)
    {factory : Factory} (loads : ∀ files locator provider, factory files locator = .ok provider →
      provider.locator = locator) : (registry.register other name factory).ReportsLocators half := by
  intro asked files locator provider built
  rw [← build_eq_ok_iff, build, factory?_register] at built
  by_cases same : half = other ∧ asked = name
  · rw [if_pos same] at built
    exact loads files locator provider built
  · rw [if_neg same] at built
    exact reports asked files locator provider (build_eq_ok_iff.1 built)

theorem Registry.reportsLocators_withDefaults (half : SecurityHalf) :
    withDefaults.ReportsLocators half := by
  have none : empty.ReportsLocators half := reportsLocators_empty half
  have loads (kind : SecurityHalf) (files : FileTree) (locator : String) (provider : Provider)
      (built : Factory.ofFile kind files locator = .ok provider) : provider.locator = locator := by
    unfold Factory.ofFile at built
    split at built
    · next loaded read =>
      rw [← Except.ok.inj built]
      exact FileProvider.locator_load read
    · cases built
  exact (none.register _ _ (loads _)).register _ _ (loads _)

namespace MadeCall

/-- A half after a run is as it was before, when no setter of it was accepted, or as the last
accepted one left it. -/
theorem view_run_cases (calls : List MadeCall) (state : SecurityState) (half : SecurityHalf) :
    ((∀ made ∈ calls, ∀ locator, ¬ made.Sets half locator) ∧
        (run calls state).state.view half = state.view half) ∨
      ∃ earlier made later locator, calls = earlier ++ made :: later ∧ made.Sets half locator ∧
        (∀ other ∈ later, ∀ locator, ¬ other.Sets half locator) ∧
        (run calls state).state.view half =
          (made.configurator.attempt half made.files locator).view := by
  have seen := view_run calls state half
  cases last : lastAttempt? half calls with
  | none =>
    rw [last] at seen
    exact Or.inl ⟨lastAttempt?_eq_none_iff.1 last, seen⟩
  | some attempt =>
    rw [last] at seen
    obtain ⟨earlier, made, later, split, accepted, refused⟩ := lastAttempt?_eq_some last
    obtain ⟨locator, sets, rfl⟩ := attempt?_eq_some_iff.1 accepted
    exact Or.inr ⟨earlier, made, later, locator, split, sets,
      fun other member => attempt?_eq_none_iff.1 (refused other member), seen⟩

/-- What an attempt leaves installed is what the factory that counts has built, if it has. -/
theorem installed_attempt_iff {configurator : Configurator} {half : SecurityHalf} {files : FileTree}
    {locator : String} {provider : Provider} :
    (configurator.attempt half files locator).view.installed = some provider ↔
      configurator.registry.Builds half (half.contract.provider configurator.settings) files
        (Text.strip locator) provider := by
  rw [← Registry.build_eq_ok_iff, ← SecuritySettings.provider_eq]
  simp only [Configurator.attempt, Attempt.view]
  cases configurator.registry.build half (configurator.settings.provider half) files
    (Text.strip locator) <;> simp [Except.toOption]

theorem inStep_run {calls : List MadeCall} {state : SecurityState} {half : SecurityHalf}
    (reports : ∀ made ∈ calls, made.configurator.registry.ReportsLocators half)
    (before : state.InStep half ∨ ∃ made ∈ calls, ∃ locator, made.Sets half locator) :
    (run calls state).state.InStep half := by
  rcases view_run_cases calls state half with ⟨none, same⟩ |
    ⟨earlier, made, later, locator, split, _, _, same⟩
  · rcases before with before | ⟨made, member, locator, sets⟩
    · exact SecurityState.InStep.of_view_eq before same
    · exact absurd sets (none made member locator)
  · have member : made ∈ calls := by simp [split]
    intro provider installed
    have published := congrArg HalfView.published same
    have built := installed_attempt_iff.1 ((congrArg HalfView.installed same).symm.trans installed)
    rw [← half.property_eq, reports made member _ _ _ _ built]
    exact published

/-- A run leaves each half as the last accepted setter of it did, whoever called it: its trimmed
locator is published, and installed is what the factory that the setter's registry has under the
selected name built from that, or nothing when building failed. Without an accepted setter the half
stays as it was, and the other properties stay in any case. So the published and the installed
locator agree where providers report theirs. -/
theorem run_last_accepted_setter (calls : List MadeCall) (state : SecurityState) :
    let final := (run calls state).state
    (∀ half : SecurityHalf,
      ((∀ made ∈ calls, ∀ locator, ¬ made.Sets half locator) ∧
          final.installed half = state.installed half ∧
          final.property? half.contract.property = state.property? half.contract.property) ∨
        ∃ earlier made later locator, calls = earlier ++ made :: later ∧ made.Sets half locator ∧
          (∀ other ∈ later, ∀ locator, ¬ other.Sets half locator) ∧
          final.property? half.contract.property = some (Text.strip locator) ∧
          ∀ provider, final.installed half = some provider ↔
            made.configurator.registry.Builds half
              (half.contract.provider made.configurator.settings) made.files
              (Text.strip locator) provider) ∧
      (∀ name, name ≠ "security.auth.login.config" → name ≠ "security.policy" →
        final.property? name = state.property? name) ∧
      ∀ half : SecurityHalf,
        (∀ made ∈ calls, made.configurator.registry.ReportsLocators half) →
        state.InStep half ∨ (∃ made ∈ calls, ∃ locator, made.Sets half locator) →
          final.InStep half := by
  intro final
  refine ⟨?_, ?_, fun _ reports before => inStep_run reports before⟩
  · intro half
    rw [← half.property_eq]
    rcases view_run_cases calls state half with ⟨none, same⟩ |
      ⟨earlier, made, later, locator, split, sets, refused, same⟩
    · exact Or.inl ⟨none, congrArg HalfView.installed same, congrArg HalfView.published same⟩
    · refine Or.inr ⟨earlier, made, later, locator, split, sets, refused,
        congrArg HalfView.published same, ?_⟩
      intro provider
      rw [← installed_attempt_iff, ← same]
      rfl
  · intro name notLogin notPolicy
    refine property?_run_other ?_ calls state
    rintro (_ | _)
    · exact notLogin
    · exact notPolicy

def inMemory : Configurator where
  registry := Registry.empty.register .policy "file-policy" fun _ locator =>
    .ok ⟨"in-memory", locator⟩

/-- Two callers set the policy in turn, and the first one then tries it again without a right and
without a locator. -/
def twoWriters : List MadeCall :=
  [⟨inMemory, {}, .unrestricted, .set .policy "first.policy"⟩,
    ⟨.withVault, {}, .unrestricted, .set .policy " second.policy\n"⟩,
    ⟨inMemory, {}, .restricted [], .set .policy "first.policy"⟩,
    ⟨inMemory, {}, .unrestricted, .set .policy " "⟩]

theorem run_last_accepted_setter_twoWriters :
    let final := (run twoWriters {}).state
    (∀ made ∈ twoWriters, made.configurator.registry.ReportsLocators .policy) ∧
      (∃ made ∈ twoWriters, ∃ locator, made.Sets .policy locator) ∧ final.InStep .policy ∧
      Configurator.withVault.registry.Builds .policy "vault" {} "second.policy"
        ⟨"vault", "second.policy"⟩ ∧
      final.installed .policy = some ⟨"vault", "second.policy"⟩ ∧
      final.property? "security.policy" = some "second.policy" ∧
      final.property? "security.auth.login.config" = none := by
  intro final
  have memory : inMemory.registry.ReportsLocators .policy := by
    refine (Registry.reportsLocators_empty _).register _ _ ?_
    rintro _ _ _ ⟨⟩
    rfl
  have vault : Configurator.withVault.registry.ReportsLocators .policy := by
    refine (Registry.reportsLocators_withDefaults _).register _ _ ?_
    rintro _ _ _ ⟨⟩
    rfl
  have reports : ∀ made ∈ twoWriters, made.configurator.registry.ReportsLocators .policy := by
    simp only [twoWriters, List.forall_mem_cons]
    exact ⟨memory, vault, memory, memory, List.forall_mem_nil _⟩
  have sets : ∃ made ∈ twoWriters, ∃ locator, made.Sets .policy locator :=
    ⟨_, List.mem_cons_self, "first.policy", rfl, by decide, by decide⟩
  have installed : final.installed .policy = some ⟨"vault", "second.policy"⟩ := by decide +kernel
  have inStep := (run_last_accepted_setter twoWriters {}).2.2 .policy reports (Or.inr sets)
  exact ⟨reports, sets, inStep, Configurator.builds_withVault {} "second.policy", installed,
    inStep _ installed, rfl⟩

end MadeCall

end Gatehouse
