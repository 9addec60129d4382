import Gatehouse.Security.Run
/-!
What setters leave behind. A setter that passes its checks makes an attempt on its half: whatever
comes of building the provider, the locator is published, and what was installed before is gone.
Main statement: `view_run`, which says that the last attempt on a half decides that half.
-/

namespace Gatehouse

structure HalfView where
  installed : Option Provider
  published : Option String
  deriving DecidableEq

def SecurityState.view (state : SecurityState) (half : SecurityHalf) : HalfView :=
  ⟨state.installed half, state.property? half.property⟩

/-- A setter past its checks: the locator that it publishes, and what comes of building. -/
structure Attempt where
  locator : String
  built : Except ProviderFault Provider

def Attempt.view (attempt : Attempt) : HalfView := ⟨attempt.built.toOption, some attempt.locator⟩

theorem SecurityHalf.property_inj {half other : SecurityHalf} :
    half.property = other.property ↔ half = other := by
  cases half <;> cases other <;> decide

theorem SecurityState.view_install (state : SecurityState) (half other : SecurityHalf)
    (provider : Option Provider) :
    (state.install half provider).view other =
      if other = half then { state.view half with installed := provider } else state.view other := by
  by_cases same : other = half <;> simp [view, installed_install, same]

theorem SecurityState.view_publish (state : SecurityState) (half other : SecurityHalf)
    (locator : String) :
    (state.publish half.property locator).view other =
      if other = half then { state.view half with published := some locator }
      else state.view other := by
  by_cases same : other = half <;>
    simp [view, property?_publish, SecurityHalf.property_inj, same]

theorem CallerContext.firstDenied?_eq_none_iff {context : CallerContext} {needed : List Permission} :
    context.firstDenied? needed = none ↔ ∀ permission ∈ needed, context.allows permission = true := by
  simp [firstDenied?]

namespace CallerContext

variable {α : Type} {context : CallerContext} {needed : List Permission} {state : SecurityState}
  {call : SecurityState → CallOutcome α}

theorem guarded_of_allowed (allowed : context.firstDenied? needed = none) (state : SecurityState)
    (call : SecurityState → CallOutcome α) : context.guarded needed state call = call state := by
  simp only [guarded, allowed]

theorem guarded_of_denied {permission : Permission}
    (denied : context.firstDenied? needed = some permission) (state : SecurityState)
    (call : SecurityState → CallOutcome α) :
    context.guarded needed state call =
      ⟨.error (.permissionDenied permission), [.denied permission], state⟩ := by
  simp only [guarded, denied]

theorem guarded_singleton (context : CallerContext) (permission : Permission)
    (state : SecurityState) (call : SecurityState → CallOutcome α) :
    context.guarded [permission] state call =
      match context.allows permission with
      | true => call state
      | false => ⟨.error (.permissionDenied permission), [.denied permission], state⟩ := by
  cases allowed : context.allows permission with
  | false => exact guarded_of_denied (by simp [firstDenied?, allowed]) state call
  | true => exact guarded_of_allowed (by simp [firstDenied?, allowed]) state call

theorem state_guarded (same : (call state).state = state) :
    (context.guarded needed state call).state = state := by
  cases denied : context.firstDenied? needed with
  | none => rwa [guarded_of_allowed denied]
  | some permission => rw [guarded_of_denied denied]

end CallerContext

namespace Configurator

variable {configurator : Configurator} {half : SecurityHalf} {files : FileTree}
  {context : CallerContext} {locator : String} {state : SecurityState}

/-- Whether a setter passes its checks: the locator is not blank, and the caller has the rights. -/
def Accepts (context : CallerContext) (half : SecurityHalf) (locator : String) : Prop :=
  Text.strip locator ≠ "" ∧ ∀ permission ∈ half.needed, context.allows permission = true

instance (context : CallerContext) (half : SecurityHalf) (locator : String) :
    Decidable (Accepts context half locator) :=
  inferInstanceAs (Decidable (_ ∧ _))

def attempt (configurator : Configurator) (half : SecurityHalf) (files : FileTree)
    (locator : String) : Attempt :=
  ⟨Text.strip locator, configurator.registry.build half (configurator.settings.provider half) files
    (Text.strip locator)⟩

theorem set_of_accepts (accepted : Accepts context half locator) :
    configurator.set half files context locator state =
      configurator.replace half files (Text.strip locator) state := by
  obtain ⟨nonblank, allowed⟩ := accepted
  simp only [set, nonblank, if_false]
  exact CallerContext.guarded_of_allowed (CallerContext.firstDenied?_eq_none_iff.2 allowed) _ _

theorem set_of_not_accepts (refused : ¬ Accepts context half locator) :
    (configurator.set half files context locator state).state = state ∧
      ∃ error, (configurator.set half files context locator state).result = .error error := by
  by_cases blank : Text.strip locator = ""
  · simp [set, blank]
  · cases denied : context.firstDenied? half.needed with
    | none => exact absurd ⟨blank, CallerContext.firstDenied?_eq_none_iff.1 denied⟩ refused
    | some permission =>
      simp only [set, blank, if_false]
      rw [CallerContext.guarded_of_denied denied]
      exact ⟨rfl, _, rfl⟩

theorem replace_of_built {provider : Provider}
    (built : configurator.registry.build half (configurator.settings.provider half) files locator =
      .ok provider) :
    configurator.replace half files locator state =
      ⟨.ok (), [half.installedEvent (configurator.settings.provider half) locator],
        ((state.install half none).publish half.property locator).install half (some provider)⟩ := by
  simp only [replace, built]

theorem replace_of_fault {fault : ProviderFault}
    (failed : configurator.registry.build half (configurator.settings.provider half) files locator =
      .error fault) :
    configurator.replace half files locator state =
      ⟨.error (.notInstalled (configurator.settings.provider half) fault), [],
        (state.install half none).publish half.property locator⟩ := by
  simp only [replace, failed]

theorem view_replace (configurator : Configurator) (half : SecurityHalf) (files : FileTree)
    (locator : String) (state : SecurityState) (other : SecurityHalf) :
    (configurator.replace half files locator state).state.view other =
      if other = half then
        Attempt.view ⟨locator, configurator.registry.build half (configurator.settings.provider half)
          files locator⟩
      else state.view other := by
  cases build : configurator.registry.build half (configurator.settings.provider half) files
      locator with
  | ok provider =>
    rw [replace_of_built build]
    by_cases same : other = half <;>
      simp [SecurityState.view_install, SecurityState.view_publish, Attempt.view, Except.toOption,
        same]
  | error fault =>
    rw [replace_of_fault build]
    by_cases same : other = half <;>
      simp [SecurityState.view_install, SecurityState.view_publish, Attempt.view, Except.toOption,
        same]

theorem view_set (configurator : Configurator) (half : SecurityHalf) (files : FileTree)
    (context : CallerContext) (locator : String) (state : SecurityState) (other : SecurityHalf) :
    (configurator.set half files context locator state).state.view other =
      if other = half ∧ Accepts context half locator then
        (configurator.attempt half files locator).view
      else state.view other := by
  by_cases accepted : Accepts context half locator
  · rw [set_of_accepts accepted, view_replace]
    simp only [accepted, and_true]
    rfl
  · rw [(set_of_not_accepts accepted).1, if_neg]
    exact fun h => accepted h.2

theorem accepts_of_set_ok
    (ok : (configurator.set half files context locator state).result = .ok ()) :
    Accepts context half locator := by
  by_cases accepted : Accepts context half locator
  · exact accepted
  · obtain ⟨error, failed⟩ := (set_of_not_accepts accepted).2
    rw [failed] at ok
    cases ok

theorem installed_of_set_ok
    (ok : (configurator.set half files context locator state).result = .ok ()) :
    ((configurator.set half files context locator state).state.installed half).isSome = true := by
  have accepted := accepts_of_set_ok ok
  rw [set_of_accepts accepted] at ok ⊢
  cases build : configurator.registry.build half (configurator.settings.provider half) files
      (Text.strip locator) with
  | ok provider =>
    rw [replace_of_built build, SecurityState.installed_install, if_pos rfl]
    rfl
  | error fault =>
    rw [replace_of_fault build] at ok
    cases ok

theorem state_isAuthConfigured (configurator : Configurator) (context : CallerContext)
    (state : SecurityState) :
    (configurator.isAuthConfigured context state).state = state :=
  CallerContext.state_guarded rfl

theorem state_isPolicyConfigured (configurator : Configurator) (files : FileTree)
    (context : CallerContext) (state : SecurityState) :
    (configurator.isPolicyConfigured files context state).state = state := by
  refine CallerContext.state_guarded ?_
  split <;> rfl

end Configurator

namespace MadeCall

theorem state_run_singleton (made : MadeCall) (state : SecurityState) :
    (run [made] state).state = (made.perform state).state := rfl

theorem state_run_set (configurator : Configurator) (files : FileTree) (context : CallerContext)
    (half : SecurityHalf) (locator : String) (state : SecurityState) :
    (run [⟨configurator, files, context, .set half locator⟩] state).state =
      (configurator.set half files context locator state).state := by
  rw [state_run_singleton]
  simp only [perform, Configurator.perform, CallOutcome.map]

def attempt? (half : SecurityHalf) (made : MadeCall) : Option Attempt :=
  match made.call with
  | .set target locator =>
    if half = target ∧ Configurator.Accepts made.context target locator then
      some (made.configurator.attempt target made.files locator)
    else none
  | _ => none

def lastAttempt? (half : SecurityHalf) (calls : List MadeCall) : Option Attempt :=
  (calls.filterMap (attempt? half)).getLast?

theorem view_perform (made : MadeCall) (state : SecurityState) (half : SecurityHalf) :
    (made.perform state).state.view half =
      match made.attempt? half with
      | some attempt => attempt.view
      | none => state.view half := by
  obtain ⟨configurator, files, context, call⟩ := made
  cases call with
  | isAuthConfigured =>
    exact congrArg (SecurityState.view · half) (configurator.state_isAuthConfigured context state)
  | isPolicyConfigured =>
    exact congrArg (SecurityState.view · half)
      (configurator.state_isPolicyConfigured files context state)
  | set target locator =>
    have seen := configurator.view_set target files context locator state half
    simp only [perform, Configurator.perform, CallOutcome.map, attempt?]
    rw [seen]
    split <;> rfl

/-- The last attempt on a half decides that half, and without one the half stays as it was. -/
theorem view_run (calls : List MadeCall) (state : SecurityState) (half : SecurityHalf) :
    (run calls state).state.view half =
      match lastAttempt? half calls with
      | some attempt => attempt.view
      | none => state.view half := by
  induction calls generalizing state with
  | nil => rfl
  | cons made rest ih =>
    have first := view_perform made state half
    simp only [run, ih, lastAttempt?, List.filterMap_cons]
    cases attempted : made.attempt? half with
    | none =>
      rw [attempted] at first
      rw [first]
    | some attempt =>
      rw [attempted] at first
      simp only [List.getLast?_cons, first]
      cases (rest.filterMap (attempt? half)).getLast? <;> rfl

end MadeCall

end Gatehouse
