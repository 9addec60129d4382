import Gatehouse.Proofs.Security.Start
/-!
Starts that are tried again. What acts leave behind is decided by the setters that they call, so
whether a good start ends with a policy depends on the last attempt to set one before it. Main
statement: `installed_after_start`.
-/

namespace Gatehouse

inductive SecurityAct where
  | call (made : MadeCall)
  | start (given : Start)

namespace SecurityAct

def apply : SecurityAct → SecurityState → SecurityState
  | call made, state => (made.perform state).state
  | start given, state => (given.perform state).state

def calls : SecurityAct → SecurityState → List MadeCall
  | call made, _ => [made]
  | start given, state => given.setters state

def run : List SecurityAct → SecurityState → SecurityState
  | [], state => state
  | act :: rest, state => run rest (act.apply state)

/-- The calls that acts come to. A start comes to the setters that it reaches. -/
def history : List SecurityAct → SecurityState → List MadeCall
  | [], _ => []
  | act :: rest, state => act.calls state ++ history rest (act.apply state)

theorem apply_eq (act : SecurityAct) (state : SecurityState) :
    act.apply state = (MadeCall.run (act.calls state) state).state := by
  cases act with
  | call made => exact (made.state_run_singleton state).symm
  | start given => exact given.state_perform state

theorem run_eq (acts : List SecurityAct) (state : SecurityState) :
    run acts state = (MadeCall.run (history acts state) state).state := by
  induction acts generalizing state with
  | nil => rfl
  | cons act rest ih => rw [run, ih, history, MadeCall.run_append, apply_eq]

theorem view_run (acts : List SecurityAct) (half : SecurityHalf) :
    (run acts {}).view half =
      match MadeCall.lastAttempt? half (history acts {}) with
      | some attempt => attempt.view
      | none => ⟨none, none⟩ := by
  have unset : SecurityState.view {} half = ⟨none, none⟩ := by
    cases half <;> rfl
  have seen := MadeCall.view_run (history acts {}) {} half
  rw [unset, ← run_eq] at seen
  exact seen

theorem installed_if_published_iff (acts : List SecurityAct) (half : SecurityHalf) :
    (((run acts {}).view half).published.isSome = true →
        ((run acts {}).view half).installed.isSome = true) ↔
      ∀ attempt, MadeCall.lastAttempt? half (history acts {}) = some attempt →
        ∃ provider, attempt.built = .ok provider := by
  rw [view_run]
  cases last : MadeCall.lastAttempt? half (history acts {}) with
  | none =>
    constructor
    · rintro - attempt ⟨⟩
    · rintro _ ⟨⟩
  | some attempt =>
    obtain ⟨locator, built⟩ := attempt
    cases built with
    | ok provider =>
      constructor
      · rintro - attempt ⟨rfl⟩
        exact ⟨provider, rfl⟩
      · intro _ _
        rfl
    | error fault =>
      constructor
      · intro installed
        have impossible := installed rfl
        cases impossible
      · intro built
        obtain ⟨provider, impossible⟩ := built _ rfl
        cases impossible

/-- A good start that names both halves leaves a login configuration installed. It leaves a policy
installed unless the last attempt before it to set one has failed: then the start takes the
published locator for the policy itself, and goes on without any. -/
theorem installed_after_start {acts : List SecurityAct} {start : Start} {engine : Engine}
    {login policy : String} (namesLogin : start.settings.security.loginConfig = some login)
    (namesPolicy : start.settings.security.policy = some policy)
    (ok : (start.perform (run acts {})).result = .ok engine) :
    ((start.perform (run acts {})).state.installed .login).isSome = true ∧
      (((start.perform (run acts {})).state.installed .policy).isSome = true ↔
        ∀ attempt, MadeCall.lastAttempt? .policy (history acts {}) = some attempt →
          ∃ provider, attempt.built = .ok provider) := by
  obtain ⟨loginInstalled, policyInstalled⟩ := start.configurator.installed_of_installAll_ok
    namesLogin namesPolicy (Start.installAll_of_perform_ok ok)
  rw [start.state_perform_eq]
  exact ⟨loginInstalled, policyInstalled.trans (installed_if_published_iff acts .policy)⟩

def startWithoutStore : Start where
  settings := { security := { loginConfig := some "login.conf", policy := some "app.policy" } }
  registry :=
    (Registry.empty.register .login "file-login-config" fun _ locator =>
      .ok ⟨"file-login-config", locator⟩).register .policy "file-policy" fun _ _ =>
        .error (.custom "unreachable store")
  around := {}
  source := .ofLocator (.inlineText "")
  context := .unrestricted

def policySetter : MadeCall where
  configurator := startWithoutStore.configurator
  call := .set .policy "app.policy"

theorem installed_after_second_start :
    let acts := [SecurityAct.start startWithoutStore]
    let outcome := startWithoutStore.perform (run acts {})
    startWithoutStore.settings.security.loginConfig = some "login.conf" ∧
      startWithoutStore.settings.security.policy = some "app.policy" ∧
      (∃ engine, outcome.result = .ok engine) ∧
      (outcome.state.installed .login).isSome = true ∧
      ((outcome.state.installed .policy).isSome = true ↔
        ∀ attempt, MadeCall.lastAttempt? .policy (history acts {}) = some attempt →
          ∃ provider, attempt.built = .ok provider) :=
  ⟨rfl, rfl, ⟨_, rfl⟩, installed_after_start rfl rfl rfl⟩

/-- After a setter that failed, a start can be good and leave no policy installed. -/
theorem not_installed_after_failed_setter :
    ¬ ∀ (acts : List SecurityAct) (start : Start) (engine : Engine) (login policy : String),
      start.settings.security.loginConfig = some login →
      start.settings.security.policy = some policy →
      (start.perform (run acts {})).result = .ok engine →
        ((start.perform (run acts {})).state.installed .login).isSome = true ∧
          ((start.perform (run acts {})).state.installed .policy).isSome = true := by
  intro always
  obtain ⟨_, installed⟩ :=
    always [.call policySetter] startWithoutStore _ "login.conf" "app.policy" rfl rfl rfl
  have missing : ((startWithoutStore.perform (run [.call policySetter] {})).state.installed
      .policy).isSome = false := by decide +kernel
  rw [missing] at installed
  cases installed

end SecurityAct

end Gatehouse
