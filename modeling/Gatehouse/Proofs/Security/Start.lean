import Gatehouse.Bootstrap
import Gatehouse.Proofs.Security.Attempt
/-!
Starts of the program, among other calls on the security state. A start is a run of calls on that
state, so the last attempt on a half decides the half through starts, too.
-/

namespace Gatehouse

namespace CallOutcome

variable {α β γ : Type} {first : CallOutcome α}

theorem andThen_of_ok {value : α} (next : α → SecurityState → CallOutcome β)
    (ok : first.result = .ok value) :
    (first.andThen next).result = (next value first.state).result ∧
      (first.andThen next).state = (next value first.state).state := by
  simp [andThen, ok]

theorem andThen_of_error {error : SecurityError} (next : α → SecurityState → CallOutcome β)
    (failed : first.result = .error error) :
    (first.andThen next).result = .error error ∧ (first.andThen next).state = first.state := by
  simp [andThen, failed]

theorem log_andThen_of_ok {value : α}
    (next : α → SecurityState → CallOutcome β) (ok : first.result = .ok value) :
    (first.andThen next).log = first.log ++ (next value first.state).log := by
  simp only [andThen, ok]

theorem log_andThen_of_error {error : SecurityError}
    (next : α → SecurityState → CallOutcome β) (failed : first.result = .error error) :
    (first.andThen next).log = first.log := by
  simp only [andThen, failed]

theorem andThen_eq_ok {next : α → SecurityState → CallOutcome β} {value : β}
    (ok : (first.andThen next).result = .ok value) :
    ∃ middle, first.result = .ok middle ∧ (next middle first.state).result = .ok value ∧
      (first.andThen next).state = (next middle first.state).state := by
  cases result : first.result with
  | ok middle =>
    obtain ⟨same, state⟩ := andThen_of_ok next result
    exact ⟨middle, rfl, same ▸ ok, state⟩
  | error error =>
    rw [(andThen_of_error next result).1] at ok
    cases ok

theorem andThen_unless (ask : CallOutcome α) (found : α → Bool) (log : Log)
    (next : SecurityState → CallOutcome Unit) :
    let outcome := ask.andThen fun value state =>
      if found value then ⟨.ok (), log, state⟩ else next state
    match ask.result.map found with
    | .error error => outcome.result = .error error ∧ outcome.state = ask.state
    | .ok true => outcome.result = .ok () ∧ outcome.state = ask.state
    | .ok false =>
      outcome.result = (next ask.state).result ∧ outcome.state = (next ask.state).state := by
  intro outcome
  cases answer : ask.result with
  | error error => exact andThen_of_error _ answer
  | ok value =>
    obtain ⟨result, state⟩ := andThen_of_ok (fun value state =>
      if found value then ⟨.ok (), log, state⟩ else next state) answer
    cases there : found value with
    | true =>
      rw [there] at result state
      simp only [Except.map, there]
      exact ⟨result, state⟩
    | false =>
      rw [there] at result state
      simp only [Except.map, there]
      exact ⟨result, state⟩

theorem andThen_map (first : CallOutcome α) (f : α → β) (next : β → SecurityState → CallOutcome γ) :
    (first.map f).andThen next = first.andThen fun value => next (f value) := by
  obtain ⟨result, log, state⟩ := first
  cases result <;> rfl

theorem map_map_unit (outcome : CallOutcome Unit) (f : Unit → α) (g : α → Unit) :
    (outcome.map f).map g = outcome := by
  obtain ⟨result, log, state⟩ := outcome
  cases result <;> rfl

end CallOutcome

/-! ### Installing one half -/

namespace SecurityHalf

/-- The call that a start makes to learn whether there is nothing to install in a half. -/
def question : SecurityHalf → SecurityCall
  | login => .isAuthConfigured
  | policy => .isPolicyConfigured

/-- What a start tells of a half that it leaves alone. For a policy the question told it already. -/
def leftAlone : SecurityHalf → Log
  | login => [.loginAlreadyInstalled]
  | policy => []

end SecurityHalf

def SecurityAnswer.isYes : SecurityAnswer → Bool
  | configured value => value
  | policy locator => locator.isSome
  | done => true

/-- The right that it takes to ask whether there is something in a half. -/
def SecurityHalf.asking : SecurityHalf → Permission
  | login => .getLoginConfiguration
  | policy => .readPolicyProperty

/-- The login half is judged by what is installed, but the policy half by what is published. -/
def HalfView.isConfigured (view : HalfView) : SecurityHalf → Bool
  | .login => view.installed.isSome
  | .policy => view.published.isSome

namespace Configurator

def named (configurator : Configurator) : SecurityHalf → Option String
  | .login => configurator.settings.loginConfig
  | .policy => configurator.settings.policy

def install (configurator : Configurator) (files : FileTree) (context : CallerContext) :
    SecurityHalf → SecurityState → CallOutcome Unit
  | .login => configurator.installLogin files context
  | .policy => configurator.installPolicy files context

/-- Whether a start is told that there is something in a half. -/
def asked (configurator : Configurator) (files : FileTree) (context : CallerContext)
    (half : SecurityHalf) (state : SecurityState) : Except SecurityError Bool :=
  (configurator.perform files context half.question state).result.map SecurityAnswer.isYes

variable {configurator : Configurator} {files : FileTree} {context : CallerContext}
  {half : SecurityHalf} {state : SecurityState}

theorem state_question (configurator : Configurator) (files : FileTree) (context : CallerContext)
    (half : SecurityHalf) (state : SecurityState) :
    (configurator.perform files context half.question state).state = state := by
  cases half with
  | login => exact configurator.state_isAuthConfigured context state
  | policy => exact configurator.state_isPolicyConfigured files context state

theorem install_of_unnamed (unnamed : configurator.named half = none) (state : SecurityState) :
    configurator.install files context half state = ⟨.ok (), [], state⟩ := by
  cases half with
  | login =>
    replace unnamed : configurator.settings.loginConfig = none := unnamed
    simp only [install, installLogin, unnamed]
  | policy =>
    replace unnamed : configurator.settings.policy = none := unnamed
    simp only [install, installPolicy, unnamed]

theorem install_of_named {locator : String} (named : configurator.named half = some locator)
    (state : SecurityState) :
    configurator.install files context half state =
      (configurator.perform files context half.question state).andThen fun answer state =>
        if answer.isYes then ⟨.ok (), half.leftAlone, state⟩
        else (configurator.perform files context (.set half locator) state).map fun _ => () := by
  cases half with
  | login =>
    replace named : configurator.settings.loginConfig = some locator := named
    simp only [install, installLogin, named, SecurityHalf.question, perform,
      CallOutcome.andThen_map, CallOutcome.map_map_unit]
    rfl
  | policy =>
    replace named : configurator.settings.policy = some locator := named
    simp only [install, installPolicy, named, SecurityHalf.question, perform,
      CallOutcome.andThen_map, CallOutcome.map_map_unit]
    rfl

/-- The question about a half depends on the caller's rights and on that half, and on neither the
files nor the registry. -/
theorem asked_eq_match (configurator : Configurator) (files : FileTree) (context : CallerContext)
    (half : SecurityHalf) (state : SecurityState) :
    configurator.asked files context half state =
      match context.allows half.asking with
      | true => .ok ((state.view half).isConfigured half)
      | false => .error (.permissionDenied half.asking) := by
  cases half with
  | login =>
    simp only [asked, SecurityHalf.question, SecurityHalf.asking, perform, CallOutcome.map,
      isAuthConfigured, CallerContext.guarded_singleton]
    cases context.allows .getLoginConfiguration <;> rfl
  | policy =>
    simp only [asked, SecurityHalf.question, SecurityHalf.asking, perform, CallOutcome.map,
      isPolicyConfigured, CallerContext.guarded_singleton, SecurityState.view]
    cases context.allows .readPolicyProperty with
    | false => rfl
    | true => cases state.property? SecurityHalf.policy.property <;> rfl

theorem asked_eq_ok_iff {answer : Bool} :
    configurator.asked files context half state = .ok answer ↔
      context.allows half.asking = true ∧ (state.view half).isConfigured half = answer := by
  rw [asked_eq_match]
  cases context.allows half.asking <;> simp

theorem outcome_install_of_named {locator : String}
    (named : configurator.named half = some locator) (files : FileTree) (context : CallerContext)
    (state : SecurityState) :
    let outcome := configurator.install files context half state
    let set := configurator.set half files context locator state
    match configurator.asked files context half state with
    | .error error => outcome.result = .error error ∧ outcome.state = state
    | .ok true => outcome.result = .ok () ∧ outcome.state = state
    | .ok false => outcome.result = set.result ∧ outcome.state = set.state := by
  have asking := CallOutcome.andThen_unless (configurator.perform files context half.question state)
    SecurityAnswer.isYes half.leftAlone
    fun state => (configurator.perform files context (.set half locator) state).map fun _ => ()
  have question : (configurator.perform files context half.question state).result.map
      SecurityAnswer.isYes = configurator.asked files context half state := rfl
  simp only [question, state_question, ← install_of_named named] at asking
  simp only [perform, CallOutcome.map_map_unit] at asking
  exact asking

/-! ### Which setters a start calls -/

/-- The setter that a start calls for a half, if it calls one. -/
def setter? (configurator : Configurator) (files : FileTree) (context : CallerContext)
    (half : SecurityHalf) (state : SecurityState) : Option MadeCall :=
  match configurator.named half, configurator.asked files context half state with
  | some locator, .ok false => some ⟨configurator, files, context, .set half locator⟩
  | _, _ => none

theorem install_cases (configurator : Configurator) (files : FileTree) (context : CallerContext)
    (half : SecurityHalf) (state : SecurityState) :
    let outcome := configurator.install files context half state
    (configurator.setter? files context half state = none ∧ outcome.state = state ∧
        (outcome.result = .ok () →
          configurator.named half = none ∨ (state.view half).isConfigured half = true)) ∨
      ∃ locator, (state.view half).isConfigured half = false ∧
        configurator.setter? files context half state =
          some ⟨configurator, files, context, .set half locator⟩ ∧
        outcome.result = (configurator.set half files context locator state).result ∧
        outcome.state = (configurator.set half files context locator state).state := by
  intro outcome
  cases named : configurator.named half with
  | none =>
    have same : outcome = ⟨.ok (), [], state⟩ := install_of_unnamed named state
    rw [same]
    exact Or.inl ⟨by simp only [setter?, named], rfl, fun _ => Or.inl rfl⟩
  | some locator =>
    have done := outcome_install_of_named named files context state
    cases answer : configurator.asked files context half state with
    | error error =>
      rw [answer] at done
      refine Or.inl ⟨by simp only [setter?, named, answer], done.2, ?_⟩
      intro ok
      rw [done.1] at ok
      cases ok
    | ok found =>
      have judged := (asked_eq_ok_iff.1 answer).2
      rw [answer] at done
      cases found with
      | true => exact Or.inl ⟨by simp only [setter?, named, answer], done.2, fun _ => Or.inr judged⟩
      | false => exact Or.inr ⟨locator, judged, by simp only [setter?, named, answer], done⟩

theorem state_install (configurator : Configurator) (files : FileTree) (context : CallerContext)
    (half : SecurityHalf) (state : SecurityState) :
    (configurator.install files context half state).state =
      (MadeCall.run (configurator.setter? files context half state).toList state).state := by
  rcases configurator.install_cases files context half state with
    ⟨none, same, _⟩ | ⟨locator, _, setter, _, changed⟩
  · rw [none, same]
    rfl
  · rw [setter, changed, Option.toList_some, MadeCall.state_run_set]

theorem view_install_other {other : SecurityHalf} (different : other ≠ half)
    (state : SecurityState) :
    (configurator.install files context half state).state.view other = state.view other := by
  rcases configurator.install_cases files context half state with
    ⟨_, same, _⟩ | ⟨locator, _, _, _, changed⟩
  · rw [same]
  · rw [changed, view_set, if_neg]
    exact fun both => different both.1

theorem installed_of_install_ok {locator : String} (named : configurator.named half = some locator)
    (ok : (configurator.install files context half state).result = .ok ()) :
    ((configurator.install files context half state).state.view half).installed.isSome = true ↔
      ((state.view half).isConfigured half = true → (state.view half).installed.isSome = true) := by
  rcases configurator.install_cases files context half state with
    ⟨_, same, why⟩ | ⟨locator, missing, _, result, changed⟩
  · rw [same]
    rcases why ok with unnamed | there
    · rw [named] at unnamed
      cases unnamed
    · simp only [there, forall_const]
  · rw [result] at ok
    have installed := installed_of_set_ok ok
    rw [changed]
    simp only [missing, Bool.false_eq_true, false_implies, iff_true]
    exact installed

/-! ### Installing both halves -/

theorem installAll_eq (configurator : Configurator) (files : FileTree) (context : CallerContext)
    (state : SecurityState) :
    configurator.installAll files context state =
      (configurator.install files context .login state).andThen fun _ state =>
        configurator.install files context .policy state := rfl

/-- The setters that a start calls. That of the policy is reached only past the login half. -/
def setters (configurator : Configurator) (files : FileTree) (context : CallerContext)
    (state : SecurityState) : List MadeCall :=
  let login := configurator.install files context .login state
  (configurator.setter? files context .login state).toList ++
    match login.result with
    | .ok _ => (configurator.setter? files context .policy login.state).toList
    | .error _ => []

theorem state_installAll (configurator : Configurator) (files : FileTree) (context : CallerContext)
    (state : SecurityState) :
    (configurator.installAll files context state).state =
      (MadeCall.run (configurator.setters files context state) state).state := by
  have login := configurator.state_install files context .login state
  rw [installAll_eq]
  cases result : (configurator.install files context .login state).result with
  | ok value =>
    rw [(CallOutcome.andThen_of_ok _ result).2, state_install, setters, result,
      MadeCall.run_append, ← login]
  | error error =>
    rw [(CallOutcome.andThen_of_error _ result).2, setters, result, login, List.append_nil]

theorem installAll_eq_ok (ok : (configurator.installAll files context state).result = .ok ()) :
    let login := configurator.install files context .login state
    let policy := configurator.install files context .policy login.state
    login.result = .ok () ∧ policy.result = .ok () ∧
      (configurator.installAll files context state).state = policy.state := by
  obtain ⟨_, first, second, same⟩ := CallOutcome.andThen_eq_ok ok
  exact ⟨first, second, same⟩

/-- Both halves are installed in the end when nothing failed, unless the property of the policy was
published before with nothing installed. -/
theorem installed_of_installAll_ok (configurator : Configurator) {login policy : String}
    (namesLogin : configurator.named .login = some login)
    (namesPolicy : configurator.named .policy = some policy)
    (ok : (configurator.installAll files context state).result = .ok ()) :
    let final := (configurator.installAll files context state).state
    (final.view .login).installed.isSome = true ∧
      ((final.view .policy).installed.isSome = true ↔
        ((state.view .policy).published.isSome = true →
          (state.view .policy).installed.isSome = true)) := by
  obtain ⟨first, second, after⟩ := installAll_eq_ok ok
  dsimp only
  rw [after]
  constructor
  · rw [view_install_other (by decide), installed_of_install_ok namesLogin first]
    exact id
  · rw [installed_of_install_ok namesPolicy second, view_install_other (by decide)]
    rfl

end Configurator

/-! ### Whole starts -/

structure Start where
  settings : Settings
  registry : Registry
  around : Surroundings
  source : DescriptorSource
  context : CallerContext
  cancellation : Cancellation := .never

namespace Start

def perform (start : Start) (state : SecurityState) : CallOutcome Engine :=
  start.settings.bootstrap start.registry start.around start.source start.context
    start.cancellation state

def configurator (start : Start) : Configurator := ⟨start.registry, start.settings.security⟩

def setters (start : Start) (state : SecurityState) : List MadeCall :=
  start.configurator.setters start.around.files start.context state

/-- What comes of installing the providers. -/
def installAll (start : Start) (state : SecurityState) : CallOutcome Unit :=
  start.configurator.installAll start.around.files start.context state

/-- What is left of a start when both halves are installed. It neither fails nor touches the
state. -/
def finish (start : Start) (state : SecurityState) : CallOutcome Engine :=
  let load := start.settings.resolver.load start.around start.source start.cancellation
  ⟨.ok ⟨start.configurator, load.resolver, load.error⟩,
    load.log ++ [.initialized load.resolver.isContainerAuthorized load.error.isSome], state⟩

theorem perform_eq (start : Start) (state : SecurityState) :
    start.perform state = (start.installAll state).andThen fun _ state => start.finish state := rfl

theorem state_perform_eq (start : Start) (state : SecurityState) :
    (start.perform state).state = (start.installAll state).state := by
  rw [perform_eq]
  cases result : (start.installAll state).result with
  | ok value => exact (CallOutcome.andThen_of_ok _ result).2
  | error error => exact (CallOutcome.andThen_of_error _ result).2

theorem state_perform (start : Start) (state : SecurityState) :
    (start.perform state).state = (MadeCall.run (start.setters state) state).state :=
  (start.state_perform_eq state).trans (Configurator.state_installAll ..)

theorem installAll_of_perform_ok {start : Start} {state : SecurityState} {engine : Engine}
    (ok : (start.perform state).result = .ok engine) : (start.installAll state).result = .ok () := by
  rw [perform_eq] at ok
  obtain ⟨_, both, _⟩ := CallOutcome.andThen_eq_ok ok
  exact both

end Start

end Gatehouse
