import Gatehouse.Proofs.Fetch.Patience
import Gatehouse.Proofs.Resolver.LastLoad
import Gatehouse.Proofs.Security.Start
/-!
A start as two phases. The first one installs providers by the same calls that anyone can make, and
stops at the first of them that fails. The second one loads the descriptor, and no failure in it
stops the start. Main statement: `bootstrap_eq_phases`, which says that a start is these two phases
and that neither of them depends on what the other one works with.
-/

namespace Gatehouse

namespace Configurator

section Phase

variable (configurator : Configurator) (files : FileTree) (context : CallerContext)

/-- What comes of one half in the first phase, call by call. -/
inductive Installs (half : SecurityHalf) (state : SecurityState) : CallOutcome Unit → Prop where
  | unnamed (unnamed : configurator.named half = none) : Installs half state ⟨.ok (), [], state⟩
  | refused {locator : String} {error : SecurityError} {log : Log} {after : SecurityState}
      (named : configurator.named half = some locator)
      (asked : configurator.perform files context half.question state = ⟨.error error, log, after⟩) :
      Installs half state ⟨.error error, log, after⟩
  | leftAlone {locator : String} {answer : SecurityAnswer} {log : Log} {after : SecurityState}
      (named : configurator.named half = some locator)
      (asked : configurator.perform files context half.question state = ⟨.ok answer, log, after⟩)
      (there : answer.isYes = true) :
      Installs half state ⟨.ok (), log ++ half.leftAlone, after⟩
  | set {locator : String} {answer : SecurityAnswer} {log told : Log} {after last : SecurityState}
      {result : Except SecurityError SecurityAnswer}
      (named : configurator.named half = some locator)
      (asked : configurator.perform files context half.question state = ⟨.ok answer, log, after⟩)
      (missing : answer.isYes = false)
      (set : configurator.perform files context (.set half locator) after = ⟨result, told, last⟩) :
      Installs half state ⟨result.map fun _ => (), log ++ told, last⟩

/-- What comes of the whole first phase: the login half, and then the policy half unless the login
half failed. -/
inductive InstallPhase (state : SecurityState) : CallOutcome Unit → Prop where
  | stopped {error : SecurityError} {log : Log} {after : SecurityState}
      (login : Installs configurator files context .login state ⟨.error error, log, after⟩) :
      InstallPhase state ⟨.error error, log, after⟩
  | through {log told : Log} {after last : SecurityState} {result : Except SecurityError Unit}
      (login : Installs configurator files context .login state ⟨.ok (), log, after⟩)
      (policy : Installs configurator files context .policy after ⟨result, told, last⟩) :
      InstallPhase state ⟨result, log ++ told, last⟩

end Phase

variable {configurator : Configurator} {files : FileTree} {context : CallerContext}
  {half : SecurityHalf} {state : SecurityState} {outcome : CallOutcome Unit}

/-! ### The program's first phase -/

theorem installs_install (configurator : Configurator) (files : FileTree) (context : CallerContext)
    (half : SecurityHalf) (state : SecurityState) :
    configurator.Installs files context half state
      (configurator.install files context half state) := by
  cases named : configurator.named half with
  | none =>
    rw [install_of_unnamed named]
    exact .unnamed named
  | some locator =>
    rw [install_of_named named]
    rcases asked : configurator.perform files context half.question state with
      ⟨_ | answer, log, after⟩
    · exact .refused named asked
    · cases there : answer.isYes with
      | true =>
        simp only [CallOutcome.andThen, there, if_true]
        exact .leftAlone named asked there
      | false =>
        rcases set : configurator.perform files context (.set half locator) after with
          ⟨result, told, last⟩
        simp only [CallOutcome.andThen, there, Bool.false_eq_true, if_false, set, CallOutcome.map]
        exact .set named asked there set

theorem Installs.eq_install (installs : configurator.Installs files context half state outcome) :
    outcome = configurator.install files context half state := by
  cases installs with
  | unnamed unnamed => rw [install_of_unnamed unnamed]
  | refused named asked =>
    rw [install_of_named named, asked]
    rfl
  | leftAlone named asked there =>
    rw [install_of_named named, asked]
    simp only [CallOutcome.andThen, there, if_true]
  | set named asked missing set =>
    rw [install_of_named named, asked]
    simp only [CallOutcome.andThen, missing, Bool.false_eq_true, if_false, set, CallOutcome.map]

theorem installs_iff :
    configurator.Installs files context half state outcome ↔
      outcome = configurator.install files context half state :=
  ⟨Installs.eq_install, fun same => same ▸ installs_install ..⟩

theorem installPhase_installAll (configurator : Configurator) (files : FileTree)
    (context : CallerContext) (state : SecurityState) :
    configurator.InstallPhase files context state
      (configurator.installAll files context state) := by
  have login := configurator.installs_install files context .login state
  rw [installAll_eq]
  rcases first : configurator.install files context .login state with ⟨_ | _, log, after⟩
  · rw [first] at login
    exact .stopped login
  · rw [first] at login
    exact .through login (configurator.installs_install files context .policy after)

theorem InstallPhase.eq_installAll
    (phase : configurator.InstallPhase files context state outcome) :
    outcome = configurator.installAll files context state := by
  cases phase with
  | stopped login =>
    rw [installAll_eq, ← login.eq_install]
    rfl
  | through login policy =>
    rw [installAll_eq, ← login.eq_install]
    simp only [CallOutcome.andThen, ← policy.eq_install]

theorem installPhase_iff :
    configurator.InstallPhase files context state outcome ↔
      outcome = configurator.installAll files context state :=
  ⟨InstallPhase.eq_installAll, fun same => same ▸ installPhase_installAll ..⟩

end Configurator

/-! ### What the first phase tells -/

/-- Whether an event is one that only the loading of a descriptor, or the end of a good start,
brings about. -/
def Event.isAboutDescriptor : Event → Bool
  | .patternlessConstraint | .ignoredNode _ | .examining _ | .loaded .. | .containerAuthentication
  | .customAuthentication | .managedRoles _ | .notLoaded _ | .initialized .. => true
  | .denied _ | .policyAlreadySet _ | .policyFileMissing _ | .keystoreFound _ | .keystoreMissing _
  | .loginInstalled .. | .policyInstalled .. | .loginAlreadyInstalled => false

def Log.LeavesOutDescriptor (log : Log) : Prop := ∀ event ∈ log, event.isAboutDescriptor = false

theorem Log.LeavesOutDescriptor.append {log told : Log} (first : log.LeavesOutDescriptor)
    (second : told.LeavesOutDescriptor) : Log.LeavesOutDescriptor (log ++ told) :=
  List.forall_mem_append.2 ⟨first, second⟩

theorem CallerContext.leavesOutDescriptor_guarded {α : Type} (context : CallerContext)
    (needed : List Permission) (state : SecurityState) {call : SecurityState → CallOutcome α}
    (silent : (call state).log.LeavesOutDescriptor) :
    (context.guarded needed state call).log.LeavesOutDescriptor := by
  cases denied : context.firstDenied? needed with
  | none => rwa [guarded_of_allowed denied]
  | some permission =>
    rw [guarded_of_denied denied]
    exact List.forall_mem_singleton.2 rfl

namespace Configurator

variable {configurator : Configurator} {files : FileTree} {context : CallerContext}
  {half : SecurityHalf} {state : SecurityState} {outcome : CallOutcome Unit}

theorem leavesOutDescriptor_companions (configurator : Configurator) (files : FileTree)
    (policy : String) : (configurator.companions files policy).LeavesOutDescriptor := by
  unfold companions
  refine Log.LeavesOutDescriptor.append ?_ (List.forall_mem_singleton.2 ?_)
  · split <;> simp [Log.LeavesOutDescriptor, Event.isAboutDescriptor]
  · split <;> rfl

theorem leavesOutDescriptor_replace (configurator : Configurator) (half : SecurityHalf)
    (files : FileTree) (locator : String) (state : SecurityState) :
    (configurator.replace half files locator state).log.LeavesOutDescriptor := by
  cases build : configurator.registry.build half (configurator.settings.provider half) files
      locator with
  | ok provider =>
    rw [replace_of_built build]
    cases half <;> exact List.forall_mem_singleton.2 rfl
  | error fault =>
    rw [replace_of_fault build]
    exact List.forall_mem_nil _

theorem leavesOutDescriptor_perform (configurator : Configurator) (files : FileTree)
    (context : CallerContext) (call : SecurityCall) (state : SecurityState) :
    (configurator.perform files context call state).log.LeavesOutDescriptor := by
  cases call with
  | isAuthConfigured =>
    simp only [perform, isAuthConfigured, CallOutcome.map]
    exact context.leavesOutDescriptor_guarded _ state (List.forall_mem_nil _)
  | isPolicyConfigured =>
    simp only [perform, isPolicyConfigured, CallOutcome.map]
    refine context.leavesOutDescriptor_guarded _ state ?_
    split
    · exact List.forall_mem_nil _
    · exact List.forall_mem_cons.2 ⟨rfl, configurator.leavesOutDescriptor_companions files _⟩
  | set half locator =>
    simp only [perform, set, CallOutcome.map]
    split
    · exact List.forall_mem_nil _
    · exact context.leavesOutDescriptor_guarded _ state
        (configurator.leavesOutDescriptor_replace half files _ state)

theorem Installs.leavesOutDescriptor
    (installs : configurator.Installs files context half state outcome) :
    outcome.log.LeavesOutDescriptor := by
  have calls := configurator.leavesOutDescriptor_perform files context
  cases installs with
  | unnamed => exact List.forall_mem_nil _
  | refused _ asked =>
    have question := calls half.question state
    rwa [asked] at question
  | leftAlone _ asked =>
    have question := calls half.question state
    rw [asked] at question
    refine question.append ?_
    cases half <;> simp [SecurityHalf.leftAlone, Log.LeavesOutDescriptor, Event.isAboutDescriptor]
  | @set locator _ _ _ after _ _ _ asked _ set =>
    have question := calls half.question state
    have setter := calls (.set half locator) after
    rw [asked] at question
    rw [set] at setter
    exact question.append setter

theorem InstallPhase.leavesOutDescriptor
    (phase : configurator.InstallPhase files context state outcome) :
    outcome.log.LeavesOutDescriptor := by
  cases phase with
  | stopped login => exact login.leavesOutDescriptor
  | through login policy => exact login.leavesOutDescriptor.append policy.leavesOutDescriptor

/-! ### The halves in the first phase -/

theorem Installs.view_other (installs : configurator.Installs files context half state outcome)
    {other : SecurityHalf} (different : other ≠ half) :
    outcome.state.view other = state.view other := by
  rw [installs.eq_install]
  exact view_install_other different state

/-- What the login half comes to is what the whole phase leaves of it, also when the policy half
fails after it. -/
theorem InstallPhase.view_login {login : CallOutcome Unit}
    (phase : configurator.InstallPhase files context state outcome)
    (installs : configurator.Installs files context .login state login) :
    outcome.state.view .login = login.state.view .login := by
  cases phase with
  | stopped stopped =>
    have same := installs.eq_install.trans stopped.eq_install.symm
    rw [same]
  | through through policy =>
    have same := installs.eq_install.trans through.eq_install.symm
    rw [same]
    exact policy.view_other (by decide)

end Configurator

/-! ### Both phases -/

/-- A descriptor that cannot be used leaves a resolver that constrains nothing. -/
theorem Resolver.index_load (resolver : Resolver) (around : Surroundings) (source : DescriptorSource)
    (cancellation : Cancellation) :
    let load := resolver.load around source cancellation
    match load.error with
    | some _ => load.resolver.index = ConstraintIndex.empty
    | none => ∃ descriptor,
        source.Reads around ⟨resolver.timeout, cancellation, resolver.client⟩ descriptor ∧
          load.resolver.index = ConstraintIndex.compile descriptor resolver.sentinels := by
  intro load
  rcases resolver.answer_cases ⟨around, source, cancellation⟩ with
    ⟨error, failed, empty⟩ | ⟨descriptor, ok, reads, compiled⟩
  · replace failed : load.error = some error := failed
    rw [failed]
    exact empty
  · replace ok : load.error = none := ok
    rw [ok]
    exact ⟨descriptor, reads, compiled⟩

/-- A start fails exactly if its first phase does, and then it is that phase and no descriptor is
looked at. Otherwise it has what a fresh resolver comes to that loads the descriptor once, whatever
the state, the registry and the caller's rights. That resolver has the sentinels and the time of the
settings, and its client has as much time; without that limit it would publish the same, and only say
otherwise that a page was not there in time. The state is that of the first phase in either case, and
that phase knows nothing of the descriptor. -/
theorem Settings.bootstrap_eq_phases (settings : Settings) (registry : Registry)
    (around : Surroundings) (source : DescriptorSource) (context : CallerContext)
    (cancellation : Cancellation) (state : SecurityState) :
    let configurator : Configurator := ⟨registry, settings.security⟩
    let sentinels : Sentinels :=
      { delete := settings.descriptor.sentinelDelete, login := settings.descriptor.sentinelLogin }
    let timeout : Duration := { microseconds := settings.descriptor.fetchTimeoutSecs * 1000000 }
    let client : Client := { timeout := some timeout }
    let load := ({ sentinels, timeout, client } : Resolver).load around source cancellation
    let unlimited := ({ sentinels, timeout } : Resolver).load around source cancellation
    let outcome := settings.bootstrap registry around source context cancellation state
    ∃ login phase : CallOutcome Unit,
      (∀ other, configurator.Installs around.files context .login state other ↔ other = login) ∧
      (∀ other, configurator.InstallPhase around.files context state other ↔ other = phase) ∧
      outcome.state = phase.state ∧
      phase.state.view .login = login.state.view .login ∧
      login.state.view .policy = state.view .policy ∧
      phase.log.LeavesOutDescriptor ∧
      (match phase.result with
        | .error error => outcome.result = .error error ∧ outcome.log = phase.log
        | .ok _ =>
          outcome.result = .ok ⟨configurator, load.resolver, load.error⟩ ∧
            outcome.log = phase.log ++ load.log ++
              [.initialized load.resolver.isContainerAuthorized load.error.isSome]) ∧
      load.resolver.sentinels = sentinels ∧
      (match load.error with
        | some _ => load.resolver.index = ConstraintIndex.empty
        | none => ∃ descriptor, source.Reads around ⟨timeout, cancellation, client⟩ descriptor ∧
            load.resolver.index = ConstraintIndex.compile descriptor sentinels) ∧
      (around.web.KeepsTime timeout → around.web.HasNoTie timeout →
        load.resolver.index = unlimited.resolver.index ∧
          AgreeButForTime timeout unlimited.error load.error) := by
  intro configurator sentinels timeout client load unlimited outcome
  have installs := configurator.installs_install around.files context .login state
  have phase := configurator.installPhase_installAll around.files context state
  refine ⟨_, _, fun other => Configurator.installs_iff,
    fun other => Configurator.installPhase_iff, ?_,
    phase.view_login installs, installs.view_other (by decide), phase.leavesOutDescriptor, ?_,
    Resolver.sentinels_load .., Resolver.index_load _ around source cancellation,
    fun keeps noTie => Resolver.load_of_keepsTime rfl keeps noTie source cancellation⟩
  · cases result : (configurator.installAll around.files context state).result with
    | error error => exact (CallOutcome.andThen_of_error _ result).2
    | ok done => exact (CallOutcome.andThen_of_ok _ result).2
  · cases result : (configurator.installAll around.files context state).result with
    | error error =>
      exact ⟨(CallOutcome.andThen_of_error _ result).1, CallOutcome.log_andThen_of_error _ result⟩
    | ok done =>
      refine ⟨(CallOutcome.andThen_of_ok _ result).1, ?_⟩
      rw [List.append_assoc]
      exact CallOutcome.log_andThen_of_ok _ result

/-- Settings with sentinels of their own, that name no provider and give a fetch three seconds. -/
def guardingSettings : Settings where
  descriptor := { fetchTimeoutSecs := 3, sentinelDelete := "/remove", sentinelLogin := "/signin" }

/-- A server that never answers, so that only a client with a limit comes to an end. -/
def stalledWeb : Web := fun client _ =>
  match client.timeout with
  | some limit => .over limit .failed
  | none => .never

theorem keepsTime_stalledWeb (limit : Duration) : stalledWeb.KeepsTime limit where
  inTime _ _ _ plain := nomatch plain
  late _ _ := ⟨limit, .failed, rfl, Nat.le_refl _, .failed⟩

theorem hasNoTie_stalledWeb (limit : Duration) : stalledWeb.HasNoTie limit :=
  fun _ _ _ plain => nomatch plain

def stalledAddress : Url where
  scheme := "http"
  authority := some { host := .domain "host" }
  route := .segments ["web.kdl"]

/-- One start finds a descriptor that protects both of its sentinels, and another one asks a server
that never answers. There the client gives up in the moment in which the fetch would. -/
theorem Settings.bootstrap_eq_phases_guardingSettings :
    let three : Duration := { microseconds := 3000000 }
    let resolver : Resolver :=
      { sentinels := { delete := "/remove", login := "/signin" }, timeout := three,
        client := { timeout := some three } }
    let source : DescriptorSource := .ofLocator (.inlineText
      "constraint \x7burl-patterns \x7b- \"/remove\";- \"/signin\"\x7d\x7d")
    let found := resolver.load {} source .never
    let page : DescriptorSource := .ofLocator (.url stalledAddress)
    let stalled := resolver.load { web := stalledWeb } page .never
    let unlimited :=
      ({ resolver with client := {} } : Resolver).load { web := stalledWeb } page .never
    ((guardingSettings.bootstrap {} {} source .unrestricted .never {}).result =
        .ok ⟨⟨{}, {}⟩, found.resolver, found.error⟩ ∧
      found.resolver.isContainerAuthorized = true) ∧
    (guardingSettings.bootstrap {} { web := stalledWeb } page .unrestricted .never {}).result =
        .ok ⟨⟨{}, {}⟩, stalled.resolver, stalled.error⟩ ∧
      stalled.error = some (.unavailable (.notFetched stalledAddress .transport)) ∧
      unlimited.error = some (.unavailable (.timedOut (.url stalledAddress) three)) ∧
      stalled.resolver.index = unlimited.resolver.index := by
  intro three resolver source found page stalled unlimited
  constructor
  · obtain ⟨_, phase, -, phases, -, -, -, -, outcome, -, -, -⟩ :=
      guardingSettings.bootstrap_eq_phases {} {} source .unrestricted .never {}
    obtain rfl := (phases _).1 (.through (.unnamed rfl) (.unnamed rfl))
    exact ⟨outcome.1, by decide +kernel⟩
  · obtain ⟨_, phase, -, phases, -, -, -, -, outcome, -, -, agree⟩ :=
      guardingSettings.bootstrap_eq_phases {} { web := stalledWeb } page .unrestricted .never {}
    obtain rfl := (phases _).1 (.through (.unnamed rfl) (.unnamed rfl))
    obtain ⟨same, -⟩ := agree (keepsTime_stalledWeb _) (hasNoTie_stalledWeb _)
    exact ⟨outcome.1, by decide +kernel, by decide +kernel, same⟩

end Gatehouse
