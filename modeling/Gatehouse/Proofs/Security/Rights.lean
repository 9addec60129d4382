import Gatehouse.Proofs.Security.LastSetter
import Gatehouse.Proofs.Security.Retry
/-!
Callers with more rights. A right is asked for before anything is done, and nothing else depends on
it: so more rights can only undo a denial. Main statement: `outcome_under_more_rights`, which says
that a success stays what it is, and that a caller with every single right is as good as one without
any restriction.
-/

namespace Gatehouse

namespace CallerContext

/-- Whether the second caller has all the rights of the first one. -/
def Within (narrow wide : CallerContext) : Prop :=
  ∀ permission, narrow.allows permission = true → wide.allows permission = true

/-- Whether a right is one that the second caller has and the first one lacks. -/
def Gains (narrow wide : CallerContext) (permission : Permission) : Prop :=
  narrow.allows permission = false ∧ wide.allows permission = true

/-- The first right that is denied stays the first one, or it is gained. -/
theorem Within.firstDenied?_cases {narrow wide : CallerContext} (within : narrow.Within wide)
    (needed : List Permission) :
    wide.firstDenied? needed = narrow.firstDenied? needed ∨
      ∃ permission, narrow.Gains wide permission ∧
        narrow.firstDenied? needed = some permission := by
  unfold firstDenied?
  induction needed with
  | nil => exact Or.inl rfl
  | cons permission needed ih =>
    cases allowed : narrow.allows permission with
    | true =>
      have stays := within permission allowed
      simpa [allowed, stays] using ih
    | false =>
      cases gained : wide.allows permission with
      | true => exact Or.inr ⟨permission, ⟨allowed, gained⟩, by simp [allowed]⟩
      | false => exact Or.inl (by simp [allowed, gained])

end CallerContext

namespace CallOutcome

variable {α β : Type}

/-- How an outcome may change with the rights of its caller: not at all, unless the call was stopped
for want of one of the rights that came. -/
def Relaxes (gained : Permission → Prop) (before after : CallOutcome α) : Prop :=
  after = before ∨
    ∃ permission, gained permission ∧ before.result = .error (.permissionDenied permission)

namespace Relaxes

variable {gained : Permission → Prop} {before after : CallOutcome α}

theorem refl (gained : Permission → Prop) (outcome : CallOutcome α) :
    Relaxes gained outcome outcome :=
  Or.inl rfl

theorem eq_of_ok (relaxes : Relaxes gained before after) {value : α}
    (ok : before.result = .ok value) : after = before := by
  obtain same | ⟨permission, _, denied⟩ := relaxes
  · exact same
  · rw [ok] at denied
    cases denied

theorem eq_of_nothing_gained (relaxes : Relaxes gained before after)
    (nothing : ∀ permission, ¬ gained permission) : after = before :=
  relaxes.resolve_right fun ⟨permission, gain, _⟩ => nothing permission gain

theorem map (relaxes : Relaxes gained before after) (f : α → β) :
    Relaxes gained (before.map f) (after.map f) := by
  obtain rfl | ⟨permission, gain, denied⟩ := relaxes
  · exact .refl _ _
  · exact Or.inr ⟨permission, gain, by simp only [CallOutcome.map, denied, Except.map]⟩

theorem andThen {next later : α → SecurityState → CallOutcome β}
    (first : Relaxes gained before after)
    (second : ∀ value state, Relaxes gained (next value state) (later value state)) :
    Relaxes gained (before.andThen next) (after.andThen later) := by
  obtain rfl | ⟨permission, gain, denied⟩ := first
  · cases result : after.result with
    | ok value =>
      obtain same | ⟨permission, gain, denied⟩ := second value after.state
      · left
        simp only [CallOutcome.andThen, result, same]
      · refine Or.inr ⟨permission, gain, ?_⟩
        rw [(andThen_of_ok next result).1, denied]
    | error error =>
      left
      simp only [CallOutcome.andThen, result]
  · exact Or.inr ⟨permission, gain, (andThen_of_error next denied).1⟩

end Relaxes

end CallOutcome

/-! ### Every call and every start -/

variable {narrow wide : CallerContext}

theorem CallerContext.Within.guarded {α : Type} (within : narrow.Within wide)
    (needed : List Permission) (state : SecurityState) (call : SecurityState → CallOutcome α) :
    CallOutcome.Relaxes (narrow.Gains wide) (narrow.guarded needed state call)
      (wide.guarded needed state call) := by
  obtain same | ⟨permission, gained, denied⟩ := within.firstDenied?_cases needed
  · exact Or.inl (by simp only [CallerContext.guarded, same])
  · exact Or.inr ⟨permission, gained, by rw [guarded_of_denied denied]⟩

namespace Configurator

theorem relaxes_set (within : narrow.Within wide) (configurator : Configurator)
    (half : SecurityHalf) (files : FileTree) (locator : String) (state : SecurityState) :
    CallOutcome.Relaxes (narrow.Gains wide) (configurator.set half files narrow locator state)
      (configurator.set half files wide locator state) := by
  unfold set
  dsimp only
  split
  · exact .refl _ _
  · exact within.guarded ..

theorem relaxes_perform (within : narrow.Within wide) (configurator : Configurator)
    (files : FileTree) (call : SecurityCall) (state : SecurityState) :
    CallOutcome.Relaxes (narrow.Gains wide) (configurator.perform files narrow call state)
      (configurator.perform files wide call state) := by
  cases call with
  | isAuthConfigured => exact (within.guarded _ state _).map _
  | isPolicyConfigured => exact (within.guarded _ state _).map _
  | set half locator => exact (relaxes_set within configurator half files locator state).map _

theorem relaxes_install (within : narrow.Within wide) (configurator : Configurator)
    (files : FileTree) (half : SecurityHalf) (state : SecurityState) :
    CallOutcome.Relaxes (narrow.Gains wide) (configurator.install files narrow half state)
      (configurator.install files wide half state) := by
  cases named : configurator.named half with
  | none =>
    rw [install_of_unnamed named, install_of_unnamed named]
    exact .refl _ _
  | some locator =>
    rw [install_of_named named, install_of_named named]
    refine (relaxes_perform within configurator files _ state).andThen fun answer state => ?_
    split
    · exact .refl _ _
    · exact (relaxes_perform within configurator files _ state).map _

end Configurator

/-- Loading a descriptor asks for no rights, so those for the installations decide. -/
theorem Settings.relaxes_bootstrap (within : narrow.Within wide) (settings : Settings)
    (registry : Registry) (around : Surroundings) (source : DescriptorSource)
    (cancellation : Cancellation) (state : SecurityState) :
    CallOutcome.Relaxes (narrow.Gains wide)
      (settings.bootstrap registry around source narrow cancellation state)
      (settings.bootstrap registry around source wide cancellation state) := by
  let configurator : Configurator := ⟨registry, settings.security⟩
  have installed : CallOutcome.Relaxes (narrow.Gains wide)
      (configurator.installAll around.files narrow state)
      (configurator.installAll around.files wide state) :=
    (Configurator.relaxes_install within configurator around.files .login state).andThen
      fun _ state => Configurator.relaxes_install within configurator around.files .policy state
  exact installed.andThen fun _ _ => .refl _ _

namespace SecurityAct

inductive Answer where
  | answered (answer : SecurityAnswer)
  | started (engine : Engine)

def outcome : SecurityAct → SecurityState → CallOutcome Answer
  | call made, state => (made.perform state).map .answered
  | start given, state => (given.perform state).map .started

/-- The same act by a caller with other rights. -/
def under (context : CallerContext) : SecurityAct → SecurityAct
  | call made => call { made with context }
  | start given => start { given with context }

theorem relaxes_outcome (within : narrow.Within wide) (act : SecurityAct) (state : SecurityState) :
    CallOutcome.Relaxes (narrow.Gains wide) ((act.under narrow).outcome state)
      ((act.under wide).outcome state) := by
  cases act with
  | call made =>
    exact (Configurator.relaxes_perform within made.configurator made.files made.call state).map _
  | start given =>
    exact (Settings.relaxes_bootstrap within given.settings given.registry given.around given.source
      given.cancellation state).map _

/-- What comes of each act when they are made one after the other. An act that fails stops none of
the others. -/
def trace : List SecurityAct → SecurityState → List (CallOutcome Answer)
  | [], _ => []
  | act :: rest, state => act.outcome state :: trace rest (act.outcome state).state

theorem trace_under_eq (within : narrow.Within wide)
    (nothing : ∀ permission, ¬ narrow.Gains wide permission) (acts : List SecurityAct)
    (state : SecurityState) :
    trace (acts.map (under wide)) state = trace (acts.map (under narrow)) state := by
  induction acts generalizing state with
  | nil => rfl
  | cons act rest ih =>
    have first := (relaxes_outcome within act state).eq_of_nothing_gained nothing
    simp only [List.map_cons, trace, first, ih]

/-- More rights never change a success: its value, what is told and the state that it leaves stay
the same, and with the value of a start the index that it publishes. And a caller who is granted all
rights one by one, in whatever order, sees in any run what one without restriction sees. -/
theorem outcome_under_more_rights :
    (∀ narrow wide : CallerContext, narrow.Within wide →
      ∀ (act : SecurityAct) (state : SecurityState) (value : Answer),
        ((act.under narrow).outcome state).result = .ok value →
          (act.under wide).outcome state = (act.under narrow).outcome state) ∧
      ∀ granted : List Permission, (∀ permission, permission ∈ granted) →
        ∀ (acts : List SecurityAct) (state : SecurityState),
          trace (acts.map (under (.restricted granted))) state =
            trace (acts.map (under .unrestricted)) state := by
  constructor
  · intro narrow wide within act state value ok
    exact (relaxes_outcome within act state).eq_of_ok ok
  · intro granted all acts state
    have within : (CallerContext.restricted granted).Within .unrestricted := fun _ _ => rfl
    have nothing : ∀ permission, ¬ (CallerContext.restricted granted).Gains .unrestricted
        permission := by
      rintro permission ⟨denied, _⟩
      rw [CallerContext.allows, List.contains_iff_mem.2 (all permission)] at denied
      cases denied
    exact (trace_under_eq within nothing acts state).symm

/-- A start that installs a policy, with the rights that this takes and no others. -/
def policyStart : Start where
  settings := { security := { policy := some "app.policy" } }
  registry := MadeCall.inMemory.registry
  around := {}
  source := .ofLocator (.inlineText "")
  context := .restricted [.readPolicyProperty, .readSecurityProperty, .setPolicy,
    .writePolicyProperty]

theorem outcome_policyStart_under_all_rights :
    let act := SecurityAct.start policyStart
    let acts := [act, .call ⟨MadeCall.inMemory, {}, .unrestricted, .isAuthConfigured⟩]
    policyStart.context.Within .unrestricted ∧
      (∃ value, ((act.under policyStart.context).outcome {}).result = .ok value) ∧
      (act.under .unrestricted).outcome {} = (act.under policyStart.context).outcome {} ∧
      (∀ permission, permission ∈ Permission.every) ∧
      trace (acts.map (under (.restricted Permission.every))) {} =
        trace (acts.map (under .unrestricted)) {} := by
  intro act acts
  have within : policyStart.context.Within .unrestricted := fun _ _ => rfl
  obtain ⟨success, every⟩ := outcome_under_more_rights
  exact ⟨within, ⟨_, rfl⟩, success _ _ within act {} _ rfl, Permission.mem_every,
    every _ Permission.mem_every acts {}⟩

end SecurityAct

end Gatehouse
