import Gatehouse.Proofs.Security.LastSetter
/-!
What callers learn who may read neither half of the security state. They still may set it, and so
change it. Main statement: `seen_run_eq_of_blind`, which says that all they are answered and all
that is told is the same whatever the state was.
-/

namespace Gatehouse

/-- Whether a caller may read neither what is installed nor what is published. -/
def CallerContext.IsBlind (context : CallerContext) : Prop :=
  context.allows .getLoginConfiguration = false ∧ context.allows .readPolicyProperty = false

instance (context : CallerContext) : Decidable context.IsBlind :=
  inferInstanceAs (Decidable (_ ∧ _))

/-- What is seen of a call: its answer and what is told, but not the state that it leaves. -/
def CallOutcome.seen {α : Type} (outcome : CallOutcome α) : Except SecurityError α × Log :=
  (outcome.result, outcome.log)

namespace CallerContext

variable {α : Type} {context : CallerContext}

theorem seen_guarded_of_denied {permission : Permission}
    (denied : context.allows permission = false) (call : SecurityState → CallOutcome α)
    (state other : SecurityState) :
    (context.guarded [permission] state call).seen =
      (context.guarded [permission] other call).seen := by
  have first : context.firstDenied? [permission] = some permission := by
    simp [firstDenied?, denied]
  rw [guarded_of_denied first, guarded_of_denied first]
  rfl

theorem seen_guarded {call : SecurityState → CallOutcome α} {state other : SecurityState}
    (same : (call state).seen = (call other).seen) (needed : List Permission) :
    (context.guarded needed state call).seen = (context.guarded needed other call).seen := by
  cases denied : context.firstDenied? needed with
  | none => rwa [guarded_of_allowed denied, guarded_of_allowed denied]
  | some permission =>
    rw [guarded_of_denied denied, guarded_of_denied denied]
    rfl

end CallerContext

namespace Configurator

theorem seen_replace (configurator : Configurator) (half : SecurityHalf) (files : FileTree)
    (locator : String) (state other : SecurityState) :
    (configurator.replace half files locator state).seen =
      (configurator.replace half files locator other).seen := by
  cases build : configurator.registry.build half (configurator.settings.provider half) files
      locator with
  | ok provider =>
    rw [replace_of_built build, replace_of_built build]
    rfl
  | error fault =>
    rw [replace_of_fault build, replace_of_fault build]
    rfl

/-- A setter writes to the state and never reads it, whatever rights its caller has. -/
theorem seen_set (configurator : Configurator) (half : SecurityHalf) (files : FileTree)
    (context : CallerContext) (locator : String) (state other : SecurityState) :
    (configurator.set half files context locator state).seen =
      (configurator.set half files context locator other).seen := by
  unfold set
  dsimp only
  split
  · rfl
  · exact CallerContext.seen_guarded (seen_replace configurator half files _ state other) _

end Configurator

theorem CallOutcome.seen_map_eq {α β : Type} {first second : CallOutcome α}
    (same : first.seen = second.seen) (f : α → β) : (first.map f).seen = (second.map f).seen :=
  congrArg (fun seen => (seen.1.map f, seen.2)) same

namespace MadeCall

theorem seen_perform_of_blind {made : MadeCall} (blind : made.context.IsBlind)
    (state other : SecurityState) : (made.perform state).seen = (made.perform other).seen := by
  obtain ⟨configurator, files, context, call⟩ := made
  obtain ⟨noLogin, noPolicy⟩ := blind
  cases call with
  | isAuthConfigured =>
    exact CallOutcome.seen_map_eq
      (CallerContext.seen_guarded_of_denied noLogin _ state other) SecurityAnswer.configured
  | isPolicyConfigured =>
    exact CallOutcome.seen_map_eq
      (CallerContext.seen_guarded_of_denied noPolicy _ state other) SecurityAnswer.policy
  | set half locator =>
    exact CallOutcome.seen_map_eq
      (configurator.seen_set half files context locator state other) fun _ => SecurityAnswer.done

/-- Each call of blind callers is answered as if it were the first one that is ever made, although
those before it may have changed the state. -/
theorem seen_run_of_blind {calls : List MadeCall} (blind : ∀ made ∈ calls, made.context.IsBlind)
    (state : SecurityState) :
    (run calls state).seen = calls.map fun made => (made.perform {}).seen := by
  induction calls generalizing state with
  | nil => rfl
  | cons made rest ih =>
    obtain ⟨first, later⟩ := List.forall_mem_cons.1 blind
    calc (run (made :: rest) state).seen
        = (made.perform state).seen :: (run rest (made.perform state).state).seen := rfl
      _ = (made.perform {}).seen :: rest.map fun made => (made.perform {}).seen := by
        rw [seen_perform_of_blind first state {}, ih later]

/-- A run of calls by callers without the two reading rights is answered and told in the same way
from any two states. -/
theorem seen_run_eq_of_blind {calls : List MadeCall} (blind : ∀ made ∈ calls, made.context.IsBlind)
    (state other : SecurityState) :
    (run calls state).seen = (run calls other).seen := by
  rw [seen_run_of_blind blind, seen_run_of_blind blind]

/-- Callers who may set the policy and nothing else: one sets it, one asks for it, one asks for the
login configuration, and one tries to set that. -/
def blindCalls : List MadeCall :=
  let context : CallerContext :=
    .restricted [.readSecurityProperty, .setPolicy, .writePolicyProperty]
  [⟨inMemory, {}, context, .set .policy " app.policy "⟩,
    ⟨inMemory, {}, context, .isPolicyConfigured⟩,
    ⟨inMemory, {}, context, .isAuthConfigured⟩,
    ⟨inMemory, {}, context, .set .login "login.conf"⟩]

/-- The two states are told apart by a caller who may read them. -/
theorem seen_run_blindCalls :
    let busy : SecurityState := { login := some ⟨"file-login-config", "login.conf"⟩ }
    (∀ made ∈ blindCalls, made.context.IsBlind) ∧
      (run [⟨inMemory, {}, .unrestricted, .isAuthConfigured⟩] busy).seen ≠
        (run [⟨inMemory, {}, .unrestricted, .isAuthConfigured⟩] {}).seen ∧
      (run blindCalls busy).seen = (run blindCalls {}).seen := by
  intro busy
  have blind : ∀ made ∈ blindCalls, made.context.IsBlind := by decide
  have answered (state : SecurityState) :
      (run [⟨inMemory, {}, .unrestricted, .isAuthConfigured⟩] state).seen =
        [(.ok (.configured state.login.isSome), [])] := rfl
  refine ⟨blind, ?_, seen_run_eq_of_blind blind busy {}⟩
  rw [answered, answered]
  simp [busy]

end MadeCall

end Gatehouse
