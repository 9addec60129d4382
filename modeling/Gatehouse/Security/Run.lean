import Gatehouse.Security.Configurator
/-!
Runs of calls on one security state, made by any number of callers in turn. Main statement:
`run_append`, which says that a run can be cut anywhere.
-/

namespace Gatehouse

inductive SecurityCall where
  | isAuthConfigured
  | isPolicyConfigured
  | set (half : SecurityHalf) (locator : String)
  deriving DecidableEq

inductive SecurityAnswer where
  | configured (value : Bool)
  | policy (locator : Option String)
  | done
  deriving DecidableEq

def Configurator.perform (configurator : Configurator) (files : FileTree) (context : CallerContext)
    (call : SecurityCall) (state : SecurityState) : CallOutcome SecurityAnswer :=
  match call with
  | .isAuthConfigured => (configurator.isAuthConfigured context state).map .configured
  | .isPolicyConfigured => (configurator.isPolicyConfigured files context state).map .policy
  | .set half locator => (configurator.set half files context locator state).map fun _ => .done

/-- A call together with who makes it, with which rights and with which files at hand. -/
structure MadeCall where
  configurator : Configurator
  files : FileTree := {}
  context : CallerContext := .unrestricted
  call : SecurityCall

namespace MadeCall

def perform (made : MadeCall) (state : SecurityState) : CallOutcome SecurityAnswer :=
  made.configurator.perform made.files made.context made.call state

structure Run where
  seen : List (Except SecurityError SecurityAnswer × Log)
  state : SecurityState

/-- Makes calls one after the other. A call that fails stops none of the others. -/
def run : List MadeCall → SecurityState → Run
  | [], state => ⟨[], state⟩
  | made :: rest, state =>
    let outcome := made.perform state
    let later := run rest outcome.state
    { later with seen := (outcome.result, outcome.log) :: later.seen }

theorem run_append (first second : List MadeCall) (state : SecurityState) :
    run (first ++ second) state =
      { run second (run first state).state with
        seen := (run first state).seen ++ (run second (run first state).state).seen } := by
  induction first generalizing state with
  | nil => rfl
  | cons made rest ih => simp only [List.cons_append, run, ih]

end MadeCall

end Gatehouse
