import Gatehouse.Event
import Gatehouse.Security.State
import Gatehouse.Settings.Basic
import Gatehouse.Text.Blank
/-!
The calls that read and change the security state of the process. Each names the rights that it
needs and checks them before it touches the state.
-/

namespace Gatehouse

structure Configurator where
  registry : Registry := Registry.withDefaults
  settings : SecuritySettings := {}

structure CallOutcome (α : Type) where
  result : Except SecurityError α
  log : Log
  state : SecurityState

namespace CallOutcome

def map {α β : Type} (f : α → β) (outcome : CallOutcome α) : CallOutcome β :=
  { outcome with result := outcome.result.map f }

def andThen {α β : Type} (first : CallOutcome α) (next : α → SecurityState → CallOutcome β) :
    CallOutcome β :=
  match first.result with
  | .ok value =>
    let second := next value first.state
    { second with log := first.log ++ second.log }
  | .error error => ⟨.error error, first.log, first.state⟩

end CallOutcome

namespace CallerContext

/-- Goes on with a call if the caller has the rights that it needs. The first one that is missing is
told and stops it. -/
def guarded {α : Type} (context : CallerContext) (needed : List Permission) (state : SecurityState)
    (call : SecurityState → CallOutcome α) : CallOutcome α :=
  match context.firstDenied? needed with
  | some permission => ⟨.error (.permissionDenied permission), [.denied permission], state⟩
  | none => call state

end CallerContext

namespace SecurityHalf

def needed : SecurityHalf → List Permission
  | login => [.readSecurityProperty, .setLoginConfiguration, .writeLoginConfigProperty]
  | policy => [.readSecurityProperty, .setPolicy, .writePolicyProperty]

def installedEvent (half : SecurityHalf) (provider locator : String) : Event :=
  match half with
  | login => .loginInstalled provider locator
  | policy => .policyInstalled provider locator

end SecurityHalf

namespace Configurator

def isAuthConfigured (_ : Configurator) (context : CallerContext) (state : SecurityState) :
    CallOutcome Bool :=
  context.guarded [.getLoginConfiguration] state fun state => ⟨.ok state.login.isSome, [], state⟩

def keystorePath (configurator : Configurator) (policyFile : Path) : Path :=
  (policyFile.parent?.getD (Path.ofString ".")).join
    (Path.ofString configurator.settings.keystoreName)

/-- What is told about a policy's file and its keystore, which must be a file that can be opened.
Files that are missing are no failure, since some containers find them in their own ways. -/
def companions (configurator : Configurator) (files : FileTree) (policy : String) : Log :=
  let file := Path.ofLocator policy
  let keystore := configurator.keystorePath file
  (if files.exists? file then [] else [.policyFileMissing file]) ++
    [if files.isFile keystore && files.opens keystore then .keystoreFound keystore
      else .keystoreMissing keystore]

def isPolicyConfigured (configurator : Configurator) (files : FileTree) (context : CallerContext)
    (state : SecurityState) : CallOutcome (Option String) :=
  context.guarded [.readPolicyProperty] state fun state =>
    match state.property? SecurityHalf.policy.property with
    | none => ⟨.ok none, [], state⟩
    | some policy =>
      ⟨.ok (some policy), .policyAlreadySet policy :: configurator.companions files policy, state⟩

/-- Clears one half, publishes the locator, and builds and installs the provider. When that cannot
be built the half stays empty. -/
def replace (configurator : Configurator) (half : SecurityHalf) (files : FileTree)
    (locator : String) (state : SecurityState) : CallOutcome Unit :=
  let provider := configurator.settings.provider half
  let cleared := (state.install half none).publish half.property locator
  match configurator.registry.build half provider files locator with
  | .ok built =>
    ⟨.ok (), [half.installedEvent provider locator], cleared.install half (some built)⟩
  | .error fault => ⟨.error (.notInstalled provider fault), [], cleared⟩

/-- Installs what a locator names in one half, whether or not something is installed there. Blanks
around the locator do not count. -/
def set (configurator : Configurator) (half : SecurityHalf) (files : FileTree)
    (context : CallerContext) (locator : String) (state : SecurityState) : CallOutcome Unit :=
  let locator := Text.strip locator
  if locator = "" then ⟨.error (.blankLocator half), [], state⟩
  else context.guarded half.needed state (configurator.replace half files locator)

end Configurator

end Gatehouse
