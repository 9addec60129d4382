import Gatehouse.Resolver
import Gatehouse.Security.Configurator
/-!
Starting up: the providers that the settings name are installed, and then the descriptor is loaded.
A provider that cannot be installed stops the start. A descriptor that cannot be used does not.
-/

namespace Gatehouse

structure Engine where
  configurator : Configurator
  resolver : Resolver
  descriptorError : Option DescriptorError

namespace Configurator

def installLogin (configurator : Configurator) (files : FileTree) (context : CallerContext)
    (state : SecurityState) : CallOutcome Unit :=
  match configurator.settings.loginConfig with
  | none => ⟨.ok (), [], state⟩
  | some locator =>
    (configurator.isAuthConfigured context state).andThen fun configured state =>
      if configured then ⟨.ok (), [.loginAlreadyInstalled], state⟩
      else configurator.set .login files context locator state

def installPolicy (configurator : Configurator) (files : FileTree) (context : CallerContext)
    (state : SecurityState) : CallOutcome Unit :=
  match configurator.settings.policy with
  | none => ⟨.ok (), [], state⟩
  | some locator =>
    (configurator.isPolicyConfigured files context state).andThen fun policy state =>
      if policy.isSome then ⟨.ok (), [], state⟩
      else configurator.set .policy files context locator state

/-- Installs what the settings name, stopping at the first failure. -/
def installAll (configurator : Configurator) (files : FileTree) (context : CallerContext)
    (state : SecurityState) : CallOutcome Unit :=
  (configurator.installLogin files context state).andThen fun _ state =>
    configurator.installPolicy files context state

end Configurator

namespace Settings

/-- The client gets the time that a whole fetch has. -/
def resolver (settings : Settings) : Resolver where
  sentinels := settings.descriptor.sentinels
  timeout := settings.descriptor.fetchTimeout
  client := { timeout := some settings.descriptor.fetchTimeout }

def bootstrap (settings : Settings) (registry : Registry) (around : Surroundings)
    (source : DescriptorSource) (context : CallerContext) (cancellation : Cancellation)
    (state : SecurityState) : CallOutcome Engine :=
  let configurator : Configurator := ⟨registry, settings.security⟩
  (configurator.installAll around.files context state).andThen fun _ state =>
    let load := settings.resolver.load around source cancellation
    ⟨.ok ⟨configurator, load.resolver, load.error⟩,
      load.log ++ [.initialized load.resolver.isContainerAuthorized load.error.isSome], state⟩

end Settings

end Gatehouse
