import Gatehouse.Constraint
import Gatehouse.Locator
import Gatehouse.Duration
import Gatehouse.Security.Provider
/-!
The settings of the program.
-/

namespace Gatehouse

structure DescriptorSettings where
  baseDir : Path := Path.ofString "."
  relativePath : Path := Path.ofString "WEB-INF/web.xml"
  fetchTimeoutSecs : Nat := 10
  sentinelDelete : String := "/Delete.jsp"
  sentinelLogin : String := "/Login.jsp"
  deriving DecidableEq

structure SecuritySettings where
  loginConfigurationProvider : Option String := none
  policyProvider : Option String := none
  loginConfig : Option String := none
  policy : Option String := none
  keystoreName : String := "keystore.jks"
  deriving DecidableEq

structure Settings where
  descriptor : DescriptorSettings := {}
  security : SecuritySettings := {}
  deriving DecidableEq

namespace DescriptorSettings

def sentinels (settings : DescriptorSettings) : Sentinels :=
  ⟨settings.sentinelDelete, settings.sentinelLogin⟩

def fetchTimeout (settings : DescriptorSettings) : Duration := .ofSeconds settings.fetchTimeoutSecs

def source (settings : DescriptorSettings) : DescriptorSource where
  baseDir := settings.baseDir
  relativePath := settings.relativePath

end DescriptorSettings

namespace SecuritySettings

def provider (settings : SecuritySettings) (half : SecurityHalf) : String :=
  (match half with
    | .login => settings.loginConfigurationProvider
    | .policy => settings.policyProvider).getD half.usualProvider

end SecuritySettings

end Gatehouse
