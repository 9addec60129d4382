import Gatehouse.Bootstrap
import Gatehouse.Proofs.Descriptor.Acceptance
import Gatehouse.Proofs.Descriptor.Agreement
import Gatehouse.Proofs.Descriptor.Lead
import Gatehouse.Proofs.Descriptor.NodeList
import Gatehouse.Proofs.Descriptor.Places
import Gatehouse.Proofs.Descriptor.WebApp
import Gatehouse.Proofs.Fetch.Carrier
import Gatehouse.Proofs.Lookup.Compiled
import Gatehouse.Proofs.Lookup.KnownRoles
import Gatehouse.Proofs.Lookup.Tables
import Gatehouse.Proofs.Pattern.Canonical
import Gatehouse.Proofs.Pattern.Segments
import Gatehouse.Proofs.Resolver.ContainerFlag
import Gatehouse.Proofs.Resolver.Told
import Gatehouse.Proofs.Role.InStep
import Gatehouse.Proofs.Security.Companions
import Gatehouse.Proofs.Security.InstallPhase
import Gatehouse.Proofs.Security.LastSetter
import Gatehouse.Proofs.Security.Retry
import Gatehouse.Proofs.Security.Rights
import Gatehouse.Proofs.Security.Secrecy
import Gatehouse.Proofs.Security.SetterOutcome
import Gatehouse.Proofs.Security.StartAgain
import Gatehouse.Proofs.Settings.Layer
import Gatehouse.Proofs.Settings.Layered
import Gatehouse.Proofs.Toml.Sections
import Gatehouse.Proofs.Url.FilePath
import Gatehouse.Proofs.Url.Spelling
import Gatehouse.Security.Run
import Gatehouse.Settings.Load
