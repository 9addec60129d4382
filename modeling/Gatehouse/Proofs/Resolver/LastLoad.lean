import Gatehouse.Resolver
/-!
A resolver through a life of loads, with files and pages that change between them. Main statement:
`run_remembers_last`, which says that nothing but the last load counts.
-/

namespace Gatehouse

namespace DescriptorSource

/-- The descriptor that a load reads: it is located, its text is fetched, and the text is
understood. -/
def Reads (source : DescriptorSource) (around : Surroundings) (limits : Limits)
    (descriptor : Descriptor) : Prop :=
  ∃ locator text, source.locate around.files = some locator ∧
    locator.fetch around limits = .ok text ∧ (Descriptor.read text).result = .ok descriptor

theorem result_load_eq_ok_iff {source : DescriptorSource} {around : Surroundings} {limits : Limits}
    {sentinels : Sentinels} {index : ConstraintIndex} :
    (source.load around limits sentinels).result = .ok index ↔
      ∃ descriptor, source.Reads around limits descriptor ∧
        ConstraintIndex.compile descriptor sentinels = index := by
  constructor
  · intro loaded
    unfold load at loaded
    split at loaded
    · cases loaded
    · rename_i locator located
      dsimp only [loadFrom] at loaded
      split at loaded
      · cases loaded
      · rename_i text fetched
        split at loaded
        · cases loaded
        · rename_i descriptor understood
          exact ⟨descriptor, ⟨locator, text, located, fetched, understood⟩, Except.ok.inj loaded⟩
  · rintro ⟨descriptor, ⟨locator, text, located, fetched, understood⟩, rfl⟩
    simp only [load, located, loadFrom, fetched, understood]

end DescriptorSource

namespace Resolver

def answer (resolver : Resolver) (request : Request) : Outcome :=
  resolver.load request.around request.source request.cancellation

def limits (resolver : Resolver) (request : Request) : Limits :=
  ⟨resolver.timeout, request.cancellation, resolver.client⟩

theorem answer_cases (resolver : Resolver) (request : Request) :
    (∃ error, (resolver.answer request).error = some error ∧
        (resolver.answer request).resolver.index = ConstraintIndex.empty) ∨
      ∃ descriptor, (resolver.answer request).error = none ∧
        request.source.Reads request.around (resolver.limits request) descriptor ∧
        (resolver.answer request).resolver.index =
          ConstraintIndex.compile descriptor resolver.sentinels := by
  simp only [answer, load]
  split
  · rename_i index loaded
    obtain ⟨descriptor, reads, rfl⟩ := DescriptorSource.result_load_eq_ok_iff.1 loaded
    exact Or.inr ⟨descriptor, rfl, reads, rfl⟩
  · rename_i error _
    exact Or.inl ⟨error, rfl, rfl⟩

theorem answer_eq_of_same {resolver other : Resolver} (request : Request)
    (sentinels : resolver.sentinels = other.sentinels) (timeout : resolver.timeout = other.timeout)
    (client : resolver.client = other.client) : resolver.answer request = other.answer request := by
  cases resolver
  cases other
  cases sentinels
  cases timeout
  cases client
  simp only [answer, load]

end Resolver

/-! ### Loads and changes in turn -/

inductive Happening where
  | change (around : Surroundings)
  | load (source : DescriptorSource) (cancellation : Cancellation)

/-- A resolver, what it can read from, and the last call that was made with the error it
returned. -/
structure Site where
  around : Surroundings
  resolver : Resolver
  last : Option (Resolver.Request × Option DescriptorError) := none

namespace Site

def step (site : Site) : Happening → Site
  | .change around => { site with around }
  | .load source cancellation =>
    let request : Resolver.Request := ⟨site.around, source, cancellation⟩
    let outcome := site.resolver.answer request
    { site with resolver := outcome.resolver, last := some (request, outcome.error) }

def run (site : Site) (happenings : List Happening) : Site := happenings.foldl step site

/-- The site is as if a fresh resolver had made the last call and no other. -/
def RemembersLast (fresh : Resolver) (site : Site) : Prop :=
  match site.last with
  | none => site.resolver = fresh
  | some (request, error) =>
    site.resolver = (fresh.answer request).resolver ∧ error = (fresh.answer request).error

theorem RemembersLast.sentinels {fresh : Resolver} {site : Site} (h : RemembersLast fresh site) :
    site.resolver.sentinels = fresh.sentinels := by
  unfold RemembersLast at h
  split at h
  · rw [h]
  · rw [h.1]
    exact Resolver.sentinels_load ..

theorem RemembersLast.timeout {fresh : Resolver} {site : Site} (h : RemembersLast fresh site) :
    site.resolver.timeout = fresh.timeout := by
  unfold RemembersLast at h
  split at h
  · rw [h]
  · rw [h.1]
    exact Resolver.timeout_load ..

theorem RemembersLast.client {fresh : Resolver} {site : Site} (h : RemembersLast fresh site) :
    site.resolver.client = fresh.client := by
  unfold RemembersLast at h
  split at h
  · rw [h]
  · rw [h.1]
    exact Resolver.client_load ..

theorem remembersLast_step {fresh : Resolver} {site : Site} (h : RemembersLast fresh site)
    (happening : Happening) : RemembersLast fresh (site.step happening) := by
  cases happening with
  | change around => exact h
  | load source cancellation =>
    have same := Resolver.answer_eq_of_same ⟨site.around, source, cancellation⟩ h.sentinels h.timeout
      h.client
    exact ⟨congrArg Resolver.Outcome.resolver same, congrArg Resolver.Outcome.error same⟩

theorem remembersLast_run {fresh : Resolver} {site : Site} (h : RemembersLast fresh site)
    (happenings : List Happening) : RemembersLast fresh (site.run happenings) := by
  induction happenings generalizing site with
  | nil => exact h
  | cons happening rest ih => exact ih (remembersLast_step h happening)

/-- A resolver remembers its last load only. Before any load, and after one that failed, its index
is empty. After one that succeeded it is that of the descriptor which that load read, as things were
then. In either case the whole resolver is the one that the last load alone would have left. -/
theorem run_remembers_last (sentinels : Sentinels) (timeout : Duration) (client : Client)
    (around : Surroundings) (happenings : List Happening) :
    let fresh : Resolver := { sentinels, timeout, client }
    let site := run { around, resolver := fresh } happenings
    match site.last with
    | none => site.resolver.index = ConstraintIndex.empty
    | some (request, error) =>
      site.resolver = (fresh.load request.around request.source request.cancellation).resolver ∧
        match error with
        | some _ => site.resolver.index = ConstraintIndex.empty
        | none => ∃ descriptor,
          request.source.Reads request.around ⟨timeout, request.cancellation, client⟩ descriptor ∧
            site.resolver.index = ConstraintIndex.compile descriptor sentinels := by
  intro fresh site
  have start : RemembersLast fresh { around, resolver := fresh } := rfl
  have remembers : RemembersLast fresh site := remembersLast_run start happenings
  unfold RemembersLast at remembers
  split at remembers
  · rw [remembers]
  · rename_i request error _
    obtain ⟨resolver, rfl⟩ := remembers
    refine ⟨resolver, ?_⟩
    rcases fresh.answer_cases request with ⟨error, failed, empty⟩ | ⟨descriptor, ok, reads, index⟩
    · rw [failed, resolver]
      exact empty
    · rw [ok, resolver]
      exact ⟨descriptor, reads, index⟩

end Site

end Gatehouse
