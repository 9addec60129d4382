import Gatehouse.Resolver
/-!
Clients that give up by themselves. `Web.KeepsTime` says what is expected of a client with a limit.
Main statement: `Resolver.load_of_keepsTime`, which says that a client whose limit is the time of the
whole fetch changes nothing but which of the two gives up on a page.
-/

namespace Gatehouse

/-- What is left of an exchange that a client ends: no page, or one without its body. -/
inductive Reply.IsCutShort : Reply → Prop
  | failed : IsCutShort .failed
  | bodiless {status : Nat} (accepted : ¬ IsRefusal status) : IsCutShort (.page status none)

namespace Web

/-- What is expected of a client with a limit. What comes before the limit is what a client without
one is given, and an exchange that takes longer is cut short, but not before the limit. -/
structure KeepsTime (web : Web) (limit : Duration) : Prop where
  inTime : ∀ url delay reply, web {} url = .over delay reply →
    delay.microseconds < limit.microseconds →
      web { timeout := some limit } url = .over delay reply
  late : ∀ url, (∀ delay reply, web {} url = .over delay reply →
      limit.microseconds < delay.microseconds) →
    ∃ delay reply, web { timeout := some limit } url = .over delay reply ∧
      limit.microseconds ≤ delay.microseconds ∧ reply.IsCutShort

/-- No exchange is over in the very moment when the time is up. -/
def HasNoTie (web : Web) (limit : Duration) : Prop :=
  ∀ url delay reply, web {} url = .over delay reply → delay.microseconds ≠ limit.microseconds

end Web

/-- The same error or none, or a page that the fetch gave up in the one case and the client in the
other. -/
inductive AgreeButForTime (timeout : Duration) :
    Option DescriptorError → Option DescriptorError → Prop
  | same (error : Option DescriptorError) : AgreeButForTime timeout error error
  | noPage (url : Url) : AgreeButForTime timeout
      (some (.unavailable (.timedOut (.url url) timeout)))
      (some (.unavailable (.notFetched url .transport)))
  | noBody (url : Url) : AgreeButForTime timeout
      (some (.unavailable (.timedOut (.url url) timeout))) (some (.unavailable (.cutOff url)))

/-! ### Answers -/

namespace Locator

variable {around : Surroundings} {timeout : Duration}

/-- What does not come before the time is up. -/
inductive Answer.IsOverdue (timeout : Duration) : Answer → Prop
  | never : IsOverdue timeout .never
  | later {delay : Duration} {result : Except Obstacle (List UInt8)}
      (late : timeout.microseconds < delay.microseconds) : IsOverdue timeout (.later delay result)

theorem inTime_later_cases (locator : Locator) {delay : Duration}
    (result : Except Obstacle (List UInt8)) (late : timeout.microseconds ≤ delay.microseconds) :
    (Answer.later delay result).inTime timeout locator = Answer.never.inTime timeout locator ∨
      delay = timeout ∧
        Answer.never.inTime timeout locator = (some timeout, .error (.timedOut locator timeout)) ∧
        (Answer.later delay result).inTime timeout locator = (some timeout, result) := by
  by_cases nothing : timeout.microseconds = 0
  · exact .inl (by simp only [Answer.inTime, nothing, if_true])
  by_cases just : delay.microseconds ≤ timeout.microseconds
  · obtain rfl : delay = timeout := congrArg Duration.mk (by omega)
    exact .inr (by simp only [Answer.inTime, if_neg nothing, if_pos just, and_self])
  · exact .inl (by simp only [Answer.inTime, if_neg nothing, if_neg just])

theorem within_of_isOverdue (limits : Limits) (locator : Locator) {answer : Answer}
    (overdue : answer.IsOverdue limits.timeout) :
    locator.within limits answer = locator.within limits .never := by
  cases overdue with
  | never => rfl
  | @later delay result late =>
    rcases inTime_later_cases locator result (Nat.le_of_lt late) with same | ⟨rfl, -⟩
    · simp only [within, same]
    · exact absurd late (Nat.lt_irrefl _)

/-- An answer that comes when the time is up or later is passed over, unless it comes just then. The
caller's cancelling has the same part in either case. -/
theorem within_later_cases (limits : Limits) (locator : Locator) {delay : Duration}
    (result : Except Obstacle (List UInt8))
    (late : limits.timeout.microseconds ≤ delay.microseconds) :
    locator.within limits (.later delay result) = locator.within limits .never ∨
      locator.within limits .never = .error (.timedOut locator limits.timeout) ∧
        locator.within limits (.later delay result) = result := by
  unfold within
  rcases inTime_later_cases locator result late with same | ⟨-, up, just⟩
  · exact .inl (by rw [same])
  rw [up, just]
  cases limits.cancellation with
  | never => exact .inr ⟨rfl, rfl⟩
  | before => exact .inl rfl
  | after moment =>
    dsimp only
    split
    · exact .inl rfl
    · exact .inr ⟨rfl, rfl⟩

/-- Why a client that gives up has no octets to give. -/
def IsGivenUp (url : Url) (obstacle : Obstacle) : Prop :=
  obstacle = .notFetched url .transport ∨ obstacle = .cutOff url

theorem exists_read_of_isCutShort {url : Url} {reply : Reply} (cut : reply.IsCutShort) :
    ∃ obstacle, reply.read url = .error obstacle ∧ IsGivenUp url obstacle := by
  cases cut with
  | failed => exact ⟨_, rfl, .inl rfl⟩
  | bodiless accepted => exact ⟨_, if_neg accepted, .inr rfl⟩

theorem readPage_cases {web : Web} (keeps : web.KeepsTime timeout) (noTie : web.HasNoTie timeout)
    (address : Url) :
    readPage web { timeout := some timeout } address = readPage web {} address ∨
      (readPage web {} address).IsOverdue timeout ∧
        ∃ delay obstacle, timeout.microseconds ≤ delay.microseconds ∧ IsGivenUp address obstacle ∧
          readPage web { timeout := some timeout } address = .later delay (.error obstacle) := by
  by_cases late : ∀ delay reply, web {} address = .over delay reply →
      timeout.microseconds < delay.microseconds
  · obtain ⟨delay, reply, given, patient, cut⟩ := keeps.late address late
    obtain ⟨obstacle, read, givenUp⟩ := exists_read_of_isCutShort cut
    refine .inr ⟨?_, delay, obstacle, patient, givenUp, by rw [readPage, given, ← read]⟩
    rw [readPage]
    split
    · next delay reply plain => exact .later (late delay reply plain)
    · exact .never
  · simp only [Classical.not_forall, Nat.not_lt] at late
    obtain ⟨delay, reply, plain, soon⟩ := late
    have before := Nat.lt_of_le_of_ne soon (noTie address delay reply plain)
    have same := (keeps.inTime address delay reply plain before).trans plain.symm
    exact .inl (by rw [readPage, same, readPage])

theorem read_cases (keeps : around.web.KeepsTime timeout) (noTie : around.web.HasNoTie timeout)
    (locator : Locator) :
    locator.read around { timeout := some timeout } = locator.read around {} ∨
      ∃ address delay obstacle, locator = .url address ∧
        (locator.read around {}).IsOverdue timeout ∧
        timeout.microseconds ≤ delay.microseconds ∧ IsGivenUp address obstacle ∧
        locator.read around { timeout := some timeout } = .later delay (.error obstacle) := by
  cases locator with
  | inlineText content => exact .inl rfl
  | file path => exact .inl rfl
  | url address =>
    simp only [read]
    split
    · exact .inl rfl
    split
    · rcases readPage_cases keeps noTie address with
        same | ⟨overdue, delay, obstacle, late, givenUp, answer⟩
      · exact .inl same
      · exact .inr ⟨address, delay, obstacle, rfl, overdue, late, givenUp, answer⟩
    · exact .inl rfl

/-! ### Loads -/

/-- A fetch with such a client comes to what it comes to with one without a limit, or the client says
itself that it has given up. -/
theorem fetch_cases (keeps : around.web.KeepsTime timeout) (noTie : around.web.HasNoTie timeout)
    (cancellation : Cancellation) (locator : Locator) :
    let limited : Limits := ⟨timeout, cancellation, { timeout := some timeout }⟩
    let unlimited : Limits := ⟨timeout, cancellation, {}⟩
    locator.fetch around limited = locator.fetch around unlimited ∨
      ∃ address obstacle, IsGivenUp address obstacle ∧
        locator.fetch around unlimited =
          .error (.unavailable (.timedOut (.url address) timeout)) ∧
        locator.fetch around limited = .error (.unavailable obstacle) := by
  intro limited unlimited
  rcases read_cases keeps noTie locator with
    same | ⟨address, delay, obstacle, rfl, overdue, late, givenUp, answer⟩
  · exact .inl (by simp only [fetch, limited, unlimited, same]; rfl)
  have never := within_of_isOverdue unlimited (.url address) overdue
  rcases within_later_cases limited (.url address) (.error obstacle) late with same | ⟨up, just⟩
  · refine .inl ?_
    rw [fetch, answer, same, fetch, never]
    rfl
  · refine .inr ⟨address, obstacle, givenUp, ?_, ?_⟩
    · rw [fetch, never, show (url address).within unlimited .never = _ from up]
    · rw [fetch, answer, just]

end Locator

theorem DescriptorSource.result_load_cases {around : Surroundings} {timeout : Duration}
    (keeps : around.web.KeepsTime timeout) (noTie : around.web.HasNoTie timeout)
    (source : DescriptorSource) (cancellation : Cancellation) (sentinels : Sentinels) :
    let limited := source.load around ⟨timeout, cancellation, { timeout := some timeout }⟩ sentinels
    let unlimited := source.load around ⟨timeout, cancellation, {}⟩ sentinels
    limited.result = unlimited.result ∨
      ∃ address obstacle, Locator.IsGivenUp address obstacle ∧
        unlimited.result = .error (.unavailable (.timedOut (.url address) timeout)) ∧
        limited.result = .error (.unavailable obstacle) := by
  unfold load
  cases source.locate around.files with
  | none => exact .inl rfl
  | some locator =>
    dsimp only [loadFrom]
    rcases Locator.fetch_cases keeps noTie cancellation locator with
      same | ⟨address, obstacle, givenUp, unlimited, limited⟩
    · exact .inl (by rw [same])
    · exact .inr ⟨address, obstacle, givenUp, by rw [unlimited], by rw [limited]⟩

namespace Resolver

theorem index_load_eq (resolver : Resolver) (around : Surroundings) (source : DescriptorSource)
    (cancellation : Cancellation) :
    (resolver.load around source cancellation).resolver.index =
      match (source.load around ⟨resolver.timeout, cancellation, resolver.client⟩
        resolver.sentinels).result with
      | .ok index => index
      | .error _ => ConstraintIndex.empty := by
  cases result : (source.load around ⟨resolver.timeout, cancellation, resolver.client⟩
    resolver.sentinels).result <;> simp only [load, result]

theorem error_load_eq (resolver : Resolver) (around : Surroundings) (source : DescriptorSource)
    (cancellation : Cancellation) :
    (resolver.load around source cancellation).error =
      match (source.load around ⟨resolver.timeout, cancellation, resolver.client⟩
        resolver.sentinels).result with
      | .ok _ => none
      | .error error => some error := by
  cases result : (source.load around ⟨resolver.timeout, cancellation, resolver.client⟩
    resolver.sentinels).result <;> simp only [load, result]

/-- With a client whose limit is the time of the whole fetch, a load publishes what it publishes with
a client without a limit. Its error is the same, too, but for a page that was not there in time: then
it can be the client that says so. -/
theorem load_of_keepsTime {resolver : Resolver}
    (limited : resolver.client = { timeout := some resolver.timeout }) {around : Surroundings}
    (keeps : around.web.KeepsTime resolver.timeout) (noTie : around.web.HasNoTie resolver.timeout)
    (source : DescriptorSource) (cancellation : Cancellation) :
    let load := resolver.load around source cancellation
    let unlimited := ({ resolver with client := {} } : Resolver).load around source cancellation
    load.resolver.index = unlimited.resolver.index ∧
      AgreeButForTime resolver.timeout unlimited.error load.error := by
  intro load unlimited
  rw [index_load_eq, index_load_eq, error_load_eq, error_load_eq, limited]
  rcases source.result_load_cases keeps noTie cancellation resolver.sentinels with
    same | ⟨address, obstacle, givenUp, late, told⟩
  · rw [same]
    exact ⟨rfl, .same _⟩
  · rw [late, told]
    refine ⟨rfl, ?_⟩
    rcases givenUp with rfl | rfl
    · exact .noPage address
    · exact .noBody address

end Resolver

end Gatehouse
