import Gatehouse.Proofs.Security.InstallPhase
/-!
What an operator is told of a load. Main statement: `told_is_published`, which says that the lines
of a load are those of the index that is published after it, or of the error that keeps one from
being there, and that a start closes with the same.
-/

namespace Gatehouse

/-! ### Lines -/

/-- An event as an operator sees it. -/
structure Line where
  level : Level
  message : String
  fields : List (String × FieldValue)
  deriving DecidableEq

namespace Event

def line (complaint : XmlComplaint) (event : Event) : Line :=
  ⟨event.level, event.message, event.fields complaint⟩

/-- Whether an event is a warning of what a reader passes over in a document. -/
def isPassedOver : Event → Bool
  | patternlessConstraint | ignoredNode _ => true
  | _ => false

end Event

namespace Log

variable (complaint : XmlComplaint)

/-- The lines of a log without those that come from the reading of a document. -/
def ownLines (log : Log) : List Line := (log.filter (!·.isPassedOver)).map (Event.line complaint)

def IsOfReader (log : Log) : Prop := ∀ event ∈ log, event.isPassedOver = true

theorem ownLines_append (log told : Log) :
    ownLines complaint (log ++ told) = log.ownLines complaint ++ told.ownLines complaint := by
  simp only [ownLines, List.filter_append, List.map_append]

theorem IsOfReader.ownLines {log : Log} (ofReader : log.IsOfReader) :
    log.ownLines complaint = [] := by
  have none : log.filter (!·.isPassedOver) = [] := by
    rw [List.filter_eq_nil_iff]
    intro event member
    simp [ofReader event member]
  rw [Log.ownLines, none, List.map_nil]

end Log

/-- The line that names the place of a descriptor. -/
def Locator.line (locator : Locator) : Line :=
  ⟨.info, "Examining deployment descriptor", [("locator", .text locator.display)]⟩

namespace ConstraintIndex

/-- The line that says how much an index holds. -/
def countLine (index : ConstraintIndex) : Line :=
  ⟨.info, "Loaded deployment descriptor",
    [("constraints", .count index.constraints.length), ("roles", .count index.roles.toList.length),
      ("container_authorized", .flag index.containerAuthorized)]⟩

/-- The lines that say what follows from an index: who authenticates, and for which roles if there
are any. -/
def reportLines (index : ConstraintIndex) : List Line :=
  let names := index.roles.toList.map Role.name
  ⟨.info, if index.containerAuthorized then "Using container-managed authentication"
    else "Using custom authentication", []⟩ ::
    if names = [] then []
    else [⟨.info, "Web container manages these roles", [("roles", .text (" ".intercalate names))]⟩]

end ConstraintIndex

/-- The line that says why a descriptor cannot be used. One that is there, but faulty, is worth a
warning. -/
def DescriptorError.line (complaint : XmlComplaint) (error : DescriptorError) : Line :=
  match error with
  | unavailable _ =>
    ⟨.info, "No usable deployment descriptor; using custom authentication",
      [("error", .text (error.message complaint))]⟩
  | malformed _ =>
    ⟨.warn, "Malformed deployment descriptor; using custom authentication",
      [("error", .text (error.message complaint))]⟩

/-- What is to be told of a load: the place that was looked at, if there is one, and then what is
published or why nothing is. -/
def loadLines (complaint : XmlComplaint) (located : Option Locator)
    (error : Option DescriptorError) (index : ConstraintIndex) : List Line :=
  (located.map Locator.line).toList ++
    match error with
    | none => index.countLine :: index.reportLines
    | some error => [error.line complaint]

/-! ### Readers -/

theorem NodeList.isOfReader_read (nodes : List Kdl.Node) : (read nodes).log.IsOfReader := by
  induction nodes with
  | nil => exact List.forall_mem_nil _
  | cons node rest ih =>
    rw [read]
    split
    · split
      · exact ih
      · exact List.forall_mem_nil _
    split
    · split
      · exact ih
      · exact List.forall_mem_nil _
    · exact List.forall_mem_cons.2 ⟨rfl, ih⟩

theorem WebApp.isOfReader_read (root : Xml.Node) : (read root).log.IsOfReader := by
  rw [read]
  split
  · intro event member
    obtain ⟨constraint, -, rfl⟩ := List.mem_map.1 member
    rfl
  · exact List.forall_mem_nil _

theorem Descriptor.isOfReader_read (text : String) : (read text).log.IsOfReader := by
  unfold read
  split
  · exact List.forall_mem_nil _
  · unfold readWebApp
    split
    · exact WebApp.isOfReader_read _
    · exact List.forall_mem_nil _
  · unfold readKdl
    split
    · exact NodeList.isOfReader_read _
    · exact List.forall_mem_nil _

/-! ### Loads -/

section Loads

variable (complaint : XmlComplaint)

theorem DescriptorSource.ownLines_loadFrom (around : Surroundings) (limits : Limits)
    (sentinels : Sentinels) (locator : Locator) :
    (loadFrom around limits sentinels locator).log.ownLines complaint =
      match (loadFrom around limits sentinels locator).result with
      | .ok index => [index.countLine]
      | .error _ => [] := by
  unfold loadFrom
  split
  · rfl
  · next text _ =>
    have silent := Log.IsOfReader.ownLines complaint (Descriptor.isOfReader_read text)
    dsimp only
    split
    · exact silent
    · dsimp only
      rw [Log.ownLines_append, silent, List.nil_append]
      rfl

theorem DescriptorSource.ownLines_load (source : DescriptorSource) (around : Surroundings)
    (limits : Limits) (sentinels : Sentinels) :
    (source.load around limits sentinels).log.ownLines complaint =
      ((source.locate around.files).map Locator.line).toList ++
        match (source.load around limits sentinels).result with
        | .ok index => [index.countLine]
        | .error _ => [] := by
  unfold load
  split
  · next nowhere =>
    rw [nowhere]
    rfl
  · next locator located =>
    rw [located]
    exact congrArg (locator.line :: ·) (ownLines_loadFrom complaint around limits sentinels locator)

theorem ConstraintIndex.ownLines_report (index : ConstraintIndex) :
    index.report.ownLines complaint = index.reportLines := by
  have nobody : index.roles.isEmpty = true ↔ index.roles.toList.map Role.name = [] := by
    rw [List.map_eq_nil_iff]
    exact List.isEmpty_iff
  have managed : Log.ownLines complaint
        (if index.roles.isEmpty then [] else [.managedRoles index.roles.toList]) =
      if index.roles.toList.map Role.name = [] then []
      else [(Event.managedRoles index.roles.toList).line complaint] := by
    simp only [nobody]
    split <;> rfl
  cases flag : index.containerAuthorized with
  | true =>
    simp only [report, reportLines, flag, if_true]
    exact congrArg (Event.containerAuthentication.line complaint :: ·) managed
  | false =>
    simp only [report, reportLines, flag, Bool.false_eq_true, if_false]
    exact congrArg (Event.customAuthentication.line complaint :: ·) managed

theorem Resolver.ownLines_load (resolver : Resolver) (around : Surroundings)
    (source : DescriptorSource) (cancellation : Cancellation) :
    (resolver.load around source cancellation).log.ownLines complaint =
      loadLines complaint (source.locate around.files)
        (resolver.load around source cancellation).error
        (resolver.load around source cancellation).resolver.index := by
  have told := source.ownLines_load complaint around
    ⟨resolver.timeout, cancellation, resolver.client⟩ resolver.sentinels
  unfold load loadLines
  dsimp only
  split
  · next index loaded =>
    rw [loaded] at told
    rw [Log.ownLines_append, told, index.ownLines_report complaint, List.append_assoc]
    rfl
  · next error failed =>
    rw [failed, List.append_nil] at told
    rw [Log.ownLines_append, told]
    cases error <;> rfl

end Loads

/-- The lines of a load are those of what the resolver has published after it and of the error it
has returned. A start that succeeds tells the same of its load, after all that it tells of the
providers, and closes with what its engine has. Whatever the reader of documents has to complain of
is told in its own words. -/
theorem told_is_published (complaint : XmlComplaint) (around : Surroundings)
    (source : DescriptorSource) (cancellation : Cancellation) :
    (∀ resolver : Resolver,
      let outcome := resolver.load around source cancellation
      outcome.log.ownLines complaint =
        loadLines complaint (source.locate around.files) outcome.error outcome.resolver.index) ∧
      ∀ (settings : Settings) (registry : Registry) (context : CallerContext)
        (state : SecurityState) (engine : Engine),
        let start := settings.bootstrap registry around source context cancellation state
        start.result = .ok engine →
          ∃ installs told closing, start.log = installs ++ told ++ [closing] ∧
            Log.LeavesOutDescriptor installs ∧
            Log.ownLines complaint told = loadLines complaint (source.locate around.files)
              engine.descriptorError engine.resolver.index ∧
            closing.line complaint = ⟨.info, "Authorizer initialized",
              [("container_authorized", .flag engine.resolver.isContainerAuthorized),
                ("degraded", .flag engine.descriptorError.isSome)]⟩ := by
  refine ⟨fun resolver => resolver.ownLines_load complaint around source cancellation, ?_⟩
  intro settings registry context state engine start ok
  let configurator : Configurator := ⟨registry, settings.security⟩
  obtain ⟨done, installed, made, -⟩ := CallOutcome.andThen_eq_ok ok
  obtain rfl := Except.ok.inj made
  have log : start.log = _ := CallOutcome.log_andThen_of_ok _ installed
  refine ⟨_, _, _, log.trans (List.append_assoc ..).symm, ?_, ?_, rfl⟩
  · exact (configurator.installPhase_installAll around.files context state).leavesOutDescriptor
  · exact settings.resolver.ownLines_load complaint around source cancellation

/-- A node that a reader warns of, a constraint on all paths, and a role that is only declared. -/
def guardingSource : DescriptorSource :=
  .ofLocator (.inlineText
    ("note;constraint \x7burl-patterns \x7b- \"/*\"\x7d;roles \x7b- Admin\x7d\x7d;" ++ "role Guest"))

theorem told_is_published_guarding :
    let complaint : XmlComplaint := fun document => "no XML: " ++ document
    let settings : Settings := {}
    let start := settings.bootstrap {} {} guardingSource .unrestricted .never {}
    ∃ engine installs told closing, start.result = .ok engine ∧
      start.log = installs ++ told ++ [closing] ∧ Log.LeavesOutDescriptor installs ∧
      Log.ownLines complaint told = [
        ⟨.info, "Examining deployment descriptor", [("locator", .text "<inline descriptor>")]⟩,
        ⟨.info, "Loaded deployment descriptor",
          [("constraints", .count 1), ("roles", .count 2), ("container_authorized", .flag true)]⟩,
        ⟨.info, "Using container-managed authentication", []⟩,
        ⟨.info, "Web container manages these roles", [("roles", .text "Admin Guest")]⟩] ∧
      closing.line complaint = ⟨.info, "Authorizer initialized",
        [("container_authorized", .flag true), ("degraded", .flag false)]⟩ := by
  intro complaint settings start
  obtain ⟨-, starts⟩ := told_is_published complaint {} guardingSource .never
  obtain ⟨installs, told, closing, log, first, lines, last⟩ :=
    starts settings {} .unrestricted {} _ rfl
  refine ⟨_, installs, told, closing, rfl, log, first, lines.trans ?_, last.trans ?_⟩
  · decide +kernel
  · decide +kernel

end Gatehouse
