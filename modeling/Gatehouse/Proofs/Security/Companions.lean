import Gatehouse.Proofs.Fetch.Carrier
import Gatehouse.Proofs.Security.Attempt
import Mathlib.Data.List.TakeWhile
/-!
Asking for the policy. The answer is the published locator, and the files that should lie at it and
beside it are looked for on the way. Main statement: `outcome_isPolicyConfigured`, which says that
these files show in the log and nowhere else.
-/

namespace Gatehouse

namespace FileTree

def HasNothingAt (files : FileTree) (path : Path) : Prop := ∃ fault, files.find path = .error fault

/-- A file that can be read. -/
def HasFileAt (files : FileTree) (path : Path) : Prop := ∃ contents, files.read path = .ok contents

theorem exists?_eq_false_iff {files : FileTree} {path : Path} :
    files.exists? path = false ↔ files.HasNothingAt path := by
  unfold exists? HasNothingAt
  cases files.find path <;> simp

/-- Directories can be opened too, and files need not be. -/
theorem isFile_and_opens_iff {files : FileTree} {path : Path} :
    (files.isFile path && files.opens path) = true ↔ files.HasFileAt path := by
  simp only [isFile, opens, HasFileAt, read_eq_ok_iff]
  cases files.find path with
  | error fault => simp
  | ok entry => cases entry <;> simp

end FileTree

/-! ### Beside a file -/

namespace Path

/-- The empty path, and the root in any of its spellings: there is nothing that such a path is
in. -/
def IsTop (path : Path) : Prop :=
  path.octets = [] ∨ path.isAbsolute = true ∧ ∀ segment ∈ path.segments, isIdle segment = true

theorem dropStep?_eq_none_iff {segments : List (List UInt8)} :
    dropStep? segments = none ↔ ∀ segment ∈ segments, isIdle segment = true := by
  have idle : dropIdle segments = [] ↔ ∀ segment ∈ segments, isIdle segment = true := by
    simp only [dropIdle, List.reverse_eq_nil_iff, List.dropWhile_eq_nil_iff, List.mem_reverse]
  rw [← idle, dropStep?]
  split
  · next nothing => exact iff_of_true rfl nothing
  · next something => exact iff_of_false (Option.some_ne_none _) something

theorem isAbsolute_iff {path : Path} {first : List UInt8} {rest : List (List UInt8)}
    (some_octet : path.octets ≠ []) (cut : path.segments = first :: rest) :
    path.isAbsolute = true ↔ first = [] := by
  obtain ⟨octet, others, same⟩ := List.exists_cons_of_ne_nil some_octet
  rw [segments, same, List.splitOn, List.splitOnP_cons_eq_if_modifyHead] at cut
  by_cases begins : octet = slash
  · subst begins
    simp only [beq_self_eq_true, if_true, List.cons.injEq] at cut
    simp [isAbsolute, same, cut.1.symm]
  · have no_slash : (octet == slash) = false := by simpa using begins
    simp only [no_slash, Bool.false_eq_true, if_false] at cut
    obtain ⟨head, tail, parts⟩ :=
      List.exists_cons_of_ne_nil (List.splitOnP_ne_nil (· == slash) others)
    rw [parts, List.modifyHead_cons, List.cons.injEq] at cut
    simp [isAbsolute, same, begins, cut.1.symm]

theorem parent?_eq_none_iff {path : Path} : path.parent? = none ↔ path.IsTop := by
  have some_segment : path.segments ≠ [] := List.splitOn_ne_nil _ _
  obtain ⟨first, rest, cut⟩ := List.exists_cons_of_ne_nil some_segment
  unfold parent? IsTop
  rw [cut]
  dsimp only
  by_cases empty : path.octets = []
  · simp [empty]
  rw [if_neg empty, isAbsolute_iff empty cut, List.forall_mem_cons]
  by_cases root : first = []
  · subst root
    rw [if_pos rfl, Option.map_eq_none_iff, dropStep?_eq_none_iff]
    simp [empty, isIdle]
  rw [if_neg root]
  by_cases here : first = [dot]
  · rw [if_pos here]
    simp only [empty, root, false_and, or_false, iff_false]
    split <;> simp
  · rw [if_neg here, Option.map_eq_none_iff, dropStep?_eq_none_iff, List.forall_mem_cons]
    simp [empty, root, here, isIdle]

end Path

/-- Where the keystore of a policy is looked for: in the directory that the policy's file is in, or
in the working directory if it is in none. -/
inductive SecuritySettings.LooksForKeystoreAt (settings : SecuritySettings) (policy : String) :
    Path → Prop
  | beside {directory : Path} (parent : (Path.ofLocator policy).parent? = some directory) :
      LooksForKeystoreAt settings policy (directory.join (Path.ofString settings.keystoreName))
  | here (top : (Path.ofLocator policy).IsTop) :
      LooksForKeystoreAt settings policy
        ((Path.ofString ".").join (Path.ofString settings.keystoreName))

/-- What a log says of a policy that is published: that it is, then that there is nothing at its
path, if that is so, and last whether its keystore could be read. -/
def Log.TellsOfPolicy (log : Log) (settings : SecuritySettings) (files : FileTree)
    (policy : String) : Prop :=
  ∃ (keystore : Path) (missing found : Bool),
    settings.LooksForKeystoreAt policy keystore ∧
    (missing = true ↔ files.HasNothingAt (Path.ofLocator policy)) ∧
    (found = true ↔ files.HasFileAt keystore) ∧
    log = .policyAlreadySet policy ::
      ((if missing then [.policyFileMissing (Path.ofLocator policy)] else []) ++
        [if found then .keystoreFound keystore else .keystoreMissing keystore]) ∧
    log.map Event.level =
      .info :: ((if missing then [.warn] else []) ++ [if found then .info else .warn])

namespace Configurator

theorem looksForKeystoreAt_keystorePath (configurator : Configurator) (policy : String) :
    configurator.settings.LooksForKeystoreAt policy
      (configurator.keystorePath (Path.ofLocator policy)) := by
  unfold keystorePath
  cases parent : (Path.ofLocator policy).parent? with
  | none => exact .here (Path.parent?_eq_none_iff.1 parent)
  | some directory => exact .beside parent

theorem tellsOfPolicy_companions (configurator : Configurator) (files : FileTree)
    (policy : String) :
    Log.TellsOfPolicy (.policyAlreadySet policy :: configurator.companions files policy)
      configurator.settings files policy := by
  let keystore := configurator.keystorePath (Path.ofLocator policy)
  refine ⟨keystore, !files.exists? (Path.ofLocator policy),
    files.isFile keystore && files.opens keystore,
    configurator.looksForKeystoreAt_keystorePath policy, ?_, FileTree.isFile_and_opens_iff, ?_⟩
  · rw [Bool.not_eq_true', FileTree.exists?_eq_false_iff]
  · have told : configurator.companions files policy =
        (if files.exists? (Path.ofLocator policy) then []
          else [.policyFileMissing (Path.ofLocator policy)]) ++
        [if files.isFile keystore && files.opens keystore then .keystoreFound keystore
          else .keystoreMissing keystore] := rfl
    rw [told]
    cases files.exists? (Path.ofLocator policy) <;>
      cases files.isFile keystore && files.opens keystore <;> exact ⟨rfl, rfl⟩

theorem isPolicyConfigured_eq (configurator : Configurator) (files : FileTree)
    (context : CallerContext) (state : SecurityState) :
    configurator.isPolicyConfigured files context state =
      match context.allows .readPolicyProperty, state.property? "security.policy" with
      | false, _ => ⟨.error (.permissionDenied .readPolicyProperty), [.denied .readPolicyProperty],
          state⟩
      | true, none => ⟨.ok none, [], state⟩
      | true, some policy =>
        ⟨.ok (some policy), .policyAlreadySet policy :: configurator.companions files policy,
          state⟩ := by
  rw [isPolicyConfigured, CallerContext.guarded_singleton]
  cases context.allows .readPolicyProperty with
  | false => rfl
  | true =>
    dsimp only [SecurityHalf.property]
    cases state.property? "security.policy" <;> rfl

/-- A caller with the right to ask is told what is published, and one without it is refused. No file
has a part in that, nor is the state changed; where a policy is published, the log tells of its
files. -/
theorem outcome_isPolicyConfigured (configurator : Configurator) (context : CallerContext)
    (state : SecurityState) (files : FileTree) :
    let outcome := configurator.isPolicyConfigured files context state
    outcome.state = state ∧
    outcome.result =
      (if context.allows .readPolicyProperty then .ok (state.property? "security.policy")
        else .error (.permissionDenied .readPolicyProperty)) ∧
    (∀ others : FileTree,
      (configurator.isPolicyConfigured others context state).result = outcome.result) ∧
    (∀ policy, outcome.result = .ok (some policy) →
      outcome.log.TellsOfPolicy configurator.settings files policy) := by
  intro outcome
  have answer (at_hand : FileTree) :
      (configurator.isPolicyConfigured at_hand context state).result =
        if context.allows .readPolicyProperty then .ok (state.property? "security.policy")
        else .error (.permissionDenied .readPolicyProperty) := by
    rw [isPolicyConfigured_eq]
    cases context.allows .readPolicyProperty with
    | false => rfl
    | true => cases state.property? "security.policy" <;> rfl
  refine ⟨configurator.state_isPolicyConfigured files context state, answer files, ?_, ?_⟩
  · intro others
    exact (answer others).trans (answer files).symm
  · intro policy told
    rw [answer files] at told
    cases allowed : context.allows .readPolicyProperty with
    | false =>
      rw [allowed] at told
      cases told
    | true =>
      rw [allowed] at told
      have published : state.property? "security.policy" = some policy := Except.ok.inj told
      have log :
          outcome.log = .policyAlreadySet policy :: configurator.companions files policy := by
        show (configurator.isPolicyConfigured files context state).log = _
        rw [isPolicyConfigured_eq, allowed, published]
      rw [log]
      exact configurator.tellsOfPolicy_companions files policy

/-- Nothing is above the root, and a bare name stands where its keystore does. -/
example : ({} : Configurator).keystorePath (Path.ofLocator "file:///") =
      Path.ofString "./keystore.jks" ∧
    ({} : Configurator).keystorePath (Path.ofLocator "app.policy") =
      Path.ofString "keystore.jks" := by
  decide

/-- A keystore that nobody may open counts as missing. -/
example :
    let place (name : String) : List (List UInt8) := [Text.Utf8.encode name.toList]
    let files : FileTree := { entries := [(place "app.policy", .file []),
      (place "keystore.jks", .unreadable .permissionDenied)] }
    ({} : Configurator).companions files "app.policy" =
      [.keystoreMissing (Path.ofString "keystore.jks")] := by
  decide +kernel

end Configurator

end Gatehouse
