import Gatehouse.Fetch
import Gatehouse.Proofs.Fetch.Redirects
import Gatehouse.Proofs.Text.Utf8
/-!
What is read of a locator. Four carriers can hold a descriptor: the locator itself, a file, a file
that a URL denotes, and a page that the client hands over. `Locator.Yields` says which octets come
from which of them. Main statement: `fetch_outcome`, which says that these octets alone decide what a
fetch comes to, unless it is cut short.
-/

namespace Gatehouse

open Text

/-! ### Carriers -/

theorem FileTree.read_eq_ok_iff {files : FileTree} {path : Path} {octets : List UInt8} :
    files.read path = .ok octets ↔ files.find path = .ok (.file octets) := by
  unfold read
  cases files.find path with
  | error fault => simp
  | ok entry => cases entry <;> simp

theorem Reply.read_eq_ok_iff {url : Url} {reply : Reply} {octets : List UInt8} :
    reply.read url = .ok octets ↔
      ∃ status, reply = .page status (some octets) ∧ ¬ IsRefusal status := by
  constructor
  · intro whole
    unfold read at whole
    split at whole
    · cases whole
    split at whole
    · cases whole
    · next status body accepted =>
      split at whole
      · obtain rfl := Except.ok.inj whole
        exact ⟨status, rfl, accepted⟩
      · cases whole
  · rintro ⟨status, rfl, accepted⟩
    exact if_neg accepted

/-- Limits within which a reading that ends comes to its end: nobody cancels, there is some time, and
an exchange with a server takes no longer than that. -/
structure Limits.LetFinish (limits : Limits) (around : Surroundings) (locator : Locator) : Prop where
  undisturbed : limits.cancellation = .never
  time : 0 < limits.timeout.microseconds
  enough : ∀ address delay reply, locator = .url address →
    address.scheme = "http" ∨ address.scheme = "https" →
      around.web limits.client address = .over delay reply →
        delay.microseconds ≤ limits.timeout.microseconds

namespace Locator

/-- The octets that a locator stands for, all of them. -/
inductive Yields (around : Surroundings) (client : Client) : Locator → List UInt8 → Prop
  | inlineText (content : String) :
      Yields around client (.inlineText content) (Utf8.encode content.toList)
  | file {path : Path} {octets : List UInt8}
      (found : around.files.find path = .ok (.file octets)) :
      Yields around client (.file path) octets
  | fileUrl {address : Url} {path : Path} {octets : List UInt8} (scheme : address.scheme = "file")
      (denotes : address.filePath? = some path)
      (found : around.files.find path = .ok (.file octets)) :
      Yields around client (.url address) octets
  | page {address : Url} {octets : List UInt8}
      (scheme : address.scheme = "http" ∨ address.scheme = "https")
      (given : around.web.HandsOver client address octets) :
      Yields around client (.url address) octets

/-- An answer that has octets, at once or after some time. -/
def Answer.Carries (answer : Answer) (octets : List UInt8) : Prop :=
  answer = .atOnce (.ok octets) ∨ ∃ delay, answer = .later delay (.ok octets)

theorem carries_readFile_iff {files : FileTree} {path : Path} {octets : List UInt8} :
    (readFile files path).Carries octets ↔ files.find path = .ok (.file octets) := by
  rw [← FileTree.read_eq_ok_iff, readFile]
  cases files.read path with
  | ok found =>
    show (Answer.later ⟨0⟩ (.ok found)).Carries octets ↔ _
    simp [Answer.Carries]
  | error fault =>
    show (Answer.later ⟨0⟩ (.error (.unreadable path fault))).Carries octets ↔ _
    simp [Answer.Carries]

theorem carries_readPage_iff {web : Web} {client : Client} {address : Url} {octets : List UInt8} :
    (readPage web client address).Carries octets ↔ web.HandsOver client address octets := by
  constructor
  · intro carries
    unfold readPage at carries
    split at carries
    · next delay reply given =>
      obtain ⟨⟨⟩⟩ | ⟨_, answer⟩ := carries
      obtain ⟨status, rfl, accepted⟩ := Reply.read_eq_ok_iff.1 (Answer.later.inj answer).2
      exact ⟨delay, status, given, accepted⟩
    · obtain ⟨⟨⟩⟩ | ⟨_, ⟨⟩⟩ := carries
  · rintro ⟨delay, status, given, accepted⟩
    refine .inr ⟨delay, ?_⟩
    rw [readPage, given]
    exact congrArg (Answer.later delay) (Reply.read_eq_ok_iff.2 ⟨status, rfl, accepted⟩)

theorem Yields.carries {around : Surroundings} {client : Client} {locator : Locator}
    {octets : List UInt8} (yields : Yields around client locator octets) :
    (locator.read around client).Carries octets := by
  cases yields with
  | inlineText content => exact Or.inl rfl
  | file found => exact carries_readFile_iff.2 found
  | fileUrl scheme denotes found =>
    simp only [read, scheme, if_true, denotes]
    exact carries_readFile_iff.2 found
  | @page address _ scheme given =>
    have other : address.scheme ≠ "file" := by
      rintro same
      rw [same] at scheme
      exact absurd scheme (by decide)
    rw [read, if_neg other, if_pos scheme]
    exact carries_readPage_iff.2 given

theorem yields_of_carries {around : Surroundings} {client : Client} {locator : Locator}
    {octets : List UInt8} (carries : (locator.read around client).Carries octets) :
    Yields around client locator octets := by
  cases locator with
  | inlineText content =>
    obtain ⟨⟨⟩⟩ | ⟨_, ⟨⟩⟩ := carries
    exact .inlineText content
  | file path => exact .file (carries_readFile_iff.1 carries)
  | url address =>
    rw [read] at carries
    split at carries
    · next scheme =>
      split at carries
      · next path denotes => exact .fileUrl scheme denotes (carries_readFile_iff.1 carries)
      · obtain ⟨⟨⟩⟩ | ⟨_, ⟨⟩⟩ := carries
    split at carries
    · next scheme => exact .page scheme (carries_readPage_iff.1 carries)
    · obtain ⟨⟨⟩⟩ | ⟨_, ⟨⟩⟩ := carries

theorem yields_page_iff {around : Surroundings} {client : Client} {address : Url}
    (scheme : address.scheme = "http" ∨ address.scheme = "https") {octets : List UInt8} :
    Yields around client (.url address) octets ↔ around.web.HandsOver client address octets := by
  constructor
  · rintro (_ | _ | ⟨file, -, -⟩ | ⟨-, given⟩)
    · rw [file] at scheme
      exact absurd scheme (by decide)
    · exact given
  · exact .page scheme

/-! ### Fetches -/

/-- What comes within the time. -/
def Answer.IsTimely (answer : Answer) (timeout : Duration) : Prop :=
  ∀ delay result, answer = .later delay result → delay.microseconds ≤ timeout.microseconds

theorem isTimely_readFile {files : FileTree} {path : Path} {timeout : Duration} :
    (readFile files path).IsTimely timeout := by
  rintro delay result ⟨⟩
  exact Nat.zero_le _

theorem isTimely_read {around : Surroundings} {limits : Limits} {locator : Locator}
    (finish : limits.LetFinish around locator) :
    (locator.read around limits.client).IsTimely limits.timeout := by
  cases locator with
  | inlineText content => rintro delay result ⟨⟩
  | file path => exact isTimely_readFile
  | url address =>
    rw [read]
    split
    · split
      · exact isTimely_readFile
      · rintro delay result ⟨⟩
    split
    · next scheme =>
      intro delay result answer
      rw [readPage] at answer
      split at answer
      · next later reply given =>
        obtain ⟨rfl, -⟩ := Answer.later.inj answer
        exact finish.enough address later reply rfl scheme given
      · cases answer
    · rintro delay result ⟨⟩

theorem within_eq_ok_iff {limits : Limits} (undisturbed : limits.cancellation = .never)
    (time : 0 < limits.timeout.microseconds) {locator : Locator} {answer : Answer}
    (timely : answer.IsTimely limits.timeout) {octets : List UInt8} :
    locator.within limits answer = .ok octets ↔ answer.Carries octets := by
  have some : limits.timeout.microseconds ≠ 0 := by omega
  cases answer with
  | atOnce result => simp [within, Answer.inTime, undisturbed, Answer.Carries]
  | later delay result =>
    have soon := timely delay result rfl
    simp [within, Answer.inTime, undisturbed, some, soon, Answer.Carries]
  | never => simp [within, Answer.inTime, undisturbed, some, Answer.Carries]

theorem within_read_eq_ok_iff {around : Surroundings} {limits : Limits} {locator : Locator}
    (finish : limits.LetFinish around locator) {octets : List UInt8} :
    locator.within limits (locator.read around limits.client) = .ok octets ↔
      Yields around limits.client locator octets := by
  rw [within_eq_ok_iff finish.undisturbed finish.time (isTimely_read finish)]
  exact ⟨yields_of_carries, Yields.carries⟩

/-- What octets come to once they are there. -/
def understood (octets : List UInt8) : Except DescriptorError String :=
  match Utf8.decode octets with
  | .ok text => .ok (String.ofList text)
  | .error fault => .error (.malformed (.notText fault))

theorem understood_eq_ok_iff {octets : List UInt8} {text : String} :
    understood octets = .ok text ↔ octets = Utf8.encode text.toList := by
  rw [← Utf8.decode_eq_ok_iff, understood]
  cases Utf8.decode octets with
  | ok found =>
    simp only [Except.ok.injEq]
    constructor
    · rintro rfl
      exact String.toList_ofList.symm
    · rintro rfl
      exact String.ofList_toList
  | error fault => simp

theorem exists_malformed_understood_iff {octets : List UInt8} :
    (∃ defect, understood octets = .error (.malformed defect)) ↔
      ∀ text : String, octets ≠ Utf8.encode text.toList := by
  simp only [← understood_eq_ok_iff, Ne]
  rw [understood]
  cases Utf8.decode octets <;> simp

theorem understood_ne_unavailable {octets : List UInt8} (obstacle : Obstacle) :
    understood octets ≠ .error (.unavailable obstacle) := by
  rw [understood]
  cases Utf8.decode octets <;> simp

section Fetches

variable {around : Surroundings} {limits : Limits} {locator : Locator}

theorem fetch_of_yields (finish : limits.LetFinish around locator) {octets : List UInt8}
    (yields : Yields around limits.client locator octets) :
    locator.fetch around limits = understood octets := by
  rw [fetch, (within_read_eq_ok_iff finish).2 yields]
  rfl

theorem fetch_of_yields_nothing (finish : limits.LetFinish around locator)
    (nothing : ¬∃ octets, Yields around limits.client locator octets) :
    ∃ obstacle, locator.fetch around limits = .error (.unavailable obstacle) := by
  rw [fetch]
  cases read : locator.within limits (locator.read around limits.client) with
  | error obstacle => exact ⟨obstacle, rfl⟩
  | ok octets => exact absurd ⟨octets, (within_read_eq_ok_iff finish).1 read⟩ nothing

theorem fetch_eq_ok_iff (finish : limits.LetFinish around locator) {text : String} :
    locator.fetch around limits = .ok text ↔
      Yields around limits.client locator (Utf8.encode text.toList) := by
  constructor
  · intro fetched
    by_cases something : ∃ octets, Yields around limits.client locator octets
    · obtain ⟨octets, yields⟩ := something
      rw [fetch_of_yields finish yields] at fetched
      exact understood_eq_ok_iff.1 fetched ▸ yields
    · obtain ⟨obstacle, failed⟩ := fetch_of_yields_nothing finish something
      rw [failed] at fetched
      cases fetched
  · intro yields
    rw [fetch_of_yields finish yields]
    exact understood_eq_ok_iff.2 rfl

theorem exists_malformed_fetch_iff (finish : limits.LetFinish around locator) :
    (∃ defect, locator.fetch around limits = .error (.malformed defect)) ↔
      ∃ octets, Yields around limits.client locator octets ∧
        ∀ text : String, octets ≠ Utf8.encode text.toList := by
  constructor
  · rintro ⟨defect, malformed⟩
    by_cases something : ∃ octets, Yields around limits.client locator octets
    · obtain ⟨octets, yields⟩ := something
      rw [fetch_of_yields finish yields] at malformed
      exact ⟨octets, yields, exists_malformed_understood_iff.1 ⟨defect, malformed⟩⟩
    · obtain ⟨obstacle, failed⟩ := fetch_of_yields_nothing finish something
      rw [failed] at malformed
      cases malformed
  · rintro ⟨octets, yields, textless⟩
    rw [fetch_of_yields finish yields]
    exact exists_malformed_understood_iff.2 textless

theorem exists_unavailable_fetch_iff (finish : limits.LetFinish around locator) :
    (∃ obstacle, locator.fetch around limits = .error (.unavailable obstacle)) ↔
      ¬∃ octets, Yields around limits.client locator octets := by
  constructor
  · rintro ⟨obstacle, failed⟩ ⟨octets, yields⟩
    rw [fetch_of_yields finish yields] at failed
    exact understood_ne_unavailable obstacle failed
  · exact fetch_of_yields_nothing finish

theorem fetch_of_cancelled (cancelled : limits.cancellation = .before) (locator : Locator) :
    locator.fetch around limits = .error (.unavailable (.cancelled locator)) := by
  simp only [fetch, within, cancelled]

/-- What is in the locator is there at once, however short the time is. -/
theorem fetch_inlineText (free : limits.cancellation ≠ .before) (content : String) :
    (inlineText content).fetch around limits = .ok content := by
  have whole : (inlineText content).within limits ((inlineText content).read around limits.client) =
      .ok (Utf8.encode content.toList) := by
    cases early : limits.cancellation with
    | before => exact absurd early free
    | _ => simp [within, read, Answer.inTime, early]
  rw [fetch, whole]
  exact understood_eq_ok_iff.2 rfl

end Fetches

/-- Within limits that let it finish, a fetch gives a text exactly if the octets that the locator
yields are those of the text. It calls them malformed exactly if they are those of no text, and the
descriptor unavailable exactly if the locator yields nothing. So locators that yield the same
octets are fetched alike, whatever their carriers are, and a byte-order mark is a character like
others. What a page yields with a client that follows redirects is the body of the page at which they
end, if that is whole. A caller who cancelled before gets nothing; else a text in the locator itself
is always there in time. -/
theorem fetch_outcome (around : Surroundings) (locator : Locator) :
    (∀ limits : Limits, limits.LetFinish around locator →
      (∀ text : String, locator.fetch around limits = .ok text ↔
        Yields around limits.client locator (Utf8.encode text.toList)) ∧
      ((∃ defect, locator.fetch around limits = .error (.malformed defect)) ↔
        ∃ octets, Yields around limits.client locator octets ∧
          ∀ text : String, octets ≠ Utf8.encode text.toList) ∧
      ((∃ obstacle, locator.fetch around limits = .error (.unavailable obstacle)) ↔
        ¬∃ octets, Yields around limits.client locator octets) ∧
      (∀ octets, Yields around limits.client locator octets →
        ∀ (elsewhere : Surroundings) (others : Limits) (other : Locator),
          others.LetFinish elsewhere other → Yields elsewhere others.client other octets →
            other.fetch elsewhere others = locator.fetch around limits) ∧
      (∀ text, Yields around limits.client locator (0xEF :: 0xBB :: 0xBF :: Utf8.encode text) →
        locator.fetch around limits = .ok (String.ofList ('\uFEFF' :: text)))) ∧
    (∀ (client : Client) (limit : Nat) (servers : Servers) (address : Url),
      locator = .url address → address.scheme = "http" ∨ address.scheme = "https" →
        around.web.FollowsRedirects client limit servers →
          ∀ octets, Yields around client locator octets ↔
            ∃ page, servers.Arrives limit address page ∧ page.IsWhole ∧ page.body = octets) ∧
    (∀ limits : Limits, limits.cancellation = .before →
      locator.fetch around limits = .error (.unavailable (.cancelled locator))) ∧
    (∀ limits : Limits, limits.cancellation ≠ .before → ∀ content,
      locator = .inlineText content → locator.fetch around limits = .ok content) := by
  refine ⟨?_, ?_, fun _ cancelled => fetch_of_cancelled cancelled locator, ?_⟩
  · intro limits finish
    refine ⟨fun text => fetch_eq_ok_iff finish, exists_malformed_fetch_iff finish,
      exists_unavailable_fetch_iff finish, ?_, ?_⟩
    · intro octets yields elsewhere others other finishToo yieldsToo
      rw [fetch_of_yields finishToo yieldsToo, fetch_of_yields finish yields]
    · intro text yields
      have octets : Utf8.encode ('\uFEFF' :: text) = 0xEF :: 0xBB :: 0xBF :: Utf8.encode text := rfl
      rw [← octets] at yields
      rw [fetch_of_yields finish yields]
      exact understood_eq_ok_iff.2 (congrArg Utf8.encode String.toList_ofList.symm)
  · rintro client limit servers address rfl scheme follows octets
    rw [yields_page_iff scheme, follows.handsOver_iff]
  · rintro limits free content rfl
    exact fetch_inlineText free content

/-- A text with a byte-order mark. -/
def markedOctets : List UInt8 := 0xEF :: 0xBB :: 0xBF :: Utf8.encode "role \"A\"".toList

def newAddress : Url where
  scheme := "http"
  authority := some { host := .domain "host" }
  route := .segments ["new"]

def oldAddress : Url := { newAddress with route := .segments ["old"] }

/-- A server whose old address leads to the new one. -/
def markedServers : Servers := fun address =>
  if address = oldAddress then some { status := 301, location := some newAddress }
  else if address = newAddress then some { body := markedOctets }
  else none

/-- The same octets in a file and on the page that the old address leads to. -/
def markedSurroundings : Surroundings where
  files := { entries := [([Utf8.encode "web.kdl".toList], .file markedOctets)] }
  web := markedServers.web 10

theorem fetch_outcome_marked :
    let path := Path.ofString "web.kdl"
    let limits : Limits := {}
    let late : Limits := { timeout := ⟨0⟩, cancellation := .before }
    let hasty : Limits := { timeout := ⟨0⟩ }
    limits.LetFinish markedSurroundings (.url oldAddress) ∧
      limits.LetFinish markedSurroundings (.file path) ∧
      markedSurroundings.web.FollowsRedirects {} 10 markedServers ∧
      Yields markedSurroundings {} (.url oldAddress) markedOctets ∧
      Yields markedSurroundings {} (.file path) markedOctets ∧
      (file path).fetch markedSurroundings limits =
        (url oldAddress).fetch markedSurroundings limits ∧
      (url oldAddress).fetch markedSurroundings limits = .ok "\uFEFFrole \"A\"" ∧
      late.cancellation = .before ∧ hasty.cancellation ≠ .before ∧
      (inlineText "text").fetch markedSurroundings late =
        .error (.unavailable (.cancelled (.inlineText "text"))) ∧
      (inlineText "text").fetch markedSurroundings hasty = .ok "text" := by
  intro path limits late hasty
  have finish : limits.LetFinish markedSurroundings (.url oldAddress) := by
    refine ⟨rfl, by decide, ?_⟩
    rintro address delay reply - - ⟨⟩
    exact Nat.zero_le _
  have finishFile : limits.LetFinish markedSurroundings (.file path) :=
    ⟨rfl, by decide, fun _ _ _ other => nomatch other⟩
  have follows := Servers.followsRedirects_web markedServers {} 10
  obtain ⟨whole, pages, -, -⟩ := fetch_outcome markedSurroundings (.url oldAddress)
  obtain ⟨-, -, before, atOnce⟩ := fetch_outcome markedSurroundings (.inlineText "text")
  have page : Yields markedSurroundings {} (.url oldAddress) markedOctets := by
    refine (pages {} 10 markedServers oldAddress rfl (.inl rfl) follows markedOctets).2
      ⟨{ body := markedOctets }, ?_, ⟨by decide, rfl⟩, rfl⟩
    have moved : markedServers oldAddress =
        some { status := 301, location := some newAddress } := if_pos rfl
    have there : markedServers newAddress = some { body := markedOctets } := by
      rw [markedServers, if_neg (by decide), if_pos rfl]
    exact .there moved rfl (.here there rfl)
  have file : Yields markedSurroundings {} (.file path) markedOctets := .file rfl
  obtain ⟨-, -, -, alike, marked⟩ := whole limits finish
  exact ⟨finish, finishFile, follows, page, file,
    alike markedOctets page _ _ _ finishFile file, marked _ page, rfl, by decide,
    before late rfl, atOnce hasty (by decide) "text" rfl⟩

/-- A file that is there but may not be opened. -/
example :
    let files : FileTree :=
      { entries := [([Utf8.encode "web.kdl".toList], .unreadable .permissionDenied)] }
    (file (Path.ofString "web.kdl")).fetch { files } {} =
      .error (.unavailable (.unreadable (Path.ofString "web.kdl") .permissionDenied)) := rfl

end Locator

end Gatehouse
