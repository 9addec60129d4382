import Gatehouse.Web
/-!
Fetching the text of a descriptor. Giving up, because of the time or because the caller cancels,
counts as not having it.
-/

namespace Gatehouse

structure Surroundings where
  files : FileTree := {}
  web : Web := Web.silent

inductive Cancellation where
  | never
  | before
  | after (delay : Duration)
  deriving DecidableEq

/-- The time that a fetch is given, and the client that asks for pages, which may have less
patience. -/
structure Limits where
  timeout : Duration := Duration.ofSeconds 10
  cancellation : Cancellation := .never
  client : Client := {}

namespace Locator

/-- What reading a locator's octets comes to when it is not cut short. -/
inductive Answer where
  | atOnce (result : Except Obstacle (List UInt8))
  | later (delay : Duration) (result : Except Obstacle (List UInt8))
  | never

/-- A file takes a moment, and no time that could be measured. -/
def readFile (files : FileTree) (path : Path) : Answer :=
  .later ⟨0⟩ ((files.read path).mapError (Obstacle.unreadable path))

def readPage (web : Web) (client : Client) (url : Url) : Answer :=
  match web client url with
  | .over delay reply => .later delay (reply.read url)
  | .never => .never

def read (around : Surroundings) (client : Client) : Locator → Answer
  | inlineText content => .atOnce (.ok (Text.Utf8.encode content.toList))
  | file path => readFile around.files path
  | url address =>
    if address.scheme = "file" then
      match address.filePath? with
      | some path => readFile around.files path
      | none => .atOnce (.error (.notLocal address))
    else if address.scheme = "http" ∨ address.scheme = "https" then
      readPage around.web client address
    else .atOnce (.error (.unsupportedScheme address.scheme))

/-- When a fetch has its result at last, which is when the answer comes or the time is up. There is
no moment if it has it at once. An answer that comes in the very last moment still counts. -/
def Answer.inTime (timeout : Duration) (locator : Locator) :
    Answer → Option Duration × Except Obstacle (List UInt8)
  | atOnce result => (none, result)
  | later delay result =>
    if timeout.microseconds = 0 then (none, .error (.timedOut locator timeout))
    else if delay.microseconds ≤ timeout.microseconds then (some delay, result)
    else (some timeout, .error (.timedOut locator timeout))
  | never =>
    if timeout.microseconds = 0 then (none, .error (.timedOut locator timeout))
    else (some timeout, .error (.timedOut locator timeout))

/-- What is left of an answer within the limits. Of what comes in the same moment the caller's
cancelling is seen first, but what takes no measurable time is over before it. -/
def within (limits : Limits) (locator : Locator) (answer : Answer) :
    Except Obstacle (List UInt8) :=
  let (moment, result) := answer.inTime limits.timeout locator
  match limits.cancellation with
  | .never => result
  | .before => .error (.cancelled locator)
  | .after delay =>
    let isLate (moment : Duration) : Bool :=
      0 < moment.microseconds && delay.microseconds ≤ moment.microseconds
    if moment.any isLate then .error (.cancelled locator) else result

def fetch (around : Surroundings) (limits : Limits) (locator : Locator) :
    Except DescriptorError String :=
  match locator.within limits (locator.read around limits.client) with
  | .error obstacle => .error (.unavailable obstacle)
  | .ok octets =>
    match Text.Utf8.decode octets with
    | .ok text => .ok (String.ofList text)
    | .error fault => .error (.malformed (.notText fault))

end Locator

end Gatehouse
