import Gatehouse.Web
/-!
Clients that follow redirects. `Web.FollowsRedirects` says what is expected of them: to hand over the
page at which the redirects end. Main statement: `Web.FollowsRedirects.handsOver_iff`, which says
which octets a client of this kind hands over.
-/

namespace Gatehouse

/-- A page as a server has it. -/
structure Page where
  status : Nat := 200
  body : List UInt8 := []
  /-- The address that the page names, if it names one and that can be understood. -/
  location : Option Url := none
  /-- How many octets fewer than announced are sent. -/
  missing : Nat := 0

namespace Page

/-- Where a page leads. Of the statuses from 300 to 399 only these are redirects. -/
def next? (page : Page) : Option Url :=
  if page.status ∈ [301, 302, 303, 307, 308] then page.location else none

def reply (page : Page) : Reply :=
  .page page.status (if page.missing = 0 then some page.body else none)

/-- Whether all that a page announces is there, and is not the text of an error. -/
structure IsWhole (page : Page) : Prop where
  accepted : ¬ Reply.IsRefusal page.status
  complete : page.missing = 0

end Page

/-- The pages at all addresses. There is none where nobody answers. -/
abbrev Servers := Url → Option Page

/-- The page that a request ends at when so many redirects are followed at most. -/
inductive Servers.Arrives (servers : Servers) : Nat → Url → Page → Prop
  | here {redirects : Nat} {url : Url} {page : Page} (found : servers url = some page)
      (last : page.next? = none) : Arrives servers redirects url page
  | there {redirects : Nat} {url next : Url} {page last : Page} (found : servers url = some page)
      (leads : page.next? = some next) (arrives : Arrives servers redirects next last) :
      Arrives servers (redirects + 1) url last

namespace Web

/-- What a client hands over whole, and not as the text of an error. -/
def HandsOver (web : Web) (client : Client) (url : Url) (octets : List UInt8) : Prop :=
  ∃ delay status, web client url = .over delay (.page status (some octets)) ∧
    ¬ Reply.IsRefusal status

/-- What is expected of a client that follows redirects up to a limit. Where they end at a page it
gives that page, and where they do not it gives none. -/
structure FollowsRedirects (web : Web) (client : Client) (limit : Nat) (servers : Servers) :
    Prop where
  arrives : ∀ url page, servers.Arrives limit url page →
    ∃ delay, web client url = .over delay page.reply
  lost : ∀ url, (∀ page, ¬ servers.Arrives limit url page) →
    ∀ delay status octets, web client url ≠ .over delay (.page status (some octets))

theorem FollowsRedirects.handsOver_iff {web : Web} {client : Client} {limit : Nat}
    {servers : Servers} (follows : web.FollowsRedirects client limit servers) {url : Url}
    {octets : List UInt8} :
    web.HandsOver client url octets ↔
      ∃ page, servers.Arrives limit url page ∧ page.IsWhole ∧ page.body = octets := by
  constructor
  · rintro ⟨delay, status, given, accepted⟩
    by_cases ends : ∃ page, servers.Arrives limit url page
    · obtain ⟨page, arrives⟩ := ends
      obtain ⟨_, same⟩ := follows.arrives url page arrives
      rw [given, Page.reply] at same
      obtain ⟨rfl, whole⟩ := Reply.page.inj (Exchange.over.inj same).2
      split at whole
      · next complete => exact ⟨page, arrives, ⟨accepted, complete⟩, (Option.some.inj whole).symm⟩
      · cases whole
    · exact absurd given (follows.lost url (not_exists.1 ends) delay status octets)
  · rintro ⟨page, arrives, ⟨accepted, complete⟩, rfl⟩
    obtain ⟨delay, given⟩ := follows.arrives url page arrives
    rw [Page.reply, if_pos complete] at given
    exact ⟨delay, page.status, given, accepted⟩

end Web

/-! ### A client of this kind -/

namespace Servers

def follow (servers : Servers) : (redirects : Nat) → Url → Reply
  | redirects, url =>
    match servers url with
    | none => .failed
    | some page =>
      match page.next?, redirects with
      | none, _ => page.reply
      | some _, 0 => .failed
      | some next, redirects + 1 => follow servers redirects next

def web (servers : Servers) (limit : Nat) : Web := fun _ url => .over ⟨0⟩ (servers.follow limit url)

variable {servers : Servers}

theorem Arrives.follow_eq {redirects : Nat} {url : Url} {page : Page}
    (arrives : servers.Arrives redirects url page) : servers.follow redirects url = page.reply := by
  induction arrives with
  | here found last => simp [follow, found, last]
  | there found leads _ ih => simp [follow, found, leads, ih]

theorem exists_arrives_of_follow {redirects : Nat} {url : Url} {status : Nat}
    {body : Option (List UInt8)} (followed : servers.follow redirects url = .page status body) :
    ∃ page, servers.Arrives redirects url page := by
  fun_induction follow servers redirects url with
  | case2 redirects url page found last => exact ⟨page, .here found last⟩
  | case4 url page found next redirects leads ih =>
    obtain ⟨last, arrives⟩ := ih followed
    exact ⟨last, .there found leads arrives⟩
  | _ => cases followed

theorem followsRedirects_web (servers : Servers) (client : Client) (limit : Nat) :
    (servers.web limit).FollowsRedirects client limit servers where
  arrives url page arrives := ⟨⟨0⟩, congrArg (Exchange.over ⟨0⟩) arrives.follow_eq⟩
  lost url nowhere delay status octets given := by
    obtain ⟨page, arrives⟩ := exists_arrives_of_follow (Exchange.over.inj given).2
    exact nowhere page arrives

end Servers

end Gatehouse
