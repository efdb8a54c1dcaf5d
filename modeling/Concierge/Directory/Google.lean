import Concierge.Bridge
import Concierge.Http.Network
import Concierge.Text.Blank

/-!
# The directory of Google

Users come in pages.  Each page but the last names the next one; a page that names none, or an empty
name, is the last.  A user without an identifier fails the whole fetch.  The pages may go on for
ever, so a fetch is bounded by the replies that the network can still give: after those every answer
is a failure.
-/

namespace Concierge.Google

open Http (Network Draft)
open Json (Reader Fields record)
open Json.Fields (required optional defaulted)

/-- How many users a page holds. -/
def pageSize : Nat := 500

/-- A user of a page. -/
structure Entry where
  id : String
  email : String
  fullName : String

/-- A page. -/
structure Page where
  entries : List Entry
  next : Option String

/-- Read a user. -/
def Entry.reader : Reader Entry :=
  record .lenient (Entry.mk
    <$> required "id" .text
    <*> defaulted "primaryEmail" "" .text
    <*> defaulted "name" "" (record .lenient (defaulted "fullName" "" .text)))

/-- Read a page. -/
def Page.reader : Reader Page :=
  record .lenient (Page.mk
    <$> defaulted "users" [] (.list Entry.reader)
    <*> optional "nextPageToken" .text)

/-- The user. -/
def Entry.toUser (e : Entry) : RemoteUser :=
  ⟨.googleDirectory, e.id, e.fullName, e.email, "", ""⟩

/-- The users of a page, unless one has no identifier. -/
def Page.users? (p : Page) : Option (List RemoteUser) :=
  p.entries.mapM fun e => if Text.isBlank e.id then none else some e.toUser

/-- The name of the page after this one. -/
def Page.next? (p : Page) : Option String :=
  match p.next with
  | some token => if token.isEmpty then none else some token
  | none => none

/-- The question for a page. -/
def draft (baseUrl customer token : String) (page : Option String) : Draft where
  method := .get
  address := Url.endpoint baseUrl "/admin/directory/v1/users"
  query := [("customer", customer), ("maxResults", toString pageSize)] ++
    (match page with
      | some token => [("pageToken", token)]
      | none => [])
  credentials := some (.bearer token)
  headers := []
  body := .empty

/-- Ask for a page and those after it. -/
def pages (baseUrl customer token : String) :
    Nat → Option String → Attempt Network (List RemoteUser)
  | 0, _ => Attempt.fail Http.unreadable
  | fuel + 1, page => do
    let answer ← Http.sendFor Page.reader (draft baseUrl customer token page)
    match answer.users? with
    | none => Attempt.fail (.decode "google user without id")
    | some users =>
      match answer.next? with
      | none => return users
      | some next => return users ++ (← pages baseUrl customer token fuel (some next))

/-- The users of Google's directory. -/
def users (baseUrl customer token : String) : Attempt Network (List RemoteUser) := do
  let users ← pages baseUrl customer token ((← get).state.script.length + 1) none
  Attempt.report (.usersFetched .googleDirectory users.length)
  return users

end Concierge.Google
