import Concierge.Bridge
import Concierge.Http.Network

/-!
# The directory of Slack

Slack answers with all members of a workspace; bots, guests and former members are no people of an
account.
-/

namespace Concierge.Slack.Directory

open Http (Network Draft)
open Json (Reader Fields record)
open Json.Fields (required defaulted defaultedAs)

/-- The profile of a member. -/
structure Profile where
  email : String
  title : String
  realName : String

/-- A member of a workspace. -/
structure Member where
  id : String
  deleted : Bool
  isBot : Bool
  isRestricted : Bool
  isUltraRestricted : Bool
  realName : Option String
  profile : Profile

/-- The answer. -/
structure Listing where
  ok : Bool
  error : Option String
  members : List Member

/-- Read a profile. -/
def Profile.reader : Reader Profile :=
  record .lenient (Profile.mk
    <$> defaulted "email" "" .text
    <*> defaulted "title" "" .text
    <*> defaulted "real_name" "" .text)

/-- Read a member. -/
def Member.reader : Reader Member :=
  record .lenient (Member.mk
    <$> required "id" .text
    <*> defaulted "deleted" false .bool
    <*> defaulted "is_bot" false .bool
    <*> defaulted "is_restricted" false .bool
    <*> defaulted "is_ultra_restricted" false .bool
    <*> defaulted "real_name" none (.option .text)
    <*> defaulted "profile" ⟨"", "", ""⟩ Profile.reader)

/-- Read the answer. -/
def Listing.reader : Reader Listing :=
  record .lenient (Listing.mk
    <$> required "ok" .bool
    <*> defaulted "error" none (.option .text)
    <*> defaulted "members" [] (.list Member.reader))

/-- The member is a person of the account. -/
def Member.isPerson (m : Member) : Bool :=
  ! (m.deleted || m.isBot || m.isRestricted || m.isUltraRestricted)

/-- The user that a member is. -/
def Member.toUser (m : Member) : RemoteUser :=
  ⟨.slack, m.id, m.realName.getD m.profile.realName, m.profile.email, "", m.profile.title⟩

/-- The question for all members. -/
def draft (baseUrl token : String) : Draft where
  method := .get
  address := Url.endpoint baseUrl "/api/users.list"
  query := []
  credentials := some (.bearer token)
  headers := []
  body := .empty

/-- The users of Slack. -/
def users (baseUrl token : String) : Attempt Network (List RemoteUser) := do
  let listing ← Http.sendFor Listing.reader (draft baseUrl token)
  if ! listing.ok then Attempt.fail (.rejected (listing.error.getD "unknown_error"))
  else
    let users := (listing.members.filter Member.isPerson).map Member.toUser
    Attempt.report (.usersFetched .slack users.length)
    return users

end Concierge.Slack.Directory
