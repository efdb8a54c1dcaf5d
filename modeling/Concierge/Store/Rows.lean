import Concierge.Account
import Concierge.Person

/-!
# Rows of columns

The storage keeps a record as a row of plain columns: a switch takes two of them, a credential that
may be missing takes one that may be empty.  A row is filled from a record when it is written, and a
record is taken from a row when it is read.
-/

namespace Concierge

/-- A stored account. -/
structure AccountRow where
  id : Uuid
  name : String
  host : String
  contactName : String
  contactEmail : String
  notificationsEnabled : Bool
  notificationsHipchatEnabled : Bool
  notificationsHipchatToken : Option String
  notificationsSlackEnabled : Bool
  notificationsSlackToken : Option String
  notificationsNexmoEnabled : Bool
  notificationsNexmoToken : Option String
  notificationsTwilioEnabled : Bool
  notificationsTwilioToken : Option String
  notificationsMailgunEnabled : Bool
  notificationsMailgunToken : Option String
  notificationsPostmarkEnabled : Bool
  notificationsPostmarkToken : Option String
  notificationsSmsMessageTemplate : Option String
  notificationsEmailMessageTemplate : Option String
  notificationsTwilioSourcePhoneNumber : Option String
  bridgeHubEnabled : Bool
  bridgeHubUrl : Option String
  bridgeHubToken : Option String
  bridgeGoogleEnabled : Bool
  bridgeGoogleToken : Option String
  bridgeHipchatEnabled : Bool
  bridgeHipchatToken : Option String
  bridgeSlackEnabled : Bool
  bridgeSlackToken : Option String
  deriving DecidableEq, Repr

namespace AccountRow

/-- The row of an account. -/
def ofAccount (a : Account) : AccountRow where
  id := a.id
  name := a.name
  host := a.host
  contactName := a.contactName
  contactEmail := a.contactEmail
  notificationsEnabled := a.notifications.enabled
  notificationsHipchatEnabled := a.notifications.hipchat.enabled
  notificationsHipchatToken := a.notifications.hipchat.token
  notificationsSlackEnabled := a.notifications.slack.enabled
  notificationsSlackToken := a.notifications.slack.token
  notificationsNexmoEnabled := a.notifications.nexmo.enabled
  notificationsNexmoToken := a.notifications.nexmo.token
  notificationsTwilioEnabled := a.notifications.twilio.enabled
  notificationsTwilioToken := a.notifications.twilio.token
  notificationsMailgunEnabled := a.notifications.mailgun.enabled
  notificationsMailgunToken := a.notifications.mailgun.token
  notificationsPostmarkEnabled := a.notifications.postmark.enabled
  notificationsPostmarkToken := a.notifications.postmark.token
  notificationsSmsMessageTemplate := a.notifications.smsTemplate
  notificationsEmailMessageTemplate := a.notifications.emailTemplate
  notificationsTwilioSourcePhoneNumber := a.notifications.twilioSourcePhoneNumber
  bridgeHubEnabled := a.bridges.hub.enabled
  bridgeHubUrl := a.bridges.hub.url
  bridgeHubToken := a.bridges.hub.token
  bridgeGoogleEnabled := a.bridges.googleDirectory.enabled
  bridgeGoogleToken := a.bridges.googleDirectory.token
  bridgeHipchatEnabled := a.bridges.hipchat.enabled
  bridgeHipchatToken := a.bridges.hipchat.token
  bridgeSlackEnabled := a.bridges.slack.enabled
  bridgeSlackToken := a.bridges.slack.token

/-- How the account of a row notifies its people. -/
def notifications (row : AccountRow) : NotificationSettings where
  enabled := row.notificationsEnabled
  hipchat := ⟨row.notificationsHipchatEnabled, row.notificationsHipchatToken⟩
  slack := ⟨row.notificationsSlackEnabled, row.notificationsSlackToken⟩
  nexmo := ⟨row.notificationsNexmoEnabled, row.notificationsNexmoToken⟩
  twilio := ⟨row.notificationsTwilioEnabled, row.notificationsTwilioToken⟩
  mailgun := ⟨row.notificationsMailgunEnabled, row.notificationsMailgunToken⟩
  postmark := ⟨row.notificationsPostmarkEnabled, row.notificationsPostmarkToken⟩
  smsTemplate := row.notificationsSmsMessageTemplate
  emailTemplate := row.notificationsEmailMessageTemplate
  twilioSourcePhoneNumber := row.notificationsTwilioSourcePhoneNumber

/-- The directories of the account of a row. -/
def bridges (row : AccountRow) : BridgeSettings where
  hub := ⟨row.bridgeHubEnabled, row.bridgeHubUrl, row.bridgeHubToken⟩
  googleDirectory := ⟨row.bridgeGoogleEnabled, row.bridgeGoogleToken⟩
  hipchat := ⟨row.bridgeHipchatEnabled, row.bridgeHipchatToken⟩
  slack := ⟨row.bridgeSlackEnabled, row.bridgeSlackToken⟩

/-- The account of a row. -/
def toAccount (row : AccountRow) : Account where
  id := row.id
  name := row.name
  host := row.host
  contactName := row.contactName
  contactEmail := row.contactEmail
  notifications := row.notifications
  bridges := row.bridges

/-- No column is filled from one field and read into another. -/
@[simp] theorem toAccount_ofAccount (a : Account) : (ofAccount a).toAccount = a := rfl

@[simp] theorem ofAccount_toAccount (row : AccountRow) : ofAccount row.toAccount = row := rfl

end AccountRow

/-- A stored person. -/
structure PersonRow where
  id : Uuid
  accountId : Uuid
  name : String
  title : String
  email : String
  phoneNumber : String
  isVisible : Bool
  isAvailable : Bool
  notificationsEnabled : Bool
  notificationsAppEnabled : Bool
  notificationsChatEnabled : Bool
  notificationsSmsEnabled : Bool
  notificationsEmailEnabled : Bool
  deriving DecidableEq, Repr

namespace PersonRow

/-- The row of a person. -/
def ofPerson (p : Person) : PersonRow where
  id := p.id
  accountId := p.accountId
  name := p.name
  title := p.title
  email := p.email
  phoneNumber := p.phoneNumber
  isVisible := p.isVisible
  isAvailable := p.isAvailable
  notificationsEnabled := p.notifications.enabled
  notificationsAppEnabled := p.notifications.app
  notificationsChatEnabled := p.notifications.chat
  notificationsSmsEnabled := p.notifications.sms
  notificationsEmailEnabled := p.notifications.email

/-- The person of a row. -/
def toPerson (row : PersonRow) : Person where
  id := row.id
  accountId := row.accountId
  name := row.name
  title := row.title
  email := row.email
  phoneNumber := row.phoneNumber
  isVisible := row.isVisible
  isAvailable := row.isAvailable
  notifications :=
    { enabled := row.notificationsEnabled
      app := row.notificationsAppEnabled
      chat := row.notificationsChatEnabled
      sms := row.notificationsSmsEnabled
      email := row.notificationsEmailEnabled }

/-- No column is filled from one field and read into another. -/
@[simp] theorem toPerson_ofPerson (p : Person) : (ofPerson p).toPerson = p := rfl

@[simp] theorem ofPerson_toPerson (row : PersonRow) : ofPerson row.toPerson = row := rfl

end PersonRow

/-- A stored door. -/
structure DoorRow where
  id : Uuid
  accountId : Uuid
  name : String
  deriving DecidableEq, Repr

namespace DoorRow

/-- The row of a door. -/
def ofDoor (d : Door) : DoorRow := ⟨d.id, d.accountId, d.name⟩

/-- The door of a row. -/
def toDoor (row : DoorRow) : Door := ⟨row.id, row.accountId, row.name⟩

@[simp] theorem toDoor_ofDoor (d : Door) : (ofDoor d).toDoor = d := rfl

@[simp] theorem ofDoor_toDoor (row : DoorRow) : ofDoor row.toDoor = row := rfl

end DoorRow

end Concierge
