import Concierge.Account
import Concierge.Person
import Concierge.Template

/-!
# Messages

The texts that people receive: for a knock a subject, a text for chat and email, and a short
message; for a new account one email.  An account may replace the text and the short message.
-/

namespace Concierge

/-- The texts of one knock. -/
structure KnockMessage where
  subject : String
  text : String
  sms : String
  deriving DecidableEq, Repr

namespace KnockMessage

/-- The short message of accounts without one of their own. -/
def defaultSms : String :=
  "Hi \x7b\x7bname\x7d\x7d, there is someone waiting for your at the \x7b\x7bdoor\x7d\x7d."

/-- The text of accounts without one of their own. -/
def defaultText : String :=
  "Hi \x7b\x7bname\x7d\x7d,\nThere is someone waiting at the \x7b\x7bdoor\x7d\x7d.\n\n - Doorbot"

/-- The subject. -/
def subjectTemplate : String :=
  "Doorbot - There is someone waiting at the \x7b\x7bdoor\x7d\x7d."

/-- A template of the account, unless it is empty. -/
def chosen (own : Option String) (default : String) : String :=
  match own with
  | some s => if s.isEmpty then default else s
  | none => default

/-- What the placeholders stand for. -/
def values (door : Door) (person : Person) : List (String × String) :=
  [("name", person.name), ("door", door.name)]

/-- The texts for a knock at a door for a person. -/
def compose (account : Account) (door : Door) (person : Person) : KnockMessage where
  subject := Template.render subjectTemplate (values door person)
  text := Template.render (chosen account.notifications.emailTemplate defaultText)
    (values door person)
  sms := Template.render (chosen account.notifications.smsTemplate defaultSms)
    (values door person)

end KnockMessage

namespace Welcome

/-- The subject of the email for a new account. -/
def subject : String := "Doorbot - Account Created"

/-- The email for a new account. -/
def text (account : Account) (person : Person) (password : String) : String :=
  "Welcome " ++ person.name ++
    ",\n\nYou can log in on the dashboard using this temporary password: " ++ password ++
    "\n\n\nAccount: " ++ account.id.toText ++ "\nTemporary Host: " ++ account.host ++
    "\n Email: " ++ person.email ++ "\nPassword: " ++ password ++ "\n\n- Doorbot"

end Welcome

end Concierge
