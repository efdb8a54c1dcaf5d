import Concierge.Proofs.Json.Layout
import Concierge.Settings.Program
import Mathlib.Tactic.Simps.Basic

/-!
# The layout of the settings

Each section of the settings part by part, up to the settings of the whole program.
-/

namespace Concierge

open Json (Kind Layout Part Tolerance Reader)
open Json.Fields (Lawful map_build_eq_ok_iff seq_build_eq_ok_iff defaulted_build_eq_ok_iff)

instance {α : Type} (name : String) (default : Option α) (r : Reader α) :
    Lawful (.defaultedOption name default r) :=
  inferInstanceAs (Lawful (.defaulted name default (Reader.option r)))

@[simp] theorem Json.Fields.defaultedOption_build_eq_ok_iff {α : Type} {name : String}
    {default o : Option α} {r : Reader α} {get : String → Option Json.Tree} :
    (defaultedOption name default r).build get = .ok o ↔
      (get name = none ∧ o = default) ∨ ∃ t, get name = some t ∧ Reader.option r t = .ok o :=
  defaulted_build_eq_ok_iff

namespace Json.Kind

/-- A text means a secret. -/
def secret : Kind Secret where
  reader := Secret.reader
  Means j s := j = .string s.reveal
  reads {j s} := by
    have htext := text.reads (j := j) (a := s.reveal)
    rw [show (j = .string s.reveal) = text.Means j s.reveal from rfl, ← htext]
    change Reader.refine .text (fun s => some ⟨s⟩) (tree j) = .ok s ↔ Reader.text (tree j) = _
    unfold Reader.refine
    obtain ⟨reveal⟩ := s
    cases Reader.text (tree j) <;> simp

@[simp] theorem secret_reader : secret.reader = Secret.reader := rfl

/-- An unsigned integer of 64 bits. -/
def word64 : Kind Nat := natBelow (Width.count 64) (Nat.le_refl _)

@[simp] theorem word64_reader : word64.reader = .word64 := rfl

end Json.Kind

variable (tolerance : Tolerance)

/-! ## Providers -/

/-- A chat provider, over defaults. -/
@[simps reader standard]
def ChatSettings.layout (d : ChatSettings) : Layout ChatSettings where
  reader := reader tolerance d
  tolerance := tolerance
  fields := _
  recorded := rfl
  standard := d
  parts := [
    .single "base_url" .text d.baseUrl baseUrl,
    .single "token" (.option .secret) d.token token]

/-- The provider Nexmo. -/
@[simps reader standard]
def NexmoSettings.layout : Layout NexmoSettings where
  reader := reader tolerance
  tolerance := tolerance
  fields := _
  recorded := rfl
  standard := standard
  parts := [
    .single "base_url" .text standard.baseUrl baseUrl,
    .single "api_key" (.option .text) standard.apiKey apiKey,
    .single "api_secret" (.option .secret) standard.apiSecret apiSecret,
    .single "from" .text standard.sender sender]

/-- The provider Twilio. -/
@[simps reader standard]
def TwilioSettings.layout : Layout TwilioSettings where
  reader := reader tolerance
  tolerance := tolerance
  fields := _
  recorded := rfl
  standard := standard
  parts := [
    .single "base_url" .text standard.baseUrl baseUrl,
    .single "account_sid" (.option .text) standard.accountSid accountSid,
    .single "auth_token" (.option .secret) standard.authToken authToken,
    .single "phone_number" (.option .text) standard.phoneNumber phoneNumber]

/-- The provider Mailgun. -/
@[simps reader standard]
def MailgunSettings.layout : Layout MailgunSettings where
  reader := reader tolerance
  tolerance := tolerance
  fields := _
  recorded := rfl
  standard := standard
  parts := [
    .single "base_url" .text standard.baseUrl baseUrl,
    .single "domain" (.option .text) standard.domain domain,
    .single "api_key" (.option .secret) standard.apiKey apiKey]

/-- The provider Postmark. -/
@[simps reader standard]
def PostmarkSettings.layout : Layout PostmarkSettings where
  reader := reader tolerance
  tolerance := tolerance
  fields := _
  recorded := rfl
  standard := standard
  parts := [
    .single "base_url" .text standard.baseUrl baseUrl,
    .single "server_token" (.option .secret) standard.serverToken serverToken]

/-- The directory of Google. -/
@[simps reader standard]
def GoogleSettings.layout : Layout GoogleSettings where
  reader := reader tolerance
  tolerance := tolerance
  fields := _
  recorded := rfl
  standard := standard
  parts := [
    .single "base_url" .text standard.baseUrl baseUrl,
    .single "customer" .text standard.customer customer]

/-- Every provider. -/
@[simps reader standard]
def ProviderSettings.layout : Layout ProviderSettings where
  reader := reader tolerance
  tolerance := tolerance
  fields := _
  recorded := rfl
  standard := standard
  parts := [
    .single "email_from" .text standard.emailFrom emailFrom,
    .record "hipchat" (ChatSettings.layout tolerance .hipchat) hipchat,
    .record "slack" (ChatSettings.layout tolerance .slack) slack,
    .record "nexmo" (NexmoSettings.layout tolerance) nexmo,
    .record "twilio" (TwilioSettings.layout tolerance) twilio,
    .record "mailgun" (MailgunSettings.layout tolerance) mailgun,
    .record "postmark" (PostmarkSettings.layout tolerance) postmark,
    .record "google_directory" (GoogleSettings.layout tolerance) googleDirectory]
  built {_ s} := by
    cases s
    simp [Part.given_iff, map_build_eq_ok_iff, seq_build_eq_ok_iff, defaulted_build_eq_ok_iff, standard,
      and_assoc]
  defaults := by simp [standard]

/-! ## The service and the program -/

/-- The service. -/
@[simps reader standard]
def ServiceSettings.layout : Layout ServiceSettings where
  reader := reader tolerance
  tolerance := tolerance
  fields := _
  recorded := rfl
  standard := standard
  parts := [
    .single "delivery_attempt_timeout_ms" .word64 standard.attemptTimeoutMs attemptTimeoutMs,
    .single "fetch_timeout_ms" .word64 standard.fetchTimeoutMs fetchTimeoutMs,
    .single "sync_bridges" (.list (.name tolerance.surplus Bridge.names)) standard.syncBridges syncBridges,
    .single "match_key" (.name tolerance.surplus MatchKey.names) standard.matchKey matchKey,
    .record "providers" (ProviderSettings.layout tolerance) providers]
  built {_ s} := by
    cases s
    simp [Part.given_iff, map_build_eq_ok_iff, seq_build_eq_ok_iff, defaulted_build_eq_ok_iff, standard,
      and_assoc]
  defaults := by simp [standard]

/-- All that the service reads, section by section. -/
example : (ServiceSettings.layout tolerance).sections.map (fun c => (c.path.map Prod.fst, c.keys)) =
    [([], ["delivery_attempt_timeout_ms", "fetch_timeout_ms", "sync_bridges", "match_key", "providers"]),
      (["providers"], ["email_from", "hipchat", "slack", "nexmo", "twilio", "mailgun", "postmark",
        "google_directory"]),
      (["providers", "hipchat"], ["base_url", "token"]),
      (["providers", "slack"], ["base_url", "token"]),
      (["providers", "nexmo"], ["base_url", "api_key", "api_secret", "from"]),
      (["providers", "twilio"], ["base_url", "account_sid", "auth_token", "phone_number"]),
      (["providers", "mailgun"], ["base_url", "domain", "api_key"]),
      (["providers", "postmark"], ["base_url", "server_token"]),
      (["providers", "google_directory"], ["base_url", "customer"])] := rfl

/-- Where the program listens. -/
@[simps reader standard]
def ServerSettings.layout : Layout ServerSettings where
  reader := reader tolerance
  tolerance := tolerance
  fields := _
  recorded := rfl
  standard := standard
  parts := [
    .single "bind_addr" .text standard.bindAddr bindAddr,
    .single "port" (.natBelow portBound (by decide)) standard.port port,
    .single "request_timeout_ms" .word64 standard.requestTimeoutMs requestTimeoutMs]

/-- The storage. -/
@[simps reader standard]
def DatabaseSettings.layout : Layout DatabaseSettings where
  reader := reader tolerance
  tolerance := tolerance
  fields := _
  recorded := rfl
  standard := standard
  parts := [
    .single "dsn" .text standard.dsn dsn,
    .single "max_connections" (.natBelow (Width.count 32) (by decide)) standard.maxConnections
      maxConnections]

/-- The log. -/
@[simps reader standard]
def LoggingSettings.layout : Layout LoggingSettings where
  reader := reader tolerance
  tolerance := tolerance
  fields := _
  recorded := rfl
  standard := standard
  parts := [
    .single "level" .text standard.level level,
    .single "format" (.name tolerance.surplus LogFormat.names) standard.format format]

/-- The program. -/
@[simps reader standard]
def ProgramSettings.layout : Layout ProgramSettings where
  reader := reader tolerance
  tolerance := ⟨true, tolerance.surplus⟩
  fields := _
  recorded := rfl
  standard := standard
  parts := [
    .record "server" (ServerSettings.layout tolerance) server,
    .record "database" (DatabaseSettings.layout tolerance) database,
    .record "logging" (LoggingSettings.layout tolerance) logging,
    .record "doorbot" (ServiceSettings.layout tolerance) service]
  built {_ s} := by
    cases s
    simp [Part.given_iff, map_build_eq_ok_iff, seq_build_eq_ok_iff, defaulted_build_eq_ok_iff, standard,
      and_assoc]
  defaults := by simp [standard]

end Concierge
