import Concierge.Json.Records
import Concierge.Settings.Provider

/-!
# Service settings

How the service delivers knocks and takes over directories: its time limits, the directories and
their order, how a remote user is recognized, and the providers.
-/

namespace Concierge

open Json (Reader Tolerance record)
open Json.Fields (defaulted)

/-- How a remote user is recognized among the links of an account. -/
inductive MatchKey where
  /-- By the external id alone, whatever directory it came from. -/
  | externalId
  /-- By the directory and the external id. -/
  | bridgeAndExternalId
  deriving DecidableEq, Repr

namespace MatchKey

/-- The name of a match key in settings. -/
def name : MatchKey → String
  | .externalId => "external_id"
  | .bridgeAndExternalId => "bridge_and_external_id"

/-- The match keys by name. -/
def names : List (String × MatchKey) := [MatchKey.externalId, .bridgeAndExternalId].map fun k =>
  (k.name, k)

end MatchKey

/-- The settings of the service. -/
structure ServiceSettings where
  /-- The limit of one delivery attempt. -/
  attemptTimeoutMs : Nat
  /-- The limit of fetching one directory. -/
  fetchTimeoutMs : Nat
  /-- The directories that are synchronized, in order. -/
  syncBridges : List Bridge
  matchKey : MatchKey
  providers : ProviderSettings
  deriving DecidableEq, Repr

namespace ServiceSettings

/-- The settings, as long as nothing is set. -/
def standard : ServiceSettings where
  attemptTimeoutMs := 10000
  fetchTimeoutMs := 30000
  syncBridges := [.hub, .hipchat]
  matchKey := .bridgeAndExternalId
  providers := .standard

instance : Inhabited ServiceSettings := ⟨standard⟩

/-- The written form. -/
def toJson (s : ServiceSettings) : Json :=
  .object [
    ("delivery_attempt_timeout_ms", .nat s.attemptTimeoutMs),
    ("fetch_timeout_ms", .nat s.fetchTimeoutMs),
    ("sync_bridges", .array (s.syncBridges.map Bridge.toJson)),
    ("match_key", .string s.matchKey.name),
    ("providers", s.providers.toJson)]

/-- Read the settings. -/
def reader (tolerance : Tolerance) : Reader ServiceSettings :=
  record tolerance (ServiceSettings.mk
    <$> defaulted "delivery_attempt_timeout_ms" standard.attemptTimeoutMs .word64
    <*> defaulted "fetch_timeout_ms" standard.fetchTimeoutMs .word64
    <*> defaulted "sync_bridges" standard.syncBridges
      (.list (.variantWith .unit tolerance.surplus Bridge.names))
    <*> defaulted "match_key" standard.matchKey
      (.variantWith .unit tolerance.surplus MatchKey.names)
    <*> defaulted "providers" standard.providers (ProviderSettings.reader tolerance))

end ServiceSettings

end Concierge
