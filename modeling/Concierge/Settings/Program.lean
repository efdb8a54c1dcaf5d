import Concierge.Settings.Service

/-!
# Program settings

The settings of the whole program: where it listens, its storage, its log and the service.  They are
printed as indented JSON, which shows every setting except the secrets.
-/

namespace Concierge

open Json (Reader Tolerance record)
open Json.Fields (defaulted)

/-- Where the program listens. -/
structure ServerSettings where
  bindAddr : String
  port : Nat
  /-- The limit of handling one request. -/
  requestTimeoutMs : Nat
  deriving DecidableEq, Repr

namespace ServerSettings

/-- Ports are numbers of 16 bits. -/
def portBound : Nat := Width.count 16

/-- The settings, as long as nothing is set. -/
def standard : ServerSettings := ⟨"127.0.0.1", 8087, 30000⟩

/-- The written form. -/
def toJson (s : ServerSettings) : Json :=
  .object [
    ("bind_addr", .string s.bindAddr),
    ("port", .nat s.port),
    ("request_timeout_ms", .nat s.requestTimeoutMs)]

/-- Read the settings. -/
def reader (tolerance : Tolerance) : Reader ServerSettings :=
  record tolerance (ServerSettings.mk
    <$> defaulted "bind_addr" standard.bindAddr .text
    <*> defaulted "port" standard.port (.natBelow portBound)
    <*> defaulted "request_timeout_ms" standard.requestTimeoutMs .word64)

end ServerSettings

/-- The storage. -/
structure DatabaseSettings where
  dsn : String
  maxConnections : Nat
  deriving DecidableEq, Repr

namespace DatabaseSettings

/-- The settings, as long as nothing is set. -/
def standard : DatabaseSettings := ⟨"sqlite://doorbot.db?mode=rwc", 10⟩

/-- The written form. -/
def toJson (s : DatabaseSettings) : Json :=
  .object [("dsn", .string s.dsn), ("max_connections", .nat s.maxConnections)]

/-- Read the settings. -/
def reader (tolerance : Tolerance) : Reader DatabaseSettings :=
  record tolerance (DatabaseSettings.mk
    <$> defaulted "dsn" standard.dsn .text
    <*> defaulted "max_connections" standard.maxConnections (.natBelow (Width.count 32)))

end DatabaseSettings

/-- The form of the log's lines. -/
inductive LogFormat where
  | text
  | json
  deriving DecidableEq, Repr

namespace LogFormat

/-- The name of a form in settings. -/
def name : LogFormat → String
  | .text => "text"
  | .json => "json"

/-- The forms by name. -/
def names : List (String × LogFormat) := [LogFormat.text, .json].map fun f => (f.name, f)

end LogFormat

/-- The log. -/
structure LoggingSettings where
  /-- The filter of the log, unless the environment gives one. -/
  level : String
  format : LogFormat
  deriving DecidableEq, Repr

namespace LoggingSettings

/-- The settings, as long as nothing is set. -/
def standard : LoggingSettings := ⟨"info", .text⟩

/-- The written form. -/
def toJson (s : LoggingSettings) : Json :=
  .object [("level", .string s.level), ("format", .string s.format.name)]

/-- Read the settings. -/
def reader (tolerance : Tolerance) : Reader LoggingSettings :=
  record tolerance (LoggingSettings.mk
    <$> defaulted "level" standard.level .text
    <*> defaulted "format" standard.format
      (.variantWith .unit tolerance.surplus LogFormat.names))

end LoggingSettings

/-- The settings of the program. -/
structure ProgramSettings where
  server : ServerSettings
  database : DatabaseSettings
  logging : LoggingSettings
  service : ServiceSettings
  deriving DecidableEq, Repr

namespace ProgramSettings

/-- The settings, as long as nothing is set. -/
def standard : ProgramSettings := ⟨.standard, .standard, .standard, .standard⟩

instance : Inhabited ProgramSettings := ⟨standard⟩

/-- The written form. -/
def toJson (s : ProgramSettings) : Json :=
  .object [
    ("server", s.server.toJson),
    ("database", s.database.toJson),
    ("logging", s.logging.toJson),
    ("doorbot", s.service.toJson)]

/-- Read the settings; sections that are unknown are skipped, unknown settings are refused. -/
def reader (tolerance : Tolerance) : Reader ProgramSettings :=
  record ⟨true, tolerance.surplus⟩ (ProgramSettings.mk
    <$> defaulted "server" standard.server (ServerSettings.reader tolerance)
    <*> defaulted "database" standard.database (DatabaseSettings.reader tolerance)
    <*> defaulted "logging" standard.logging (LoggingSettings.reader tolerance)
    <*> defaulted "doorbot" standard.service (ServiceSettings.reader tolerance))


end ProgramSettings

end Concierge
