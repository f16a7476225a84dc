import ShardRouting.Settings.Reading
import ShardRouting.Toml.Reading

/-!
# Configurations

What a configuration file says: how much to log, the settings of the sharded database, and perhaps a
version. A request may override the first and the last. Main content: `Configuration`,
`Configuration.ofToml?` and `Configuration.override`.
-/

namespace ShardRouting

/-- What a configuration file says. -/
structure Configuration where
  /-- The least serious events that are logged, where the file names them. -/
  logLevel : String := ""
  /-- The sharded database. -/
  settings : Settings := {}
  /-- The version, where the file names one. -/
  version : Option String := none

namespace Configuration

/-- The log level of a document. -/
def logLevelOf? (d : Document) : Option String := do
  let r ← Record.of? ["log_level"] d
  r.defaulted "log_level" Document.text? ""

/-- The configuration that a document is. -/
def ofDocument? (d : Document) : Option Configuration := do
  let r ← Record.of? ["admin", "sharding", "version"] d
  let logLevel ← r.defaulted "admin" logLevelOf? ""
  let settings ← r.defaulted "sharding" Settings.ofDocument? {}
  let version ← r.optional "version" Document.text?
  some { logLevel, settings, version }

/-- The configuration that a text in TOML denotes. -/
def ofToml? (s : String) : Option Configuration :=
  (Document.ofToml? s).bind ofDocument?

/-- The log level where none is named. -/
def defaultLogLevel : String := "INFO"

/-- The first of two texts, or the second where the first is empty. -/
def orElse (s otherwise : String) : String :=
  if s.isEmpty then otherwise else s

/-- A configuration with the log level and the version of a request, where they are not empty. -/
def override (c : Configuration) (logLevel version : String) : Configuration :=
  { c with
    logLevel := orElse logLevel (orElse c.logLevel defaultLogLevel)
    version := if version.isEmpty then c.version else some version }

end Configuration

end ShardRouting
