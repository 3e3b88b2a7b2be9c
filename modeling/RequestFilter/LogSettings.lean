import RequestFilter.Text.AsciiCase

/-!
The log is on in debug mode or when a level is asked for. A level that is not known counts as asked
for, at the level that would hold without it.
-/

namespace RequestFilter

inductive LogLevel where
  | trace | debug | info | warn | error
  deriving DecidableEq, Repr

namespace LogLevel

def all : List LogLevel := [trace, debug, info, warn, error]

def name : LogLevel → String
  | trace => "trace"
  | debug => "debug"
  | info => "info"
  | warn => "warn"
  | error => "error"

def ofName? (name : String) : Option LogLevel :=
  all.find? fun level => level.name == Text.lowered name

end LogLevel

inductive LogFormat where
  | json | pretty | compact
  deriving DecidableEq, Repr

def LogFormat.ofName (name : String) : LogFormat :=
  let name := Text.lowered name
  if name = "pretty" then pretty else if name = "compact" then compact else json

structure LogSettings where
  enabled : Bool
  level : LogLevel
  format : LogFormat
  deriving DecidableEq, Repr

namespace LogSettings

def isYes (value : String) : Bool :=
  let value := Text.lowered value
  value == "true" || value == "1" || value == "yes"

def ofLookup (lookup : String → Option String) : LogSettings :=
  let debug := (lookup "SIFT_DEBUG").any isYes
  let asked := lookup "SIFT_LOG_LEVEL"
  { enabled := debug || asked.isSome
    level := (asked.bind LogLevel.ofName?).getD (if debug then .debug else .warn)
    format := ((lookup "SIFT_LOG_FORMAT").map LogFormat.ofName).getD .json }

def targets : List String := ["sift", "sift_query", "sift_axum"]

def directive (settings : LogSettings) : String :=
  ",".intercalate (targets.map fun target => target ++ "=" ++ settings.level.name)

def isDebug (settings : LogSettings) : Bool :=
  settings.enabled && (settings.level == .debug || settings.level == .trace)

end LogSettings

end RequestFilter
