import Cockpit.Op

/-!
# Logs

A record has a source, a level and a text.  A journal keeps the records in
order.  It drops those below its threshold.
-/

namespace Cockpit.Log

/-- How serious a record is. -/
inductive Level where
  | debug
  | info
  | warning
  | error
  | critical
  deriving DecidableEq, Repr

namespace Level

/-- Levels in order of weight. -/
def all : List Level := [.debug, .info, .warning, .error, .critical]

def name : Level → String
  | .debug => "DEBUG"
  | .info => "INFO"
  | .warning => "WARNING"
  | .error => "ERROR"
  | .critical => "CRITICAL"

/-- The weight by which levels are compared. -/
def weight : Level → Nat
  | .debug => 10
  | .info => 20
  | .warning => 30
  | .error => 40
  | .critical => 50

/-- The level of a name. -/
def ofName? (s : String) : Option Level := all.find? (·.name == s)

end Level

/-- The part of the library that a record comes from. -/
inductive Source where
  | root
  | settings
  | device
  | airframe
  | builder
  | queryBuilder
  | uploadAgent
  | queryBridge
  | telemetry
  | uplink
  deriving DecidableEq, Repr

def Source.name : Source → String
  | .root => "root"
  | .settings => "settings"
  | .device => "device"
  | .airframe => "registry"
  | .builder => "builder"
  | .queryBuilder => "query_builder"
  | .uploadAgent => "upload_agent"
  | .queryBridge => "query_bridge"
  | .telemetry => "telemetry_parser"
  | .uplink => "uplink"

/-- One entry of a log. -/
structure Record where
  source : Source
  level : Level
  text : String
  deriving DecidableEq, Repr

/-- A record as a line of a log file, after the time. -/
def Record.line (r : Record) : String := s!"{r.source.name} - {r.level.name} - {r.text}"

/-- The records so far, and the least level that is kept. -/
structure Journal where
  threshold : Level := .debug
  records : List Record := []

namespace Journal

/-- Whether a journal keeps records of a level. -/
def keeps (j : Journal) (l : Level) : Bool := j.threshold.weight ≤ l.weight

/-- The journal after a record. -/
def add (j : Journal) (r : Record) : Journal :=
  if j.keeps r.level then { j with records := j.records ++ [r] } else j

end Journal

/-- Writes a record into a journal. -/
def say (source : Source) (level : Level) (text : String) : Op Journal Unit :=
  .update (·.add ⟨source, level, text⟩)

end Cockpit.Log
