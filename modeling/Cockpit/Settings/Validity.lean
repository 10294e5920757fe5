import Cockpit.Settings.Basic
import Cockpit.Log
import Cockpit.Text.Upper
import Cockpit.Value.Number

/-!
# Validity of settings

What is wrong with the settings, section by section.  Settings are valid when
no section has a complaint.  A setting whose type does not admit the comparison
stops the check.
-/

namespace Cockpit.Settings

/-- The least timeout that is valid, in seconds. -/
def timeoutMin : Double := .ofRatio false 5 100

/-- The greatest timeout that is valid, in seconds. -/
def timeoutMax : Double := .ofRatio false 30 1

/-- Complaints about a section. -/
structure Complaint where
  about : Section
  texts : List String
  deriving DecidableEq

/-- A text if something is wrong. -/
def complain (wrong : Bool) (text : String) : List String := if wrong then [text] else []

/-- What is wrong with the timeout. -/
def queryComplaints (s : Settings) : Except Fault (List String) := do
  let low ← s.timeout.isBelow (.real timeoutMin)
  let wrong ← if low then pure true else s.timeout.isAbove (.real timeoutMax)
  let least := timeoutMin.write Value.numberLayout
  let most := timeoutMax.write Value.numberLayout
  return complain wrong s!"Query timeout must be between {least} and {most} seconds"

/-- The level that a name in any case denotes. -/
def levelOf? (name : String) : Option Log.Level := Log.Level.ofName? (Text.upper name)

/-- What is wrong with the logging section. -/
def loggingComplaints (s : Settings) : Except Fault (List String) := do
  let known := (levelOf? (← s.level.textMember)).isSome
  let files ← s.maxLogFiles.isAtMost (.int 0)
  let size ← s.maxLogSize.isAtMost (.int 0)
  return complain (!known) s!"Unknown log level {s.level.toText}"
    ++ complain (s.logToFile.isSet && !s.logFilePath.isSet)
      "Log file path must be specified when logging to file"
    ++ complain files "Maximum log files must be positive"
    ++ complain size "Maximum log size must be positive"

/-- What is wrong with the settings.  Sections in order that have nothing wrong are left out. -/
def validate (s : Settings) : Except Fault (List Complaint) := do
  let query ← s.queryComplaints
  let logging ← s.loggingComplaints
  return [⟨.query, query⟩, ⟨.logging, logging⟩].filter (!·.texts.isEmpty)

end Cockpit.Settings
