import Cockpit.Settings.Config

/-!
# Report on the settings

All settings as text, with what is wrong with them.
-/

namespace Cockpit.Settings

/-- The lines of one entry: a section with its keys below it, or a single setting. -/
def entryLines (name : String) : Value → List String
  | .object es => ["", s!"[{name}]"] ++ es.map fun (k, v) => s!"  {k} = {v.toText}"
  | v => ["", s!"{name} = {v.toText}"]

/-- The lines of a complaint. -/
def Complaint.lines (c : Complaint) : List String :=
  s!"[{c.about.name}]" :: c.texts.map ("  - " ++ ·)

/-- The lines on the validity of settings. -/
def validityLines (cs : List Complaint) : List String :=
  if cs.isEmpty then ["", "Settings are valid."]
  else ["", "Validation Errors:"] ++ cs.flatMap Complaint.lines

/-- The report, which needs settings that can be checked. -/
def report (s : Settings) : Except Fault String := do
  let cs ← s.validate
  let lines := "Current Settings:" :: s.toEntries.flatMap (fun (k, v) => entryLines k v)
    ++ validityLines cs
  return String.join (lines.map (· ++ "\n"))

end Cockpit.Settings

namespace Cockpit.Config

/-- Loads the settings of a user and reports on them. -/
def loadAndReport : Op Config String := do
  let _ ← load .null
  (← .state).settings.report

end Cockpit.Config
