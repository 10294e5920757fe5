import Cockpit.Settings.Config

/-!
# Acts on a configuration

What can be done with a configuration, as data.  An act may change the settings,
the path of the file, the files of the host and its logging.  A history is a
list of acts.
-/

namespace Cockpit.Config

/-- One thing that is done with a configuration. -/
inductive Act where
  | load (path : Value)
  | save (path : Value)
  | get (group key : Value)
  | set (group key value : Value)
  | reset
  /-- Take known settings over from data. -/
  | update (data : Value)
  | validate
  | setUpLogging
  /-- Write settings as one line of JSON: a section, or all of them. -/
  | encode (part : Option Settings.Section)
  /-- Give the path of the file. -/
  | path
  | fileText (path : String)
  | putFile (path : String) (bytes : List UInt8)
  /-- A use that no operation has the fields for. -/
  | misuse

/-- What an act gives back. -/
inductive Reply where
  | nothing
  | flag (b : Bool)
  | value (v : Value)
  | text (s : String)
  | complaints (cs : List Settings.Complaint)
  | logging (level : Log.Level) (handlers : List Handler)

/-- The text of a section, or of all settings. -/
def encode (s : Settings) (part : Option Settings.Section) : String :=
  Json.write .plain (.object (match part with
    | some c => s.sectionEntries c
    | none => s.toEntries))

/-- Does an act. -/
def Act.run : Act → Op Config Reply
  | .load p => return .flag (← Config.load p)
  | .save p => return .flag (← Config.save p)
  | .get g k => do return .value (← (← .state).settings.lookup g k)
  | .set g k v => return .flag (← Config.set g k v)
  | .reset => do Config.reset; return .nothing
  | .update d => do Config.update d; return .nothing
  | .validate => do return .complaints (← (← .state).settings.validate)
  | .setUpLogging => do
    Config.setUpLogging
    let h := (← .state).host
    return .logging h.journal.threshold h.handlers
  | .encode part => do return .text (Config.encode (← .state).settings part)
  | .path => do return .value (← .state).path
  | .fileText p => do return .text (← (Host.readText p).on hostPart)
  | .putFile p bytes => do
    changeFiles (·.write p bytes)
    return .nothing
  | .misuse => .stop .wrongType

/-- Does acts one after another, each whatever became of those before it. -/
def runAll (acts : List Act) : Op Config Unit :=
  acts.forM fun a => do let _ ← a.run.attempt

end Cockpit.Config
