import Cockpit.Host
import Cockpit.Json.Reader
import Cockpit.Json.Writer
import Cockpit.Settings.Validity

/-!
# Configuration files

Settings and the file that they are loaded from and saved to.

Loading creates a missing file with the settings as they are.  From a file it
takes the keys that it knows, one by one and in the order of the file.  A value
that cannot be converted is reported, and its setting stays as it was.  A file
that cannot be read or parsed is reported and changes nothing.

A section also knows the inner names that `Settings.Basic` describes.  All its
values can be replaced, in a file and by a call, and its holder stops what would
be given to it.  Look-ups of inner names, and of names that a value has in its
own right, are not described.
-/

namespace Cockpit

/-- Settings on a host, with the path of their file. -/
structure Config where
  host : Host
  path : Value
  settings : Settings := {}

namespace Config

def hostPart : Op.Part Config Host where
  get c := c.host
  set h c := { c with host := h }

/-- Logs a text about the settings. -/
def say (level : Log.Level) (text : String) : Op Config Unit :=
  (Host.say .settings level text).on hostPart

/-- Changes the files of the host. -/
def changeFiles (f : Files.Tree → Except Fault Files.Tree) : Op Config Unit :=
  (Host.changeFiles f).on hostPart

def setSettings (s : Settings) : Op Config Unit := .update fun c => { c with settings := s }

/-! ## Changes -/

/-- Gives a setting a new value, or tells why the value is refused. -/
def takeValue (key : String) (current value : Value) (store : Value → Settings → Settings) :
    Op Config Unit :=
  let take : Op Config Unit := do
    let v ← Settings.convert current value
    .update fun c => { c with settings := store v c.settings }
  take.recover Fault.isConversion fun _ =>
    say .warning s!"Could not convert {key}={value.toText} to {current.typeName}"

/-- Gives a section new values for all its keys, or tells why they are refused. -/
def takeValues (c : Settings.Section) (v : Value) : Op Config Unit :=
  let take : Op Config Unit := do
    setSettings (← (← .state).settings.replace c v)
  take.recover Fault.isConversion fun _ =>
    let typeName := (Value.object []).typeName
    say .warning s!"Could not convert {Settings.valuesName}={v.toText} to {typeName}"

/-- Takes one entry of a section over. -/
def takeMember (c : Settings.Section) (name : String) (v : Value) : Op Config Unit :=
  match c.key? name with
  | some k => do takeValue name ((← .state).settings.get k) v fun v s => s.set v k
  | none =>
    if name = Settings.valuesName then takeValues c v
    else if name = Settings.holderName then .stop .noMember
    else pure ()

/-- Takes the known names of a section over. -/
def takeSection (c : Settings.Section) (es : Entries) : Op Config Unit :=
  es.forM fun (name, v) => takeMember c name v

/-- Takes one entry of a file over. -/
def takeEntry (name : String) (v : Value) : Op Config Unit :=
  match Settings.Section.ofName? name, v with
  | some c, .object es => takeSection c es
  | some _, _ => say .warning s!"Ignoring non-object value for section {name}"
  | none, v =>
    if name = "version" then do
      takeValue name (← .state).settings.version v fun v s => { s with version := v }
    else if name = "first_run" then do
      takeValue name (← .state).settings.firstRun v fun v s => { s with firstRun := v }
    else if name = Settings.holderName then .stop .noMember
    else pure ()

/-- Takes the known settings of a file over. -/
def update (data : Value) : Op Config Unit := do
  match data with
  | .object es => es.forM fun (name, v) => takeEntry name v
  | _ => .stop .noMember
  .update fun c => { c with settings := { c.settings with firstRun := .bool false } }

/-- Sets one setting.  Tells whether that was possible. -/
def set (group key value : Value) : Op Config Bool := do
  let unknown : Op Config Bool := do
    say .warning s!"Unknown setting {group.toText}.{key.toText}"
    return false
  match Settings.Section.ofName? (← group.needText) with
  | none => unknown
  | some c =>
    let name ← key.needText
    let change (f : Settings → Except Fault Settings) : Op Config Bool :=
      let take : Op Config Bool := do
        setSettings (← f (← .state).settings)
        return true
      take.recover Fault.isConversion fun f => do
        say .error s!"Error setting {group.toText}.{key.toText}={value.toText}: {f.message}"
        return false
    match c.key? name with
    | some k => change fun s => return s.set (← Settings.convert (s.get k) value) k
    | none =>
      if name = Settings.valuesName then change (·.replace c value)
      else if name = Settings.holderName then .stop .noMember
      else unknown

/-- Sets all settings back to their defaults. -/
def reset : Op Config Unit := do
  setSettings {}
  say .info "Settings reset to defaults"

/-! ## Files -/

/-- Points at another file, if one is given. -/
def retarget (path : Value) : Op Config Unit :=
  .update fun c => if path.isSet then { c with path := path } else c

/-- Writes the settings to their file. -/
def store (path : String) : Op Config Unit := do
  changeFiles (·.prepare (Files.parent path))
  let text := Json.write .file (.object (← .state).settings.toEntries)
  changeFiles (·.writeText path text)

/-- Saves the settings.  Tells whether that was possible. -/
def save (path : Value) : Op Config Bool := do
  retarget path
  let p ← (← .state).path.needText
  let write : Op Config Bool := do
    store p
    say .info s!"Settings saved to {p}"
    return true
  write.recover Fault.isTransport fun f => do
    say .error s!"Error writing config file: {f.message}"
    return false

/-- Creates the file with the settings as they are. -/
def create (path : String) : Op Config Unit :=
  let write : Op Config Unit := do
    store path
    say .info s!"Default configuration created at {path}"
  write.recover Fault.isTransport fun f =>
    say .error s!"Error creating default config: {f.message}"

/-- Takes the content of the file over.  Tells whether that was possible. -/
def takeText (path text : String) : Op Config Bool := do
  match Json.read text with
  | .error (.syntaxError reason pos) =>
    say .error s!"Error parsing config file: {reason.message text pos}"
    return false
  | .error (.numeralTooLong n) => .stop (.numeralTooLong n)
  | .error .tooDeep => .stop .tooDeep
  | .ok (.object es) =>
    update (.object es)
    say .info s!"Settings loaded from {path}"
    return true
  | .ok _ =>
    say .error s!"Config file {path} does not hold an object"
    return false

/-- Loads the settings.  Tells whether that was possible. -/
def load (path : Value) : Op Config Bool := do
  retarget path
  let p ← (← .state).path.needText
  let read : Op Config Bool := do
    changeFiles (·.prepare (Files.parent p))
    if (← Host.lookAtFiles.on hostPart).exists? p then
      takeText p (← (Host.readText p).on hostPart)
    else
      say .info s!"Configuration file not found at {p}"
      create p
      return true
  read.recover Fault.isTransport fun f => do
    say .error s!"Error reading config file: {f.message}"
    return false

/-- Where the file is when no path is given, below the directory of the user. -/
def defaultPath (home : String) : String := home ++ "/.cockpit_uplink/config.json"

/-- The configuration on a host before anything was loaded. -/
def start (host : Host) (path : Value) : Config :=
  { host, path := if path.isSet then path else .text (defaultPath host.files.root) }

/-! ## Logging -/

/-- Sets logging up as the settings say. -/
def setUpLogging : Op Config Unit := do
  let s := (← .state).settings
  let level := (Settings.levelOf? s.level.toText).getD .info
  (Host.setHandlers level s.logToFile s.logFilePath s.maxLogFiles s.maxLogSize).on hostPart
  say .info s!"Logging level set to {s.level.toText}"

end Config

namespace Settings

/-- The value of a setting, or a whole section.  Null stands for what is not there. -/
def lookup (s : Settings) (group key : Value) : Except Fault Value := do
  let name ← group.needText
  let single (v : Value) : Except Fault Value :=
    if key = .null then .ok v else key.needText.map fun _ => .null
  match Section.ofName? name with
  | some c =>
    if key = .null then return .object (s.sectionEntries c)
    else return ((c.key? (← key.needText)).map s.get).getD .null
  | none =>
    if name = "version" then single s.version
    else if name = "first_run" then single s.firstRun
    else return .null

end Settings

end Cockpit
