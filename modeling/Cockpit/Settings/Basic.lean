import Cockpit.Value.Convert

/-!
# Settings

The settings of the application: three sections of keys, a version, and a mark
that nothing has been loaded yet.  Each setting has a default, and the type of
the default is the type that the setting should have.  A setting may hold a
value of another type all the same, since null is let in everywhere and after it
any value.

`Settings.get_set` and its companions say that setting one key changes no other.

*Inner names.*  Settings and their sections also answer to names of their own, which name no
setting.  Two of them are described here.  One stands for all values of a section at once
(`Settings.valuesName`): what it is given replaces them as it is, and a key that is missing there
is at its default again (`Settings.replace`).  The other one stands for a holder that takes nothing
(`Settings.holderName`).  The rest of them (`Settings.innerNames`), and names that a section has
only since all its values were replaced, are not described, and count as unknown.  So what is
proved of objects that are taken over is about objects without inner names, and about sections
without such further names.
-/

namespace Cockpit

namespace Settings

/-- A group of settings. -/
inductive Section where
  | query
  | builder
  | logging
  deriving DecidableEq, Repr

/-- A setting within a group. -/
inductive Key where
  /-- Seconds to wait for the answer to a query. -/
  | timeout
  /-- Whether unknown actions fail. -/
  | strictActions
  /-- Whether outgoing streams are logged. -/
  | logStreams
  | level
  | logToFile
  | logFilePath
  | maxLogFiles
  /-- The size of a log file in megabytes. -/
  | maxLogSize
  deriving DecidableEq, Repr

def Section.all : List Section := [.query, .builder, .logging]

def Section.name : Section → String
  | .query => "query"
  | .builder => "builder"
  | .logging => "logging"

/-- The keys of a section in order. -/
def Section.keys : Section → List Key
  | .query => [.timeout]
  | .builder => [.strictActions, .logStreams]
  | .logging => [.level, .logToFile, .logFilePath, .maxLogFiles, .maxLogSize]

def Key.name : Key → String
  | .timeout => "timeout"
  | .strictActions => "strict_actions"
  | .logStreams => "log_streams"
  | .level => "level"
  | .logToFile => "log_to_file"
  | .logFilePath => "log_file_path"
  | .maxLogFiles => "max_log_files"
  | .maxLogSize => "max_log_size_mb"

/-- The section of a name. -/
def Section.ofName? (s : String) : Option Section := Section.all.find? (·.name == s)

/-- The key of a name in a section. -/
def Section.key? (c : Section) (s : String) : Option Key := c.keys.find? (·.name == s)

/-- The time that a query waits by default, in seconds. -/
def timeoutDefault : Double := .ofRatio false 2 1

end Settings

/-- The values of all settings. -/
structure Settings where
  timeout : Value := .float Settings.timeoutDefault
  strictActions : Value := .bool false
  logStreams : Value := .bool false
  level : Value := .text "INFO"
  logToFile : Value := .bool false
  logFilePath : Value := .null
  maxLogFiles : Value := .int 5
  maxLogSize : Value := .int 10
  version : Value := .text "1.0.0"
  /-- Whether nothing has been loaded yet. -/
  firstRun : Value := .bool true
  deriving DecidableEq, Inhabited

namespace Settings

/-- The value of a key. -/
def get (s : Settings) : Key → Value
  | .timeout => s.timeout
  | .strictActions => s.strictActions
  | .logStreams => s.logStreams
  | .level => s.level
  | .logToFile => s.logToFile
  | .logFilePath => s.logFilePath
  | .maxLogFiles => s.maxLogFiles
  | .maxLogSize => s.maxLogSize

/-- The settings with another value of a key. -/
def set (s : Settings) (v : Value) : Key → Settings
  | .timeout => { s with timeout := v }
  | .strictActions => { s with strictActions := v }
  | .logStreams => { s with logStreams := v }
  | .level => { s with level := v }
  | .logToFile => { s with logToFile := v }
  | .logFilePath => { s with logFilePath := v }
  | .maxLogFiles => { s with maxLogFiles := v }
  | .maxLogSize => { s with maxLogSize := v }

@[simp] theorem get_set (s : Settings) (v : Value) (k : Key) : (s.set v k).get k = v := by
  cases k <;> rfl

theorem get_set_of_ne (s : Settings) (v : Value) {k l : Key} (h : l ≠ k) :
    (s.set v k).get l = s.get l := by
  cases k <;> cases l <;> first | rfl | exact absurd rfl h

@[simp] theorem version_set (s : Settings) (v : Value) (k : Key) :
    (s.set v k).version = s.version := by cases k <;> rfl

@[simp] theorem firstRun_set (s : Settings) (v : Value) (k : Key) :
    (s.set v k).firstRun = s.firstRun := by cases k <;> rfl

/-- The entries of a section. -/
def sectionEntries (s : Settings) (c : Section) : Entries :=
  c.keys.map fun k => (k.name, s.get k)

/-- All settings as an object. -/
def toEntries (s : Settings) : Entries :=
  Section.all.map (fun c => (c.name, .object (s.sectionEntries c)))
    ++ [("version", s.version), ("first_run", s.firstRun)]

/-! ## Conversion -/

/-- A new value for a setting, as the type of the current one.  Null is never
converted, and a setting that is null takes any value. -/
def convert (current value : Value) : Except Fault Value :=
  match current, value with
  | .null, v => .ok v
  | _, .null => .ok .null
  | .bool _, v => .ok (.bool v.isSet)
  | .int _, .bool b => .ok (.bool b)
  | .int _, v => v.toInt.map .int
  | .float _, v => v.toDouble.map .float
  | .text _, v => .ok (.text v.toText)
  | .list _, v => v.items.map .list
  | .object _, v => v.toEntries.map .object

/-! ## Inner names -/

/-- The name of all values of a section. -/
def valuesName : String := "__dict__"

/-- The name of the holder of a section, or of all settings. -/
def holderName : String := "__weakref__"

/-- The names that settings and their sections answer to, and that name no setting. -/
def innerNames : List String :=
  [valuesName, holderName, "__annotations__", "__class__", "__dataclass_fields__",
    "__dataclass_params__", "__delattr__", "__dir__", "__doc__", "__eq__", "__format__", "__ge__",
    "__getattribute__", "__getstate__", "__gt__", "__hash__", "__init__", "__init_subclass__",
    "__le__", "__lt__", "__match_args__", "__module__", "__ne__", "__new__", "__reduce__",
    "__reduce_ex__", "__repr__", "__setattr__", "__sizeof__", "__str__", "__subclasshook__"]

/-- Whether a name is an inner one. -/
def isInner (name : String) : Bool := innerNames.contains name

/-- The settings with the values of a section as entries have them, or else at their defaults. -/
def refill (s : Settings) (c : Section) (es : Entries) : Settings :=
  c.keys.foldl (fun t k => t.set (es.getD k.name (get {} k)) k) s

/-- The settings with all values of a section replaced.  Null is converted here no more than
elsewhere, but cannot be taken. -/
def replace (s : Settings) (c : Section) (v : Value) : Except Fault Settings := do
  match ← convert (.object (s.sectionEntries c)) v with
  | .object es => return s.refill c es
  | _ => .error (.mismatch .noValues)

end Settings

end Cockpit
