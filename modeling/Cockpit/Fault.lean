import Cockpit.Value.Basic
import Cockpit.Text.Utf8

/-!
# Faults

Everything that can stop an operation, as causes.  `Fault.message` words each
cause.  The causes are sorted for those who recover from some of them: senders
lose a connection (`Fault.isTransport`), and settings refuse a value that has
the wrong type or the wrong form (`Fault.isConversion`).
-/

namespace Cockpit

/-- What a value of the wrong type was asked to be. -/
inductive Mismatch where
  /-- Something that this type of value never is. -/
  | other
  | notReal (typeName : String)
  | notWhole (typeName : String)
  | notIterable (typeName : String)
  /-- The entry at a place of a list of entries is no sequence. -/
  | notEntry (index : Nat)
  /-- Null in the place of all values of a section. -/
  | noValues
  deriving DecidableEq, Repr

/-- Why a file operation fails. -/
inductive FileCause where
  | missing
  | alreadyThere
  | notDirectory
  | isDirectory
  | nameTooLong
  | loop
  /-- The path holds a null character, so it is not handed to the system at all. -/
  | nullCharacter
  deriving DecidableEq, Repr

/-- The kinds of faults that can be raised with a text of one's own. -/
inductive RaisedKind where
  | uplink
  | duplicateAction
  | duplicateDevice
  | deviceSealed
  | blockNesting
  | ask
  | queryInFlight
  | value
  | key
  | runtime
  | transport
  | connectionRefused
  | brokenPipe
  | timedOut
  deriving DecidableEq, Repr

/-- The cause that stopped an operation. -/
inductive Fault where
  /- Values of the wrong type or form -/
  | mismatch (what : Mismatch)
  | noMember
  | outOfRange
  | overflow
  | nanToWhole
  | notWhole (text : String)
  | notReal (text : String)
  | numeralTooLong (digits : Nat)
  | entryLength (index length : Nat)
  | missingKey (key : String)
  | notUtf8 (defect : Text.Utf8Defect)
  | tooDeep
  | file (cause : FileCause) (path : String)
  /- Catalogs -/
  | unknownAction (device : Value) (names : List String)
  | unknownDevice (airframe name : Value)
  | duplicateAction (device name : Value)
  | duplicateDevice (airframe name : Value)
  | deviceSealed (device : Value)
  /- Builders and queries -/
  | noPayload
  | noBuild (builder : String)
  | noAirframe (builder : String)
  | noQueryFunction (builder : String)
  | noBridge (builder : String)
  | openCondition (condition : Value)
  | secondQuery (fn : Value)
  | splicedQuery (builder : String)
  | notOneQuery (found : Nat)
  | queryInFlight
  | noOptions (count : Value)
  /-- Raised by an author or a sender, with its own text. -/
  | raised (kind : RaisedKind) (text : String)
  deriving DecidableEq, Repr

namespace Mismatch

/-- The wording of a mismatch. -/
def message : Mismatch → String
  | .other => ""
  | .notReal t => s!"float() argument must be a string or a real number, not '{t}'"
  | .notWhole t =>
    s!"int() argument must be a string, a bytes-like object or a real number, not '{t}'"
  | .notIterable t => s!"'{t}' object is not iterable"
  | .notEntry i => s!"cannot convert dictionary update sequence element #{i} to a sequence"
  | .noValues => "__dict__ must be set to a dictionary, not a 'NoneType'"

end Mismatch

namespace FileCause

/-- The number of the cause in messages. -/
def code : FileCause → Nat
  | .missing => 2
  | .alreadyThere => 17
  | .notDirectory => 20
  | .isDirectory => 21
  | .nameTooLong => 36
  | .loop => 40
  | .nullCharacter => 0

/-- The wording of the cause alone. -/
def text : FileCause → String
  | .missing => "No such file or directory"
  | .alreadyThere => "File exists"
  | .notDirectory => "Not a directory"
  | .isDirectory => "Is a directory"
  | .nameTooLong => "File name too long"
  | .loop => "Too many levels of symbolic links"
  | .nullCharacter => "embedded null byte"

/-- Whether the system refused the operation. -/
def isSystem : FileCause → Bool
  | .nullCharacter => false
  | _ => true

/-- The wording of the cause at a path. -/
def message (c : FileCause) (path : String) : String :=
  if c.isSystem then s!"[Errno {c.code}] {c.text}: {Text.quote path}" else c.text

end FileCause

namespace Fault

/-- The wording of a fault. -/
def message : Fault → String
  | .mismatch m => m.message
  | .noMember => ""
  | .outOfRange => ""
  | .overflow => ""
  | .nanToWhole => "cannot convert float NaN to integer"
  | .notWhole s => s!"invalid literal for int() with base 10: {Text.quote s}"
  | .notReal s => s!"could not convert string to float: {Text.quote s}"
  | .numeralTooLong n =>
    s!"Exceeds the limit (4300 digits) for integer string conversion: value has {n} digits; "
      ++ "use sys.set_int_max_str_digits() to increase the limit"
  | .entryLength i n =>
    s!"dictionary update sequence element #{i} has length {n}; 2 is required"
  | .missingKey k => Text.quote k
  | .notUtf8 d => d.message
  | .tooDeep => ""
  | .file c p => c.message p
  | .unknownAction d ns => s!"Device {d.toText} has no action(s): " ++ ", ".intercalate ns
  | .unknownDevice a n => s!"Airframe {a.toText} has no device {n.toText}"
  | .duplicateAction d n => s!"Device {d.toText} already has an action named {n.toText}"
  | .duplicateDevice a n => s!"Airframe {a.toText} already has a device named {n.toText}"
  | .deviceSealed d => s!"Device {d.toText} is read-only once registered"
  | .noPayload => ""
  | .noBuild b => s!"{b} must implement build()"
  | .noAirframe b => s!"{b} has no device registry"
  | .noQueryFunction b => s!"{b} has no query function to build"
  | .noBridge b => s!"{b} has no query bridge"
  | .openCondition c => s!"Condition {c.toText} is already open in an enclosing block"
  | .secondQuery fn => s!"Stream already holds a query, cannot add {fn.toText}"
  | .splicedQuery b => s!"{b} would add a second query to the stream"
  | .notOneQuery n => s!"Query stream must hold exactly one query, found {n}"
  | .queryInFlight => "Another query is awaiting its response"
  | .noOptions x => s!"num_options must be positive, got {x.toText}"
  | .raised .key s => Text.quote s
  | .raised _ s => s

/-! ## Kinds -/

/-- The kind of a raised fault that reports a lost connection. -/
def isTransportKind : RaisedKind → Bool
  | .transport | .connectionRefused | .brokenPipe | .timedOut => true
  | _ => false

/-- Whether a fault says that the system or the connection failed. -/
def isTransport : Fault → Bool
  | .file c _ => c.isSystem
  | .raised k _ => isTransportKind k
  | _ => false

/-- Whether a fault belongs to authoring a catalog, a stream or a query. -/
def isAuthoring : Fault → Bool
  | .unknownAction _ _ | .unknownDevice _ _ | .duplicateAction _ _ | .duplicateDevice _ _
  | .deviceSealed _ | .openCondition _ | .secondQuery _ | .splicedQuery _ | .notOneQuery _
  | .queryInFlight => true
  | .raised k _ => match k with
    | .uplink | .duplicateAction | .duplicateDevice | .deviceSealed | .blockNesting
    | .ask | .queryInFlight => true
    | _ => false
  | _ => false

/-- Whether a fault says that a table lacks a key. -/
def isMissing : Fault → Bool
  | .missingKey _ | .unknownAction _ _ | .unknownDevice _ _ | .raised .key _ => true
  | _ => false

/-- Whether a fault says that a value of the right type has a wrong form. -/
def isForm : Fault → Bool
  | .nanToWhole | .notWhole _ | .notReal _ | .numeralTooLong _ | .entryLength _ _ | .notUtf8 _
  | .duplicateAction _ _ | .duplicateDevice _ _ | .noAirframe _ | .noQueryFunction _
  | .noBridge _ | .openCondition _ | .secondQuery _ | .splicedQuery _ | .notOneQuery _
  | .noOptions _ => true
  | .file c _ => !c.isSystem
  | .raised k _ => match k with
    | .duplicateAction | .duplicateDevice | .blockNesting | .ask | .value => true
    | _ => false
  | _ => false

/-- Whether a fault says that a value cannot be converted. -/
def isConversion : Fault → Bool
  | .mismatch _ => true
  | f => f.isForm

end Fault

/-- The fault of a value that has the wrong type for an operation. -/
abbrev Fault.wrongType : Fault := .mismatch .other

end Cockpit
