import Cockpit.Files.Tree
import Cockpit.Value.Convert

/-!
# Hosts

A host has a file tree and a journal, and handlers for the log records.  The
console handler shows them.  A file handler puts them at the end of a file.  It
does so when the files are next looked at, so logging by itself touches the
journal alone.  Log files are taken to stay below the size from which on they
would be put aside.

`Host.setHandlers` replaces all handlers.  A log file that cannot be opened
is reported and left out.
-/

namespace Cockpit

/-- Where log records go. -/
inductive Handler where
  | console (level : Log.Level)
  /-- A file with a size from which on it is put aside, how many are kept, and the
  number of records that were there before those it still has to write. -/
  | file (level : Log.Level) (path : String) (maxBytes backups : Value) (done : Nat)
  deriving DecidableEq

namespace Handler

/-- The files after a handler has written the records that it still had to. -/
def catchUp (rs : List Log.Record) (t : Files.Tree) : Handler → Files.Tree
  | .console _ => t
  | .file _ path _ _ done =>
    let text := String.join ((rs.drop done).map fun r => r.line ++ "\n")
    match t.append path (Text.Utf8.encode text) with
    | .ok t => t
    | .error _ => t

/-- A handler that has nothing to write up to a number of records. -/
def upTo (n : Nat) : Handler → Handler
  | .console l => .console l
  | .file l path maxBytes backups _ => .file l path maxBytes backups n

end Handler

/-- The files of a machine and its logs. -/
structure Host where
  files : Files.Tree
  handlers : List Handler := []
  journal : Log.Journal := {}

namespace Host

def journalPart : Op.Part Host Log.Journal where
  get h := h.journal
  set j h := { h with journal := j }

/-- Logs a text. -/
def say (source : Log.Source) (level : Log.Level) (text : String) : Op Host Unit :=
  (Log.say source level text).on journalPart

/-! ## Files -/

/-- The host with its log files brought up to date. -/
def flush (h : Host) : Host :=
  let rs := h.journal.records
  { h with
    files := h.handlers.foldl (fun t d => d.catchUp rs t) h.files
    handlers := h.handlers.map (·.upTo rs.length) }

/-- The files, with the log files up to date. -/
def lookAtFiles : Op Host Files.Tree := do
  .update flush
  return (← .state).files

/-- Changes the files. -/
def changeFiles (f : Files.Tree → Except Fault Files.Tree) : Op Host Unit := do
  let files ← f (← lookAtFiles)
  .update fun h => { h with files := files }

/-- The text of a file. -/
def readText (path : String) : Op Host String := do
  (← lookAtFiles).readText path

/-! ## Logging -/

/-- Factors that make a size in bytes out of one in megabytes. -/
def megabyte : List Int := [1024, 1024]

/-- The size of a log file in bytes. -/
def bytesOf (megabytes : Value) : Except Fault Value := do
  let size ← megabyte.foldlM (fun a n => a.mul (.int n)) (← megabytes.toScalar)
  return size.toValue

/-- Opens a log file and adds its handler. -/
def openLogFile (level : Log.Level) (path maxFiles maxMegabytes : Value) : Op Host Unit := do
  let p ← path.needText
  let directory := Files.parent p
  if directory ≠ "" then changeFiles (·.prepare directory)
  let maxBytes ← bytesOf maxMegabytes
  let full := (← .state).files.absolute p
  changeFiles (·.append full [])
  .update fun h =>
    let done := h.journal.records.length
    { h with handlers := h.handlers ++ [.file level full maxBytes maxFiles done] }
  say .root .info s!"Logging to file: {p}"

/-- Replaces all handlers by a console, and a file if one is asked for. -/
def setHandlers (level : Log.Level) (toFile path maxFiles maxMegabytes : Value) :
    Op Host Unit := do
  .update flush
  .update fun h =>
    { h with handlers := [.console level], journal := { h.journal with threshold := level } }
  if toFile.isSet && path.isSet then
    (openLogFile level path maxFiles maxMegabytes).recover Fault.isTransport fun f =>
      say .root .error s!"Error setting up file logging: {f.message}"
  say .root .info s!"Logging system initialized: level={level.name}"

end Host

end Cockpit
