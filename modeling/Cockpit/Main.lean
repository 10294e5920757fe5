import Cockpit.Settings.Report

/-!
# Command line

Loads the settings of the user, creating their file if it is missing, and prints
a report on them.  Warnings and errors on the way go to standard error.
-/

namespace Cockpit.CommandLine

/-- The host of a user, with the settings file if there is one. -/
def readHost (home : String) : IO Host := do
  let path := Config.defaultPath home
  let tree : Files.Tree := { root := home }
  try
    let bytes := (← IO.FS.readBinFile path).toList
    match (tree.prepare (Files.parent path)).bind (·.write path bytes) with
    | .ok files => return { files }
    | .error _ => return { files := tree }
  catch _ => return { files := tree }

/-- Stores the settings file of a host. -/
def storeHost (home : String) (h : Host) : IO Unit := do
  let path := Config.defaultPath home
  match h.files.read path with
  | .ok bytes => do
    IO.FS.createDirAll (Files.parent path)
    IO.FS.writeBinFile path (ByteArray.mk bytes.toArray)
  | .error _ => pure ()

/-- Whether a record goes to standard error. -/
def isLoud (r : Log.Record) : Bool := Log.Level.warning.weight ≤ r.level.weight

/-- Prints the report.  Gives the exit code. -/
def run : IO UInt32 := do
  let home := (← IO.getEnv "HOME").getD ""
  let (outcome, c) := Config.loadAndReport.run (Config.start (← readHost home) .null)
  storeHost home c.host
  for r in c.host.journal.records.filter isLoud do
    IO.eprintln r.text
  match outcome with
  | .ok text => do
    IO.print text
    return 0
  | .error f => do
    IO.eprintln f.message
    return 1

end Cockpit.CommandLine

def main : IO UInt32 := Cockpit.CommandLine.run
