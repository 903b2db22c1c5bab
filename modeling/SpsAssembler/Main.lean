import SpsAssembler.Command.Run
import Std.Time.Zoned

/-!
# The command line

The files that a run looks at are read into a store and the run is computed. Then its console and
its journal are written, and its changes to the store are carried out.
-/

namespace SpsAssembler

/-- What is at a path on disk. -/
def loadNode (path : String) : IO (Option Node) := do
  try
    return some (.file (← IO.FS.readBinFile path).data.toList)
  catch
    | .inappropriateType .. => return some .directory
    | _ => return none

/-- Reads what is at a path on disk, and the directories on its way, into a store. -/
def loadPath (store : FileStore) (path : Text) : IO FileStore := do
  (waysTo path).foldlM (fun store way => do
    let some name := String.fromUTF8? ⟨way.toArray⟩ | return store
    let some node ← loadNode name | return store
    return store.install way node) store

/-- Reads all that a run looks at into its store. The configuration file tells of more files, so
this takes two rounds. -/
def loadStore (w : Surroundings) : IO Surroundings := do
  let w := { w with store := ← w.reach.foldlM loadPath w.store }
  return { w with store := ← w.reach.foldlM loadPath w.store }

/-- The variables of the environment that have a meaning. -/
def loadEnvironment : IO Environment := do
  knownVariables.filterMapM fun name => do
    return (← IO.getEnv name).map fun value => (Text.ofString name, Text.ofString value)

/-- The time of day. -/
def loadStamp : IO Stamp := do
  let now ← Std.Time.PlainDateTime.now
  return {
    year := now.year.toInt.toNat, month := now.month.val.toNat, day := now.day.val.toNat,
    hour := now.hour.val.toNat, minute := now.minute.val.toNat }

/-- Carries out the changes from one store to another. -/
def saveStore (before after : FileStore) : IO Unit := do
  for (place, node) in after.entries do
    if before.node? place != some node then
      if let some name := String.fromUTF8? ⟨(Place.path place).toArray⟩ then
        if let .file content := node then
          IO.FS.writeBinFile name ⟨content.toArray⟩
  for (place, node) in before.entries do
    if (after.node? place).isNone then
      if let some name := String.fromUTF8? ⟨(Place.path place).toArray⟩ then
        match node with
        | .file _ => IO.FS.removeFile name
        | .directory => IO.FS.removeDir name

/-- Writes text as it is. -/
def writeText (stream : IO.FS.Stream) (t : Text) : IO Unit := do
  stream.write ⟨t.toArray⟩
  stream.flush

/-- Runs the command. The exit code is 1 after a failure and 2 after a fault. -/
def command (args : List String) : IO UInt32 := do
  let w ← loadStore
    { args := args.map Text.ofString, env := ← loadEnvironment, stamp := ← loadStamp }
  let stderr ← IO.getStderr
  match runCommand w with
  | .error _ =>
    writeText stderr (ascii "*** Error: internal fault\n")
    return 2
  | .ok s =>
    writeText (← IO.getStdout) s.console
    writeText stderr (s.trouble ++ s.journalText)
    saveStore w.store s.store
    match s.error with
    | none => return 0
    | some .assemblyFailed => return 1
    | some e =>
      writeText stderr (ascii "*** Error: " ++ e.message ++ ascii "\n")
      return 1

end SpsAssembler

/-- The command of the program. -/
def main (args : List String) : IO UInt32 := SpsAssembler.command args
