import PropertyMetadata.Command.Run
import PropertyMetadata.Snapshot

/-! The program. Its files and their syntax trees come as a snapshot on standard input, where a
command needs them; what it writes goes to the disk. -/

open PropertyMetadata

def lineText : Command.Line → String
  | .text s => s
  | .failure cause => cause.message

/-- The snapshot on standard input; what is no JSON is an empty one. -/
def snapshot (words : List String) : IO Json := do
  if Command.readsFiles words then
    let text ← (← IO.getStdin).readToEnd
    match Json.parse text with
    | .ok x => return x
    | .error _ => return .object []
  else return .object []

/-- Writes a file of a disk, with the directories that it lies in. -/
def keep (d : Disk) (path : String) : IO Unit := do
  match d.read path with
  | .ok bytes =>
    let parents := Disk.absolute (Path.walk (d.origin path) (Disk.steps path)).dropLast
    IO.FS.createDirAll parents
    IO.FS.writeBinFile path ⟨bytes.toArray⟩
  | .error _ => return ()

def main (words : List String) : IO UInt32 := do
  let home := Path.walk [] (Disk.steps ((← IO.getEnv "PWD").getD "/"))
  let x ← snapshot words
  let d := Snapshot.disk home x
  let depth ← IO.getEnv Command.depthVariable
  let o := Command.run ⟨d, Snapshot.parser d x, depth⟩ words
  for line in o.output do IO.println (lineText line)
  for line in o.complaints do IO.eprintln line
  if let some path := o.stored then keep o.disk path
  return UInt32.ofNat o.status
