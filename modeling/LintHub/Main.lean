import LintHub.CommandLine.Running
import LintHub.Disk.Changes
import LintHub.Script.Running
import Std.Time.DateTime.Timestamp

/-!
# The program

`main` copies what a request can reach into a `Disk`, does what is asked for there, and carries the changes out. The
editor's calls are taken one at a time, each on a fresh copy.
-/

namespace LintHub.Main

def locationOf (path : String) : Location := (Disk.segmentsOf path).filter fun s => !Disk.isIdle s

/-- The disk with a node at a path, and the directories above it. -/
def withNode (d : Disk) (path : String) (n : Node) : Disk :=
  let loc := locationOf path
  let d := (List.range loc.length).foldl (fun d i =>
    if (d.node? (loc.take i)).isSome then d else d.put (loc.take i) .dir) d
  if loc.isEmpty then d else d.put loc n

/-- Copies what stands at a path; `depth` bounds how deep directories are entered. -/
partial def copy (depth : Nat) (d : Disk) (path : String) : IO Disk := do
  try
    let real ← IO.FS.realPath path
    let d := if real.toString = path then d else withNode d path (.link real.toString)
    if ← real.isDir then
      let d := withNode d real.toString .dir
      if depth = 0 then return d
      let mut all := d
      for entry in ← real.readDir do
        unless skippedDirs.contains entry.fileName do
          all ← copy (depth - 1) all entry.path.toString
      return all
    else
      return withNode d real.toString (.file (← IO.FS.readBinFile real) true)
  catch _ => return d

/-- A path seen from a directory, as text. -/
def under (dir : Path) (path : String) : String := (dir.join ⟨path⟩).text

/-- The programs that tools may be, and the settings files that may hold for a directory. -/
def candidates (w : Surroundings) (root : Path) : List Path :=
  (Tool.all.flatMap fun t => (w.locator.searchDirs t).map fun dir => dir.child t.id) ++
    root.ancestors.flatMap fun dir => Settings.fileNames.map dir.child

/-- A copy of all that a request in a project can reach, with more paths that it names. -/
def copyFor (w : Surroundings) (here root : Path) (more : List String) : IO Disk := do
  let mut d := { Script.systemDisk with here := locationOf here.text }
  d ← copy 32 d here.text
  d ← copy 32 d root.text
  for p in candidates w root do d ← copy 0 d p.text
  for p in more do d ← copy 1 d (under here p)
  return d

def carryOut (changes : List Change) : IO Unit := do
  for change in changes do
    match change with
    | .remove file => IO.FS.removeFile file.text
    | .makeDir dir => IO.FS.createDirAll dir.text
    | .write file bytes => IO.FS.writeBinFile file.text bytes

def surroundings : IO Surroundings := do
  let names := ["PATH", "HOME", "VIRTUAL_ENV"]
  let values ← names.mapM fun name => do return (← IO.getEnv name).map fun v => (name, v)
  let environment := values.filterMap id
  let seconds ← Std.Time.Timestamp.now
  return { host := Script.host environment
           locator := .ofEnvironment (environment.lookup "PATH") (environment.lookup "HOME")
             (environment.lookup "VIRTUAL_ENV")
           now := UInt64.ofNat seconds.toSecondsSinceUnixEpoch.val.toNat }

/-- The bytes of the next frame on a stream; nothing at its end. -/
partial def nextFrame (input : IO.FS.Stream) (before : String) : IO (Option ByteArray) := do
  let line ← input.getLine
  if line.isEmpty then return none
  let headers := before ++ line
  if line != "\r\n" then nextFrame input headers
  else match (Text.lines headers.toList).findSome? Frame.lengthIn? with
  | none => return none
  | some length =>
    let rec rest (bytes : ByteArray) : IO ByteArray := do
      if length ≤ bytes.size then return bytes
      let more ← input.read (USize.ofNat (length - bytes.size))
      if more.isEmpty then return bytes else rest (bytes ++ more)
    return some (← rest ByteArray.empty)

/-- Takes an editor's calls until it ends the conversation. -/
partial def serve (w : Surroundings) (here : Path) (server : Server) : IO Unit := do
  let some frame ← nextFrame (← IO.getStdin) "" | return
  let documents := server.session.documents.filterMap fun p => p.1.filePath?.map Path.text
  let d ← copyFor w here (server.session.root.getD here) documents
  let ((sent, more), server, after) := server.takeFrame w d frame.toList
  carryOut (d.changes after)
  let stdout ← IO.getStdout
  for j in sent do stdout.putStr (Frame.render j)
  stdout.flush
  if more then serve w here server

/-- Does what the arguments ask for, and answers the exit code. -/
def run (args : List String) : IO UInt32 := do
  let w ← surroundings
  let here : Path := ⟨(← IO.currentDir).toString⟩
  match CommandLine.Request.ofArgs args with
  | .ok { job := .serve, .. } =>
    serve w here .new
    return 0
  | request =>
    let root := (request.toOption.bind CommandLine.Request.root).map fun p => here.join ⟨p⟩
    let more := (request.toOption.bind CommandLine.Request.settings).toList ++ args
    let d ← copyFor w here (root.getD here) more
    let stdin ← match request with
      | .ok { job := .parse .., .. } => (← IO.getStdin).readBinToEnd
      | _ => pure ByteArray.empty
    let (exit, after) := CommandLine.run w args stdin d
    carryOut (d.changes after)
    IO.print exit.stdout
    return UInt32.ofNat exit.code

end LintHub.Main

/-- Does what the arguments ask for. -/
def main (args : List String) : IO UInt32 := LintHub.Main.run args
