import BlockShuffle.Cli.Check
import BlockShuffle.Storage.Disk

/-!
# The command

The outermost layer: a command runs against the file system, its lines are printed and its exit code
is the process's. Commands only read, so the calls answered here are those that look something up; a
file is loaded when it is opened and is then read like a file of the disk model. All that a command
decides is in `BlockShuffle.Cli.run`.

This layer is not a subject of the theorems. They speak of programs over a `Handler`, and the file
system is not one: it is changed by others between two calls and answers with whatever the system
says. What it is held to is that each call does what the disk model does on a tree of directories
and regular files. Links are the system's own business here. Opening and probing follow them,
listing looks at what the entry itself is and leaves them out, so a file that is reached through a
link can be opened by its name and is not found by a listing; the model has no links, and nothing
proved of it speaks of such a tree. A file is loaded whole when it is opened, so a command sees it
as it was at that moment, and one that is longer than memory cannot be read.
-/

set_option autoImplicit false

namespace BlockShuffle.Cli

open Storage

/-- The failure that an error of the system is. -/
def ioError : IO.Error → IoError
  | .noFileOrDirectory _ _ _ => OsFault.noEntry.toIoError
  | .inappropriateType _ 20 _ => OsFault.notDirectory.toIoError
  | .inappropriateType _ _ _ => OsFault.isDirectory.toIoError
  | .invalidArgument _ 36 _ => OsFault.nameTooLong.toIoError
  | .permissionDenied _ _ _ => ⟨.permissionDenied, "Permission denied (os error 13)"⟩
  | error => ⟨.other, toString error⟩

/-- What an action of the system on a path comes to. A path that cannot be looked up at all does not
reach the system. -/
def attempt {α : Type} (path : Path) (action : IO α) : IO (Except IoError α) := do
  match Disk.accepted path with
  | .error fault => return .error fault.toIoError
  | .ok _ =>
    match ← action.toBaseIO with
    | .ok value => return .ok value
    | .error error => return .error (ioError error)

/-- Open a file and load it, or open a directory. -/
def openRead (path : Path) (disk : Disk) : IO (Reader × Disk) := do
  let location := (← IO.currentDir) / path.text
  match (← location.metadata).type with
  | .dir => return ({ path, file := some Disk.home }, disk)
  | _ =>
    let packed ← IO.FS.readBinFile location
    if h : packed.size < UInt64.size then
      return ({ path, file := some disk.nodes.size }, ⟨disk.nodes.push (.file ⟨⟨packed⟩, h⟩)⟩)
    else throw (IO.userError OsFault.fileTooLarge.message)

/-- The files directly inside a directory, sorted. -/
def list (dir : Path) : IO (List Path) := do
  let location := (← IO.currentDir) / dir.text
  let entries ← (← location.readDir).filterM fun entry => do
    return (← entry.path.symlinkMetadata).type == .file
  let names := entries.toList.map fun entry => entry.fileName.toList
  return (names.mergeSort fun a b => compare a b != .gt).map dir.join

/-- Make sure that something has this path. -/
def probe (path : Path) : IO Bool := do
  let location := (← IO.currentDir) / path.text
  let _ ← location.metadata
  return true

/-- Answer a call from the file system, or from the files that were loaded. -/
def respond : (call : Call) → Disk → IO (call.Answer × Disk)
  | .openRead path, disk => do
    match ← attempt path (openRead path disk) with
    | .ok (reader, disk) => return (.ok reader, disk)
    | .error error => return (.error error, disk)
  | .list dir, disk => do return (← attempt dir (list dir), disk)
  | .probe path, disk => do
    match ← attempt path (probe path) with
    | .error ⟨.notFound, _⟩ => return (.ok false, disk)
    | answer => return (answer, disk)
  | .pause microseconds, disk => do
    IO.sleep (UInt32.ofNat (microseconds / 1000))
    return ((), disk)
  | .clock, disk => do return (← IO.monoNanosNow, disk)
  | call, disk => return Disk.handler call disk

/-- Run a program against the file system. -/
def perform {α : Type} : Program α → Disk → IO α
  | .done value, _ => return value
  | .ask call next, disk => do
    let (answer, disk) ← respond call disk
    perform (next answer) disk

end BlockShuffle.Cli

/-- Run a command line. -/
def main (arguments : List String) : IO UInt32 := do
  let report ← BlockShuffle.Cli.perform (BlockShuffle.Cli.run arguments) {}
  for line in report.lines do
    IO.println line
  return report.exitCode
