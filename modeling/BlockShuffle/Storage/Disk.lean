import BlockShuffle.Storage.Contents
import BlockShuffle.Storage.Program
import BlockShuffle.Storage.SortedList

/-!
# Storage on a disk

A directory tree as an operating system keeps it: directories are there whether or not anything is
in them, a file is something apart from its name, and a handle holds on to the file. Deleting a file
or giving its name to another leaves it readable and appendable through the handles that are open.

Appenders buffer 8192 bytes. A write that does not fit behind what is buffered sends the buffer
first, a write of 8192 bytes or more is never buffered, and letting go of an appender sends what is
left. Bytes that are still buffered are in nobody's file: a reader does not see them.

Paths are looked up step by step, relative ones from one working directory: every step but the last
has to be a directory that exists. What a call does with the last step is its own affair: reading
follows it, making a file or a directory and moving one need a name there, and deleting looks it up
again after everything below is gone. The failures are the operating system's, with its texts.

What is left out is everything that only an administrator or another process would notice: owners
and permissions, space that runs out, devices and pipes, hard links, times. Symbolic links are left
out as well, and there it matters what one calls the same file. On a system with links, opening and
probing a path follow them, and a listing goes by what the entry itself is and does not show a link
to a file; the same path is then a file to one call and none to another. A node here is a directory
or a regular file, under one name, so the two agree, and no statement about a disk speaks of a tree
with links in it.

A call is done at once and cannot be seen halfway. Durability is not modelled: pushing sends what is
buffered, and there is no crash that could take back what was sent. Failures are those which the
state of the tree causes; others are put in front of it from outside, as for memory.
-/

set_option autoImplicit false

namespace BlockShuffle

open Storage

/-! ## The operating system's failures -/

/-- Why a call is refused, by the operating system or on the way to it. -/
inductive OsFault where
  | noEntry
  | busy
  | fileExists
  | notDirectory
  | isDirectory
  | invalidArgument
  | fileTooLarge
  | nameTooLong
  | notEmpty
  /-- A path with a NUL in it, which is where the operating system would stop reading it. -/
  | nulInPath
deriving DecidableEq, Repr

namespace OsFault

/-- The kind a failure counts as. -/
def kind : OsFault → IoKind
  | .noEntry => .notFound
  | .busy => .resourceBusy
  | .fileExists => .alreadyExists
  | .notDirectory => .notADirectory
  | .isDirectory => .isADirectory
  | .invalidArgument => .invalidInput
  | .fileTooLarge => .fileTooLarge
  | .nameTooLong => .invalidFilename
  | .notEmpty => .directoryNotEmpty
  | .nulInPath => .invalidInput

/-- The words for a failure: the operating system's, with its number, where it is one of its own. -/
def message : OsFault → String
  | .noEntry => "No such file or directory (os error 2)"
  | .busy => "Device or resource busy (os error 16)"
  | .fileExists => "File exists (os error 17)"
  | .notDirectory => "Not a directory (os error 20)"
  | .isDirectory => "Is a directory (os error 21)"
  | .invalidArgument => "Invalid argument (os error 22)"
  | .fileTooLarge => "File too large (os error 27)"
  | .nameTooLong => "File name too long (os error 36)"
  | .notEmpty => "Directory not empty (os error 39)"
  | .nulInPath => "file name contained an unexpected NUL byte"

/-- The failure as storage reports it. -/
def toIoError (fault : OsFault) : IoError := ⟨fault.kind, fault.message⟩

end OsFault

/-! ## The tree -/

/-- A file, or a directory: the number of the directory that it is in, the numbers of what is in it, by name,
and the length that it reads as. -/
inductive DiskNode where
  | directory (above : Nat) (entries : List (List Char × Nat)) (length : Nat)
  | file (contents : Contents)

/-- What a directory's own length reads as, until it is deleted. -/
def directoryLength : Nat := 4096

/-- A directory tree and what was ever made in it. -/
structure Disk where
  /-- Files and directories by number: the top, the working directory, and what was made. A directory lists
  its entries by name. What lost its name stays. -/
  nodes : Array DiskNode := #[
    .directory 0 [([], 1)] directoryLength,
    .directory 0 [] directoryLength]

namespace Disk

/-- The number of the top directory, which is in itself. -/
def top : Nat := 0

/-- The number of the working directory. Its name is one that no path can spell, so nothing but a relative
path leads there. -/
def home : Nat := 1

/-- Put something else in place of what has a number. -/
def change (disk : Disk) (number : Nat) (node : DiskNode) : Disk :=
  ⟨disk.nodes.setIfInBounds number node⟩

/-- What is in a directory; nothing is in a file. -/
def entries (disk : Disk) (directory : Nat) : List (List Char × Nat) :=
  match disk.nodes[directory]? with
  | some (.directory _ entries _) => entries
  | _ => []

/-- Change what a directory lists. -/
def changeEntries (disk : Disk) (directory : Nat)
    (f : List (List Char × Nat) → List (List Char × Nat)) : Disk :=
  match disk.nodes[directory]? with
  | some (.directory above entries length) =>
    disk.change directory (.directory above (f entries) length)
  | _ => disk

/-- Name something in a directory, in place of what had the name. -/
def link (disk : Disk) (directory : Nat) (name : List Char) (number : Nat) : Disk :=
  disk.changeEntries directory (SortedList.insert compare name number)

/-- Take a name out of a directory. -/
def unlink (disk : Disk) (directory : Nat) (name : List Char) : Disk :=
  disk.changeEntries directory fun entries => entries.filter fun entry => entry.1 != name

/-- Make something under a name in a directory. -/
def make (disk : Disk) (directory : Nat) (name : List Char) (node : DiskNode) : Disk :=
  let number := disk.nodes.size
  link ⟨disk.nodes.push node⟩ directory name number

/-- Put a directory into another. One that loses its name is put into itself. -/
def settle (disk : Disk) (directory above : Nat) : Disk :=
  match disk.nodes[directory]? with
  | some (.directory _ entries length) =>
    disk.change directory (.directory above entries length)
  | _ => disk

/-- Whether a directory is `outer` or below it, as far as `steps` upwards tell. -/
def reaches (disk : Disk) (outer : Nat) : (steps inner : Nat) → Bool
  | 0, inner => inner == outer
  | steps + 1, inner =>
    inner == outer ||
      match disk.nodes[inner]? with
      | some (.directory above _ _) => above != inner && disk.reaches outer steps above
      | _ => false

/-- Whether a directory is `outer` or below it. -/
def isBelow (disk : Disk) (inner outer : Nat) : Bool := disk.reaches outer disk.nodes.size inner

/-- A directory that was deleted: it is in itself, holds nothing and has no length. -/
def deleted (number : Nat) : DiskNode := .directory number [] 0

/-- Delete everything below a directory. Files keep their contents. -/
def empty (disk : Disk) (outer : Nat) : Disk :=
  let nodes := disk.nodes.mapIdx fun number node =>
    match node with
    | .file _ => node
    | .directory _ _ _ =>
      if number != outer && disk.isBelow number outer then deleted number else node
  changeEntries ⟨nodes⟩ outer fun _ => []

/-! ## Looking paths up -/

/-- Longest path, in bytes. -/
def maxPathBytes : Nat := 4095

/-- Longest name of a directory entry, in bytes. -/
def maxNameBytes : Nat := 255

/-- The pieces of a path that can be looked up at all. The empty path leads nowhere. -/
def accepted (path : Path) : Except OsFault (List (List Char)) :=
  if path.chars.contains '\x00' then .error .nulInPath
  else if path.chars.isEmpty then .error .noEntry
  else if maxPathBytes < path.text.utf8ByteSize then .error .nameTooLong
  else .ok (Path.pieces path.chars)

/-- Where looking a path up starts. -/
def start (path : Path) : Nat := if path.isAbsolute then top else home

/-- What a name stands for in a directory, if anything. -/
def find (disk : Disk) (directory : Nat) (name : List Char) : Except OsFault (Option Nat) :=
  if maxNameBytes < (String.ofList name).utf8ByteSize then .error .nameTooLong
  else .ok ((disk.entries directory).lookup name)

/-- Follow pieces of a path down. Every step is taken from a directory. -/
def walk (disk : Disk) : (here : Nat) → List (List Char) → Except OsFault Nat
  | here, [] => .ok here
  | here, piece :: rest =>
    match disk.nodes[here]? with
    | none => .error .noEntry
    | some (.file _) => .error .notDirectory
    | some (.directory above _ _) =>
      match Component.ofPiece? piece with
      | some .parent => disk.walk above rest
      | some (.name name) =>
        match disk.find here name with
        | .error fault => .error fault
        | .ok none => .error .noEntry
        | .ok (some number) => disk.walk number rest
      | _ => disk.walk here rest

/-- The number of what a path leads to, and what it is. -/
def lookup (disk : Disk) (path : Path) : Except OsFault (Nat × DiskNode) := do
  let number ← disk.walk (start path) (← accepted path)
  match disk.nodes[number]? with
  | none => .error .noEntry
  | some node => .ok (number, node)

/-- A path all but whose last step has been looked up. -/
structure LastStep where
  /-- The directory that the step is taken from. -/
  directory : Nat
  step : Option Component
  /-- Whether a separator follows the step. -/
  slashed : Bool

/-- Look up a path without its last step. An empty piece behind the steps asks for a directory. -/
def approach (disk : Disk) (path : Path) : Except OsFault LastStep := do
  let pieces ← accepted path
  match pieces.reverse.dropWhile List.isEmpty with
  | [] => .ok ⟨top, none, true⟩
  | last :: before =>
    let directory ← disk.walk (start path) (before.reverse ++ [[]])
    .ok ⟨directory, Component.ofPiece? last, pieces.getLast? == some []⟩

/-! ## Making directories -/

/-- Make one directory in a directory that exists. -/
def makeDirectory (disk : Disk) (path : Path) : Except OsFault Disk := do
  let last ← disk.approach path
  match last.step with
  | some (.name name) =>
    match ← disk.find last.directory name with
    | some _ => .error .fileExists
    | none => .ok (disk.make last.directory name (.directory last.directory [] directoryLength))
  | _ => .error .fileExists

/-- Whether a path leads to a directory. -/
def isDirectory (disk : Disk) (path : Path) : Bool :=
  match disk.lookup path with
  | .ok (_, .directory _ _ _) => true
  | _ => false

/-- Make a directory and those above it that are missing, given with the ones it is in, nearest first. A
directory that is there already is as good as made. -/
def makeDirectories (disk : Disk) : List Path → Except OsFault Unit × Disk
  | [] => (.ok (), disk)
  | path :: above =>
    match disk.makeDirectory path with
    | .ok made => (.ok (), made)
    | .error .noEntry =>
      match disk.makeDirectories above with
      | (.error fault, disk) => (.error fault, disk)
      | (.ok (), disk) =>
        match disk.makeDirectory path with
        | .ok made => (.ok (), made)
        | .error fault => (if disk.isDirectory path then .ok () else .error fault, disk)
    | .error fault => (if disk.isDirectory path then .ok () else .error fault, disk)

/-- Make the directories that a path's file goes in. -/
def makeParents (disk : Disk) (path : Path) : Except OsFault Unit × Disk :=
  disk.makeDirectories path.ancestors

/-! ## Files -/

/-- The contents of the file of a number; nothing else has any. -/
def contents (disk : Disk) (number : Nat) : Contents :=
  match disk.nodes[number]? with
  | some (.file contents) => contents
  | _ => .empty

/-- Send bytes to the end of a file. -/
def write (disk : Disk) (number : Nat) (bytes : Bytes) : Except OsFault Disk :=
  match (disk.contents number).append? bytes with
  | none => .error .fileTooLarge
  | some contents => .ok (disk.change number (.file contents))

/-- The file a path names, made empty where it is missing. A path that leads to a directory names none,
and neither does one that a separator follows. -/
def openFile (disk : Disk) (path : Path) : Except OsFault (Nat × Disk) := do
  let last ← disk.approach path
  match last.step, last.slashed with
  | some (.name name), false =>
    match ← disk.find last.directory name with
    | none => .ok (disk.nodes.size, disk.make last.directory name (.file .empty))
    | some number =>
      match disk.nodes[number]? with
      | some (.file _) => .ok (number, disk)
      | _ => .error .isDirectory
  | _, _ => .error .isDirectory

/-- Store a file, making the directories it goes in; one that is there is overwritten in place. -/
def put (disk : Disk) (path : Path) (contents : Contents) : Except IoError Unit × Disk :=
  match disk.makeParents path with
  | (.error fault, disk) => (.error fault.toIoError, disk)
  | (.ok (), disk) =>
    match disk.openFile path with
    | .error fault => (.error fault.toIoError, disk)
    | .ok (number, disk) => (.ok (), disk.change number (.file contents))

/-- The contents of the file a path names. -/
def find? (disk : Disk) (path : Path) : Option Contents :=
  match disk.lookup path with
  | .ok (_, .file contents) => some contents
  | _ => none

/-! ## Appending -/

/-- Bytes an appender holds back at most. -/
def bufferSize : Nat := 8192

/-- Send what an appender holds back. -/
def flush (appender : Appender) (disk : Disk) : (Except IoError Unit × Appender) × Disk :=
  match appender.file with
  | none => ((.ok (), appender), disk)
  | some number =>
    if appender.unflushed.isEmpty then ((.ok (), appender), disk)
    else
      match disk.write number appender.unflushed with
      | .error fault => ((.error fault.toIoError, appender), disk)
      | .ok disk => ((.ok (), { appender with unflushed := [] }), disk)

/-- Take bytes into an appender whose buffer has room for them, or send them when they are at least a
whole buffer; its position does not move yet. -/
def accept (appender : Appender) (bytes : Bytes) (disk : Disk) :
    (Except IoError Unit × Appender) × Disk :=
  if bytes.length < bufferSize then
    ((.ok (), { appender with unflushed := appender.unflushed ++ bytes }), disk)
  else
    match disk.write (appender.file.getD 0) bytes with
    | .error fault => ((.error fault.toIoError, appender), disk)
    | .ok disk => ((.ok (), appender), disk)

/-- Append through the buffer. What does not fit sends the buffer first. -/
def append (appender : Appender) (bytes : Bytes) (disk : Disk) :
    (Except IoError Unit × Appender) × Disk :=
  if UInt64.size ≤ appender.position.toNat + bytes.length then
    ((.error OsFault.fileTooLarge.toIoError, appender), disk)
  else
    let moved := appender.position + UInt64.ofNat bytes.length
    let flushed :=
      if bufferSize < appender.unflushed.length + bytes.length then flush appender disk
      else ((.ok (), appender), disk)
    match flushed with
    | ((.error error, appender), disk) => ((.error error, appender), disk)
    | ((.ok (), appender), disk) =>
      match accept appender bytes disk with
      | ((.error error, appender), disk) => ((.error error, appender), disk)
      | ((.ok (), appender), disk) => ((.ok (), { appender with position := moved }), disk)

/-! ## Calls -/

/-- Open a file for appending, making it and its directories where they are missing. -/
def openAppend (path : Path) (disk : Disk) : Except IoError Appender × Disk :=
  match disk.makeParents path with
  | (.error fault, disk) => (.error fault.toIoError, disk)
  | (.ok (), disk) =>
    match disk.openFile path with
    | .error fault => (.error fault.toIoError, disk)
    | .ok (number, disk) =>
      (.ok { path, position := (disk.contents number).size, file := some number }, disk)

/-- Open something for reading. A directory opens too, and fails when it is read. -/
def openRead (path : Path) (disk : Disk) : Except IoError Reader :=
  match disk.lookup path with
  | .error fault => .error fault.toIoError
  | .ok (number, _) => .ok { path, file := some number }

/-- The files, not the directories, directly inside a directory. -/
def list (dir : Path) (disk : Disk) : Except IoError (List Path) :=
  match disk.lookup dir with
  | .error fault => .error fault.toIoError
  | .ok (_, .file _) => .error OsFault.notDirectory.toIoError
  | .ok (_, .directory _ entries _) =>
    .ok <| entries.filterMap fun (name, number) =>
      match disk.nodes[number]? with
      | some (.file _) => some (dir.join name)
      | _ => none

/-- Whether a path leads to something. Below a file nothing can be asked for. -/
def probe (path : Path) (disk : Disk) : Except IoError Bool :=
  match disk.lookup path with
  | .ok _ => .ok true
  | .error .noEntry => .ok false
  | .error fault => .error fault.toIoError

/-- Delete a file by its path. -/
def deleteFile (disk : Disk) (path : Path) : Except OsFault Disk := do
  let last ← disk.approach path
  match last.step with
  | some (.name name) => .ok (disk.unlink last.directory name)
  | _ => .error .isDirectory

/-- Delete a directory that has been emptied, by its path. That may lead through what was emptied; then
nothing is left to find, and nothing to delete. The names `.` and `..` cannot be taken away. -/
def deleteEmptied (disk : Disk) (path : Path) (number : Nat) : Except OsFault Disk :=
  match disk.approach path with
  | .error .noEntry => .ok disk
  | .error fault => .error fault
  | .ok last =>
    match last.step with
    | some (.name name) => .ok ((disk.unlink last.directory name).change number (deleted number))
    | some .parent => .error .notEmpty
    | _ => .error .invalidArgument

/-- Delete a file, or a directory and everything below it. -/
def delete (path : Path) (disk : Disk) : Except IoError Unit × Disk :=
  match disk.lookup path with
  | .error fault => (.error fault.toIoError, disk)
  | .ok (_, .file _) =>
    match disk.deleteFile path with
    | .error fault => (.error fault.toIoError, disk)
    | .ok disk => (.ok (), disk)
  | .ok (number, .directory _ _ _) =>
    let disk := disk.empty number
    match disk.deleteEmptied path number with
    | .error fault => (.error fault.toIoError, disk)
    | .ok disk => (.ok (), disk)

/-- What is in the way of moving something out of one directory and into another, where `replaced` has the
name it is to have. -/
def obstacle? (disk : Disk) (moved source target : Nat) (replaced : Option Nat) : Option OsFault :=
  if disk.isBelow target moved then some .invalidArgument
  else
    match replaced with
    | none => none
    | some replaced =>
      if disk.isBelow source replaced then some .notEmpty
      else
        match disk.nodes[moved]?, disk.nodes[replaced]? with
        | some (.directory _ _ _), some (.file _) => some .notDirectory
        | some (.file _), some (.directory _ _ _) => some .isDirectory
        | _, _ => if (disk.entries replaced).isEmpty then none else some .notEmpty

/-- Move what a path names to another path, into a directory that exists. Both paths are looked up as far
as their last steps before either step is looked at, and a source that is missing is noticed before
the target. Only a directory may be written with a separator behind it. -/
def moveNamed (disk : Disk) (source target : Path) : Except OsFault Disk := do
  let source ← disk.approach source
  let target ← disk.approach target
  match source.step, target.step with
  | some (.name sourceName), some (.name targetName) =>
    match ← disk.find source.directory sourceName with
    | none => .error .noEntry
    | some moved =>
      let replaced ← disk.find target.directory targetName
      if (source.slashed || target.slashed) && disk.nodes[moved]? matches some (.file _) then
        .error .notDirectory
      else if replaced == some moved then .ok disk
      else
        match disk.obstacle? moved source.directory target.directory replaced with
        | some fault => .error fault
        | none =>
          let detached := match replaced with
            | some replaced => disk.settle replaced replaced
            | none => disk
          .ok (((detached.unlink source.directory sourceName).link target.directory targetName
            moved).settle moved target.directory)
  | _, _ => .error .busy

/-- Give something another path, making the directories that it goes in. -/
def rename (source target : Path) (disk : Disk) : Except IoError Unit × Disk :=
  match disk.makeParents target with
  | (.error fault, disk) => (.error fault.toIoError, disk)
  | (.ok (), disk) =>
    if target.chars.contains '\x00' then (.error OsFault.nulInPath.toIoError, disk)
    else
      match disk.moveNamed source target with
      | .error fault => (.error fault.toIoError, disk)
      | .ok disk => (.ok (), disk)

/-- The length of what a reader holds on to. -/
def size (reader : Reader) (disk : Disk) : Nat :=
  match disk.nodes[reader.file.getD home]? with
  | some (.file contents) => contents.length
  | some (.directory _ _ length) => length
  | none => 0

/-- Bytes of the file a reader holds on to. A directory has a length, and no bytes to read. -/
def readAt (reader : Reader) (offset length : Nat) (disk : Disk) : Except IoError Bytes :=
  let pastEnd (size : Nat) : Except IoError Bytes :=
    .error ⟨.unexpectedEof,
      s!"read of {length} bytes at {offset} past end of file ({size} bytes)"⟩
  match disk.nodes[reader.file.getD home]? with
  | some (.file contents) =>
    match contents.slice? offset length with
    | some bytes => .ok bytes
    | none => pastEnd contents.length
  | some (.directory _ _ size) =>
    if size < offset + length then pastEnd size
    else if length = 0 then .ok []
    else .error OsFault.isDirectory.toIoError
  | none => pastEnd 0

/-- Storage on a disk. No time passes. -/
def handler : Handler Disk
  | .openAppend path, disk => openAppend path disk
  | .openRead path, disk => (openRead path disk, disk)
  | .list dir, disk => (list dir disk, disk)
  | .probe path, disk => (probe path disk, disk)
  | .delete path, disk => delete path disk
  | .rename source target, disk => rename source target disk
  | .append appender bytes, disk => append appender bytes disk
  | .flush appender, disk => flush appender disk
  | .sync appender, disk => flush appender disk
  | .size reader, disk => (.ok (size reader disk), disk)
  | .readAt reader offset length, disk => (readAt reader offset length disk, disk)
  | .release appender, disk => ((), (flush appender disk).2)
  | .pause _, disk => ((), disk)
  | .clock, disk => (0, disk)

end Disk

end BlockShuffle
