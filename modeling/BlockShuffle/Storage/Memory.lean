import BlockShuffle.Storage.Contents
import BlockShuffle.Storage.Program
import BlockShuffle.Storage.SortedList

/-!
# Storage in memory

Files are kept in a sorted list by path. Directories are implied: a directory exists while something
lives below it, so a path may name a file and a directory at once. A file is looked up by what its
path names and is listed in the spelling it was first stored under.

Appenders and readers hold on to the path and not to a file: a file that was deleted is not there
for them either, and one that was replaced is read in its new form.

Every call is a function that is defined by itself and is put into the handler at the end, so lemmas
about a call do not mention the others. Nothing is buffered: an append that succeeds is visible to
the next call of anybody, flushing does nothing, and letting go of an appender does nothing either.
Deleting takes all that lives at a path or below, renaming replaces what the target held, and
neither asks who has it open.

There are no permissions, no full disks and no failing calls other than for what is not there, a
read past the end and a file that would be too long. Failures at will are put in front of a memory
from outside (`Storage/Faults`).
-/

set_option autoImplicit false

namespace BlockShuffle

/-- Files in memory, in the order of their paths. -/
structure Memory where
  files : List (Path × Contents) := []

namespace Memory

open Storage

/-! ## Files -/

/-- The file of a path. -/
def find? (memory : Memory) (path : Path) : Option Contents :=
  (memory.files.find? fun entry => entry.1.sameAs path).map (·.2)

/-- Store a file, in place of what the path held. -/
def insert (memory : Memory) (path : Path) (contents : Contents) : Memory :=
  ⟨SortedList.insert Path.order path contents memory.files⟩

/-- Whether anything lives at a path or below it. -/
def contains (memory : Memory) (path : Path) : Bool :=
  memory.files.any fun entry => entry.1.isWithin path

/-! ## Calls -/

/-- The failure of a call on a path that holds nothing. -/
def notFound (path : Path) : IoError := ⟨.notFound, s!"{path.text} does not exist"⟩

/-- The failure of a read past the end of a file. -/
def pastEnd (path : Path) (offset length size : Nat) : IoError :=
  ⟨.unexpectedEof,
    s!"read of {length} bytes at {offset} past end of {path.text} ({size} bytes)"⟩

/-- The failure of an append that no offset could reach the end of. -/
def tooLarge (path : Path) : IoError :=
  ⟨.fileTooLarge, s!"{path.text} would be longer than any offset"⟩

/-- Open a file for appending, creating it where it is missing. -/
def openAppend (path : Path) (memory : Memory) : Appender × Memory :=
  match memory.find? path with
  | some contents => ({ path, position := contents.size }, memory)
  | none => ({ path, position := 0 }, memory.insert path .empty)

/-- Append to the file that the appender's path names now. -/
def append (appender : Appender) (bytes : Bytes) (memory : Memory) :
    (Except IoError Unit × Appender) × Memory :=
  match memory.find? appender.path with
  | none => ((.error (notFound appender.path), appender), memory)
  | some contents =>
    match contents.append? bytes with
    | none => ((.error (tooLarge appender.path), appender), memory)
    | some longer =>
      ((.ok (), { appender with position := longer.size }), memory.insert appender.path longer)

/-- The files directly inside a directory. -/
def list (dir : Path) (memory : Memory) : Except IoError (List Path) :=
  if memory.contains dir then
    .ok ((memory.files.filter fun entry => entry.1.isDirectlyIn dir).map (·.1))
  else .error (notFound dir)

/-- Delete whatever lives at a path or below it. -/
def delete (path : Path) (memory : Memory) : Except IoError Unit × Memory :=
  if memory.contains path then
    (.ok (), ⟨memory.files.filter fun entry => !entry.1.isWithin path⟩)
  else (.error (notFound path), memory)

/-- Give one file another path, in place of what that held. -/
def rename (source target : Path) (memory : Memory) : Except IoError Unit × Memory :=
  match memory.find? source with
  | none => (.error (notFound source), memory)
  | some contents =>
    let others : Memory := ⟨memory.files.filter fun entry => !entry.1.sameAs source⟩
    (.ok (), others.insert target contents)

/-- The length of the file that the reader's path names now. -/
def size (reader : Reader) (memory : Memory) : Except IoError Nat :=
  match memory.find? reader.path with
  | none => .error (notFound reader.path)
  | some contents => .ok contents.length

/-- Bytes of the file that the reader's path names now. -/
def readAt (reader : Reader) (offset length : Nat) (memory : Memory) : Except IoError Bytes :=
  match memory.find? reader.path with
  | none => .error (notFound reader.path)
  | some contents =>
    match contents.slice? offset length with
    | some bytes => .ok bytes
    | none => .error (pastEnd reader.path offset length contents.length)

/-- Storage in memory. Nothing is buffered, and no time passes. -/
def handler : Handler Memory
  | .openAppend path, memory =>
    let (appender, memory) := openAppend path memory
    (.ok appender, memory)
  | .openRead path, memory =>
    ((match memory.find? path with
      | some _ => .ok { path }
      | none => .error (notFound path)), memory)
  | .list dir, memory => (list dir memory, memory)
  | .probe path, memory => (.ok (memory.contains path), memory)
  | .delete path, memory => delete path memory
  | .rename source target, memory => rename source target memory
  | .append appender bytes, memory => append appender bytes memory
  | .flush appender, memory => ((.ok (), appender), memory)
  | .sync appender, memory => ((.ok (), appender), memory)
  | .size reader, memory => (size reader memory, memory)
  | .readAt reader offset length, memory => (readAt reader offset length memory, memory)
  | .release _, memory => ((), memory)
  | .pause _, memory => ((), memory)
  | .clock, memory => (0, memory)

end Memory

end BlockShuffle
