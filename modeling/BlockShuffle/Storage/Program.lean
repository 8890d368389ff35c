import BlockShuffle.Path
import BlockShuffle.Bytes
import BlockShuffle.Storage.Failure

/-!
# Programs over storage

Writers and readers do not run against a storage; they *are* trees of storage calls, and a storage
is a way to answer one call. A tree can be run against memory, against a disk, against either with
failures injected, or against nothing in particular: "whatever the storage answers" is a quantifier
over handlers, and "interleaved call by call" is a walk that takes one node of one tree at a time.
Nothing of that needs the writers and readers to be written twice.

Handles are values. An appender knows the position it has reached and, on a storage that buffers,
what it has not handed over yet, so every call on an appender answers the appender to go on with.

A program cannot do anything but make calls and compute, so what it does is what its tree says:
there is no state that is shared behind the calls, and a statement about all handlers is one about
all storages. The tree branches over every answer a call could have, also over answers no storage
gives. Where a proof needs that a handle is one of the file asked for, or that a file does not
shrink, it is assumed of the handler, by name.

Time is two calls. `pause` says how long to wait and `clock` is read, and a storage answers them as
it likes, so no proof depends on how long anything takes. Programs are finite: a loop is a recursion
on something that gets less, and a call that never comes back is not described.
-/

set_option autoImplicit false

namespace BlockShuffle.Storage

/-! ## Calls and answers -/

/-- A file open for appending. -/
structure Appender where
  path : Path
  /-- The file's length including everything appended through this handle. -/
  position : UInt64
  /-- The file held on to, on a storage that tells a file from its name. -/
  file : Option Nat := none
  /-- Bytes accepted but not handed over yet, on a storage that buffers. -/
  unflushed : Bytes := []
deriving DecidableEq, Repr

/-- A file open for ranged reads. -/
structure Reader where
  path : Path
  /-- The file, or the directory, held on to, on a storage that tells what it keeps from its name. -/
  file : Option Nat := none
deriving DecidableEq, Repr

/-- One storage call. -/
inductive Call where
  /-- Open a file for appending, creating it and its directories where they are missing. -/
  | openAppend (path : Path)
  /-- Open an existing file for ranged reads. -/
  | openRead (path : Path)
  /-- The files directly inside a directory, sorted. -/
  | list (dir : Path)
  /-- Whether anything has this path. -/
  | probe (path : Path)
  /-- Delete a file, or a directory and everything below it. -/
  | delete (path : Path)
  | rename (source target : Path)
  | append (appender : Appender) (bytes : Bytes)
  /-- Hand buffered bytes over to the storage. -/
  | flush (appender : Appender)
  /-- Flush, and wait until the bytes are durable. -/
  | sync (appender : Appender)
  /-- How long the file is. -/
  | size (reader : Reader)
  /-- Exactly `length` bytes from `offset`; a short file is a failure. -/
  | readAt (reader : Reader) (offset length : Nat)
  /-- Let go of an appender, which hands over what it still buffers. It cannot fail. -/
  | release (appender : Appender)
  /-- Wait before a retry. It cannot fail. -/
  | pause (microseconds : Nat)
  /-- The time, in nanoseconds from some fixed moment. It cannot fail. -/
  | clock
deriving DecidableEq, Repr

/-- What a call is answered with. -/
@[reducible]
def Call.Answer : Call → Type
  | .openAppend _ => Except IoError Appender
  | .openRead _ => Except IoError Reader
  | .list _ => Except IoError (List Path)
  | .probe _ => Except IoError Bool
  | .delete _ => Except IoError Unit
  | .rename _ _ => Except IoError Unit
  | .append _ _ => Except IoError Unit × Appender
  | .flush _ => Except IoError Unit × Appender
  | .sync _ => Except IoError Unit × Appender
  | .size _ => Except IoError Nat
  | .readAt _ _ _ => Except IoError Bytes
  | .release _ => Unit
  | .pause _ => Unit
  | .clock => Nat

/-! ## Programs -/

/-- A tree of storage calls that ends in a value. -/
inductive Program (α : Type) where
  | done (value : α)
  | ask (call : Call) (next : call.Answer → Program α)

namespace Program

variable {α β σ : Type}

/-- Go on with another program where this one ends. -/
def bind (next : α → Program β) : Program α → Program β
  | .done value => next value
  | .ask call rest => .ask call fun answer => (rest answer).bind next

instance : Monad Program where
  pure := .done
  bind program next := program.bind next

/-- The program that makes one call and ends with its answer. -/
def call (call : Call) : Program call.Answer := .ask call .done

def openAppend (path : Path) : Program (Except IoError Appender) := call (.openAppend path)

def openRead (path : Path) : Program (Except IoError Reader) := call (.openRead path)

def list (dir : Path) : Program (Except IoError (List Path)) := call (.list dir)

def probe (path : Path) : Program (Except IoError Bool) := call (.probe path)

def delete (path : Path) : Program (Except IoError Unit) := call (.delete path)

def rename (source target : Path) : Program (Except IoError Unit) := call (.rename source target)

def append (appender : Appender) (bytes : Bytes) : Program (Except IoError Unit × Appender) :=
  call (.append appender bytes)

def flush (appender : Appender) : Program (Except IoError Unit × Appender) := call (.flush appender)

def sync (appender : Appender) : Program (Except IoError Unit × Appender) := call (.sync appender)

def size (reader : Reader) : Program (Except IoError Nat) := call (.size reader)

def readAt (reader : Reader) (offset length : Nat) : Program (Except IoError Bytes) :=
  call (.readAt reader offset length)

def release (appender : Appender) : Program Unit := call (.release appender)

def pause (microseconds : Nat) : Program Unit := call (.pause microseconds)

def clock : Program Nat := call .clock

end Program

/-- A storage: a way to answer one call. -/
abbrev Handler (σ : Type) := (call : Call) → σ → call.Answer × σ

/-- Run a program against a storage. -/
def Program.run {α σ : Type} (handler : Handler σ) : Program α → σ → α × σ
  | .done value, state => (value, state)
  | .ask call next, state =>
    let (answer, state) := handler call state
    (next answer).run handler state

namespace Program

variable {α β σ : Type}

@[simp] theorem pure_eq_done (value : α) : (pure value : Program α) = .done value := rfl

@[simp] theorem done_bind (value : α) (next : α → Program β) :
    (Program.done value >>= next) = next value := rfl

@[simp] theorem ask_bind (call : Call) (rest : call.Answer → Program α) (next : α → Program β) :
    (Program.ask call rest >>= next) = .ask call fun answer => rest answer >>= next := rfl

theorem id_map_program (program : Program α) : id <$> program = program := by
  induction program with
  | done value => rfl
  | ask call rest ih => exact congrArg (Program.ask call) (funext ih)

theorem bind_assoc_program {γ : Type} (program : Program α) (next : α → Program β)
    (last : β → Program γ) :
    program >>= next >>= last = program >>= fun value => next value >>= last := by
  induction program with
  | done value => rfl
  | ask call rest ih => exact congrArg (Program.ask call) (funext ih)

instance : LawfulMonad Program :=
  LawfulMonad.mk' Program id_map_program (fun _ _ => rfl) bind_assoc_program

@[simp] theorem run_done (handler : Handler σ) (value : α) (state : σ) :
    (Program.done value).run handler state = (value, state) := rfl

/-- Running one program after another hands the storage on from the first to the second. -/
theorem run_bind (handler : Handler σ) (program : Program α) (next : α → Program β) (state : σ) :
    (program >>= next).run handler state =
      (next (program.run handler state).1).run handler (program.run handler state).2 := by
  induction program generalizing state with
  | done value => rfl
  | ask call rest ih => exact ih _ _

end Program

end BlockShuffle.Storage
