import BlockShuffle.Storage.Program

/-!
# Failures on demand

A storage wrapped so that chosen calls fail and every call is written down. A rule says which calls
it is for (an operation, and how the path that the call shows has to end), how many of them it lets
pass, and how many it then fails. The first rule that has failures left decides; rules in front of
it that still let calls pass count this call. A failing append may hand the storage the front of its
bytes first, as an append that was cut short does.

Letting go of an appender, pausing and telling the time cannot fail and are not written down.

This is for tests and for callers that want to see a failure; the statements about failing storage
use `Proofs/Storage/Unreliable` or `Proofs/Storage/Flaky`, whose failures are any and not those of a
list of rules. The rules are written so that a test can name the call it means by what it is about,
the append to an index, say, and not by counting calls. They are consulted before the storage is, so
a call that fails has not reached it, but for the front of an append.

`sizeShift` shifts the length that a storage tells of a file, by which a file that grows or shrinks
between being measured and being read can be had without a second party. The trace is of the calls
that were made, failed ones included, in the words of the calls, and is part of the state.
-/

set_option autoImplicit false

namespace BlockShuffle.Storage

/-! ## Operations -/

/-- The calls that can fail, without what they are called on. -/
inductive Operation where
  | openAppend
  | openRead
  | list
  | probe
  | delete
  | rename
  | append
  | flush
  | sync
  | size
  | readAt
deriving DecidableEq, Repr

namespace Operation

/-- Every operation with the name traces give it. -/
def names : List (Operation × String) := [
  (.openAppend, "open_append"),
  (.openRead, "open_read"),
  (.list, "list"),
  (.probe, "exists"),
  (.delete, "delete"),
  (.rename, "rename"),
  (.append, "append"),
  (.flush, "flush"),
  (.sync, "sync"),
  (.size, "size"),
  (.readAt, "read_at")]

/-- The name traces give an operation. -/
def name (operation : Operation) : String := (names.lookup operation).getD ""

/-- The operation of a name. -/
def ofName? (name : String) : Option Operation :=
  (names.find? fun entry => entry.2 == name).map (·.1)

end Operation

/-- What a call that can fail shows of itself. -/
structure Shown where
  operation : Operation
  path : Path
  /-- What follows the path in a trace. -/
  details : String := ""

/-- What a call shows of itself; nothing, if it cannot fail. -/
def Call.shown? : Call → Option Shown
  | .openAppend path => some ⟨.openAppend, path, ""⟩
  | .openRead path => some ⟨.openRead, path, ""⟩
  | .list dir => some ⟨.list, dir, ""⟩
  | .probe path => some ⟨.probe, path, ""⟩
  | .delete path => some ⟨.delete, path, ""⟩
  | .rename source target => some ⟨.rename, source, " " ++ target.text⟩
  | .append appender bytes => some ⟨.append, appender.path, s!" {bytes.length}"⟩
  | .flush appender => some ⟨.flush, appender.path, ""⟩
  | .sync appender => some ⟨.sync, appender.path, ""⟩
  | .size reader => some ⟨.size, reader.path, ""⟩
  | .readAt reader offset length => some ⟨.readAt, reader.path, s!" {offset} {length}"⟩
  | .release _ => none
  | .pause _ => none
  | .clock => none

/-- The line a trace has for a call. -/
def Shown.line (shown : Shown) : String :=
  shown.operation.name ++ " " ++ shown.path.text ++ shown.details

/-! ## Rules -/

/-- A rule that makes calls fail. -/
structure FaultRule where
  /-- The operation it is for; any, if none is named. -/
  operation : Option Operation := none
  /-- How the path that a call shows ends. -/
  pathEnding : List Char := []
  error : IoError
  /-- Calls still let pass. -/
  skip : Nat := 0
  /-- Calls still failed. -/
  count : Nat := 1
  /-- Bytes of a failing append that reach the storage at most. -/
  keep : Nat := 0

namespace FaultRule

/-- Whether a call is one of those a rule is for. -/
def covers (rule : FaultRule) (shown : Shown) : Bool :=
  (match rule.operation with
    | none => true
    | some operation => operation == shown.operation) &&
  rule.pathEnding.isSuffixOf shown.path.chars

/-- Put a call to the rules in order: the rules afterwards, and the rule that fails it, if any. -/
def consult (shown : Shown) : List FaultRule → List FaultRule × Option FaultRule
  | [] => ([], none)
  | rule :: rest =>
    if !rule.covers shown then
      let (rest, fired) := consult shown rest
      (rule :: rest, fired)
    else if 0 < rule.skip then
      let (rest, fired) := consult shown rest
      ({ rule with skip := rule.skip - 1 } :: rest, fired)
    else if 0 < rule.count then
      ({ rule with count := rule.count - 1 } :: rest, some rule)
    else
      let (rest, fired) := consult shown rest
      (rule :: rest, fired)

end FaultRule

/-! ## The wrapped storage -/

/-- A storage with the rules that fail its calls and the trace of the calls made. -/
structure Faulty (σ : Type) where
  storage : σ
  rules : List FaultRule := []
  /-- Added to every length the storage tells. -/
  sizeShift : Int := 0
  /-- Trace lines, the last call first. -/
  trace : List String := []

namespace Faulty

variable {σ : Type}

/-- The answer of a call that fails. A failing append hands some of its bytes to the storage, and goes on
with the appender the storage answered; where the storage refuses them, its own failure is the answer. -/
def fail (handler : Handler σ) (error : IoError) (keep : Nat) :
    (call : Call) → σ → call.Answer × σ
  | .append appender bytes, storage =>
    if keep = 0 then ((.error error, appender), storage)
    else
      let ((kept, appender), storage) := handler (.append appender (bytes.take keep)) storage
      ((kept >>= fun () => .error error, appender), storage)
  | .flush appender, storage => ((.error error, appender), storage)
  | .sync appender, storage => ((.error error, appender), storage)
  | .openAppend _, storage => (.error error, storage)
  | .openRead _, storage => (.error error, storage)
  | .list _, storage => (.error error, storage)
  | .probe _, storage => (.error error, storage)
  | .delete _, storage => (.error error, storage)
  | .rename _ _, storage => (.error error, storage)
  | .size _, storage => (.error error, storage)
  | .readAt _ _ _, storage => (.error error, storage)
  | .release appender, storage => handler (.release appender) storage
  | .pause microseconds, storage => handler (.pause microseconds) storage
  | .clock, storage => handler .clock storage

/-- A call that reaches the storage; lengths it tells are shifted. -/
def pass (handler : Handler σ) (sizeShift : Int) : (call : Call) → σ → call.Answer × σ
  | .size reader, storage =>
    let (answer, storage) := handler (.size reader) storage
    (answer.map fun size => (size + sizeShift).toNat, storage)
  | call, storage => handler call storage

/-- The wrapped storage's answer to a call. -/
def handler (inner : Handler σ) : Handler (Faulty σ) := fun call state =>
  match call.shown? with
  | none =>
    let (answer, storage) := inner call state.storage
    (answer, { state with storage })
  | some shown =>
    match FaultRule.consult shown state.rules with
    | (rules, some rule) =>
      let (answer, storage) := fail inner rule.error rule.keep call state.storage
      let line := shown.line ++ " !" ++ rule.error.kind.name
      (answer, { state with storage, rules, trace := line :: state.trace })
    | (rules, none) =>
      let (answer, storage) := pass inner state.sizeShift call state.storage
      (answer, { state with storage, rules, trace := shown.line :: state.trace })

end Faulty

end BlockShuffle.Storage
