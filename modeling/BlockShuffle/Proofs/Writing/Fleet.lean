import Mathlib
import BlockShuffle.Proofs.Storage.Stepwise
import BlockShuffle.Proofs.Writing.Interleaving

/-!
# Handlers of many shards

Handlers of shards are created, write, and are closed or dropped, one at a time for each shard, in one storage
(`Fleet`). What is done with a handler only concerns the files of its shard (`confined_step`), and whatever is done
with any of them no file is taken away (`mem_paths_run`).

A handler that was closed or dropped is gone from its fleet, and a step for a shard without a handler does
nothing and has no answer, so every list of steps is a run and no statement about runs has a condition on their
order. Two handlers of one shard at a time are excluded by the type, a map from shards to handlers, since two of
them would append to one file behind each other's back; one that is created while there is another takes its
place.

Steps of several shards come one behind another here. Handlers that go on at the same time, so that the calls of
one stand between those of another, are in `Proofs/Writing/Interleaving`, where the result is that it makes no
difference; a fleet is the form in which that difference is not asked about, as when two storages are compared.
-/

set_option autoImplicit false

namespace BlockShuffle

open Storage Program

/-! ## Handlers that come and go -/

namespace ShardWriter

/-- What a handler is used for. One that is closed or dropped is gone. -/
inductive Use where
  | write (blocks : List Block)
  | rollOver
  | close
  | drop

def use (writer : ShardWriter) : Use → Program (Except Error Unit × Option ShardWriter)
  | .write blocks => do
    let (answer, writer) ← writer.write blocks
    return (answer, some writer)
  | .rollOver => do
    let (answer, writer) ← writer.rollOver
    return (answer, some writer)
  | .close => do
    let answer ← writer.close
    return (answer, none)
  | .drop => do
    writer.release
    return (.ok (), none)

end ShardWriter

/-- One thing to do about a shard. -/
inductive Step where
  | create
  | use (what : ShardWriter.Use)

namespace ShardWriter

/-- Let go of the handler of a shard, if there is one. -/
def letGo : Option ShardWriter → Program Unit
  | none => return ()
  | some writer => writer.release

/-- Do one thing about a shard. A handler that is created takes the place of another, which is dropped, and where
there is no handler there is nothing to use. -/
def step (config : WriteConfig) (range : PartitionRange) (shard : String) :
    Step → Option ShardWriter → Program (Option (Except Error Unit) × Option ShardWriter)
  | .create, live => do
    letGo live
    match create config range shard with
    | .ok writer => return (some (.ok ()), some writer)
    | .error fault => return (some (.error (.config fault)), none)
  | .use _, none => return (none, none)
  | .use what, some writer => do
    let (answer, live) ← writer.use what
    return (some answer, live)

variable {writer : ShardWriter} {live : Option ShardWriter} {own : Path → Prop}

/-- Only `write` stores anything. -/
theorem only_use (writer : ShardWriter) (what : Use) : (writer.use what).Only Call.Adds := by
  cases what with
  | write blocks => exact (only_write writer blocks).bind fun _ => only_done _
  | rollOver => exact (only_rollOver writer).bind fun _ => only_done _
  | close => exact (only_close writer).bind fun _ => only_done _
  | drop => exact (only_drop writer).bind fun _ => only_done _

theorem only_letGo (live : Option ShardWriter) : (letGo live).Only Call.Adds := by
  cases live with
  | none => exact only_done _
  | some writer => exact only_drop writer

theorem only_step (config : WriteConfig) (range : PartitionRange) (shard : String) (step : Step)
    (live : Option ShardWriter) : (ShardWriter.step config range shard step live).Only Call.Adds := by
  cases step with
  | create =>
    refine (only_letGo live).bind fun _ => ?_
    split <;> exact only_done _
  | use what =>
    cases live with
    | none => exact only_done _
    | some writer => exact (only_use writer what).bind fun _ => only_done _

theorem confined_use (h : writer.Owns own) (what : Use) : (writer.use what).Confined own fun _ => True := by
  cases what with
  | write blocks => exact (confined_write h blocks).bind fun _ _ => confined_done trivial
  | rollOver => exact (confined_rollOver h).bind fun _ _ => confined_done trivial
  | close => exact (confined_close h).bind fun _ _ => confined_done trivial
  | drop => exact (confined_drop h).bind fun _ _ => confined_done trivial

/-- What is done about a shard concerns the files of its handler. -/
theorem confined_step (h : ∀ writer, live = some writer → writer.Owns own) (config : WriteConfig)
    (range : PartitionRange) (shard : String) (step : Step) :
    (ShardWriter.step config range shard step live).Confined own fun _ => True := by
  cases step with
  | create =>
    have hletGo : (letGo live).Confined own fun _ => True := by
      cases live with
      | none => exact confined_done trivial
      | some writer => exact confined_drop (h writer rfl)
    refine hletGo.bind fun _ _ => ?_
    split <;> exact confined_done trivial
  | use what =>
    cases live with
    | none => exact confined_done trivial
    | some writer => exact (confined_use (h writer rfl) what).bind fun _ _ => confined_done trivial

end ShardWriter

/-! ## Fleets -/

/-- Handlers of shards, at most one for each, and what they write to. -/
structure Fleet (κ σ : Type) where
  writer : κ → Option ShardWriter
  storage : σ

namespace Fleet

variable {κ σ : Type}

/-- No handler was created yet. -/
def start (storage : σ) : Fleet κ σ := ⟨fun _ => none, storage⟩

variable [DecidableEq κ] {handler : Handler σ} {config : WriteConfig} {place : κ → PartitionRange × String}

/-- Do one thing about one shard. -/
def act (handler : Handler σ) (config : WriteConfig) (place : κ → PartitionRange × String) (fleet : Fleet κ σ)
    (k : κ) (step : Step) : Option (Except Error Unit) × Fleet κ σ :=
  let ((answer, writer), storage) :=
    (ShardWriter.step config (place k).1 (place k).2 step (fleet.writer k)).run handler fleet.storage
  (answer, ⟨Function.update fleet.writer k writer, storage⟩)

/-- Do one thing behind the other. There is no answer where there is no handler. -/
def run (handler : Handler σ) (config : WriteConfig) (place : κ → PartitionRange × String) (fleet : Fleet κ σ) :
    List (κ × Step) → List (Option (Except Error Unit)) × Fleet κ σ
  | [] => ([], fleet)
  | (k, step) :: rest =>
    let (answer, fleet) := fleet.act handler config place k step
    let (answers, fleet) := fleet.run handler config place rest
    (answer :: answers, fleet)

theorem run_cons (k : κ) (step : Step) (rest : List (κ × Step)) (fleet : Fleet κ σ) :
    fleet.run handler config place ((k, step) :: rest) =
      ((fleet.act handler config place k step).1 ::
          ((fleet.act handler config place k step).2.run handler config place rest).1,
        ((fleet.act handler config place k step).2.run handler config place rest).2) := rfl

theorem run_append (before after : List (κ × Step)) : ∀ fleet : Fleet κ σ,
    fleet.run handler config place (before ++ after) =
      ((fleet.run handler config place before).1 ++
          ((fleet.run handler config place before).2.run handler config place after).1,
        ((fleet.run handler config place before).2.run handler config place after).2) := by
  induction before with
  | nil => exact fun fleet => rfl
  | cons action before ih =>
    intro fleet
    rw [List.cons_append, run_cons, ih]
    rfl

/-- Whatever is done, no file is taken away. -/
theorem mem_paths_run {path : Path} (actions : List (κ × Step)) : ∀ {fleet : Fleet κ Memory},
    path ∈ fleet.storage.paths → path ∈ (fleet.run Memory.handler config place actions).2.storage.paths := by
  induction actions with
  | nil => exact fun h => h
  | cons action actions ih =>
    intro fleet h
    exact ih (Memory.mem_paths_run (ShardWriter.only_step config _ _ action.2 (fleet.writer action.1)) h)

end Fleet

end BlockShuffle
