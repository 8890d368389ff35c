import Mathlib
import BlockShuffle.Proofs.Storage.Memory
import BlockShuffle.Proofs.Storage.Unreliable

/-!
# Between two calls of a run

`Program.steps` stops a run after some calls: what is left of the program, and the storage there. What
`Ensures` says is said of ends of runs, and it carries over to every point of them. A storage whose calls all
fail from some call on is left as it was at that call, whatever the program goes on to ask for; so the memory
in the middle of one run is the memory at the end of another (`memory_steps`), and what all ends have in
common all points have (`Ensures.at_steps`).

That is about one point at a time. Two points of one run are compared through the calls in between: where
none of them deletes or renames (`Program.Only`), what a file held is still in front of what it holds
(`Memory.Extends`).

Calls are counted and not named, so a point of a run is a number, also in a program whose calls depend on the
answers. Between two points lie calls that are known by what they can do to a memory; a program that only adds
(`Call.Adds`) is one whose tree has no other calls. Such a program may be cut at any point and its memory
extends the one it started from, which is all that a reader beside it relies on.

The trick of failing all later calls is for unreliable memory alone. It needs a storage that can fail and does
nothing when it does, and a postcondition that holds of runs that failed as well as of others, as an invariant
does.
-/

set_option autoImplicit false

namespace BlockShuffle

open Storage

variable {α β σ : Type}

namespace Storage.Program

/-- Make the next calls of a program, or as many as there are. -/
def steps (handler : Handler σ) : (count : Nat) → Program α → σ → Program α × σ
  | 0, program, state => (program, state)
  | _ + 1, .done value, state => (.done value, state)
  | count + 1, .ask call next, state =>
    let (answer, state) := handler call state
    steps handler count (next answer) state

variable {handler : Handler σ}

@[simp] theorem steps_zero (program : Program α) (state : σ) :
    program.steps handler 0 state = (program, state) := by
  cases program <;> rfl

@[simp] theorem steps_done (count : Nat) (value : α) (state : σ) :
    (Program.done value).steps handler count state = (.done value, state) := by
  cases count <;> rfl

theorem steps_add (first count : Nat) (program : Program α) (state : σ) :
    program.steps handler (first + count) state =
      (program.steps handler first state).1.steps handler count (program.steps handler first state).2 := by
  induction first generalizing program state with
  | zero => simp
  | succ first ih =>
    cases program with
    | done value => simp
    | ask call next =>
      rw [Nat.add_right_comm]
      exact ih _ _

/-- A run that is stopped and goes on ends as one that is not stopped. -/
theorem run_steps (count : Nat) (program : Program α) (state : σ) :
    (program.steps handler count state).1.run handler (program.steps handler count state).2 =
      program.run handler state := by
  induction count generalizing program state with
  | zero => rw [steps_zero]
  | succ count ih =>
    cases program with
    | done value => rfl
    | ask call next => exact ih _ _

/-- Runs that end alike go on alike. -/
theorem run_bind_congr {program other : Program α} {state state' : σ}
    (h : program.run handler state = other.run handler state') (next : α → Program β) :
    (program >>= next).run handler state = (other >>= next).run handler state' := by
  rw [run_bind, run_bind, h]

end Storage.Program

/-! ## One point of a run -/

namespace Unreliable

/-- Failures as they are for some calls, and behind them nothing but failures. -/
def cutOff (failures : Nat → Option (IoError × Nat)) (count : Nat) : Nat → Option (IoError × Nat) :=
  fun k => if k < count then failures k else some (⟨.other, ""⟩, 0)

/-- Such a storage stays as it is: a call that fails hands nothing over, and letting go, waiting and telling
the time change nothing. -/
theorem handler_dead (call : Call) (memory : Memory) (failures : Nat → Option (IoError × Nat)) :
    (handler call ⟨memory, cutOff failures 0⟩).2 = ⟨memory, cutOff failures 0⟩ := by
  cases call <;> rfl

theorem handler_cutOff (call : Call) (memory : Memory) (failures : Nat → Option (IoError × Nat))
    (count : Nat) :
    handler call ⟨memory, cutOff failures (count + 1)⟩ =
      ((handler call ⟨memory, failures⟩).1,
        ⟨(handler call ⟨memory, failures⟩).2.memory, cutOff (fun k => failures (k + 1)) count⟩) := by
  have hrest : (fun k => cutOff failures (count + 1) (k + 1)) = cutOff (fun k => failures (k + 1)) count := by
    funext k
    simp [cutOff]
  have hfirst : cutOff failures (count + 1) 0 = failures 0 := by simp [cutOff]
  simp only [handler, hrest, hfirst]
  split <;> rfl

theorem failures_handler (call : Call) (state : Unreliable) :
    (handler call state).2.failures = fun k => state.failures (k + 1) := by
  simp only [handler]
  split <;> rfl

end Unreliable

namespace Storage.Program

open Unreliable

theorem run_dead (program : Program α) (memory : Memory) (failures : Nat → Option (IoError × Nat)) :
    (program.run Unreliable.handler ⟨memory, cutOff failures 0⟩).2 = ⟨memory, cutOff failures 0⟩ := by
  induction program with
  | done value => rfl
  | ask call next ih =>
    have hdead := handler_dead call memory failures
    rw [run]
    dsimp only
    rw [hdead]
    exact ih _

/-- **The memory at a point of a run is the memory at the end of a run**: of the one where every later call
fails. -/
theorem memory_steps (count : Nat) (program : Program α) (state : Unreliable) :
    (program.steps Unreliable.handler count state).2.memory =
      (program.run Unreliable.handler ⟨state.memory, cutOff state.failures count⟩).2.memory := by
  induction count generalizing program state with
  | zero => rw [run_dead, steps_zero]
  | succ count ih =>
    cases program with
    | done value => rfl
    | ask call next =>
      rw [run, handler_cutOff, steps, ih, failures_handler]

/-- What holds at the end of every run holds at every point of every run, for some value the run might end
with. -/
theorem Ensures.at_steps {program : Program α} {pre : Memory → Prop} {post : α → Memory → Prop}
    (h : program.Ensures pre post) {state : Unreliable} (hpre : pre state.memory) (count : Nat) :
    ∃ value, post value (program.steps Unreliable.handler count state).2.memory := by
  rw [memory_steps]
  exact ⟨_, h ⟨state.memory, _⟩ hpre⟩

/-! ## Two points of a run -/

/-- Every call that a program can come to is of some kind. -/
def Only (kind : Call → Prop) : Program α → Prop
  | .done _ => True
  | .ask call next => kind call ∧ ∀ answer, (next answer).Only kind

variable {kind : Call → Prop}

theorem only_done (value : α) : (Program.done value).Only kind := trivial

theorem only_call {call : Call} (h : kind call) : (Program.call call).Only kind := ⟨h, fun _ => trivial⟩

theorem Only.bind {program : Program α} {next : α → Program β} (h : program.Only kind)
    (hnext : ∀ value, (next value).Only kind) : (program >>= next).Only kind := by
  induction program with
  | done value => exact hnext value
  | ask call rest ih => exact ⟨h.1, fun answer => ih answer (h.2 answer)⟩

theorem Only.steps {handler : Handler σ} {program : Program α} (h : program.Only kind) (count : Nat)
    (state : σ) : (program.steps handler count state).1.Only kind := by
  induction count generalizing program state with
  | zero => simpa using h
  | succ count ih =>
    cases program with
    | done value => exact trivial
    | ask call next => exact ih (h.2 _) _

end Storage.Program

/-- Calls that take nothing away from a storage. -/
def Storage.Call.Adds : Call → Prop
  | .delete _ => False
  | .rename _ _ => False
  | _ => True

namespace Memory

/-- Every file of one memory is in the other, with what it held in front. -/
def Extends (memory later : Memory) : Prop :=
  ∀ path bytes, memory.bytes? path = some bytes → ∃ more, later.bytes? path = some (bytes ++ more)

variable {memory mid later : Memory}

theorem Extends.refl (memory : Memory) : memory.Extends memory :=
  fun _ bytes h => ⟨[], by rw [List.append_nil]; exact h⟩

theorem Extends.trans (h : memory.Extends mid) (h' : mid.Extends later) : memory.Extends later := by
  intro path bytes hbytes
  obtain ⟨more, hmore⟩ := h path bytes hbytes
  obtain ⟨rest, hrest⟩ := h' path _ hmore
  exact ⟨more ++ rest, by rw [← List.append_assoc]; exact hrest⟩

/-- A file that was not there, or that is replaced by itself with more behind it. -/
theorem extends_insert {path : Path} {contents : Contents}
    (h : (memory.bytes? path).getD [] <+: contents.bytes) : memory.Extends (memory.insert path contents) := by
  intro other bytes hbytes
  by_cases hsame : path.sameAs other = true
  · rw [bytes?, ← find?_congr hsame, ← bytes?] at hbytes
    rw [hbytes, Option.getD_some] at h
    obtain ⟨more, hmore⟩ := h
    refine ⟨more, ?_⟩
    rw [bytes?, find?_insert, if_pos hsame, hmore]
    rfl
  · refine ⟨[], ?_⟩
    rw [bytes?, find?_insert, if_neg hsame, List.append_nil]
    exact hbytes

theorem extends_openAppend (path : Path) (memory : Memory) :
    memory.Extends (openAppend path memory).2 := by
  rw [openAppend]
  cases h : memory.find? path with
  | some contents => exact Extends.refl memory
  | none =>
    apply extends_insert
    simp [bytes?, h]

theorem extends_append (appender : Appender) (bytes : Bytes) (memory : Memory) :
    memory.Extends (append appender bytes memory).2 := by
  rcases append_cases appender bytes memory with ⟨error, heq⟩ | ⟨contents, longer, hfind, hlonger, heq⟩ <;> rw [heq]
  · exact Extends.refl memory
  · apply extends_insert
    rw [bytes?_of_find? hfind, Contents.bytes_of_append? hlonger]
    exact List.prefix_append _ _

theorem extends_handler {call : Call} (h : call.Adds) (memory : Memory) :
    memory.Extends (handler call memory).2 := by
  cases call with
  | openAppend path => exact extends_openAppend path memory
  | append appender bytes => exact extends_append appender bytes memory
  | delete path | rename source target => cases h
  | _ => exact Extends.refl memory

/-- What is listed stays listed. -/
theorem mem_paths_handler {call : Call} (h : call.Adds) {path : Path} {memory : Memory} (hpath : path ∈ memory.paths) :
    path ∈ (handler call memory).2.paths := by
  cases call with
  | openAppend opened =>
    show path ∈ (openAppend opened memory).2.paths
    rw [openAppend]
    cases memory.find? opened with
    | some contents => exact hpath
    | none => exact mem_paths_insert hpath _ _
  | append appender bytes =>
    show path ∈ (append appender bytes memory).2.paths
    rcases append_cases appender bytes memory with ⟨error, heq⟩ | ⟨contents, longer, -, -, heq⟩ <;> rw [heq]
    · exact hpath
    · exact mem_paths_insert hpath _ _
  | delete _ | rename _ _ => cases h
  | _ => exact hpath

theorem mem_paths_run {program : Program α} (h : program.Only Call.Adds) {path : Path} {memory : Memory}
    (hpath : path ∈ memory.paths) : path ∈ (program.run handler memory).2.paths := by
  induction program generalizing memory with
  | done value => exact hpath
  | ask call next ih => exact ih _ (h.2 _) (mem_paths_handler h.1 hpath)

theorem extends_fail {call : Call} (h : call.Adds) (error : IoError) (keep : Nat) (memory : Memory) :
    memory.Extends (Faulty.fail handler error keep call memory).2 := by
  cases call with
  | append appender bytes =>
    rw [Faulty.fail]
    split
    · exact Extends.refl memory
    · exact extends_append appender (bytes.take keep) memory
  | delete path | rename source target => cases h
  | _ => exact Extends.refl memory

theorem extends_unreliable {call : Call} (h : call.Adds) (state : Unreliable) :
    state.memory.Extends (Unreliable.handler call state).2.memory := by
  rcases Unreliable.handler_cases call state with ⟨-, hm⟩ | ⟨error, keep, -, hm⟩
  · rw [hm]
    exact extends_handler h _
  · rw [hm]
    exact extends_fail h error keep _

/-- **Where nothing is deleted or renamed, no byte that was there is lost.** -/
theorem ensures_extends {program : Program α} (h : program.Only Call.Adds) (start : Memory) :
    program.Ensures start.Extends fun _ memory => start.Extends memory := by
  intro state hstart
  induction program generalizing state with
  | done value => exact hstart
  | ask call next ih => exact ih _ (h.2 _) _ (hstart.trans (extends_unreliable h.1 state))

theorem extends_steps {program : Program α} (h : program.Only Call.Adds) (count : Nat) (state : Unreliable) :
    state.memory.Extends (program.steps Unreliable.handler count state).2.memory := by
  obtain ⟨-, hextends⟩ := (ensures_extends h state.memory).at_steps (Extends.refl _) count
  exact hextends

end Memory

end BlockShuffle
