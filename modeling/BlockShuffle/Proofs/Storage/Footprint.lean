import Mathlib
import BlockShuffle.ShardReader
import BlockShuffle.Proofs.Storage.Stepwise

/-!
# The files that a program touches

A program that opens only files of its own, and uses no handle but those it got that way, cannot tell two memories
apart that have its files in common, and leaves all other files as they are. Whether a program is like that can be
read off its tree (`Program.Confined`), if the answers are taken into account: the handle that a memory answers is
one of the file that was asked for (`Call.Fits`), and nothing else has to be known of it.

What follows for a run is one lemma about a call (`Memory.agree_handler`, `Memory.find?_handler_of_ne`) and an
induction over the tree. Listing a directory and looking for a path are no calls of such a program: their answers
are made of everybody's files.

The files of a program are a predicate on paths, compared by what they name. It is not computed: who uses the
predicate says which files those are, and the proof that a program keeps to them goes over its tree. It is about
the calls that could be made and not only about those that are, so that a program that is confined stays so on
any storage, also on one that fails.

Two programs whose files are apart can be interleaved without noticing, which is the use of it
(`Proofs/Writing/Interleaving`). Reading through a handle of a file is within the files as well; a reader's
opening of a partition lists a directory and is not confined.
-/

set_option autoImplicit false

namespace BlockShuffle

namespace Storage

/-! ## Calls on some files -/

/-- A call that concerns these files and no others. -/
def Call.Within (own : Path → Prop) : Call → Prop
  | .openAppend path => own path
  | .openRead path => own path
  | .append appender _ => own appender.path
  | .flush appender => own appender.path
  | .sync appender => own appender.path
  | .release appender => own appender.path
  | .size reader => own reader.path
  | .readAt reader _ _ => own reader.path
  | .pause _ => True
  | .clock => True
  | _ => False

/-- A handle that is answered is one of the file that was asked for. -/
def Call.Fits : (call : Call) → call.Answer → Prop
  | .openAppend path, answer => ∀ appender, answer = .ok appender → appender.path = path
  | .openRead path, answer => ∀ reader, answer = .ok reader → reader.path = path
  | .append appender _, answer => answer.2.path = appender.path
  | .flush appender, answer => answer.2.path = appender.path
  | .sync appender, answer => answer.2.path = appender.path
  | _, _ => True

/-! ## Programs on some files -/

/-- Whatever handles of the files that it asks for a program is answered, its calls concern these files, and it ends
with a value that has `post`. -/
def Program.Confined {α : Type} (own : Path → Prop) (post : α → Prop) : Program α → Prop
  | .done value => post value
  | .ask call next => call.Within own ∧ ∀ answer, call.Fits answer → (next answer).Confined own post

namespace Program

variable {α β : Type} {own : Path → Prop}

theorem confined_done {value : α} {post : α → Prop} (h : post value) : (Program.done value).Confined own post := h

theorem confined_call {call : Call} (h : call.Within own) : (Program.call call).Confined own call.Fits :=
  ⟨h, fun _ hfits => hfits⟩

theorem Confined.bind {program : Program α} {next : α → Program β} {mid : α → Prop} {post : β → Prop}
    (h : program.Confined own mid) (hnext : ∀ value, mid value → (next value).Confined own post) :
    (program >>= next).Confined own post := by
  induction program with
  | done value => exact hnext value h
  | ask call rest ih => exact ⟨h.1, fun answer hfits => ih answer (h.2 answer hfits)⟩

theorem Confined.mono {program : Program α} {post post' : α → Prop} (h : program.Confined own post)
    (himp : ∀ value, post value → post' value) : program.Confined own post' := by
  induction program with
  | done value => exact himp value h
  | ask call rest ih => exact ⟨h.1, fun answer hfits => ih answer (h.2 answer hfits)⟩

theorem confined_append {appender : Appender} (h : own appender.path) (bytes : Bytes) :
    (Program.append appender bytes).Confined own fun result => own result.2.path :=
  Confined.mono (confined_call h) fun _ hpath => Eq.mpr (congrArg own hpath) h

theorem confined_flush {appender : Appender} (h : own appender.path) :
    (Program.flush appender).Confined own fun result => own result.2.path :=
  Confined.mono (confined_call h) fun _ hpath => Eq.mpr (congrArg own hpath) h

theorem confined_sync {appender : Appender} (h : own appender.path) :
    (Program.sync appender).Confined own fun result => own result.2.path :=
  Confined.mono (confined_call h) fun _ hpath => Eq.mpr (congrArg own hpath) h

theorem confined_release {appender : Appender} (h : own appender.path) :
    (Program.release appender).Confined own fun _ => True :=
  Confined.mono (confined_call h) fun _ _ => trivial

/-- What an operation answers is answered when it is retried, unless it is an error. -/
theorem confined_retryFrom {operation : Program (Except IoError α)} {post : α → Prop} (policy : RetryPolicy)
    (h : operation.Confined own fun answer => ∀ value, answer = .ok value → post value) (left : Nat) :
    (retryFrom policy Program.pause operation left).Confined own
      fun answer => ∀ value, answer = .ok value → post value := by
  have hsettle : ∀ attempts outcome, (∀ value, outcome = .ok value → post value) →
      ∀ value, settle attempts outcome = .ok value → post value := by
    rintro attempts (error | value) hpost other hother
    · rw [settle] at hother
      split at hother <;> cases hother
    · cases hother
      exact hpost value rfl
  induction left with
  | zero =>
    rw [retryFrom]
    exact h.bind fun outcome hpost => confined_done (hsettle _ _ hpost)
  | succ left ih =>
    rw [retryFrom]
    refine h.bind fun outcome hpost => ?_
    split
    · refine (confined_call ?_).bind fun _ _ => ih
      exact trivial
    · exact confined_done (hsettle _ _ hpost)

theorem confined_retried {operation : Program (Except IoError α)} {post : α → Prop} (policy : RetryPolicy)
    (h : operation.Confined own fun answer => ∀ value, answer = .ok value → post value) :
    (retried policy operation).Confined own fun answer => ∀ value, answer = .ok value → post value :=
  confined_retryFrom policy h policy.maxRetries

end Program

end Storage

/-! ## Memories with files in common -/

namespace Memory

open Storage Program

/-- The two memories hold the same under these paths. -/
def Agree (own : Path → Prop) (memory other : Memory) : Prop := ∀ path, own path → memory.find? path = other.find? path

variable {own : Path → Prop} {memory other : Memory} {call : Call}

theorem Agree.refl (memory : Memory) : Agree own memory memory := fun _ _ => rfl

theorem Agree.insert (h : Agree own memory other) (path : Path) (contents : Contents) :
    Agree own (memory.insert path contents) (other.insert path contents) := by
  intro stored hstored
  rw [find?_insert, find?_insert, h stored hstored]

theorem fits_handler (call : Call) (memory : Memory) : call.Fits (handler call memory).1 := by
  cases call with
  | openAppend path =>
    rintro appender ⟨⟩
    obtain ⟨contents, -, heq⟩ := openAppend_eq path memory
    change (openAppend path memory).1.path = path
    rw [heq]
  | openRead path =>
    intro reader hreader
    rw [handler] at hreader
    cases hfind : memory.find? path with
    | none =>
      rw [hfind] at hreader
      cases hreader
    | some contents =>
      rw [hfind] at hreader
      cases hreader
      rfl
  | append appender bytes =>
    change (append appender bytes memory).1.2.path = appender.path
    rcases append_cases appender bytes memory with ⟨error, heq⟩ | ⟨contents, longer, -, -, heq⟩ <;> rw [heq]
  | flush appender | sync appender => rfl
  | _ => trivial

/-- **A call has the same answer in both memories, and does the same to both.** -/
theorem agree_handler (hcall : call.Within own) (h : Agree own memory other) :
    (handler call memory).1 = (handler call other).1 ∧
      Agree own (handler call memory).2 (handler call other).2 := by
  -- A call that stays within looks at no other file. Those that could look further are none of these.
  cases call with
  | openAppend path =>
    change Except.ok (openAppend path memory).1 = .ok (openAppend path other).1 ∧
      Agree own (openAppend path memory).2 (openAppend path other).2
    rw [openAppend, openAppend, h path hcall]
    cases other.find? path with
    | some contents => exact ⟨rfl, h⟩
    | none => exact ⟨rfl, h.insert path .empty⟩
  | openRead path =>
    refine ⟨?_, h⟩
    rw [handler, handler, h path hcall]
  | append appender bytes =>
    change (append appender bytes memory).1 = (append appender bytes other).1 ∧
      Agree own (append appender bytes memory).2 (append appender bytes other).2
    rw [append, append, h appender.path hcall]
    cases other.find? appender.path with
    | none => exact ⟨rfl, h⟩
    | some contents =>
      dsimp only
      cases contents.append? bytes with
      | none => exact ⟨rfl, h⟩
      | some longer => exact ⟨rfl, h.insert appender.path longer⟩
  | size reader =>
    refine ⟨?_, h⟩
    change size reader memory = size reader other
    rw [size, size, h reader.path hcall]
  | readAt reader offset length =>
    refine ⟨?_, h⟩
    change readAt reader offset length memory = readAt reader offset length other
    rw [readAt, readAt, h reader.path hcall]
  | flush _ | sync _ | release _ | pause _ | clock => exact ⟨rfl, h⟩
  | list _ | probe _ | delete _ | rename _ _ => exact hcall.elim

/-- A call leaves the files as they are that it does not concern. -/
theorem find?_handler_of_ne (hcall : call.Within own) {path : Path}
    (hne : ∀ mine, own mine → mine.components ≠ path.components) :
    (handler call memory).2.find? path = memory.find? path := by
  cases call with
  | openAppend mine => exact find?_openAppend_of_ne (hne mine hcall) memory
  | append appender bytes =>
    change (append appender bytes memory).2.find? path = memory.find? path
    rcases append_cases appender bytes memory with ⟨error, heq⟩ | ⟨contents, longer, -, -, heq⟩ <;> rw [heq]
    exact find?_insert_of_ne (hne appender.path hcall) _ _
  | list _ | probe _ | delete _ | rename _ _ => exact hcall.elim
  | _ => rfl

variable {α : Type} {program : Program α} {post : α → Prop}

/-- **A confined program comes to the same in both memories.** -/
theorem agree_run (hconfined : program.Confined own post) (h : Agree own memory other) :
    (program.run handler memory).1 = (program.run handler other).1 ∧
      Agree own (program.run handler memory).2 (program.run handler other).2 := by
  induction program generalizing memory other with
  | done value => exact ⟨rfl, h⟩
  | ask call next ih =>
    obtain ⟨hanswer, hafter⟩ := agree_handler hconfined.1 h
    rw [run, run]
    dsimp only
    rw [hanswer]
    exact ih _ (hconfined.2 _ (fits_handler call other)) hafter

theorem Confined.steps (h : program.Confined own post) (count : Nat) (memory : Memory) :
    (program.steps handler count memory).1.Confined own post := by
  induction count generalizing program memory with
  | zero => rwa [steps_zero]
  | succ count ih =>
    cases program with
    | done value => rwa [steps_done]
    | ask call next => exact ih (h.2 _ (fits_handler call memory)) _

/-- **So it does at every point of the two runs.** -/
theorem agree_steps (hconfined : program.Confined own post) (h : Agree own memory other) (count : Nat) :
    (program.steps handler count memory).1 = (program.steps handler count other).1 ∧
      Agree own (program.steps handler count memory).2 (program.steps handler count other).2 := by
  induction count generalizing program memory other with
  | zero =>
    rw [steps_zero, steps_zero]
    exact ⟨rfl, h⟩
  | succ count ih =>
    cases program with
    | done value => exact ⟨rfl, h⟩
    | ask call next =>
      obtain ⟨hanswer, hafter⟩ := agree_handler hconfined.1 h
      rw [steps, steps]
      dsimp only
      rw [hanswer]
      exact ih (hconfined.2 _ (fits_handler call other)) hafter

/-- **A confined program leaves all other files as they are**, at every point of its run. -/
theorem find?_steps_of_ne (hconfined : program.Confined own post) {path : Path}
    (hne : ∀ mine, own mine → mine.components ≠ path.components) (count : Nat) (memory : Memory) :
    (program.steps handler count memory).2.find? path = memory.find? path := by
  induction count generalizing program memory with
  | zero => rw [steps_zero]
  | succ count ih =>
    cases program with
    | done value => rfl
    | ask call next =>
      rw [steps]
      exact (ih (hconfined.2 _ (fits_handler call memory)) _).trans (find?_handler_of_ne hconfined.1 hne)

theorem find?_run_of_ne (hconfined : program.Confined own post) {path : Path}
    (hne : ∀ mine, own mine → mine.components ≠ path.components) (memory : Memory) :
    (program.run handler memory).2.find? path = memory.find? path := by
  induction program generalizing memory with
  | done value => rfl
  | ask call next ih =>
    exact (ih _ (hconfined.2 _ (fits_handler call memory)) _).trans (find?_handler_of_ne hconfined.1 hne)

end Memory

end BlockShuffle
