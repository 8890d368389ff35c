import Mathlib
import BlockShuffle.Proofs.Storage.Footprint
import BlockShuffle.Proofs.Storage.Unreliable

/-!
# The calls that a run makes

`Program.calls` lists them. Which files a run may have changed is read off that list, whatever calls fail
(`find?_run_of_calls`), and the list itself is reasoned about without a storage: `Program.Traced` says of a
program what its calls and its value have in common whatever it is answered, as long as the handle it gets is
one of the file it asked for. That differs from `Program.Confined` in that the files may depend on how the
program ends.

A trace is used where something must *not* have happened: a number was never opened, a handle was not used
again, a file was read in abutting pieces. A condition on the storage behind the run cannot say that, since a
call that failed, or one that put nothing, leaves no trace in it. For what was stored and what was answered the
other predicates are shorter, and they are used there.

The answers that a program gets are any that fit their calls. So a fact about a trace holds of every storage, of
the ones that fail at will too, as long as a handle is one of the file asked for; that much is asked of a
storage, and is proved of the unreliable one in this module.
-/

set_option autoImplicit false

namespace BlockShuffle

namespace Storage

variable {α β σ : Type}

theorem Call.Within.mono {own own' : Path → Prop} (himp : ∀ path, own path → own' path) {call : Call}
    (h : call.Within own) : call.Within own' := by
  cases call with
  | openAppend _ | openRead _ | append _ _ | flush _ | sync _ | release _ | size _ | readAt _ _ _ =>
    exact himp _ h
  | pause _ | clock => trivial
  | list _ | probe _ | delete _ | rename _ _ => exact h

/-- A call that opens a file for appending, or uses an appender of it. -/
def Call.Handles (path : Path) : Call → Prop
  | .openAppend opened => opened.sameAs path = true
  | .append appender _ => appender.path.sameAs path = true
  | .flush appender => appender.path.sameAs path = true
  | .sync appender => appender.path.sameAs path = true
  | .release appender => appender.path.sameAs path = true
  | _ => False

theorem Call.Within.not_handles {own : Path → Prop} {call : Call} (h : call.Within own) {path : Path}
    (hne : ∀ mine, own mine → mine.components ≠ path.components) : ¬ call.Handles path := by
  have hother {mine : Path} (hmine : own mine) : ¬ mine.sameAs path = true :=
    fun hsame => hne mine hmine (Path.sameAs_iff.mp hsame)
  cases call with
  | openAppend _ | append _ _ | flush _ | sync _ | release _ => exact hother h
  | _ => exact id

namespace Program

/-- The calls of a run, in order. -/
def calls (handler : Handler σ) : Program α → σ → List Call
  | .done _, _ => []
  | .ask call next, state =>
    call :: (next (handler call state).1).calls handler (handler call state).2

/-- Whatever fitting answers a program gets, the calls it makes and the value it ends with have `post`. -/
def Traced (post : List Call → α → Prop) : Program α → Prop
  | .done value => post [] value
  | .ask call next =>
    ∀ answer, call.Fits answer → (next answer).Traced fun calls value => post (call :: calls) value

variable {post post' : List Call → α → Prop} {program : Program α}

theorem traced_call {call : Call} {post : List Call → call.Answer → Prop}
    (h : ∀ answer, call.Fits answer → post [call] answer) : (Program.call call).Traced post := h

theorem traced_call_self (call : Call) :
    (Program.call call).Traced fun calls answer => calls = [call] ∧ call.Fits answer :=
  traced_call fun _ hfits => ⟨rfl, hfits⟩

theorem Traced.mono (h : program.Traced post) (himp : ∀ calls value, post calls value → post' calls value) :
    program.Traced post' := by
  induction program generalizing post post' with
  | done value => exact himp _ _ h
  | ask call next ih => exact fun answer hfits => ih answer (h answer hfits) fun calls => himp (call :: calls)

theorem Traced.bind {next : α → Program β} {mid : List Call → α → Prop} {post : List Call → β → Prop}
    (h : program.Traced mid) (hnext : ∀ calls value, mid calls value →
      (next value).Traced fun more result => post (calls ++ more) result) :
    (program >>= next).Traced post := by
  induction program generalizing mid post with
  | done value => exact hnext [] value h
  | ask call rest ih =>
    exact fun answer hfits => ih answer (h answer hfits) fun calls => hnext (call :: calls)

/-- The calls of a confined program concern its files. -/
theorem Confined.traced {own : Path → Prop} {post : α → Prop} (h : program.Confined own post) :
    program.Traced fun calls value => (∀ call ∈ calls, call.Within own) ∧ post value := by
  induction program with
  | done value => exact ⟨fun _ h => absurd h List.not_mem_nil, h⟩
  | ask call next ih =>
    intro answer hfits
    exact (ih answer (h.2 answer hfits)).mono fun calls value ⟨hcalls, hpost⟩ =>
      ⟨List.forall_mem_cons.mpr ⟨h.1, hcalls⟩, hpost⟩

/-- A run on a storage that answers handles of the file asked for is one of the ways a program can go. -/
theorem Traced.run {handler : Handler σ} (hfits : ∀ (call : Call) s, call.Fits (handler call s).1)
    (h : program.Traced post) (s : σ) : post (program.calls handler s) (program.run handler s).1 := by
  induction program generalizing post s with
  | done value => exact h
  | ask call next ih => exact ih _ (h _ (hfits call s)) _

end Program

end Storage

namespace Unreliable

open Storage Program

/-- Also the handle of a call that fails is one of the file asked for. -/
theorem fits_handler (call : Call) (state : Unreliable) : call.Fits (handler call state).1 := by
  rcases handler_cases call state with ⟨ha, -⟩ | ⟨error, keep, ha, -⟩
  · rw [ha]
    exact Memory.fits_handler call state.memory
  · rw [ha]
    cases call with
    | openAppend _ | openRead _ => exact nofun
    | append appender bytes =>
      rw [Faulty.fail]
      split
      · rfl
      · exact Memory.fits_handler (.append appender (bytes.take keep)) state.memory
    | flush _ | sync _ => rfl
    | _ => trivial

variable {own : Path → Prop} {call : Call} {path : Path}

/-- A call leaves the files as they are that it does not concern, also where it fails. -/
theorem find?_handler_of_ne (hcall : call.Within own) (hne : ∀ mine, own mine → mine.components ≠ path.components)
    (state : Unreliable) : (handler call state).2.memory.find? path = state.memory.find? path := by
  rcases handler_cases call state with ⟨-, hm⟩ | ⟨error, keep, -, hm⟩
  · rw [hm]
    exact Memory.find?_handler_of_ne hcall hne
  · rw [hm]
    cases call with
    | append appender bytes =>
      rw [Faulty.fail]
      split
      · rfl
      · have hcut : (Call.append appender (bytes.take keep)).Within own := hcall
        exact Memory.find?_handler_of_ne hcut hne
    | list _ | probe _ | delete _ | rename _ _ => exact hcall.elim
    | _ => rfl

/-- **A run leaves the files as they are that none of its calls concerns.** -/
theorem find?_run_of_calls {α : Type} {program : Program α}
    (hne : ∀ mine, own mine → mine.components ≠ path.components) :
    ∀ {state : Unreliable}, (∀ call ∈ program.calls handler state, call.Within own) →
      (program.run handler state).2.memory.find? path = state.memory.find? path := by
  induction program with
  | done value => exact fun _ => rfl
  | ask call next ih =>
    intro state hcalls
    obtain ⟨hfirst, hrest⟩ := List.forall_mem_cons.mp hcalls
    exact (ih _ hrest).trans (find?_handler_of_ne hfirst hne state)

end Unreliable

end BlockShuffle
