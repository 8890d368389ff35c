import Mathlib
import BlockShuffle.Proofs.Storage.Steady
import BlockShuffle.Proofs.Storage.Stepwise

/-!
# Reading a memory while it is written

Two programs over one memory, call by call. The reader is the one that is run; between two of its calls the
writer makes as many as it is given turns, which is any number of them each time, so a statement about all turns
is one about every interleaving. The calls of the writer may fail, those of the reader do not.

A reader looks at many moments, and what it saw at one it relies on at the next ones. `Ahead` is what makes that
right: a writer that takes nothing away has left in place whatever was there at a moment, so from there on the
memory offers all files of that moment (`offers_ahead`).

The writer's calls come between calls of the reader and never inside one. A single call of a storage is taken to
happen at once; what a file system does about an append that is read while it is made is not described. The
turns are a number for each call of the reader, so every interleaving of the two is one of them, and what a call
of the reader was answered from is written down beside it.

The clock and the waits of the reader are calls as well, and the writer may go on meanwhile. `Ahead` has a file
and a moment as parameters because a reader's knowledge begins with one call, the one that takes a size, and
what it knew before is of no use.
-/

set_option autoImplicit false

namespace BlockShuffle

open Storage Program

variable {α β γ : Type}

/-! ## Turns -/

/-- What there is beside the reader. -/
structure Shared (α : Type) where
  /-- What is left of the writer. -/
  writer : Program α
  storage : Unreliable
  /-- How many calls the writer makes before each call of the reader. -/
  turns : Nat → Nat
  /-- The calls of the reader, the last one first, with the memories that answered them. -/
  seen : List (Call × Memory)

namespace Shared

/-- The writer, and the storage, when the reader's next call is answered. -/
def met (world : Shared α) : Program α × Unreliable :=
  world.writer.steps Unreliable.handler (world.turns 0) world.storage

def handler : Handler (Shared α) := fun call world =>
  let (writer, storage) := world.met
  let (answer, memory) := Memory.handler call storage.memory
  (answer, ⟨writer, { storage with memory }, fun k => world.turns (k + 1), (call, storage.memory) :: world.seen⟩)

/-- Calls that change no memory. -/
def Looks (call : Call) : Prop := ∀ memory, (Memory.handler call memory).2 = memory

theorem handler_of_looks {call : Call} (h : Looks call) (world : Shared α) :
    handler call world = ((Memory.handler call world.met.2.memory).1,
      ⟨world.met.1, world.met.2, fun k => world.turns (k + 1), (call, world.met.2.memory) :: world.seen⟩) := by
  rw [handler]
  dsimp only
  rw [h]

/-! ## From a moment on -/

/-- The size of this file was taken at this moment and at no other, and whatever was there then is still there. -/
structure Ahead (path : Path) (moment : Memory) (world : Shared α) : Prop where
  adds : world.writer.Only Call.Adds
  extends_moment : moment.Extends world.storage.memory
  seen_iff : ∀ other, (.size { path }, other) ∈ world.seen ↔ other = moment

variable {call : Call} {path : Path} {moment : Memory} {world : Shared α}

theorem Ahead.extends_met (h : Ahead path moment world) : moment.Extends world.met.2.memory :=
  h.extends_moment.trans (Memory.extends_steps h.adds _ _)

theorem Ahead.step (h : Ahead path moment world) (hlooks : Looks call) (hcall : call ≠ .size { path }) :
    Ahead path moment (handler call world).2 := by
  rw [handler_of_looks hlooks]
  refine ⟨h.adds.steps _ _, h.extends_met, fun other => ?_⟩
  rw [List.mem_cons, h.seen_iff, Prod.mk.injEq]
  exact or_iff_right fun ⟨heq, _⟩ => hcall heq.symm

theorem ahead_met (hadds : world.writer.Only Call.Adds)
    (hunseen : ∀ other, (.size { path }, other) ∉ world.seen) :
    Ahead path world.met.2.memory (handler (.size { path }) world).2 := by
  rw [handler_of_looks fun _ => rfl]
  refine ⟨hadds.steps _ _, Memory.Extends.refl _, fun other => ?_⟩
  rw [List.mem_cons, Prod.mk.injEq, or_iff_left (hunseen other)]
  exact and_iff_right rfl

theorem holds_ahead {file : Path} {contents : Contents} (hfind : moment.find? file = some contents) :
    Holds (handler : Handler (Shared α)) (Ahead path moment) { path := file } contents.bytes := by
  refine ⟨contents.length_lt, fun offset length hle world h => ?_⟩
  have hlooks : Looks (.readAt { path := file } offset length) := fun _ => rfl
  rw [Program.readAt, run_call]
  refine ⟨?_, h.step hlooks nofun⟩
  obtain ⟨more, hmore⟩ := h.extends_met file _ (Memory.bytes?_of_find? hfind)
  obtain ⟨later, hlater, hbytes⟩ := Option.map_eq_some_iff.mp hmore
  rw [handler_of_looks hlooks]
  change Memory.readAt _ _ _ _ = _
  rw [Memory.readAt, hlater]
  dsimp only
  rw [Contents.slice?_eq_slice?_bytes, hbytes, Bytes.slice?_append (Bytes.slice?_eq_some_iff.mpr ⟨hle, rfl⟩)]

/-- **What was there at a moment can be read from then on.** -/
theorem offers_ahead : Offers (handler : Handler (Shared α)) (Ahead path moment) moment.bytes? := by
  constructor
  · intro file bytes hbytes world h
    have hlooks : Looks (.openRead file) := fun _ => rfl
    rw [Program.openRead, run_call]
    refine ⟨⟨{ path := file }, ?_, ?_⟩, h.step hlooks (by rintro ⟨⟩)⟩
    · obtain ⟨more, hmore⟩ := h.extends_met file bytes hbytes
      obtain ⟨later, hlater, -⟩ := Option.map_eq_some_iff.mp hmore
      rw [handler_of_looks hlooks, Memory.handler, hlater]
    · obtain ⟨contents, hfind, rfl⟩ := Option.map_eq_some_iff.mp hbytes
      exact holds_ahead hfind
  · intro microseconds world h
    rw [Program.pause, run_call]
    exact ⟨trivial, h.step (fun _ => rfl) (by rintro ⟨⟩)⟩

end Shared

end BlockShuffle
