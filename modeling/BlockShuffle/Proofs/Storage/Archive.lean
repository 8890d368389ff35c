import Mathlib
import BlockShuffle.Storage.Disk
import BlockShuffle.Proofs.Storage.Transient

/-!
# Storages that a reader leaves as they are

Memory and disk are not changed by being looked at. So whatever a reader asks of one of them has one answer, and a
program that only looks comes to the same whenever it is run: `Yields` in the one state the storage is in.

What opens is not always a file. A disk opens a directory as well, which has a length and no bytes, and says so only
when it is read. `Archive` is a storage in one state, with the files that can be read and with nothing else but such
directories (`Shut`); a memory is one (`Memory.archive`), and so is a disk (`Disk.archive`).

With a state that does not change there is nothing to quantify over but the calls, and `Call.Looks` says which
calls those are. Opening for reading is one, even though it takes a handle: handles for reading are values here,
and the storage does not count them. Two programs that only look may be run in either order, or one of them
twice.

A directory that was opened by mistake has to be in the account because the probe before it does not tell
directories from files. `Shut` says of it just what is needed, that no read of at least one byte succeeds.
Memory has nothing of the kind, since there a path can be a file and a directory at once and a file is what
opens.
-/

set_option autoImplicit false

namespace BlockShuffle

namespace Storage

variable {σ α : Type} {handler : Handler σ} {s : σ} {files : Path → Option Bytes}

/-- The calls that a reader makes. -/
def Call.Looks : Call → Prop
  | .openRead _ => True
  | .list _ => True
  | .probe _ => True
  | .size _ => True
  | .readAt _ _ _ => True
  | .pause _ => True
  | _ => False

/-- Fetching is looking. -/
theorem Call.Fetches.looks {call : Call} (h : call.Fetches) : call.Looks := by
  cases call with
  | openRead _ | readAt _ _ _ | pause _ => exact trivial
  | _ => exact h.elim

/-- A reader of something that has a length, but nothing inside it can be read. -/
def Shut (handler : Handler σ) (s : σ) (reader : Reader) : Prop :=
  ∃ size fault, (handler (.size reader) s).1 = .ok size ∧ ∀ offset length, 0 < length → offset + length ≤ size →
    (handler (.readAt reader offset length) s).1 = .error fault

/-- A storage that looking at leaves in its state, with these files to read. -/
structure Archive (handler : Handler σ) (s : σ) (files : Path → Option Bytes) : Prop where
  looks : ∀ call : Call, call.Looks → (handler call s).2 = s
  file : ∀ path bytes, files path = some bytes →
    ∃ reader, (handler (.openRead path) s).1 = .ok reader ∧ Reads handler (· = s) reader bytes
  other : ∀ path reader, files path = none → (handler (.openRead path) s).1 = .ok reader → Shut handler s reader

namespace Archive

/-- A call that looks has one answer. -/
theorem answers (h : Archive handler s files) (call : Call) (hlooks : call.Looks) :
    (Program.call call).Yields handler (· = s) (· = (handler call s).1) := by
  rintro _ rfl
  exact ⟨rfl, h.looks call hlooks⟩

theorem waits (h : Archive handler s files) : Waits handler (· = s) :=
  fun microseconds => (h.answers (.pause microseconds) trivial).mono fun _ _ => trivial

theorem openRead (h : Archive handler s files) {path : Path} {bytes : Bytes} (hbytes : files path = some bytes) :
    (Program.openRead path).Yields handler (· = s)
      fun answer => ∃ reader, answer = .ok reader ∧ Reads handler (· = s) reader bytes := by
  obtain ⟨reader, hreader, hreads⟩ := h.file path bytes hbytes
  apply (h.answers (.openRead path) trivial).mono
  rintro _ rfl
  exact ⟨reader, hreader, hreads⟩

theorem offers (h : Archive handler s files) : Offers handler (· = s) files := by
  refine ⟨fun path bytes hbytes => (h.openRead hbytes).mono ?_, h.waits⟩
  rintro _ ⟨reader, rfl, hreads⟩
  exact ⟨reader, rfl, hreads.holds⟩

theorem holdsStill (h : Archive handler s files) : HoldsStill handler (· = s) := by
  rintro call hfetches _ rfl
  exact ⟨h.looks call hfetches.looks, fun s' hs' => by rw [hs']⟩

end Archive

end Storage

open Storage Program

/-! ## Retries -/

/-- A call that always has one outcome has it as its last one, too. -/
theorem yields_retried_settle {σ α : Type} {handler : Handler σ} {good : σ → Prop}
    {operation : Program (Except IoError α)} {outcome : Except IoError α} (hpause : Waits handler good)
    (policy : RetryPolicy) (h : operation.Yields handler good (· = outcome)) :
    (retried policy operation).Yields handler good (· = settle (policy.maxRetries + 1) outcome) := by
  suffices hfrom : ∀ left, (retryFrom policy Program.pause operation left).Yields handler good
      (· = settle (policy.maxRetries + 1) outcome) from hfrom policy.maxRetries
  intro left
  induction left with
  | zero =>
    rw [retryFrom]
    apply h.bind
    rintro _ rfl
    exact yields_done rfl
  | succ left ih =>
    rw [retryFrom]
    apply h.bind
    rintro _ rfl
    split
    · exact (hpause _).bind fun _ _ => ih
    · rename_i hlasts
      exact yields_done (settle_eq_of_lasts (Bool.eq_false_iff.mpr hlasts) _ _)

/-! ## Memory and disk -/

/-- A memory is left as it is. -/
theorem Memory.archive (memory : Memory) : Archive Memory.handler memory memory.bytes? where
  looks call hlooks := by
    cases call with
    | openRead _ | list _ | probe _ | size _ | readAt _ _ _ | pause _ => rfl
    | _ => exact hlooks.elim
  file path bytes hbytes := by
    obtain ⟨contents, hfind, rfl⟩ := Option.map_eq_some_iff.mp hbytes
    refine ⟨{ path }, ?_, reads_memory hfind⟩
    rw [Memory.handler, hfind]
  other path reader hnone hopen := by
    rw [Memory.handler, Option.map_eq_none_iff.mp hnone] at hopen
    cases hopen

namespace Disk

/-- The bytes of the file that a path leads to. -/
def bytes? (disk : Disk) (path : Path) : Option Bytes := (disk.find? path).map Contents.bytes

variable {disk : Disk} {path : Path} {number : Nat} {node : DiskNode}

theorem node_of_lookup (h : disk.lookup path = .ok (number, node)) : disk.nodes[number]? = some node := by
  rw [lookup] at h
  cases haccepted : accepted path with
  | error fault =>
    rw [haccepted] at h
    cases h
  | ok pieces =>
    cases hwalk : disk.walk (start path) pieces with
    | error fault =>
      simp only [haccepted, Bind.bind, Except.bind, hwalk] at h
      cases h
    | ok found =>
      simp only [haccepted, Bind.bind, Except.bind, hwalk] at h
      cases hnode : disk.nodes[found]? with
      | none =>
        rw [hnode] at h
        cases h
      | some there =>
        rw [hnode] at h
        cases h
        exact hnode

theorem openRead_of_lookup (h : disk.lookup path = .ok (number, node)) :
    disk.openRead path = .ok { path, file := some number } := by
  rw [openRead, h]

theorem reads_file {contents : Contents} (h : disk.nodes[number]? = some (.file contents)) (path : Path) :
    Reads Disk.handler (· = disk) { path, file := some number } contents.bytes where
  length_lt := contents.length_lt
  size := by
    rintro _ rfl
    refine ⟨congrArg Except.ok ?_, rfl⟩
    rw [size, Option.getD_some, h, Contents.length_bytes]
  readAt := by
    rintro offset length hle _ rfl
    refine ⟨?_, rfl⟩
    change readAt _ _ _ _ = _
    rw [readAt, Option.getD_some, h]
    dsimp only
    rw [Contents.slice?_eq_slice?_bytes, Bytes.slice?, if_pos hle]

theorem shut_directory {above length : Nat} {entries : List (List Char × Nat)}
    (h : disk.nodes[number]? = some (.directory above entries length)) (path : Path) :
    Shut Disk.handler disk { path, file := some number } := by
  refine ⟨length, OsFault.isDirectory.toIoError, ?_, fun offset count hpos hle => ?_⟩
  · change Except.ok (size _ _) = _
    rw [size, Option.getD_some, h]
  · change readAt _ _ _ _ = _
    rw [readAt, Option.getD_some, h]
    dsimp only
    rw [if_neg (by omega), if_neg (by omega)]

/-- A disk is left as it is. -/
theorem archive (disk : Disk) : Archive Disk.handler disk disk.bytes? where
  looks call hlooks := by
    cases call with
    | openRead _ | list _ | probe _ | size _ | readAt _ _ _ | pause _ => rfl
    | _ => exact hlooks.elim
  file path bytes hbytes := by
    obtain ⟨contents, hfind, rfl⟩ := Option.map_eq_some_iff.mp hbytes
    rw [find?] at hfind
    split at hfind
    · rename_i number contents hlookup
      cases hfind
      exact ⟨_, openRead_of_lookup hlookup, reads_file (node_of_lookup hlookup) path⟩
    · cases hfind
  other path reader hnone hopen := by
    change disk.openRead path = .ok reader at hopen
    rw [bytes?, Option.map_eq_none_iff, find?] at hnone
    rcases hlookup : disk.lookup path with fault | ⟨number, node⟩
    · rw [openRead, hlookup] at hopen
      cases hopen
    · rw [openRead_of_lookup hlookup] at hopen
      cases hopen
      cases node with
      | file contents =>
        rw [hlookup] at hnone
        cases hnone
      | directory above entries length => exact shut_directory (node_of_lookup hlookup) path

end Disk

end BlockShuffle
