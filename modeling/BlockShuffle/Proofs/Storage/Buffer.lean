import Mathlib
import BlockShuffle.Proofs.Storage.Mirror

/-!
# Appending through a buffer

In memory an append is in the file at once. On a disk it may be held back, in part or as a whole, depending on how
much is held back already and how much there is to append. `InStep` is what does not depend on that: the disk as it
will be once everything was sent holds the same files as the memory. Appending keeps it however the bytes are cut
(`InStep.append`), and behind a flush there is nothing to wait for (`InStep.flush`).

The state that the buffer of a handle is in is described by what was sent, not by what is in the buffer:
`HoldsBack` has the contents in memory and the part of them that is on the disk, and the rest is what is held
back. An append only makes the contents longer, whichever of its pieces are sent, so no case of the buffer's
rules is visible outside `accept`. How large a buffer is matters nowhere else.

Appending in memory is refused where the file would be longer than an offset can say. On the disk the refusal
would come when the bytes are sent, at a later call perhaps, so for an append that memory refuses nothing is
claimed about the disk. Two handles of one file are left out as well. Each would have a buffer of its own, and
what the file holds then depends on when they are flushed.
-/

set_option autoImplicit false

namespace BlockShuffle

open Storage
open BlockShuffle.Path (IsName)
open Disk (Placed)

namespace Disk

variable {disk : Disk} {number : Nat}

theorem change_change (disk : Disk) (number : Nat) (node node' : DiskNode) :
    (disk.change number node).change number node' = disk.change number node' := by
  rw [change, change, change, Array.setIfInBounds_setIfInBounds]

theorem change_self {node : DiskNode} (h : disk.nodes[number]? = some node) : disk.change number node = disk := by
  obtain ⟨hlt, rfl⟩ := Array.getElem?_eq_some_iff.mp h
  have hnodes : disk.nodes.setIfInBounds number disk.nodes[number] = disk.nodes := by
    rw [Array.setIfInBounds, dif_pos hlt, Array.set_getElem_self]
  rw [change, hnodes]

theorem contents_of_file {contents : Contents} (h : disk.nodes[number]? = some (.file contents)) :
    disk.contents number = contents := by
  rw [Disk.contents, h]

/-- Bytes that a file has room for are sent to it. -/
theorem write_eq {contents longer : Contents} {bytes : Bytes} (h : disk.nodes[number]? = some (.file contents))
    (hlonger : longer.bytes = contents.bytes ++ bytes) :
    disk.write number bytes = .ok (disk.change number (.file longer)) := by
  rw [write, contents_of_file h]
  cases happend : contents.append? bytes with
  | none =>
    rw [Contents.append?_eq_none_iff, ← Contents.length_bytes, ← List.length_append, ← hlonger,
      Contents.length_bytes] at happend
    exact absurd longer.length_lt (Nat.not_lt.mpr happend)
  | some found =>
    have hfound : found = longer := Contents.ext_bytes ((Contents.bytes_of_append? happend).trans hlonger.symm)
    rw [hfound]

end Disk

variable {dir : Path} {here number : Nat} {range name : List Char} {memory memory' : Memory} {disk : Disk}
  {appender appender' other : Appender} {contents sent : Contents}

/-- The file has these contents in memory, and the disk has sent this much of them to it. -/
structure HoldsBack (dir : Path) (here : Nat) (range name : List Char) (memory : Memory) (disk : Disk)
    (appender other : Appender) (number : Nat) (contents sent : Contents) : Prop where
  path : appender.path = (dir.join range).join name
  other_path : other.path = appender.path
  position : appender.position = contents.size
  other_position : other.position = contents.size
  file : other.file = some number
  placed : disk.Placed here range name number
  stored : disk.nodes[number]? = some (.file sent)
  held : contents.bytes = sent.bytes ++ other.unflushed
  find : memory.find? appender.path = some contents
  mirrors : Mirrors dir here memory (disk.change number (.file contents))

/-- Once the disk has sent what it holds back for this file, it holds the same files as the memory. -/
def InStep (dir : Path) (here : Nat) (range name : List Char) (memory : Memory) (disk : Disk)
    (appender other : Appender) : Prop :=
  ∃ number contents sent, HoldsBack dir here range name memory disk appender other number contents sent

theorem InStep.position_eq (h : InStep dir here range name memory disk appender other) :
    other.position = appender.position := by
  obtain ⟨number, contents, sent, h⟩ := h
  exact h.other_position.trans h.position.symm

theorem AtRest.inStep (h : AtRest dir here range name memory disk appender other)
    (hmirrors : Mirrors dir here memory disk) (hrange : IsName range) (hname : IsName name) :
    InStep dir here range name memory disk appender other := by
  obtain ⟨number, contents, hnumber, hplaced, hfind, hposition⟩ := h.file
  obtain ⟨number', hplaced', hfile⟩ := (hmirrors.files hrange hname).mp (h.path ▸ hfind)
  obtain rfl := hplaced.unique hplaced'
  refine ⟨number, contents, contents, h.path, h.other_path, hposition, h.position.trans hposition, hnumber, hplaced,
    hfile, ?_, hfind, ?_⟩
  · rw [h.sent, List.append_nil]
  · rw [Disk.change_self hfile]
    exact hmirrors

namespace HoldsBack

/-- What is held back is sent. -/
theorem flush (h : HoldsBack dir here range name memory disk appender other number contents sent) :
    ∃ later, Disk.flush other disk = ((.ok (), { other with unflushed := [] }), later) ∧
      HoldsBack dir here range name memory later appender { other with unflushed := [] } number contents contents ∧
      disk.Extends later := by
  have hextends := Disk.extends_change_file h.stored contents
  have hlt := (Array.getElem?_eq_some_iff.mp h.stored).1
  refine ⟨disk.change number (.file contents), ?_, ?_, hextends⟩
  · obtain ⟨path, position, file, unflushed⟩ := other
    cases (h.file : file = some number)
    rw [Disk.flush]
    dsimp only
    split
    · rename_i hempty
      obtain rfl := List.isEmpty_iff.mp hempty
      have hsame : contents = sent := Contents.ext_bytes (h.held.trans (List.append_nil _))
      rw [hsame, Disk.change_self h.stored]
    · rw [Disk.write_eq h.stored h.held]
  · refine { h with
      placed := h.placed.of_extends hextends, stored := ?_, held := (List.append_nil _).symm, mirrors := ?_ }
    · rw [Disk.nodes_change, if_pos rfl, if_pos hlt]
    · rw [Disk.change_change]
      exact h.mirrors

/-- Bytes that are fewer than a buffer holds are held back, and others are sent behind those that were. -/
theorem accept (h : HoldsBack dir here range name memory disk appender other number contents sent) {bytes : Bytes}
    (hroom : bytes.length < Disk.bufferSize ∨ other.unflushed = []) {longer : Contents}
    (hlonger : longer.bytes = contents.bytes ++ bytes) (hrange : IsName range) (hname : IsName name) :
    ∃ held later sent', Disk.accept other bytes disk = ((.ok (), { other with unflushed := held }), later) ∧
      HoldsBack dir here range name (memory.insert appender.path longer) later
        { appender with position := longer.size } { other with unflushed := held, position := longer.size }
        number longer sent' ∧
      disk.Extends later := by
  have hlt := (Array.getElem?_eq_some_iff.mp h.stored).1
  have hextends := Disk.extends_change_file h.stored longer
  -- The disk as it will be has the bytes too.
  have hmirrors : Mirrors dir here (memory.insert appender.path longer) (disk.change number (.file longer)) := by
    rw [← Disk.change_change disk number (.file contents), h.path]
    have hstored : (disk.change number (.file contents)).nodes[number]? = some (.file contents) := by
      rw [Disk.nodes_change, if_pos rfl, if_pos hlt]
    exact h.mirrors.change hrange hname (h.placed.of_extends (Disk.extends_change_file h.stored contents)) hstored
      longer
  rw [Disk.accept]
  split
  · refine ⟨other.unflushed ++ bytes, disk, sent, rfl, ?_, Disk.Extends.refl disk⟩
    refine ⟨h.path, h.other_path, rfl, rfl, h.file, h.placed, h.stored, ?_, Memory.find?_insert_self _ _ _, hmirrors⟩
    rw [hlonger, h.held, List.append_assoc]
  · rename_i hlarge
    have hempty : other.unflushed = [] := hroom.resolve_left hlarge
    have hsent : longer.bytes = sent.bytes ++ bytes := by rw [hlonger, h.held, hempty, List.append_nil]
    refine ⟨[], disk.change number (.file longer), longer, ?_, ?_, hextends⟩
    · obtain ⟨path, position, file, unflushed⟩ := other
      cases (h.file : file = some number)
      cases hempty
      rw [Option.getD_some, Disk.write_eq h.stored hsent]
    · refine ⟨h.path, h.other_path, rfl, rfl, h.file, h.placed.of_extends hextends, ?_, (List.append_nil _).symm,
        Memory.find?_insert_self _ _ _, ?_⟩
      · rw [Disk.nodes_change, if_pos rfl, if_pos hlt]
      · rw [Disk.change_change]
        exact hmirrors

end HoldsBack

/-- **Behind a flush nothing is held back.** -/
theorem InStep.flush (h : InStep dir here range name memory disk appender other) :
    ∃ other' later, Disk.flush other disk = ((.ok (), other'), later) ∧ Mirrors dir here memory later ∧
      AtRest dir here range name memory later appender other' ∧ disk.Extends later := by
  obtain ⟨number, contents, sent, h⟩ := h
  obtain ⟨later, hflush, hafter, hextends⟩ := h.flush
  refine ⟨_, later, hflush, ?_, ?_, hextends⟩
  · have := hafter.mirrors
    rwa [Disk.change_self hafter.stored] at this
  · exact ⟨hafter.path, hafter.other_path, hafter.other_position.trans hafter.position.symm, rfl, number, contents,
      hafter.file, hafter.placed, hafter.find, hafter.position⟩

/-- **An append that is taken in memory is taken on the disk**, and the position is the same. -/
theorem InStep.append (h : InStep dir here range name memory disk appender other) (hrange : IsName range)
    (hname : IsName name) {bytes : Bytes}
    (happend : Memory.append appender bytes memory = ((.ok (), appender'), memory')) :
    ∃ other' later, Disk.append other bytes disk = ((.ok (), other'), later) ∧
      InStep dir here range name memory' later appender' other' ∧ disk.Extends later := by
  obtain ⟨number, contents, sent, h⟩ := h
  rw [Memory.append, h.find] at happend
  dsimp only at happend
  cases hlonger : contents.append? bytes with
  | none =>
    rw [hlonger] at happend
    cases happend
  | some longer =>
    rw [hlonger] at happend
    cases happend
    have hbytes := Contents.bytes_of_append? hlonger
    have hlength : contents.length + bytes.length < UInt64.size := by
      rw [← Contents.length_bytes, ← List.length_append, ← hbytes]
      exact longer.length_lt
    have hmoved : other.position + UInt64.ofNat bytes.length = longer.size := by
      rw [← UInt64.toNat_inj, UInt64.toNat_add, UInt64.toNat_ofNat', h.other_position, Contents.toNat_size,
        Contents.toNat_size, ← Contents.length_bytes longer, hbytes, List.length_append, Contents.length_bytes]
      have hsize : UInt64.size = 2 ^ 64 := rfl
      omega
    -- If the bytes have no room, what is held back goes first.
    obtain ⟨held, mid, sent', hflushed, hmid, hroom, hextends⟩ : ∃ held mid sent',
        (if Disk.bufferSize < other.unflushed.length + bytes.length then Disk.flush other disk
          else ((.ok (), other), disk)) = ((.ok (), { other with unflushed := held }), mid) ∧
        HoldsBack dir here range name memory mid appender { other with unflushed := held } number contents sent' ∧
        (bytes.length < Disk.bufferSize ∨ held = []) ∧ disk.Extends mid := by
      split
      · obtain ⟨mid, hflush, hmid, hextends⟩ := h.flush
        exact ⟨[], mid, contents, hflush, hmid, Or.inr rfl, hextends⟩
      · rename_i hroom
        refine ⟨other.unflushed, disk, sent, rfl, h, ?_, Disk.Extends.refl disk⟩
        rw [← List.length_eq_zero_iff]
        omega
    obtain ⟨held', later, sent'', haccept, hafter, hextends'⟩ := hmid.accept hroom hbytes hrange hname
    refine ⟨_, later, ?_, ⟨number, longer, sent'', hafter⟩, hextends.trans hextends'⟩
    rw [Disk.append, if_neg]
    · dsimp only
      rw [hflushed]
      dsimp only
      rw [haccept, hmoved]
    · rw [h.other_position, Contents.toNat_size]
      omega

end BlockShuffle
