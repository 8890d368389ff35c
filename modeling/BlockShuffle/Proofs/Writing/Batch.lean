import Mathlib
import BlockShuffle.Proofs.Storage.Memory
import BlockShuffle.Proofs.Storage.Unreliable
import BlockShuffle.Proofs.Writing.Backed

/-!
# Writing a batch to a file pair

What a batch that was written has added to its pair, to the byte: the payloads behind the data that was there,
and the entries of their layout behind the index that was there (`ensures_writeBatch`). It does not matter what
was there, nor whether the pair is new.

On the way there the batch may stop anywhere. What is asked of the memory then is left open: it is any invariant
that more bytes in the data file leave true (`AllowsData`), and any part of the entries in the index, once all
of the payloads are in the data file (`AllowsEntries`). No other change is made.

The two files are not written in turns. First all payloads, then a push of the data, then all entries in one
append, then a push of the index, and whatever fails, what is behind it is not done. That order is what the
conditions follow: `AllowsEntries` may rely on the payloads being there and `AllowsData` on nothing. It is also
why an entry never speaks of bytes that are not in the data file, whichever call fails and however much of it
was handed over.

Offsets come from where the appender says it is, so they are right if its position is the end of the file, and
that is part of what is known of an open pair (`Opened`). A batch of no blocks is written like any other, with
an append of nothing to the index. Whether the blocks were fit to be written was asked before.
-/

set_option autoImplicit false

namespace BlockShuffle

open Storage Program

/-- The files of a pair are there, and the data appender is at the end of the data. -/
structure Opened (files : ShardFiles) (data : Appender) (front index : Contents) (memory : Memory) :
    Prop where
  data_eq : memory.find? files.data = some front
  index_eq : memory.find? files.index = some index
  path_eq : data.path = files.data
  position_eq : data.position = front.size

/-! ## What a batch can change -/

/-- An invariant that more bytes in a data file leave true. -/
def AllowsData (files : ShardFiles) (inv : Memory → Prop) : Prop :=
  ∀ memory contents longer, inv memory → memory.find? files.data = some contents →
    contents.bytes <+: longer.bytes → inv (memory.insert files.data longer)

/-- An invariant that any part of the entries of a batch leaves true, once its payloads are behind what the
data file held. -/
def AllowsEntries (files : ShardFiles) (front index : Contents) (blocks : List Block)
    (inv : Memory → Prop) : Prop :=
  ∀ memory longer index' count, inv memory → memory.find? files.data = some longer →
    longer.bytes = front.bytes ++ payloads blocks → memory.find? files.index = some index →
    index'.bytes = index.bytes ++ (IndexEntry.encodeAll (layOut front.length blocks)).take count →
    inv (memory.insert files.index index')

namespace OpenPair

section Batch

variable {files : ShardFiles} {inv : Memory → Prop}

/-! ## The data file -/

theorem ensures_appendData (hne : files.data.components ≠ files.index.components)
    (hinv : AllowsData files inv) {data : Appender} {front index : Contents} {bytes : Bytes} :
    (Program.append data bytes).Ensures
      (fun memory => inv memory ∧ Opened files data front index memory)
      (fun result memory => inv memory ∧
        ∀ value, result.1 = .ok value → data.position = front.size ∧
          ∃ longer : Contents, longer.bytes = front.bytes ++ bytes ∧
            Opened files result.2 longer index memory) := by
  -- What the file is replaced by has the old bytes in front.
  have hgrow : ∀ {memory contents longer more}, inv memory → Opened files data front index memory →
      memory.find? data.path = some contents → Contents.append? contents more = some longer →
      contents = front ∧ inv (memory.insert files.data longer) := by
    intro memory contents longer more hmemory hopened hfind hlonger
    rw [hopened.path_eq, hopened.data_eq] at hfind
    cases hfind
    refine ⟨rfl, hinv _ _ _ hmemory hopened.data_eq ?_⟩
    rw [Contents.bytes_of_append? hlonger]
    exact List.prefix_append _ _
  apply ensures_append
  · rintro memory error ⟨hmemory, -⟩
    exact ⟨hmemory, fun value hvalue => by cases hvalue⟩
  · rintro memory contents longer error count ⟨hmemory, hopened⟩ hfind hlonger
    refine ⟨?_, fun value hvalue => by cases hvalue⟩
    rw [hopened.path_eq]
    exact (hgrow hmemory hopened hfind hlonger).2
  · rintro memory contents longer ⟨hmemory, hopened⟩ hfind hlonger
    obtain ⟨rfl, hmemory'⟩ := hgrow hmemory hopened hfind hlonger
    rw [hopened.path_eq]
    refine ⟨hmemory', fun _ _ => ⟨hopened.position_eq, longer, Contents.bytes_of_append? hlonger, ?_⟩⟩
    refine ⟨Memory.find?_insert_self _ _ _, ?_, rfl, rfl⟩
    rw [Memory.find?_insert_of_ne hne]
    exact hopened.index_eq

/-- Payloads that were appended are behind the data that was there, and their entries say so. -/
theorem ensures_appendPayloads (hne : files.data.components ≠ files.index.components)
    (hinv : AllowsData files inv) {index : Contents} {blocks : List Block} :
    ∀ {data : Appender} {done : List IndexEntry} {front : Contents},
      (OpenPair.appendPayloads data done blocks).Ensures
        (fun memory => inv memory ∧ Opened files data front index memory)
        (fun result memory => inv memory ∧
          ∀ entries, result.1 = .ok entries →
            entries = done.reverse ++ layOut front.length blocks ∧
            ∃ longer : Contents, longer.bytes = front.bytes ++ payloads blocks ∧
              Opened files result.2 longer index memory) := by
  -- By the blocks, with the file as it is so far: how long that is is the offset of the next entry.
  induction blocks with
  | nil =>
    intro data done front
    apply ensures_done
    rintro memory ⟨hmemory, hopened⟩
    refine ⟨hmemory, fun entries hentries => ?_⟩
    cases hentries
    exact ⟨by rw [layOut, List.append_nil], front, by simp [payloads], hopened⟩
  | cons block blocks ih =>
    intro data done front
    rw [OpenPair.appendPayloads]
    refine (ensures_appendData hne hinv).bind ?_
    rintro ⟨error | _, data'⟩
    · apply ensures_done
      rintro memory ⟨hmemory, -⟩
      exact ⟨hmemory, fun entries hentries => by cases hentries⟩
    · rintro state ⟨hmemory, happended⟩
      obtain ⟨hposition, longer, hlonger, hopened⟩ := happended () rfl
      obtain ⟨hmemory', hrest⟩ := ih state ⟨hmemory, hopened⟩
      refine ⟨hmemory', fun entries hentries => ?_⟩
      obtain ⟨hentries, longest, hlongest, hopened'⟩ := hrest entries hentries
      have hlength : longer.length = front.length + block.payload.length := by
        rw [← Contents.length_bytes, hlonger, List.length_append, Contents.length_bytes]
      refine ⟨?_, longest, ?_, hopened'⟩
      · rw [hentries, layOut, hlength, hposition, Contents.size_eq, List.reverse_cons,
          List.append_assoc, List.singleton_append]
      · rw [hlongest, hlonger, payloads, payloads, List.flatMap_cons, List.append_assoc]

/-! ## The index -/

/-- What appending entries comes to: if it succeeds, they are in the index behind those that were there. -/
def Appends (files : ShardFiles) (data : Appender) (longer index : Contents) (entries : List IndexEntry)
    (result : Except IoError Unit × Appender) (memory : Memory) : Prop :=
  result.1 = .ok () → result.2.path = files.index ∧ ∃ index' : Contents,
    index'.bytes = index.bytes ++ IndexEntry.encodeAll entries ∧ Opened files data longer index' memory

variable {strategy : SyncStrategy} {appender data : Appender} {front longer index : Contents}
  {blocks : List Block}

theorem ensures_appendIndex (hne : files.data.components ≠ files.index.components)
    (hinv : AllowsEntries files front index blocks inv) (hpath : appender.path = files.index)
    (hlonger : longer.bytes = front.bytes ++ payloads blocks) :
    (Program.append appender (IndexEntry.encodeAll (layOut front.length blocks))).Ensures
      (fun memory => inv memory ∧ Opened files data longer index memory)
      (fun result memory => inv memory ∧
        Appends files data longer index (layOut front.length blocks) result memory) := by
  -- Whatever part of the entries arrives, the invariant allows it.
  have hinsert : ∀ {memory contents index'} (count : Nat), inv memory →
      Opened files data longer index memory → memory.find? appender.path = some contents →
      Contents.append? contents
        ((IndexEntry.encodeAll (layOut front.length blocks)).take count) = some index' →
      contents = index ∧ inv (memory.insert files.index index') := by
    intro memory contents index' count hmemory hopened hfind hindex'
    rw [hpath, hopened.index_eq] at hfind
    cases hfind
    exact ⟨rfl, hinv _ _ _ count hmemory hopened.data_eq hlonger hopened.index_eq
      (Contents.bytes_of_append? hindex')⟩
  apply ensures_append
  · rintro memory error ⟨hmemory, -⟩
    exact ⟨hmemory, nofun⟩
  · rintro memory contents index' error count ⟨hmemory, hopened⟩ hfind hindex'
    refine ⟨?_, nofun⟩
    rw [hpath]
    exact (hinsert count hmemory hopened hfind hindex').2
  · rintro memory contents index' ⟨hmemory, hopened⟩ hfind hindex'
    have hbytes := Contents.bytes_of_append? hindex'
    rw [← List.take_length (l := IndexEntry.encodeAll (layOut front.length blocks))] at hindex'
    obtain ⟨rfl, hmemory'⟩ := hinsert _ hmemory hopened hfind hindex'
    rw [hpath]
    refine ⟨hmemory', fun _ => ⟨rfl, index', hbytes, ?_, ?_, hopened.path_eq, hopened.position_eq⟩⟩
    · rw [Memory.find?_insert_of_ne hne.symm]
      exact hopened.data_eq
    · exact Memory.find?_insert_self _ _ _

theorem ensures_appendEntries (hne : files.data.components ≠ files.index.components)
    (hinv : AllowsEntries files front index blocks inv) (hpath : appender.path = files.index)
    (hlonger : longer.bytes = front.bytes ++ payloads blocks) :
    (OpenPair.appendEntries strategy appender (layOut front.length blocks)).Ensures
      (fun memory => inv memory ∧ Opened files data longer index memory)
      (fun result memory => inv memory ∧
        Appends files data longer index (layOut front.length blocks) result memory) := by
  rw [OpenPair.appendEntries]
  refine (ensures_appendIndex hne hinv hpath hlonger).bind ?_
  rintro ⟨error | ⟨⟩, appender'⟩
  · apply ensures_done
    rintro memory ⟨hmemory, -⟩
    exact ⟨hmemory, nofun⟩
  · refine ensures_push.mono (fun _ h => h) ?_
    rintro ⟨pushed, appender''⟩ memory ⟨rfl, hmemory, happended⟩
    exact ⟨hmemory, fun _ => happended rfl⟩

/-! ## The batch -/

/-- An open pair is on these files, and its index ends with a whole entry. -/
structure IsOn (files : ShardFiles) (pair : OpenPair) (front index : Contents) (memory : Memory) :
    Prop where
  files_eq : pair.files = files
  path_eq : pair.index.path = files.index
  opened : Opened files pair.data front index memory
  whole : index.bytes.length % IndexEntry.size = 0

/-- **A batch that was written is behind what its pair held**, and a batch that stopped anywhere has kept
whatever appends to the pair can keep. -/
theorem ensures_writeBatch (hne : files.data.components ≠ files.index.components)
    (hdata : AllowsData files inv) (hentries : AllowsEntries files front index blocks inv)
    {pair : OpenPair} :
    (pair.writeBatch strategy blocks).Ensures
      (fun memory => inv memory ∧ pair.IsOn files front index memory)
      (fun result memory => inv memory ∧ (result.1 = .ok () → ∃ longer index' : Contents,
        longer.bytes = front.bytes ++ payloads blocks ∧
        index'.bytes = index.bytes ++ IndexEntry.encodeAll (layOut front.length blocks) ∧
        result.2.IsOn files longer index' memory)) := by
  apply Ensures.of_each
  rintro memory ⟨hmemory, hfiles, hpath, hopened, hwhole⟩
  rw [OpenPair.writeBatch]
  refine ((ensures_appendPayloads hne hdata).from_memory ⟨hmemory, hopened⟩).bind ?_
  rintro ⟨error | entries, data⟩
  · apply ensures_done
    rintro memory ⟨hmemory, -⟩
    exact ⟨hmemory, nofun⟩
  -- The payloads are there, and the entries are what they are laid out as.
  apply Ensures.of_each
  rintro memory ⟨hmemory, happended⟩
  obtain ⟨hlayout, longer, hlonger, hopened⟩ := happended entries rfl
  rw [List.reverse_nil, List.nil_append] at hlayout
  subst hlayout
  refine ensures_push.bind ?_
  rintro ⟨error | ⟨⟩, data'⟩
  · apply ensures_done
    rintro _ ⟨-, rfl⟩
    exact ⟨hmemory, nofun⟩
  apply Ensures.of_each
  rintro _ ⟨rfl, rfl⟩
  refine ((ensures_appendEntries hne hentries hpath hlonger).from_memory ⟨hmemory, hopened⟩).bind ?_
  rintro ⟨written, appender⟩
  apply ensures_done
  rintro memory ⟨hmemory, hindexed⟩
  refine ⟨hmemory, fun hok => ?_⟩
  obtain ⟨hpath', index', hindex', hopened'⟩ := hindexed hok
  refine ⟨longer, index', hlonger, hindex', hfiles, hpath', hopened', ?_⟩
  rw [hindex', List.length_append, IndexEntry.length_encodeAll, Nat.add_mul_mod_self_right, hwhole]

end Batch

end OpenPair

end BlockShuffle
