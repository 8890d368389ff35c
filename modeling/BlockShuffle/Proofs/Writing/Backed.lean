import Mathlib
import BlockShuffle.ShardWriter
import BlockShuffle.Proofs.IndexEntry
import BlockShuffle.Proofs.Reading.Plan
import BlockShuffle.Proofs.Storage.Memory

/-!
# An index that its data file backs

What holds of a file pair at any moment, whatever failed: the index is in order, and every entry in it is the
entry of some block whose payload lies where the entry says (`Backed`). Nothing is said of bytes that no
entry points at, nor of those behind the last whole entry, so a payload append may be cut short anywhere
(`Backed.append_data`).

An entry append may be cut short anywhere as well (`Backed.append_index`): the payloads of the whole batch
are in the data file by then, and any number of the batch's entries is a prefix of them. What it needs is
that the index ends with a whole entry, and that the batch's payloads lie behind those of all earlier
entries, which is why they are laid out from the end of the data file (`layOut`).

There are several blocks with one entry, if their payloads have one checksum or their ids were used twice, so
the predicate says that there is *a* block which backs an entry, out of those that are allowed. That it is the
block one means is a matter of the ids, and is settled where a job is considered. Payloads that no entry points
at are what a failed batch leaves; nobody reads them, and later batches come behind them.

The order is stated as it is tested by a plan, so a backed pair is one that can be planned. No lemma here
mentions a storage or a program.
-/

set_option autoImplicit false

namespace BlockShuffle

/-- An entry of a block whose payload lies where the entry says. -/
def Backs (data : Bytes) (entry : IndexEntry) (block : Block) : Prop :=
  entry = OpenPair.entryAt entry.offset block ∧
    data.slice? entry.offset.toNat entry.length.toNat = some block.payload

theorem Backs.append {data : Bytes} {entry : IndexEntry} {block : Block} (h : Backs data entry block)
    (more : Bytes) : Backs (data ++ more) entry block :=
  ⟨h.1, Bytes.slice?_append h.2 more⟩

theorem Backs.stop_le {data : Bytes} {entry : IndexEntry} {block : Block} (h : Backs data entry block) :
    entry.stop ≤ data.length := (Bytes.slice?_eq_some_iff.mp h.2).1

/-- The copy of a block that has not changed since it was made. -/
def BlockCopy.ofBlock (block : Block) : BlockCopy :=
  ⟨block.id, block.task, block.length.toNat, block.uncompressedLength, block.crc, block.payload⟩

theorem Backs.ofEntry_eq {data : Bytes} {entry : IndexEntry} {block : Block} (h : Backs data entry block) :
    BlockCopy.ofEntry data entry = BlockCopy.ofBlock block := by
  obtain ⟨hentry, hslice⟩ := h
  obtain ⟨-, hpayload⟩ := Bytes.slice?_eq_some_iff.mp hslice
  rw [BlockCopy.ofEntry, hpayload, hentry]
  rfl

/-- The entries of an index that may not be there. -/
def entriesOf (index : Option Bytes) : List IndexEntry := (IndexEntry.decodeAll (index.getD [])).1

@[simp] theorem entriesOf_none : entriesOf none = [] := by simp [entriesOf]

@[simp] theorem entriesOf_some (bytes : Bytes) :
    entriesOf (some bytes) = (IndexEntry.decodeAll bytes).1 := rfl

/-- Behind a whole entry, the part of an append that arrived adds the entries that are in it in full. -/
theorem entriesOf_append_take {index : Bytes} (hwhole : index.length % IndexEntry.size = 0)
    (entries : List IndexEntry) (count : Nat) :
    entriesOf (some (index ++ (IndexEntry.encodeAll entries).take count)) =
      entriesOf (some index) ++ entries.take (count / IndexEntry.size) := by
  rw [entriesOf_some, IndexEntry.decodeAll_append _ hwhole, IndexEntry.decodeAll_take_encodeAll,
    entriesOf_some]

theorem entriesOf_append {index : Bytes} (hwhole : index.length % IndexEntry.size = 0)
    (entries : List IndexEntry) :
    entriesOf (some (index ++ IndexEntry.encodeAll entries)) = entriesOf (some index) ++ entries := by
  rw [entriesOf_some, IndexEntry.decodeAll_append _ hwhole, IndexEntry.decodeAll_encodeAll,
    entriesOf_some]

theorem entriesOf_mono {index later : Option Bytes} (h : index.getD [] <+: later.getD []) :
    entriesOf index <+: entriesOf later := by
  obtain ⟨more, hmore⟩ := h
  rw [entriesOf, entriesOf, ← hmore]
  exact IndexEntry.decodeAll_mono _ _

/-- A block is in a pair: the index has an entry of it, and the data file has its payload there. -/
def Held (data index : Option Bytes) (block : Block) : Prop :=
  ∃ bytes, data = some bytes ∧ ∃ entry ∈ entriesOf index, Backs bytes entry block

/-- What is in a pair stays in it while the files only grow. -/
theorem Held.append {data index : Option Bytes} {block : Block} (h : Held data index block) {bytes : Bytes}
    {index' : Option Bytes} (hdata : data.getD [] <+: bytes) (hindex : index.getD [] <+: index'.getD []) :
    Held (some bytes) index' block := by
  obtain ⟨front, rfl, entry, he, hbacks⟩ := h
  obtain ⟨more, rfl⟩ := hdata
  exact ⟨_, rfl, entry, (entriesOf_mono hindex).subset he, hbacks.append more⟩

/-- The index is in order, and each of its entries is backed by the data file with some allowed block. -/
structure Backed (allowed : Block → Prop) (data index : Option Bytes) : Prop where
  ordered : ReadPlan.checkOrdered 0 (entriesOf index) = .ok ()
  backed : ∀ entry ∈ entriesOf index,
    ∃ bytes, data = some bytes ∧ ∃ block, allowed block ∧ Backs bytes entry block

namespace Backed

variable {allowed : Block → Prop} {data : Option Bytes}

theorem nothing (allowed : Block → Prop) (data : Option Bytes) : Backed allowed data none :=
  ⟨by rw [entriesOf_none]; rfl, by simp⟩

theorem empty (allowed : Block → Prop) (data : Option Bytes) : Backed allowed data (some []) :=
  ⟨by simp [ReadPlan.checkOrdered], by simp⟩

theorem mono {index : Option Bytes} (h : Backed allowed data index) {more : Block → Prop}
    (hmore : ∀ block, allowed block → more block) : Backed more data index := by
  refine ⟨h.ordered, fun entry he => ?_⟩
  obtain ⟨bytes, hbytes, block, hblock, hbacks⟩ := h.backed entry he
  exact ⟨bytes, hbytes, block, hmore block hblock, hbacks⟩

/-- More bytes behind the payloads, or a data file where there was none, change nothing. -/
theorem append_data {index : Option Bytes} {bytes : Bytes} (h : Backed allowed data index)
    (hdata : data.getD [] <+: bytes) : Backed allowed (some bytes) index := by
  refine ⟨h.ordered, fun entry he => ?_⟩
  obtain ⟨front, rfl, block, hblock, hbacks⟩ := h.backed entry he
  obtain ⟨more, rfl⟩ := hdata
  exact ⟨_, rfl, block, hblock, hbacks.append more⟩

end Backed

/-! ## Laying out a batch -/

/-- The entries of blocks whose payloads lie behind one another from an offset on. -/
def layOut : (offset : Nat) → List Block → List IndexEntry
  | _, [] => []
  | offset, block :: rest =>
    OpenPair.entryAt (UInt64.ofNat offset) block :: layOut (offset + block.payload.length) rest

/-- The payloads of blocks, behind one another. -/
def payloads (blocks : List Block) : Bytes := blocks.flatMap Block.payload

/-- A block that declares the length it carries. -/
def Fits (block : Block) : Prop := block.length.toNat = block.payload.length

/-- **A batch is where its layout says**: each entry is backed by its block, none starts in front of the batch,
and they are in order. -/
theorem backs_layOut {blocks : List Block} : ∀ {front : Bytes}, (∀ block ∈ blocks, Fits block) →
    (front ++ payloads blocks).length < UInt64.size →
    List.Forall₂ (Backs (front ++ payloads blocks)) (layOut front.length blocks) blocks ∧
    (∀ entry ∈ layOut front.length blocks, front.length ≤ entry.offset.toNat) ∧
    (layOut front.length blocks).Pairwise ReadPlan.Before := by
  induction blocks with
  | nil => intro front _ _; exact ⟨List.Forall₂.nil, by simp [layOut], List.Pairwise.nil⟩
  | cons block blocks ih =>
    intro front hfits hsize
    have hfit : block.length.toNat = block.payload.length := hfits block List.mem_cons_self
    have hdata : front ++ payloads (block :: blocks) = front ++ block.payload ++ payloads blocks := by
      rw [payloads, List.flatMap_cons, List.append_assoc]
      rfl
    have hoffset : (UInt64.ofNat front.length).toNat = front.length := by
      apply UInt64.toNat_ofNat_of_lt
      rw [List.length_append] at hsize
      omega
    -- The rest is laid out behind this payload.
    have hrest := ih (fun other ho => hfits other (List.mem_cons_of_mem _ ho)) (hdata ▸ hsize)
    rw [List.length_append] at hrest
    obtain ⟨hbacks, hstarts, hpairwise⟩ := hrest
    rw [hdata, layOut]
    refine ⟨List.Forall₂.cons ⟨rfl, ?_⟩ hbacks, ?_, ?_⟩
    · rw [Bytes.slice?_eq_some_iff]
      simp only [OpenPair.entryAt]
      rw [hoffset, hfit, List.append_assoc, List.drop_left, List.take_left]
      refine ⟨?_, rfl⟩
      rw [List.length_append, List.length_append]
      omega
    · intro entry he
      rcases List.mem_cons.mp he with rfl | he
      · exact Nat.le_of_eq hoffset.symm
      · have := hstarts entry he
        omega
    · rw [List.pairwise_cons]
      refine ⟨fun later hl => ?_, hpairwise⟩
      have hstart := hstarts later hl
      rw [ReadPlan.Before, IndexEntry.stop]
      simp only [OpenPair.entryAt]
      omega

theorem exists_backs_of_forall₂ {data : Bytes} {entries : List IndexEntry} {blocks : List Block}
    (h : List.Forall₂ (Backs data) entries blocks) :
    (∀ entry ∈ entries, ∃ block ∈ blocks, Backs data entry block) ∧
      ∀ block ∈ blocks, ∃ entry ∈ entries, Backs data entry block := by
  induction h with
  | nil => simp
  | cons hbacks _ ih =>
    obtain ⟨hleft, hright⟩ := ih
    simp only [List.forall_mem_cons, List.exists_mem_cons_iff]
    exact ⟨⟨Or.inl hbacks, fun entry he => Or.inr (hleft entry he)⟩,
      ⟨Or.inl hbacks, fun block hb => Or.inr (hright block hb)⟩⟩

/-- **Any part of an entry append keeps an index backed**, when the batch's payloads are in the data file
behind everything that the index pointed at. -/
theorem Backed.append_index {allowed : Block → Prop} {front index : Bytes}
    (h : Backed allowed (some front) (some index)) (hwhole : index.length % IndexEntry.size = 0)
    {blocks : List Block} (hallowed : ∀ block ∈ blocks, allowed block)
    (hfits : ∀ block ∈ blocks, Fits block) (hsize : (front ++ payloads blocks).length < UInt64.size)
    (count : Nat) :
    Backed allowed (some (front ++ payloads blocks))
      (some (index ++ (IndexEntry.encodeAll (layOut front.length blocks)).take count)) := by
  obtain ⟨hlaid, hstarts, hpairwise⟩ := backs_layOut hfits hsize
  obtain ⟨-, -, hold⟩ := ReadPlan.checkOrdered_eq_ok_iff.mp h.ordered
  have hentries := entriesOf_append_take hwhole (layOut front.length blocks) count
  have hbacked : ∀ entry ∈ entriesOf (some index) ++
      (layOut front.length blocks).take (count / IndexEntry.size),
      ∃ block, allowed block ∧ Backs (front ++ payloads blocks) entry block := by
    intro entry he
    rcases List.mem_append.mp he with he | he
    · obtain ⟨_, ⟨rfl⟩, block, hblock, hbacks⟩ := h.backed entry he
      exact ⟨block, hblock, hbacks.append _⟩
    · obtain ⟨block, hblock, hbacks⟩ :=
        (exists_backs_of_forall₂ hlaid).1 entry (List.mem_of_mem_take he)
      exact ⟨block, hallowed block hblock, hbacks⟩
  constructor
  · rw [hentries, ReadPlan.checkOrdered_eq_ok_iff]
    refine ⟨fun entry he => ?_, fun _ _ => Nat.zero_le _, ?_⟩
    · obtain ⟨block, -, hbacks⟩ := hbacked entry he
      exact Nat.lt_of_le_of_lt hbacks.stop_le hsize
    · rw [List.pairwise_append]
      refine ⟨hold, hpairwise.sublist (List.take_sublist _ _), fun entry he later hl => ?_⟩
      -- The old entries end in the old data, and the new ones start behind it.
      obtain ⟨_, ⟨rfl⟩, block, -, hbacks⟩ := h.backed entry he
      exact Nat.le_trans hbacks.stop_le (hstarts later (List.mem_of_mem_take hl))
  · intro entry he
    rw [hentries] at he
    exact ⟨_, rfl, hbacked entry he⟩

end BlockShuffle
