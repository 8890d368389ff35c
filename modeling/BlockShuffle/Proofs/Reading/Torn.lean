import Mathlib
import BlockShuffle.Proofs.Reading.Discovery
import BlockShuffle.Proofs.Reading.Numbered
import BlockShuffle.Proofs.Storage.Damaged

/-!
# Reading a partition with a damaged file

A partition is read on two storages that differ in the bytes of one file. Opening it looks at index files only,
so as long as the damaged file is none, nobody notices (`Reconciler.blind_open`). Nor does a read, but for the
bytes it comes back with: the same shard answers, the reader becomes the same, and failures are the same
(`PartitionReader.lockstep_read`). Which bytes these are is told by the number of the read alone
(`PlannedRead`): a number falls into one shard, and there it is one range of one file.

A reader holds on to handles, and a read through a handle is a read of the file that the handle is of. So the
one thing that has to be carried along is that the handle of a shard is one of its data file (`Bound`).

The two storages are any that are `Damaged`, and the programs are the reader's own; nothing is delivered yet.
What comes back from a read is put into one relation (`Fetched`), whose last case is the only one where the runs
differ, and they do so in the buffer. What a client does with two such batches is in
`Proofs/Delivery/Corruption`.

Damage to an index is left out here, and would have to be: from there on the two runs ask for different ranges,
and nothing that is said about one of them carries over to the other.
-/

set_option autoImplicit false

namespace BlockShuffle

open Storage Program
open ShardReader (start InShard total)

/-! ## Planned reads -/

/-- The read of this number is planned as this range of the file of this path. -/
def PlannedRead (shards : List ShardReader) (index : Nat) (path : Path) (planned : RangedRead) : Prop :=
  ∃ j shard, InShard shards index j ∧ shards[j]? = some shard ∧ shard.files.data = path ∧
    shard.reads[index - start shards j]? = some planned

theorem PlannedRead.unique {shards : List ShardReader} {index : Nat} {path other : Path} {planned planned' : RangedRead}
    (h : PlannedRead shards index path planned) (h' : PlannedRead shards index other planned') :
    other = path ∧ planned' = planned := by
  obtain ⟨j, shard, hin, hshard, rfl, hplanned⟩ := h
  obtain ⟨j', shard', hin', hshard', rfl, hplanned'⟩ := h'
  cases hin.unique hin'
  cases hshard.symm.trans hshard'
  cases hplanned.symm.trans hplanned'
  exact ⟨rfl, rfl⟩

/-- What is planned does not depend on the handles. -/
theorem PlannedRead.congr {shards others : List ShardReader}
    (hsame : others.map ShardReader.close = shards.map ShardReader.close) {index : Nat} {path : Path}
    {planned : RangedRead} (h : PlannedRead others index path planned) : PlannedRead shards index path planned := by
  obtain ⟨j, shard, hin, hshard, rfl, hplanned⟩ := h
  have hclosed : (others.map ShardReader.close)[j]? = (shards.map ShardReader.close)[j]? := by rw [hsame]
  rw [List.getElem?_map, List.getElem?_map, hshard, Option.map_some, eq_comm, Option.map_eq_some_iff] at hclosed
  obtain ⟨found, hfound, hclose⟩ := hclosed
  -- Closing changes neither the files nor the reads.
  have hfiles : found.files = shard.files := show found.close.files = shard.close.files by rw [hclose]
  have hreads : found.reads = shard.reads := show found.close.reads = shard.close.reads by rw [hclose]
  refine ⟨j, found, (ShardReader.inShard_congr hsame index j).mp hin, hfound, by rw [hfiles], ?_⟩
  rw [← ShardReader.start_congr hsame, hreads]
  exact hplanned

/-- The reads of a shard are numbered on from those of the shards in front of it. -/
theorem plannedRead_of_getElem? (front rest : List ShardReader) {shard : ShardReader} {i : Nat} {planned : RangedRead}
    (h : shard.reads.toList[i]? = some planned) :
    PlannedRead (front ++ shard :: rest) (total front + i) shard.files.data planned := by
  have hstart : start (front ++ shard :: rest) front.length = total front := ShardReader.start_length _ _
  obtain ⟨hi, -⟩ := List.getElem?_eq_some_iff.mp h
  refine ⟨front.length, shard, ⟨?_, ?_⟩, ?_, rfl, ?_⟩
  · rw [hstart]
    exact Nat.le_add_right _ _
  · rw [ShardReader.start_length_succ]
    exact Nat.add_lt_add_left hi _
  · rw [List.getElem?_append_right le_rfl, Nat.sub_self]
    rfl
  · rw [hstart, Nat.add_sub_cancel_left, ← Array.getElem?_toList, h]

/-- Each read of each shard is planned under some number. -/
theorem exists_plannedRead {shards : List ShardReader} {shard : ShardReader} (h : shard ∈ shards)
    {planned : RangedRead} (hplanned : planned ∈ shard.reads.toList) :
    ∃ index, PlannedRead shards index shard.files.data planned := by
  obtain ⟨front, rest, rfl⟩ := List.append_of_mem h
  obtain ⟨i, hget⟩ := List.mem_iff_getElem?.mp hplanned
  exact ⟨_, plannedRead_of_getElem? front rest hget⟩

/-- What a read answers on the two storages: the end of the stream, or the blocks of a planned read with its
bytes in either version. -/
inductive Fetched (file : Path → Prop) (before after : Bytes) (plan : Path → RangedRead → Prop) :
    Option Batch → Option Batch → Prop where
  | ended : Fetched file before after plan none none
  | read {path : Path} {planned : RangedRead} {buffer others : Bytes} (listed : plan path planned)
      (torn : Torn file before after path planned.offset planned.length buffer others) :
      Fetched file before after plan (some ⟨buffer, planned.slices⟩) (some ⟨others, planned.slices⟩)

theorem Fetched.mono {file : Path → Prop} {before after : Bytes} {plan plan' : Path → RangedRead → Prop}
    {batch batch' : Option Batch} (h : Fetched file before after plan batch batch')
    (himp : ∀ path planned, plan path planned → plan' path planned) : Fetched file before after plan' batch batch' := by
  cases h with
  | ended => exact .ended
  | read listed torn => exact .read (himp _ _ listed) torn

variable {σ τ : Type} {handler : Handler σ} {handler' : Handler τ} {alike : σ → τ → Prop} {file : Path → Prop}
  {before after : Bytes}

/-! ## Opening -/

namespace ShardReader

/-- An index that is no name of the damaged file reads alike. -/
theorem blind_readEntries (hdamaged : Damaged handler handler' alike file before after) (policy : RetryPolicy)
    {index : Reader} (hfile : ¬file index.path) (entryLimit left : Nat) :
    ∀ offset done, (readEntries policy index entryLimit offset left done).Blind handler handler' alike := by
  induction left using Nat.strong_induction_on with
  | _ left ih =>
    intro offset done
    rw [readEntries]
    by_cases hleft : left = 0
    · rw [if_pos hleft]
      exact blind_done _
    · rw [if_neg hleft]
      have hread (length : Nat) : (Program.readAt index offset length).Blind handler handler' alike :=
        (hdamaged.readAt index offset length).mono fun answer other h =>
          outcomes_eq_iff.mp (h.mono fun bytes others htorn => htorn.same hfile)
      refine (blind_retried hdamaged policy (hread _)).bind fun answer => ?_
      cases answer with
      | error error => exact blind_done _
      | ok bytes =>
        refine ih _ ?_ _ _
        simp only [chunkSize, IndexEntry.size, UInt64.size]
        omega

theorem blind_readIndex (hdamaged : Damaged handler handler' alike file before after) (policy : RetryPolicy)
    {path : Path} (hfile : ¬file path) (entryLimit : Nat) :
    (readIndex policy path entryLimit).Blind handler handler' alike := by
  rw [readIndex]
  apply Lockstep.bind (lockstep_retried hdamaged policy (hdamaged.openRead path))
  intro answer other houtcome
  cases houtcome with
  | error error => exact blind_done _
  | @ok _ index h =>
    obtain ⟨rfl, hpath⟩ := h
    dsimp only
    refine (blind_retried hdamaged policy (hdamaged.size index)).bind fun size => ?_
    cases size with
    | error error => exact blind_done _
    | ok size => exact blind_readEntries hdamaged policy (hpath ▸ hfile) entryLimit _ _ _

theorem blind_open (hdamaged : Damaged handler handler' alike file before after) {pair : ShardFiles}
    (hfile : ¬file pair.index) (entryLimit byteLimit : Nat) (policy : RetryPolicy) :
    (ShardReader.open pair entryLimit byteLimit policy).Blind handler handler' alike := by
  rw [ShardReader.open]
  refine (blind_retried hdamaged policy (hdamaged.probe pair.data)).bind fun present => ?_
  rcases present with error | _ | _
  · exact blind_done _
  · exact blind_done _
  refine (blind_readIndex hdamaged policy hfile entryLimit).bind fun entries => ?_
  cases entries with
  | error error =>
    dsimp only
    split <;> exact blind_done _
  | ok entries =>
    dsimp only
    split <;> exact blind_done _

end ShardReader

namespace PartitionReader

variable (hindex : ∀ path, file path → ShardFiles.ofIndex? path = none)

include hindex

theorem blind_openListed (hdamaged : Damaged handler handler' alike file before after) (config : ReadConfig)
    (paths : List Path) : (openListed config paths).Blind handler handler' alike := by
  induction paths with
  | nil => exact blind_done _
  | cons path paths ih =>
    rw [openListed]
    cases hpair : ShardFiles.ofIndex? path with
    | none => exact ih
    | some pair =>
      have hfile : ¬file pair.index := by
        intro hfile
        rw [ShardFiles.index_of_ofIndex? hpair] at hfile
        cases hpair.symm.trans (hindex path hfile)
      refine (ShardReader.blind_open hdamaged hfile _ _ _).bind fun found => ?_
      cases found with
      | error error => exact blind_done _
      | ok found => exact ih.bind fun others => blind_done _

theorem blind_openDirs (hdamaged : Damaged handler handler' alike file before after) (config : ReadConfig)
    (dirs : List Path) : (openDirs config dirs).Blind handler handler' alike := by
  induction dirs with
  | nil => exact blind_done _
  | cons dir dirs ih =>
    rw [openDirs]
    refine (blind_retried hdamaged config.retry (hdamaged.list dir)).bind fun listing => ?_
    cases listing with
    | error error =>
      dsimp only
      split
      · exact ih
      · exact blind_done _
    | ok listing =>
      refine (blind_openListed hindex hdamaged config listing).bind fun found => ?_
      cases found with
      | error error => exact blind_done _
      | ok found => exact ih.bind fun others => blind_done _

end PartitionReader

/-- **Opening does not notice** a damaged file that is no index. -/
theorem Reconciler.blind_open (hindex : ∀ path, file path → ShardFiles.ofIndex? path = none)
    (hdamaged : Damaged handler handler' alike file before after) (config : ReadConfig) (expected tasks : IdSet) :
    (Reconciler.open config expected tasks).Blind handler handler' alike := by
  rw [Reconciler.open]
  cases hcheck : config.check with
  | error fault => exact blind_done _
  | ok _ =>
    dsimp only
    split
    · exact blind_done _
    · rw [PartitionReader.open, hcheck]
      dsimp only
      rw [bind_assoc]
      exact (PartitionReader.blind_openDirs hindex hdamaged config _).bind fun found => blind_done _

/-! ## Reading -/

namespace ShardReader

/-- The handle of a shard, if it has one, is one of its data file. -/
def Bound (shard : ShardReader) : Prop := ∀ handle, shard.data = some handle → handle.path = shard.files.data

theorem bound_of_unread {shard : ShardReader} (h : shard.data = none) : shard.Bound := by
  intro handle hhandle
  rw [h] at hhandle
  cases hhandle

theorem lockstep_openData (hdamaged : Damaged handler handler' alike file before after) {shard : ShardReader}
    (h : shard.Bound) : shard.openData.Lockstep handler handler' alike shard.openData
      (Outcomes fun handle other => other = handle ∧ handle.path = shard.files.data) := by
  rw [openData]
  cases hdata : shard.data with
  | some handle => exact lockstep_done (.ok ⟨rfl, h handle hdata⟩)
  | none => exact lockstep_retried hdamaged shard.retryPolicy (hdamaged.openRead _)

/-- **A planned read** comes back with the bytes of its range. -/
theorem lockstep_read (hdamaged : Damaged handler handler' alike file before after) {shard : ShardReader}
    (h : shard.Bound) (index : Nat) :
    (shard.read index).Lockstep handler handler' alike (shard.read index) fun result other =>
      other.2 = result.2 ∧ result.2.Bound ∧ result.2.close = shard.close ∧
      Outcomes (Fetched file before after fun path planned =>
        shard.files.data = path ∧ shard.reads[index]? = some planned) result.1 other.1 := by
  rw [read]
  cases hplanned : shard.reads[index]? with
  | none => exact lockstep_done ⟨rfl, h, rfl, .ok .ended⟩
  | some planned =>
    dsimp only
    apply (lockstep_openData hdamaged h).bind
    intro opened opened' hopened
    cases hopened with
    | error error => exact lockstep_done ⟨rfl, h, rfl, .error _⟩
    | @ok _ handle hhandle =>
      obtain ⟨rfl, hpath⟩ := hhandle
      have hbound : Bound { shard with data := some handle } := by
        intro other hother
        cases hother
        exact hpath
      apply (lockstep_retried hdamaged shard.retryPolicy
        (hdamaged.readAt handle planned.offset planned.length)).bind
      intro buffer buffer' hbuffer
      cases hbuffer with
      | error error => exact lockstep_done ⟨rfl, hbound, rfl, .error _⟩
      | ok htorn =>
        rw [hpath] at htorn
        exact lockstep_done ⟨rfl, hbound, rfl, .ok (.read ⟨rfl, rfl⟩ htorn)⟩

end ShardReader

namespace PartitionReader

variable {shards : List ShardReader} {reader : PartitionReader}

/-- Every handle is one of the data file of its shard. -/
def Bound (reader : PartitionReader) : Prop := ∀ shard ∈ reader.shards, shard.Bound

theorem bound_map_close (shards : List ShardReader) : ∀ shard ∈ shards.map ShardReader.close, shard.Bound := by
  intro shard hshard
  obtain ⟨other, -, rfl⟩ := List.mem_map.mp hshard
  exact ShardReader.bound_of_unread rfl

theorem bound_close (reader : PartitionReader) : reader.close.Bound := by
  unfold Bound PartitionReader.close PartitionReader.shards
  rw [List.forall_mem_append]
  exact ⟨bound_map_close reader.passed, bound_map_close reader.ahead⟩

theorem Kept.close (h : Kept shards reader) : Kept shards reader.close := by
  refine ⟨?_, ?_, placed_close h.placed⟩
  · rw [← h.same, PartitionReader.shards, PartitionReader.shards, PartitionReader.close, List.map_append,
      List.map_append, List.map_map, List.map_map]
    rfl
  · rw [PartitionReader.close, List.map_map]
    rfl

/-- **A read is answered alike**, but for the bytes, and makes the same of the reader. -/
theorem lockstep_read (hdamaged : Damaged handler handler' alike file before after) (hkept : Kept shards reader)
    (hbound : reader.Bound) (index : Nat) :
    (reader.read index).Lockstep handler handler' alike (reader.read index) fun result other =>
      other.2 = result.2 ∧ Kept shards result.2 ∧ result.2.Bound ∧
      Outcomes (Fetched file before after (PlannedRead shards index)) result.1 other.1 := by
  rcases read_cases hkept index with ⟨-, hrun⟩ | ⟨-, front, shard, rest, hsplit, hin, -, hrun⟩ | ⟨-, -, hrun⟩
  · rw [hrun]
    exact lockstep_done ⟨rfl, hkept, hbound, .error _⟩
  · have hshards := hbound
    unfold Bound at hshards
    rw [hsplit, List.forall_mem_append, List.forall_mem_cons] at hshards
    rw [hrun]
    apply (ShardReader.lockstep_read hdamaged hshards.2.1 _).bind
    rintro ⟨outcome, shard'⟩ ⟨outcome', other⟩ ⟨hsame, hbound', hclose, houtcome⟩
    dsimp only at hsame hbound' hclose houtcome
    subst hsame
    refine lockstep_done ⟨rfl, hkept.movedTo hsplit hclose, ?_, houtcome.mono fun _ _ hfetched => ?_⟩
    · unfold Bound PartitionReader.movedTo PartitionReader.shards
      rw [List.forall_mem_append, List.forall_mem_cons]
      refine ⟨bound_map_close _, hbound', fun other hother => hbound other (List.mem_of_mem_drop hother)⟩
    · refine hfetched.mono fun path planned hplanned => PlannedRead.congr hkept.same ?_
      refine ⟨front.length, shard, hin, ?_, hplanned⟩
      rw [hsplit, List.getElem?_append_right le_rfl, Nat.sub_self]
      rfl
  · rw [hrun]
    refine lockstep_done ⟨rfl, hkept.finished, ?_, .ok .ended⟩
    unfold Bound PartitionReader.finished PartitionReader.shards
    rw [List.append_nil]
    exact bound_map_close _

end PartitionReader

end BlockShuffle
