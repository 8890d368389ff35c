import Mathlib
import BlockShuffle.Proofs.Delivery.Damage
import BlockShuffle.Proofs.Delivery.Resuming
import BlockShuffle.Proofs.Layout
import BlockShuffle.Proofs.Reading.Torn

/-!
# Local damage is caught

A partition is opened and read on two storages: on one a data file is what its index was made for, on the other up
to four bytes in a row of one block are not. Either nobody can tell a call on the one from the same call on the other,
or on the damaged storage it ends at the damaged block (`callBeside_read`). Which of the two it is depends on the
reads the call makes, and a read is known by its number: it lists the damaged block or it does not (`Shows`), and where
it does, somebody looks at the payload of that block or nobody does (`PassesOver`).

From call to call, all that has to be carried along is that the reader is one over the same shards and that each
handle is of the file it reads (`Watched`). So a session without a call that looks at the damaged block is the same on
both storages (`serve_unnoticed`), and any other session has answered alike up to the call that says that the
checksum is wrong (`local_damage_caught`).
-/

set_option autoImplicit false

namespace BlockShuffle

open Storage Program

namespace Reconciler

section Beside

variable {σ τ : Type} {handler : Handler σ} {handler' : Handler τ} {alike : σ → τ → Prop} {file : Path → Prop}
  {before after : Bytes} {shards : List ShardReader} {entries : List IndexEntry} {block : IndexEntry}
  {byteLimit entryLimit : Nat}

/-! ## One batch -/

/-- The read of this number lists the damaged block, behind `lead`. -/
def Shows (shards : List ShardReader) (file : Path → Prop) (before after : Bytes) (index : Nat)
    (lead : List BlockSlice) : Prop :=
  ∃ path planned slice rest, PlannedRead shards index path planned ∧ file path ∧
    planned.slices = lead ++ slice :: rest ∧ planned.Hits before after slice

/-- The blocks of a batch are listed in the read of this number, and if that is a read of the damaged file, its
bytes are those of the file as it is, and no block lies over a changed one. -/
def Clear (shards : List ShardReader) (file : Path → Prop) (before after : Bytes) (index : Nat) (batch : Batch) :
    Prop :=
  ∃ path planned, PlannedRead shards index path planned ∧ batch.slices.Sublist planned.slices ∧
    (file path → after.slice? planned.offset planned.length = some batch.buffer ∧
      ∀ slice ∈ batch.slices, ¬planned.Hits before after slice)

/-- Every shard of the damaged file was planned from the entries that the file was written for. -/
def PlannedFrom (entries : List IndexEntry) (byteLimit entryLimit : Nat) (file : Path → Prop)
    (shards : List ShardReader) : Prop :=
  ∀ shard ∈ shards, file shard.files.data →
    ReadPlan.ofEntries entries byteLimit entryLimit = .ok shard.reads.toList

theorem mem_reads_of_plannedRead {index : Nat} {path : Path} {planned : RangedRead}
    (h : PlannedRead shards index path planned) :
    ∃ shard ∈ shards, shard.files.data = path ∧ planned ∈ shard.reads.toList := by
  obtain ⟨j, shard, -, hshard, rfl, hplanned⟩ := h
  exact ⟨shard, List.mem_of_getElem? hshard, rfl, Array.mem_toList_iff.mpr (Array.mem_of_getElem? hplanned)⟩

theorem checked_of_plannedRead (hplan : PlannedFrom entries byteLimit entryLimit file shards)
    (hlocal : LocalDamage before after entries block) {index : Nat} {path : Path} {planned : RangedRead}
    (h : PlannedRead shards index path planned) (hfile : file path) :
    ∀ slice ∈ planned.slices, slice.Checked (Packed.ofBytes (planned.bytesOf before))
      (Packed.ofBytes (planned.bytesOf after)) block (planned.Hits before after) := by
  obtain ⟨shard, hshard, rfl, hread⟩ := mem_reads_of_plannedRead h
  exact checked_of_planned (hplan shard hshard hfile) hlocal hread

theorem settleBatch_of_settleSlices {state final : Reconciler} {batch : Batch}
    {settled : Except Error (List BlockSlice)}
    (h : state.countBatch.settleSlices (Packed.ofBytes batch.buffer) batch.slices = (settled, final)) :
    state.settleBatch batch = (settled.map fun slices => { batch with slices }, final) := by
  rw [settleBatch, h]

/-- What settling a batch leaves alone. -/
theorem settleBatch_settings {state final : Reconciler} {batch : Batch} {answer : Except Error Batch}
    (h : state.settleBatch batch = (answer, final)) :
    final.expected = state.expected ∧ final.tasks = state.tasks ∧ final.checksum = state.checksum := by
  rcases settleBatch_cases h with ⟨_, -, hs⟩ | ⟨_, _, _, _, _, -, -, hs, -⟩ <;>
    exact ⟨hs.expected_eq, hs.tasks_eq, hs.checksum_eq⟩

/-- A batch with nothing to deliver is no reason to pass over a block. -/
theorem passesOver_of_skipped {state final : Reconciler} {batch : Batch} {lead : List BlockSlice}
    (h : state.settleBatch batch = (.ok { batch with slices := [] }, final)) :
    final.PassesOver lead block ↔ state.PassesOver lead block := by
  obtain ⟨hexpected, htasks, -⟩ := settleBatch_settings h
  refine passesOver_congr hexpected htasks fun id => ?_
  rcases settleBatch_cases h with ⟨delivered, hanswer, hs⟩ | ⟨_, _, _, _, _, hanswer, -⟩
  · have hnil : delivered = [] := by
      injection hanswer with hbatch
      exact (congrArg Batch.slices hbatch).symm
    subst hnil
    rw [hs.mem_processed_iff, BlockSlice.ids_nil]
    exact or_iff_right List.not_mem_nil
  · cases hanswer

/-- What settling the two versions of a batch comes to, where nobody can tell them apart. -/
structure SettledAlike (shards : List ShardReader) (file : Path → Prop) (before after : Bytes) (block : IndexEntry)
    (index : Nat) (batch batch' : Batch) (state : Reconciler) (settled : Except Error (List BlockSlice))
    (final : Reconciler) : Prop where
  run : state.settleBatch batch = (settled.map fun slices => { batch with slices }, final)
  run' : state.settleBatch batch' = (settled.map fun slices => { batch' with slices }, final)
  passed : ∀ lead, Shows shards file before after index lead → state.PassesOver lead block
  blocks : ∀ slices, settled = .ok slices → Batch.blocks { batch' with slices } = Batch.blocks { batch with slices }
  clear : ∀ slices, settled = .ok slices → Clear shards file before after index { batch' with slices }

theorem Shows.of_plannedRead {index : Nat} {lead : List BlockSlice} (h : Shows shards file before after index lead)
    {path : Path} {planned : RangedRead} (hplanned : PlannedRead shards index path planned) :
    file path ∧ ∃ slice rest, planned.slices = lead ++ slice :: rest ∧ planned.Hits before after slice := by
  obtain ⟨path', planned', slice, rest, hplanned', hfile, hsplit, hhit⟩ := h
  obtain ⟨rfl, rfl⟩ := hplanned.unique hplanned'
  exact ⟨hfile, slice, rest, hsplit, hhit⟩

/-- A block that was whole and is delivered lies over no changed byte. -/
theorem not_hits_of_settles {state final : Reconciler} {buffer buffer' : Packed} {hit : BlockSlice → Prop}
    {slices delivered : List BlockSlice} (hchecked : ∀ slice ∈ slices, slice.Checked buffer buffer' block hit)
    (hchecksum : state.checksum = crc32) (h : Settles buffer' state slices delivered final) :
    ∀ slice ∈ delivered, ¬hit slice := by
  intro slice hslice hhit
  obtain ⟨-, -, payload, hpayload, hcrc⟩ := h.sound hslice
  obtain ⟨-, -, -, found, hfound, hwrong⟩ := (hchecked slice (h.sublist.subset hslice)).damaged hhit
  cases hpayload.symm.trans hfound
  rw [hchecksum] at hcrc
  exact hwrong hcrc

/-- Blocks that no changed byte lies in are handed out with the same payloads. -/
theorem blocks_eq_of_checked {buffer others : Bytes} {hit : BlockSlice → Prop} {slices : List BlockSlice}
    (h : ∀ slice ∈ slices, slice.Checked (Packed.ofBytes buffer) (Packed.ofBytes others) block hit ∧ ¬hit slice) :
    Batch.blocks ⟨others, slices⟩ = Batch.blocks ⟨buffer, slices⟩ := by
  rw [Batch.blocks_eq_map_payload, Batch.blocks_eq_map_payload]
  refine List.map_congr_left fun slice hslice => ?_
  obtain ⟨hchecked, hclear⟩ := h slice hslice
  obtain ⟨payload, hpayload, -⟩ := hchecked.whole
  have hfound := (hchecked.same hclear).trans hpayload
  have hbuffer : (Batch.mk buffer slices).payload slice = payload := (slice?_eq_some_iff.mp hpayload).2
  have hothers : (Batch.mk others slices).payload slice = payload := (slice?_eq_some_iff.mp hfound).2
  rw [hbuffer, hothers]

/-- **One batch, in both versions.** -/
theorem settleBatch_beside (hplan : PlannedFrom entries byteLimit entryLimit file shards)
    (hlocal : LocalDamage before after entries block) {index : Nat} {batch batch' : Batch}
    (h : Fetched file before after (PlannedRead shards index) (some batch) (some batch')) {state : Reconciler}
    (hchecksum : state.checksum = crc32) :
    (∃ settled final, SettledAlike shards file before after block index batch batch' state settled final) ∨
    ((∃ lead, Shows shards file before after index lead ∧ ¬state.PassesOver lead block) ∧
      ∃ actual final, state.settleBatch batch' = (.error (.checksum block.id block.crc actual), final) ∧
        block.id.raw ∉ final.processed) := by
  cases h with
  | @read path planned buffer others listed torn =>
    by_cases hfile : file path
    · obtain ⟨hbuffer, hothers⟩ := torn.changed hfile
      obtain ⟨-, rfl⟩ := Bytes.slice?_eq_some_iff.mp hbuffer
      obtain ⟨-, rfl⟩ := Bytes.slice?_eq_some_iff.mp hothers
      have hchecked := checked_of_plannedRead hplan hlocal listed hfile
      have hcount : state.countBatch.checksum = crc32 := hchecksum
      rcases settleSlices_beside hchecked hcount with ⟨⟨delivered, final, hwhole, htorn⟩, hover⟩ |
        ⟨⟨lead, slice, rest, hsplit, hhit, hnot⟩, actual, final, htorn, hunprocessed⟩
      · obtain ⟨_, ⟨⟩, hsettles⟩ | ⟨_, _, _, _, _, ⟨⟩, -⟩ := settleSlices_cases htorn
        have hclear := not_hits_of_settles hchecked hcount hsettles
        refine Or.inl ⟨.ok delivered, final, ?_, ?_, fun lead hshows => ?_, ?_, ?_⟩
        · exact settleBatch_of_settleSlices hwhole
        · exact settleBatch_of_settleSlices htorn
        · obtain ⟨-, slice, rest, hsplit, hhit⟩ := hshows.of_plannedRead listed
          exact hover lead slice rest hsplit hhit
        · rintro _ ⟨⟩
          exact blocks_eq_of_checked fun slice hslice =>
            ⟨hchecked slice (hsettles.sublist.subset hslice), hclear slice hslice⟩
        · rintro _ ⟨⟩
          exact ⟨path, planned, listed, hsettles.sublist, fun _ => ⟨hothers, hclear⟩⟩
      · have hrun : state.settleBatch ⟨planned.bytesOf after, planned.slices⟩ = _ := settleBatch_of_settleSlices htorn
        exact Or.inr ⟨⟨lead, ⟨path, planned, slice, rest, listed, hfile, hsplit, hhit⟩, hnot⟩, actual, final, hrun,
          hunprocessed⟩
    · -- Any other file is the same on both storages.
      cases torn.same hfile
      rcases hsettle : state.countBatch.settleSlices (Packed.ofBytes buffer) planned.slices with ⟨settled, final⟩
      have hrun : state.settleBatch ⟨buffer, planned.slices⟩ = _ := settleBatch_of_settleSlices hsettle
      refine Or.inl ⟨settled, final, hrun, hrun, fun lead hshows => ?_, fun _ _ => rfl, ?_⟩
      · exact absurd (hshows.of_plannedRead listed).1 hfile
      · rintro slices rfl
        obtain ⟨_, ⟨⟩, hsettles⟩ | ⟨_, _, _, _, _, ⟨⟩, -⟩ := settleSlices_cases hsettle
        exact ⟨path, planned, listed, hsettles.sublist, fun h => absurd h hfile⟩

/-! ## One call -/

/-- What is true of a reconciler over these shards whenever it is asked for something. -/
structure Watched (shards : List ShardReader) (state : Reconciler) : Prop where
  kept : PartitionReader.Kept shards state.reader
  bound : state.reader.Bound
  checksum : state.checksum = crc32

/-- Behind a batch, the reader is the one that read it. -/
theorem Watched.of_settleBatch {state final : Reconciler} {batch : Batch} {settled : Except Error Batch}
    (h : Watched shards state) (hrun : state.settleBatch batch = (settled, final)) :
    Watched shards final ∧ final.nextRead = state.nextRead + 1 := by
  obtain ⟨hreader, hnext⟩ := settleBatch_cursor hrun
  refine ⟨⟨?_, ?_, (settleBatch_settings hrun).2.2.trans h.checksum⟩, hnext⟩
  · rw [hreader]
    exact h.kept
  · rw [hreader]
    exact h.bound

/-- What an answer hands out: blocks with their payloads. -/
def payloads (answer : Answer) : Except Error (Option (List (BlockSlice × Bytes))) :=
  answer.map (Option.map Batch.blocks)

/-- A call from one state to another makes a read that lists the damaged block, behind `lead`. -/
def Meets (shards : List ShardReader) (file : Path → Prop) (before after : Bytes) (state final : Reconciler)
    (lead : List BlockSlice) : Prop :=
  ∃ index, Shows shards file before after index lead ∧ state.nextRead ≤ index ∧ index < final.nextRead

/-- A call that nobody can tell from the call on the other storage by what it answers. Where it met the damaged
block, nobody looked at its payload. -/
structure Unnoticed (shards : List ShardReader) (file : Path → Prop) (before after : Bytes) (block : IndexEntry)
    (state final : Reconciler) (answer answer' : Answer) : Prop where
  payloads_eq : payloads answer' = payloads answer
  passed : ∀ lead, Meets shards file before after state final lead → state.PassesOver lead block
  clear : ∀ batch, answer' = .ok (some batch) →
    ∃ index, final.nextRead = index + 1 ∧ Clear shards file before after index batch

/-- A call that ended at the damaged block. -/
structure Caught (block : IndexEntry) (final : Reconciler) (answer : Answer) : Prop where
  answer_eq : ∃ actual, answer = .error (.checksum block.id block.crc actual)
  unprocessed : block.id.raw ∉ final.processed

/-- What a call comes to on the two storages. -/
structure CallBeside (alike : σ → τ → Prop) (shards : List ShardReader) (file : Path → Prop) (before after : Bytes)
    (block : IndexEntry) (state : Reconciler) (whole : (Answer × Reconciler) × σ) (torn : (Answer × Reconciler) × τ) :
    Prop where
  watched : Watched shards torn.1.2
  beside : ∃ s, alike s torn.2
  comes : torn.1.2 = whole.1.2 ∧ alike whole.2 torn.2 ∧
      Unnoticed shards file before after block state torn.1.2 whole.1.1 torn.1.1 ∨
    Caught block torn.1.2 torn.1.1 ∧
      ∃ lead, Meets shards file before after state torn.1.2 lead ∧ ¬state.PassesOver lead block

/-- A call that made no read. -/
theorem callBeside_of_unread {state final : Reconciler} {answer : Answer} {s : σ} {t : τ} (hs : alike s t)
    (hwatched : Watched shards final) (hnext : final.nextRead = state.nextRead)
    (hanswer : ∀ batch, answer ≠ .ok (some batch)) :
    CallBeside alike shards file before after block state ((answer, final), s) ((answer, final), t) := by
  refine ⟨hwatched, ⟨s, hs⟩, Or.inl ⟨rfl, hs, rfl, ?_, fun batch h => absurd h (hanswer batch)⟩⟩
  rintro lead ⟨index, -, hle, hlt⟩
  dsimp only at hlt
  omega

/-- A call that ended with a batch that was settled alike. -/
theorem callBeside_of_settled {state final : Reconciler} {answer answer' : Answer} {s : σ} {t : τ} (hs : alike s t)
    (hwatched : Watched shards final) (hnext : final.nextRead = state.nextRead + 1)
    (hpassed : ∀ lead, Shows shards file before after state.nextRead lead → state.PassesOver lead block)
    (hpayloads : payloads answer' = payloads answer)
    (hclear : ∀ batch, answer' = .ok (some batch) → Clear shards file before after state.nextRead batch) :
    CallBeside alike shards file before after block state ((answer, final), s) ((answer', final), t) := by
  refine ⟨hwatched, ⟨s, hs⟩, Or.inl ⟨rfl, hs, hpayloads, ?_, fun batch h => ⟨_, hnext, hclear batch h⟩⟩⟩
  rintro lead ⟨index, hshows, hle, hlt⟩
  dsimp only at hlt
  obtain rfl : index = state.nextRead := by omega
  exact hpassed lead hshows

/-- A call that goes on behind a batch with nothing to deliver. -/
theorem CallBeside.of_skipped {state mid : Reconciler} {whole : (Answer × Reconciler) × σ}
    {torn : (Answer × Reconciler) × τ}
    (h : CallBeside alike shards file before after block mid whole torn) (hnext : mid.nextRead = state.nextRead + 1)
    (hover : ∀ lead, mid.PassesOver lead block ↔ state.PassesOver lead block)
    (hpassed : ∀ lead, Shows shards file before after state.nextRead lead → state.PassesOver lead block) :
    CallBeside alike shards file before after block state whole torn := by
  refine ⟨h.watched, h.beside, h.comes.imp ?_ ?_⟩
  · rintro ⟨hsame, hs, hunnoticed⟩
    refine ⟨hsame, hs, hunnoticed.payloads_eq, ?_, hunnoticed.clear⟩
    rintro lead ⟨index, hshows, hle, hlt⟩
    rcases Nat.eq_or_lt_of_le hle with rfl | hlater
    · exact hpassed lead hshows
    · exact (hover lead).mp (hunnoticed.passed lead ⟨index, hshows, by omega, hlt⟩)
  · rintro ⟨hcaught, lead, ⟨index, hshows, hle, hlt⟩, hnot⟩
    exact ⟨hcaught, lead, ⟨index, hshows, by omega, hlt⟩, fun h => hnot ((hover lead).mpr h)⟩

/-- What `readFrom` does behind a batch with nothing to deliver. -/
def readOn : Nat → Reconciler → Program (Answer × Reconciler)
  | 0, state => return (.ok none, state)
  | left + 1, state => readFrom left state

theorem readFrom_eq (left : Nat) (state : Reconciler) : readFrom left state =
    if state.isStopped then return (.ok none, state)
    else do
      let (outcome, reader) ← state.reader.read state.nextRead
      let state := { state with reader }
      match outcome with
      | .error error => return (.error error, state)
      | .ok none => return (.ok none, { state with exhausted := true })
      | .ok (some batch) =>
        match state.settleBatch batch with
        | (.error error, state) => return (.error error, state)
        | (.ok batch, state) => if batch.isEmpty then readOn left state else return (.ok (some batch), state) := by
  cases left with
  | zero => rw [readFrom]; rfl
  | succ left => rw [readFrom]; rfl

/-- One batch of a call, given what the rest of the call comes to. -/
theorem callBeside_step (hdamaged : Damaged handler handler' alike file before after)
    (hplan : PlannedFrom entries byteLimit entryLimit file shards) (hlocal : LocalDamage before after entries block)
    {left : Nat} (hmore : ∀ {state : Reconciler} {s t}, Watched shards state → alike s t →
      CallBeside alike shards file before after block state ((readOn left state).run handler s)
        ((readOn left state).run handler' t))
    {state : Reconciler} {s : σ} {t : τ} (hwatched : Watched shards state) (hs : alike s t) :
    CallBeside alike shards file before after block state ((readFrom left state).run handler s)
      ((readFrom left state).run handler' t) := by
  rw [readFrom_eq]
  cases hst : state.isStopped with
  | true =>
    rw [if_pos rfl]
    exact callBeside_of_unread hs hwatched rfl nofun
  | false =>
    rw [if_neg Bool.false_ne_true, run_bind, run_bind]
    -- The two reads differ in the bytes of the damaged file at most, and leave the same reader.
    have hreads := PartitionReader.lockstep_read hdamaged hwatched.kept hwatched.bound state.nextRead s t hs
    generalize (state.reader.read state.nextRead).run handler s = whole at hreads ⊢
    generalize (state.reader.read state.nextRead).run handler' t = torn at hreads ⊢
    obtain ⟨⟨outcome, reader⟩, s₁⟩ := whole
    obtain ⟨⟨outcome', reader'⟩, t₁⟩ := torn
    obtain ⟨⟨hreader, hkept, hbound, houtcome⟩, hafter⟩ := hreads
    dsimp only at hreader hkept hbound houtcome hafter ⊢
    subst hreader
    have hread : Watched shards { state with reader := reader' } := ⟨hkept, hbound, hwatched.checksum⟩
    cases houtcome with
    | error error => exact callBeside_of_unread hafter hread rfl nofun
    | @ok batch batch' hfetched =>
      rcases batch with _ | batch <;> rcases batch' with _ | batch'
      · exact callBeside_of_unread hafter ⟨hkept, hbound, hwatched.checksum⟩ rfl nofun
      · cases hfetched
      · cases hfetched
      -- Settling is the same on both, or it comes to the damaged bytes and the call ends there.
      rcases settleBatch_beside hplan hlocal hfetched hread.checksum with
        ⟨settled, final, hsettled⟩ | ⟨⟨lead, hshows, hnot⟩, actual, final, hrun, hunprocessed⟩
      · obtain ⟨hfinal, hnext⟩ := hread.of_settleBatch hsettled.run'
        dsimp only
        rw [hsettled.run, hsettled.run']
        rcases settled with error | _ | ⟨slice, slices⟩
        · exact callBeside_of_settled hafter hfinal hnext hsettled.passed rfl nofun
        · have hskipped (lead : List BlockSlice) :
              final.PassesOver lead block ↔ ({ state with reader := reader' } : Reconciler).PassesOver lead block :=
            passesOver_of_skipped hsettled.run'
          exact (hmore hfinal hafter).of_skipped hnext hskipped hsettled.passed
        · refine callBeside_of_settled hafter hfinal hnext hsettled.passed ?_ ?_
          · exact congrArg (fun blocks => Except.ok (some blocks)) (hsettled.blocks _ rfl)
          · rintro _ ⟨⟩
            exact hsettled.clear _ rfl
      · obtain ⟨hfinal, hnext⟩ := hread.of_settleBatch hrun
        dsimp only
        rw [hrun]
        have hmeets : Meets shards file before after state final lead :=
          ⟨state.nextRead, hshows, le_rfl, (Nat.lt_succ_self _).trans_eq hnext.symm⟩
        exact ⟨hfinal, ⟨s₁, hafter⟩, Or.inr ⟨⟨⟨actual, rfl⟩, hunprocessed⟩, lead, hmeets, hnot⟩⟩

/-- **A call on the two storages** comes to the same, or ends at the damaged block. -/
theorem callBeside_readFrom (hdamaged : Damaged handler handler' alike file before after)
    (hplan : PlannedFrom entries byteLimit entryLimit file shards) (hlocal : LocalDamage before after entries block)
    (left : Nat) : ∀ {state : Reconciler} {s : σ} {t : τ}, Watched shards state → alike s t →
      CallBeside alike shards file before after block state ((readFrom left state).run handler s)
        ((readFrom left state).run handler' t) := by
  induction left with
  | zero =>
    refine callBeside_step hdamaged hplan hlocal fun hwatched hs => ?_
    have hnone (batch : Batch) : (.ok none : Answer) ≠ .ok (some batch) := nofun
    exact callBeside_of_unread hs hwatched rfl hnone
  | succ left ih => exact callBeside_step hdamaged hplan hlocal ih

theorem callBeside_read (hdamaged : Damaged handler handler' alike file before after)
    (hplan : PlannedFrom entries byteLimit entryLimit file shards) (hlocal : LocalDamage before after entries block)
    {state : Reconciler} {s : σ} {t : τ} (hwatched : Watched shards state) (hs : alike s t) :
    CallBeside alike shards file before after block state (state.read.run handler s) (state.read.run handler' t) :=
  callBeside_readFrom hdamaged hplan hlocal _ hwatched hs

/-! ## A session -/

theorem run_serve_cons_read (handler : Handler σ) (requests : List Request) (state : Reconciler) (s : σ) :
    (serve (.read :: requests) state).run handler s =
      (let call := state.read.run handler s
       let others := (serve requests call.1.2).run handler call.2
       ((call.1.1 :: others.1.1, others.1.2), others.2)) := by
  rw [serve, run_bind]
  dsimp only
  rw [run_bind]
  rfl

theorem Watched.close {state : Reconciler} (h : Watched shards state) : Watched shards state.close := by
  unfold Reconciler.close
  split
  · exact h
  · exact ⟨h.kept.close, PartitionReader.bound_close _, h.checksum⟩

variable (hdamaged : Damaged handler handler' alike file before after)
  (hplan : PlannedFrom entries byteLimit entryLimit file shards) (hlocal : LocalDamage before after entries block)

include hdamaged hplan hlocal

/-- After any requests, the damaged storage is beside one that is not. -/
theorem watched_serve (requests : List Request) : ∀ {state : Reconciler} {s : σ} {t : τ},
    Watched shards state → alike s t →
      Watched shards ((serve requests state).run handler' t).1.2 ∧
        ∃ s', alike s' ((serve requests state).run handler' t).2 := by
  induction requests with
  | nil => exact fun hwatched hs => ⟨hwatched, _, hs⟩
  | cons request requests ih =>
    intro state s t hwatched hs
    cases request with
    | read =>
      rw [run_serve_cons_read]
      have hcall := callBeside_read hdamaged hplan hlocal hwatched hs
      obtain ⟨s', hs'⟩ := hcall.beside
      exact ih hcall.watched hs'
    | cancel => exact ih ⟨hwatched.kept, hwatched.bound, hwatched.checksum⟩ hs
    | close => exact ih hwatched.close hs

/-- Where no call looks at the payload of the damaged block, the sessions are the same. -/
theorem serve_unnoticed (requests : List Request) : ∀ {state : Reconciler} {s : σ} {t : τ},
    Watched shards state → alike s t →
      (∀ front rest, requests = front ++ .read :: rest →
        let mid := (serve front state).run handler' t
        let call := mid.1.2.read.run handler' mid.2
        ∀ lead, Meets shards file before after mid.1.2 call.1.2 lead → mid.1.2.PassesOver lead block) →
      ((serve requests state).run handler' t).1.1.map payloads =
          ((serve requests state).run handler s).1.1.map payloads ∧
        ((serve requests state).run handler' t).1.2 = ((serve requests state).run handler s).1.2 := by
  induction requests with
  | nil => exact fun _ _ _ => ⟨rfl, rfl⟩
  | cons request requests ih =>
    intro state s t hwatched hs hover
    cases request with
    | read =>
      have hcall := callBeside_read hdamaged hplan hlocal hwatched hs
      rcases hcall.comes with ⟨hsame, hafter, hunnoticed⟩ | ⟨-, lead, hmeets, hnot⟩
      · have hlater : ∀ front rest, requests = front ++ .read :: rest →
            let mid := (serve front (state.read.run handler' t).1.2).run handler' (state.read.run handler' t).2
            let call := mid.1.2.read.run handler' mid.2
            ∀ lead, Meets shards file before after mid.1.2 call.1.2 lead → mid.1.2.PassesOver lead block := by
          intro front rest hsplit
          have hbehind := hover (.read :: front) rest (congrArg (Request.read :: ·) hsplit)
          rwa [run_serve_cons_read] at hbehind
        obtain ⟨hanswers, hfinal⟩ := ih hcall.watched hafter hlater
        rw [run_serve_cons_read, run_serve_cons_read]
        dsimp only
        rw [List.map_cons, List.map_cons, hanswers, hfinal, hunnoticed.payloads_eq, hsame]
        exact ⟨rfl, rfl⟩
      · exact absurd (hover [] requests rfl lead hmeets) hnot
    | cancel =>
      refine ih ⟨hwatched.kept, hwatched.bound, hwatched.checksum⟩ hs fun front rest hsplit => ?_
      exact hover (.cancel :: front) rest (congrArg (Request.cancel :: ·) hsplit)
    | close =>
      exact ih hwatched.close hs fun front rest hsplit =>
        hover (.close :: front) rest (congrArg (Request.close :: ·) hsplit)

omit hdamaged in
/-- A shard of the damaged file has a read that lists the damaged block. -/
theorem exists_shows {shard : ShardReader} (h : shard ∈ shards) (hfile : file shard.files.data) :
    ∃ index lead, Shows shards file before after index lead := by
  obtain ⟨planned, hread, slice, hslice, hhit⟩ := exists_hit_of_planned (hplan shard h hfile) hlocal
  obtain ⟨index, hplanned⟩ := exists_plannedRead h hread
  obtain ⟨lead, rest, hsplit⟩ := List.append_of_mem hslice
  exact ⟨index, lead, _, planned, slice, rest, hplanned, hfile, hsplit, hhit⟩

end Beside

/-- **Local damage is caught.** A data file is not what its index was made for: at least one byte of one block's
payload is another, all that are lie among four in a row, and nothing else changed. A partition is opened over it, and
serves requests.

* If the block is expected and so is its attempt, a call that reads it while its id was not delivered before answers
  that the checksum of the block is wrong, and leaves its id unprocessed.
* No call delivers a block that lies over a changed byte.
* If the block is not expected, or its attempt is not, or every call that reads it finds its id delivered before, then
  all answers have the blocks and payloads that they would have without the change, and the reconciler ends in the
  same state: the processed blocks, the counters and the verdict on completeness are the same. -/
theorem local_damage_caught {σ τ : Type} {handler : Handler σ} {handler' : Handler τ} {alike : σ → τ → Prop}
    {file : Path → Prop} {before after : Bytes} (hdamaged : Damaged handler handler' alike file before after)
    (hindex : ∀ path, file path → ShardFiles.ofIndex? path = none) {entries : List IndexEntry} {block : IndexEntry}
    (hlocal : LocalDamage before after entries block) {config : ReadConfig} {expected tasks : IdSet} {s s₀ : σ} {t : τ}
    (hs : alike s t) {opened : Reconciler}
    (hopen : (Reconciler.open config expected tasks).run handler s = (.ok opened, s₀))
    (hplan : PlannedFrom entries config.byteLimit config.entryLimit file opened.reader.shards) :
    ∃ t₀, (Reconciler.open config expected tasks).run handler' t = (.ok opened, t₀) ∧
      (∀ shard ∈ opened.reader.shards, file shard.files.data →
        ∃ index lead, Shows opened.reader.shards file before after index lead) ∧
      (∀ requests,
        let mid := (serve requests opened).run handler' t₀
        let call := mid.1.2.read.run handler' mid.2
        (block.id.raw ∈ expected → block.task ∈ tasks →
          ∀ lead, Meets opened.reader.shards file before after mid.1.2 call.1.2 lead →
            ¬mid.1.2.DeliveredBefore lead block →
            (∃ actual, call.1.1 = .error (.checksum block.id block.crc actual)) ∧
              block.id.raw ∉ call.1.2.processed) ∧
        (∀ batch, call.1.1 = .ok (some batch) → ∃ index, call.1.2.nextRead = index + 1 ∧
          Clear opened.reader.shards file before after index batch)) ∧
      ∀ requests,
        (block.id.raw ∉ expected ∨ block.task ∉ tasks ∨ ∀ front rest, requests = front ++ .read :: rest →
          let mid := (serve front opened).run handler' t₀
          let call := mid.1.2.read.run handler' mid.2
          ∀ lead, Meets opened.reader.shards file before after mid.1.2 call.1.2 lead →
            mid.1.2.DeliveredBefore lead block) →
        let whole := (serve requests opened).run handler s₀
        let torn := (serve requests opened).run handler' t₀
        torn.1.1.map payloads = whole.1.1.map payloads ∧ torn.1.2 = whole.1.2 := by
  obtain ⟨hopen', hs₀⟩ := blind_open hindex hdamaged config expected tasks s t hs
  obtain ⟨hunread, -⟩ := unread_of_open handler config expected tasks s trivial
  rw [hopen] at hopen' hs₀ hunread
  obtain ⟨shards, hopened, hshards⟩ := hunread opened rfl
  generalize htorn : (Reconciler.open config expected tasks).run handler' t = torn at hopen' hs₀
  obtain ⟨answer, t₀⟩ := torn
  dsimp only at hopen' hs₀
  subst hopen'
  have hwatched : Watched opened.reader.shards opened := by
    subst hopened
    exact ⟨PartitionReader.kept_ofShards shards, fun shard hshard => ShardReader.bound_of_unread (hshards shard hshard),
      rfl⟩
  -- Whatever was asked for, what is expected stays what it was.
  have hsettings (requests : List Request) : ((serve requests opened).run handler' t₀).1.2.expected = expected ∧
      ((serve requests opened).run handler' t₀).1.2.tasks = tasks := by
    generalize hrun : (serve requests opened).run handler' t₀ = run
    obtain ⟨losses, hsession⟩ := session_of_serve hwatched.kept.placed hrun
    obtain ⟨hexpected, htasks, -⟩ := hsession.settings_eq
    subst hopened
    exact ⟨hexpected, htasks⟩
  refine ⟨t₀, rfl, fun shard hshard hfile => exists_shows hplan hlocal hshard hfile, fun requests => ?_,
    fun requests hover => ?_⟩
  · obtain ⟨hmid, s', hs'⟩ := watched_serve hdamaged hplan hlocal requests hwatched hs₀
    obtain ⟨hexpected, htasks⟩ := hsettings requests
    rcases (callBeside_read hdamaged hplan hlocal hmid hs').comes with ⟨-, -, hunnoticed⟩ | ⟨hcaught, -⟩
    · refine ⟨fun hx ht lead hmeets hnot => ?_, hunnoticed.clear⟩
      rcases hunnoticed.passed lead hmeets with hout | hout | hbefore
      · exact absurd (hexpected ▸ hx) hout
      · exact absurd (htasks ▸ ht) hout
      · exact absurd hbefore hnot
    · refine ⟨fun _ _ _ _ _ => ⟨hcaught.answer_eq, hcaught.unprocessed⟩, fun batch hbatch => ?_⟩
      obtain ⟨actual, herror⟩ := hcaught.answer_eq
      rw [herror] at hbatch
      cases hbatch
  · refine serve_unnoticed hdamaged hplan hlocal requests hwatched hs₀ fun front rest hsplit lead hmeets => ?_
    obtain ⟨hexpected, htasks⟩ := hsettings front
    rw [PassesOver, hexpected, htasks]
    exact hover.imp_right (Or.imp_right fun hbefore => hbefore front rest hsplit lead hmeets)

/-! ## The storage with one block, damaged -/

/-- The data file of the one block. -/
def oneBlockData : Path := .ofText "m/a/0/0-0/w_0.data"

/-- What that file holds once its byte was changed. -/
def tornContents : Contents := ⟨.ofBytes [98], by decide⟩

theorem exists_contents_oneBlockData :
    ∃ written, oneBlock.find? oneBlockData = some written ∧ written.bytes = [97] ∧ written.length = 1 := by
  rw [oneBlock, Memory.find?_insert_of_ne (by decide +kernel), oneBlockData, Memory.find?_insert_self]
  exact ⟨_, rfl, Packed.toBytes_ofBytes _, rfl⟩

theorem ofIndex?_eq_none_of_oneBlockData (path : Path) (h : path.sameAs oneBlockData = true) :
    ShardFiles.ofIndex? path = none := by
  have hpair : ShardFiles.ofIndex? (.ofText "m/a/0/0-0/w_0.index") =
      some ⟨"w", 0, oneBlockData, .ofText "m/a/0/0-0/w_0.index"⟩ := by decide +kernel
  exact ShardFiles.ofIndex?_eq_none_of_data hpair h

theorem localDamage_oneBlock : LocalDamage [97] tornContents.bytes [oneBlockEntry] oneBlockEntry := by
  have htorn : tornContents.bytes = [98] := Packed.toBytes_ofBytes _
  rw [htorn]
  have hplace {place : Nat} (h : Bytes.DifferAt [97] [98] place) : place = 0 := by
    rcases place with _ | place
    · rfl
    · exact absurd rfl h
  exact {
    listed := List.mem_singleton_self _
    inside := by decide
    checksums := by decide +kernel
    length_eq := rfl
    changed := ⟨0, by simp [Bytes.DifferAt]⟩
    confined := fun place h => by
      cases hplace h
      decide
    near := ⟨0, fun place h => by
      cases hplace h
      decide⟩ }

/-- One byte is another, and the call that reads it says so. -/
theorem local_damage_caught_oneByte :
    ∃ opened s₀ t₀ actual final t₁,
      (Reconciler.open oneBlockConfig {0} {0}).run Memory.handler oneBlock = (.ok opened, s₀) ∧
      (Reconciler.open oneBlockConfig {0} {0}).run Memory.handler (oneBlock.overwrite oneBlockData tornContents) =
        (.ok opened, t₀) ∧
      opened.read.run Memory.handler t₀ = ((.error (.checksum ⟨0⟩ (crc32 [97]) actual), final), t₁) ∧
      (0 : UInt64) ∉ final.processed := by
  -- There is one read, with the one block in it, and the first call makes it.
  have hfacts : ((Reconciler.open oneBlockConfig {0} {0}).run Memory.handler oneBlock).1.toOption.any
      (fun opened =>
        let torn := (Reconciler.open oneBlockConfig {0} {0}).run Memory.handler
          (oneBlock.overwrite oneBlockData tornContents)
        opened.reader.shards.map (fun shard => (shard.files.data, shard.reads.toList)) =
            [(oneBlockData, [⟨0, 1, [BlockSlice.ofEntry 0 oneBlockEntry]⟩])] ∧
          opened.nextRead = 0 ∧ (0 : UInt64) ∉ opened.processed ∧
          (opened.read.run Memory.handler torn.2).1.2.nextRead = 1) = true := by
    decide +kernel
  have hplan : ReadPlan.ofEntries [oneBlockEntry] oneBlockConfig.byteLimit oneBlockConfig.entryLimit =
      .ok [⟨0, 1, [BlockSlice.ofEntry 0 oneBlockEntry]⟩] := by decide +kernel
  obtain ⟨written, hfound, hbytes, hlength⟩ := exists_contents_oneBlockData
  have hdamaged := Memory.damaged hfound (show tornContents.length = written.length from hlength.symm)
  rw [hbytes] at hdamaged
  have hzero : (0 : UInt64) ∈ ({0} : IdSet) := IdSet.mem_insert_iff.mpr (Or.inl rfl)
  rcases hrun : (Reconciler.open oneBlockConfig {0} {0}).run Memory.handler oneBlock with ⟨error | opened, s₀⟩
  · rw [hrun] at hfacts
    cases hfacts
  · rw [hrun] at hfacts
    simp only [Except.toOption, Option.any_some, decide_eq_true_eq] at hfacts
    obtain ⟨hshards, hnext, hprocessed, hread⟩ := hfacts
    obtain ⟨shard, hshard, hplanned⟩ := List.map_eq_singleton_iff.mp hshards
    obtain ⟨hpath, hreads⟩ := Prod.mk.inj hplanned
    have hfirst := plannedRead_of_getElem? [] [] (congrArg (fun reads => reads[0]?) hreads)
    rw [List.nil_append, ← hshard, hpath] at hfirst
    obtain ⟨place, hplace⟩ := localDamage_oneBlock.changed
    have hshows : Shows opened.reader.shards (fun path => path.sameAs oneBlockData = true) [97] tornContents.bytes
        0 [] :=
      ⟨_, _, _, _, hfirst, Path.sameAs_iff.mpr rfl, rfl, place, hplace, localDamage_oneBlock.confined place hplace⟩
    obtain ⟨t₀, htorn, -, hcalls, -⟩ := local_damage_caught hdamaged
      ofIndex?_eq_none_of_oneBlockData localDamage_oneBlock ⟨rfl, rfl⟩ hrun fun other hother _ => by
        rw [hshard, List.mem_singleton] at hother
        rw [hother, hreads, hplan]
    rw [htorn] at hread
    have hnew : ¬opened.DeliveredBefore [] oneBlockEntry := by
      rintro (hbefore | ⟨other, hother, -⟩)
      · exact hprocessed hbefore
      · cases hother
    obtain ⟨⟨actual, hanswer⟩, hunprocessed⟩ :=
      (hcalls []).1 hzero hzero [] ⟨0, hshows, hnext.le, hread ▸ Nat.one_pos⟩ hnew
    exact ⟨opened, s₀, t₀, actual, _, _, rfl, htorn, Prod.ext (Prod.ext hanswer rfl) rfl, hunprocessed⟩

end Reconciler

end BlockShuffle
