import Mathlib
import BlockShuffle.Proofs.Layout
import BlockShuffle.Proofs.Writing.Kept

/-!
# Writing a shard to a storage that fails

A writer goes from pair to pair, and the pair that it has open, if any, is one that can be appended to
(`HasOpen`). Each operation keeps it so, from any memory and whatever fails in it, and a batch that is reported
as written has joined a pair (`ensures_write`). What else is kept is up to who asks (`Withstands`); that the
pairs are backed is (`withstands_keeps`), and then a writer is `Sound`.

Numbers may wrap around and pairs may be met again: a pair is taken as it is found.

Three things are kept apart here that a proof about one fixed invariant would mix. What a writer *does* to its
memory is the same whatever is asked of it, and is said by `Wrote`. What may be *assumed* of the memory while it
is done is a predicate that the operations keep, with one condition for each kind of call that changes a file
(`AllowsOpening`, and `AllowsData` and `AllowsEntries` of the batch). And what is *wanted*, that pairs are
backed, is one such predicate. Other readers of these lemmas bring their own.

A memory at the start is arbitrary: files of the shard may be there from another writer, complete or torn, and a
writer that is let go and made anew is one that starts from such a memory. What is left out is a second writer
of the same shard at the same time.
-/

set_option autoImplicit false

namespace BlockShuffle

open Storage Program

namespace ShardWriter

/-! ## The files of a shard -/

/-- A writer whose files can be told from those of others. -/
structure Named (writer : ShardWriter) : Prop where
  app : Path.IsName writer.layout.app.toList
  shard : isShardName writer.shard = true

/-- A writer of the same shard. -/
structure SameShard (writer other : ShardWriter) : Prop where
  layout : other.layout = writer.layout
  range : other.range = writer.range
  shard : other.shard = writer.shard

theorem SameShard.filesOf_eq {writer other : ShardWriter} (h : SameShard writer other) :
    other.filesOf = writer.filesOf := by
  funext number
  rw [filesOf, filesOf, h.layout, h.range, h.shard]

theorem SameShard.trans {writer mid other : ShardWriter} (h : SameShard writer mid)
    (h' : SameShard mid other) : SameShard writer other :=
  ⟨h'.layout.trans h.layout, h'.range.trans h.range, h'.shard.trans h.shard⟩

theorem SameShard.named {writer other : ShardWriter} (h : SameShard writer other) (hn : writer.Named) :
    other.Named :=
  ⟨h.layout ▸ hn.app, h.shard ▸ hn.shard⟩

theorem apart_filesOf {writer : ShardWriter} (h : isShardName writer.shard = true) :
    Apart writer.filesOf := by
  constructor
  · intro n m heq
    cases (Layout.file_inj_of_shard h isExtension_data isExtension_index heq).2
  · intro n m heq
    exact (Layout.file_inj_of_shard h isExtension_data isExtension_data heq).1
  · intro n m heq
    exact (Layout.file_inj_of_shard h isExtension_index isExtension_index heq).1

/-! ## Opening a pair -/

section Opening

variable {files : UInt32 → ShardFiles} {inv : Memory → Prop} {n : UInt32}

theorem ensures_openIndex (hinv : AllowsOpening files inv) :
    (Program.openAppend (files n).index).Ensures inv
      (fun result memory => inv memory ∧
        ∀ appender, result = .ok appender → appender.path = (files n).index ∧
          ∃ index, memory.find? (files n).index = some index ∧ appender.position = index.size) := by
  apply ensures_openAppend
  · intro memory error hmemory
    exact ⟨hmemory, nofun⟩
  · intro memory hmemory
    refine ⟨(hinv n memory hmemory).1, fun appender hok => ?_⟩
    cases hok
    obtain ⟨index, hfind, heq⟩ := Memory.openAppend_eq (files n).index memory
    rw [heq]
    exact ⟨rfl, index, hfind, rfl⟩

theorem ensures_openData (hapart : Apart files) (hinv : AllowsOpening files inv) {index : Contents} :
    (Program.openAppend (files n).data).Ensures
      (fun memory => inv memory ∧ memory.find? (files n).index = some index)
      (fun result memory => inv memory ∧
        ∀ appender, result = .ok appender →
          ∃ front, Opened (files n) appender front index memory) := by
  apply ensures_openAppend
  · rintro memory error ⟨hmemory, -⟩
    exact ⟨hmemory, nofun⟩
  · rintro memory ⟨hmemory, hindex⟩
    refine ⟨(hinv n memory hmemory).2, fun appender hok => ?_⟩
    cases hok
    obtain ⟨front, hfind, heq⟩ := Memory.openAppend_eq (files n).data memory
    rw [heq]
    refine ⟨front, hfind, ?_, rfl, rfl⟩
    rw [Memory.find?_openAppend_of_ne (hapart.data_ne_index n n)]
    exact hindex

end Opening

variable {writer : ShardWriter} {inv : Memory → Prop}

/-- A pair is opened whose index ends with a whole entry, and others are passed over. -/
theorem ensures_openPairFrom (hapart : Apart writer.filesOf) (hinv : AllowsOpening writer.filesOf inv)
    (left : Nat) :
    ∀ number, (writer.openPairFrom left number).Ensures inv (fun result memory => inv memory ∧
      ∀ pair, result.1 = .ok pair → IsOpen writer.filesOf pair memory) := by
  -- By the numbers that are left to try. A pair that is passed over was at most made, and that the invariant allows.
  induction left using Nat.strong_induction_on with
  | _ left ih =>
    intro number
    rw [openPairFrom.eq_def]
    refine (ensures_openIndex hinv).bind ?_
    rintro (error | appender)
    · apply ensures_done
      rintro memory ⟨hmemory, -⟩
      exact ⟨hmemory, nofun⟩
    apply Ensures.of_each
    rintro memory ⟨hmemory, hopened⟩
    obtain ⟨hpath, index, hindex, hposition⟩ := hopened appender rfl
    dsimp only
    split_ifs with hwhole
    · refine ((ensures_openData hapart hinv).from_memory ⟨hmemory, hindex⟩).bind ?_
      rintro (error | data)
      · apply Ensures.of_each
        rintro memory ⟨hmemory, -⟩
        refine ensures_release.bind fun _ => ?_
        apply ensures_done
        rintro _ rfl
        exact ⟨hmemory, nofun⟩
      · apply ensures_done
        rintro memory ⟨hmemory, hopened⟩
        refine ⟨hmemory, fun pair hok => ?_⟩
        cases hok
        obtain ⟨front, hopened⟩ := hopened data rfl
        rw [hposition, Contents.toNat_size] at hwhole
        exact ⟨number, front, index, rfl, hpath, hopened, hwhole⟩
    · refine ensures_release.bind fun _ => ?_
      cases left with
      | zero =>
        apply ensures_done
        rintro _ rfl
        exact ⟨hmemory, nofun⟩
      | succ left => exact (ih left (Nat.lt_succ_self left) _).from_memory hmemory

/-- The pair that a writer has open, if any, is one that can be appended to. -/
def HasOpen (writer : ShardWriter) (memory : Memory) : Prop :=
  ∀ pair, writer.pair = some pair → IsOpen writer.filesOf pair memory

theorem hasOpen_of_pair_eq_none {memory : Memory} (h : writer.pair = none) : writer.HasOpen memory := by
  intro pair hpair
  rw [h] at hpair
  cases hpair

theorem ensures_openPair (hapart : Apart writer.filesOf) (hinv : AllowsOpening writer.filesOf inv) :
    writer.openPair.Ensures (fun memory => inv memory ∧ writer.HasOpen memory)
      (fun result memory => inv memory ∧
        ∀ pair, result.1 = .ok pair → IsOpen writer.filesOf pair memory) := by
  rw [openPair.eq_def]
  cases hpair : writer.pair with
  | some pair =>
    apply ensures_done
    rintro memory ⟨hmemory, hopen⟩
    refine ⟨hmemory, fun other hok => ?_⟩
    cases hok
    exact hopen pair hpair
  | none => exact (ensures_openPairFrom hapart hinv _ _).mono (fun _ h => h.1) fun _ _ h => h

/-! ## Writing -/

/-- What the memory is like while a batch is written: one invariant until its pair is open, and one that is no
stronger from there on. -/
structure Withstands (files : UInt32 → ShardFiles) (blocks : List Block) (opening writing : Memory → Prop) :
    Prop where
  opens : AllowsOpening files opening
  weaker : ∀ memory, opening memory → writing memory
  data : ∀ n, AllowsData (files n) writing
  entries : (∀ block ∈ blocks, Fits block) → ∀ n memory, opening memory → ∀ pair front index,
    OpenPair.IsOn (files n) pair front index memory → AllowsEntries (files n) front index blocks writing

/-- A batch was written: it has joined the pair that the writer has open. -/
def Wrote (writer : ShardWriter) (blocks : List Block) (opening : Memory → Prop) (after : ShardWriter)
    (memory : Memory) : Prop :=
  (∀ block ∈ blocks, Fits block) ∧ ∃ before n, opening before ∧ after.currentFiles = writer.filesOf n ∧
    Joins (writer.filesOf n) blocks before memory

variable {opening writing : Memory → Prop} {blocks : List Block}

theorem ensures_release {pair : OpenPair} {pre : Memory → Prop} :
    pair.release.Ensures pre fun _ memory => pre memory :=
  Program.ensures_release.bind fun _ => Program.ensures_release

theorem ensures_writeChecked (hapart : Apart writer.filesOf)
    (h : Withstands writer.filesOf blocks opening writing) (hfits : ∀ block ∈ blocks, Fits block) :
    (writer.writeChecked blocks).Ensures (fun memory => opening memory ∧ writer.HasOpen memory)
      (fun result memory => SameShard writer result.2 ∧ writing memory ∧ result.2.HasOpen memory ∧
        (result.1 = .ok () → writer.Wrote blocks opening result.2 memory)) := by
  have habandon : ∀ number memory, (writer.abandonPair number).HasOpen memory :=
    fun _ _ => hasOpen_of_pair_eq_none rfl
  rw [writeChecked]
  refine (ensures_openPair hapart h.opens).bind ?_
  rintro ⟨error | pair, number⟩
  · apply ensures_done
    rintro memory ⟨hmemory, -⟩
    exact ⟨⟨rfl, rfl, rfl⟩, h.weaker memory hmemory, habandon _ _, nofun⟩
  -- From here on the memory in front of the batch is fixed: what was written is said with it.
  apply Ensures.of_each
  rintro before ⟨hbefore, hopened⟩
  obtain ⟨n, front, index, hon⟩ := hopened pair rfl
  refine ((OpenPair.ensures_writeBatch (hapart.data_ne_index n n) (h.data n)
    (h.entries hfits n before hbefore pair front index hon)).from_memory
      ⟨h.weaker before hbefore, hon⟩).bind ?_
  rintro ⟨error | ⟨⟩, pair'⟩
  · refine ensures_release.bind fun _ => ?_
    apply ensures_done
    rintro memory ⟨hmemory, -⟩
    exact ⟨⟨rfl, rfl, rfl⟩, hmemory, habandon _ _, nofun⟩
  · apply ensures_done
    rintro memory ⟨hmemory, hwritten⟩
    obtain ⟨longer, index', hlonger, hindex', hon'⟩ := hwritten rfl
    refine ⟨⟨rfl, rfl, rfl⟩, hmemory, fun other hpair => ?_, fun _ => ⟨hfits, before, n, hbefore, ?_, ?_⟩⟩
    · cases hpair
      exact ⟨n, longer, index', hon'⟩
    · exact hon'.files_eq
    · exact Joins.of_isOn hon hlonger hindex' hon'

theorem fits_of_checkBlocks {blocks : List Block} (h : checkBlocks blocks = .ok ()) :
    ∀ block ∈ blocks, Fits block := by
  induction blocks with
  | nil => simp
  | cons block blocks ih =>
    rw [checkBlocks, Block.check] at h
    by_cases hfit : block.length.toNat = block.payload.length
    · rw [if_pos hfit] at h
      intro other ho
      rcases List.mem_cons.mp ho with rfl | ho
      · exact hfit
      · exact ih h other ho
    · rw [if_neg hfit] at h
      cases h

/-- **A write that succeeds has put its batch behind what a pair held**, and one that fails has kept what it
must. -/
theorem ensures_write (hapart : Apart writer.filesOf) (h : Withstands writer.filesOf blocks opening writing) :
    (writer.write blocks).Ensures (fun memory => opening memory ∧ writer.HasOpen memory)
      (fun result memory => SameShard writer result.2 ∧ writing memory ∧ result.2.HasOpen memory ∧
        (result.1 = .ok () → writer.Wrote blocks opening result.2 memory)) := by
  rw [write]
  cases hcheck : checkBlocks blocks with
  | error fault =>
    apply ensures_done
    rintro memory ⟨hmemory, hopen⟩
    exact ⟨⟨rfl, rfl, rfl⟩, h.weaker memory hmemory, hopen, nofun⟩
  | ok =>
    refine (ensures_writeChecked hapart h (fits_of_checkBlocks hcheck)).bind ?_
    rintro ⟨written, after⟩
    apply ensures_done
    rintro memory ⟨hsame, hmemory, hopen, hwrote⟩
    refine ⟨hsame, hmemory, hopen, fun hok => hwrote ?_⟩
    cases written with
    | error error => cases hok
    | ok => rfl

/-! ## Operations -/

/-- What an operation leaves behind: a writer of the same shard, and if it is a batch that was written, its
blocks in the shard. -/
def Leaves (writer : ShardWriter) (inv : Memory → Prop) (blocks : List Block) (succeeded : Prop)
    (after : ShardWriter) (memory : Memory) : Prop :=
  SameShard writer after ∧ (inv memory ∧ after.HasOpen memory) ∧
    (succeeded → ∀ block ∈ blocks, Stored writer.filesOf memory block)

theorem ensures_write_leaves (hapart : Apart writer.filesOf) (h : Withstands writer.filesOf blocks inv inv) :
    (writer.write blocks).Ensures (fun memory => inv memory ∧ writer.HasOpen memory)
      (fun result => writer.Leaves inv blocks (result.1 = .ok ()) result.2) := by
  refine (ensures_write hapart h).mono (fun _ h => h) ?_
  rintro ⟨answer, after⟩ memory ⟨hsame, hmemory, hopen, hwrote⟩
  refine ⟨hsame, ⟨hmemory, hopen⟩, fun hok => ?_⟩
  obtain ⟨hfits, before, n, -, -, hjoins⟩ := hwrote hok
  exact hjoins.stored hfits

theorem ensures_finish {pair : OpenPair} {pre : Memory → Prop} :
    pair.finish.Ensures pre fun _ memory => pre memory := by
  rw [OpenPair.finish]
  refine ensures_sync.bind ?_
  rintro ⟨error | ⟨⟩, data⟩
  · refine (ensures_release.bind fun _ => ?_).mono (fun _ h => h.2) fun _ _ h => h
    exact ensures_done fun _ h => h
  · refine (ensures_sync.bind ?_).mono (fun _ h => h.2) fun _ _ h => h
    rintro ⟨synced, index⟩
    refine (ensures_release.bind fun _ => ?_).mono (fun _ h => h.2) fun _ _ h => h
    exact ensures_done fun _ h => h

/-- Finishing a pair touches no file. -/
theorem ensures_rollOver {pre : Memory → Prop} :
    writer.rollOver.Ensures pre fun result memory =>
      SameShard writer result.2 ∧ pre memory ∧ result.2.pair = none := by
  rw [rollOver.eq_def]
  cases writer.pair with
  | none => exact ensures_done fun memory hpre => ⟨⟨rfl, rfl, rfl⟩, hpre, rfl⟩
  | some pair =>
    refine ensures_finish.bind ?_
    rintro (error | ⟨⟩) <;> exact ensures_done fun memory hpre => ⟨⟨rfl, rfl, rfl⟩, hpre, rfl⟩

/-! ## Backed shards -/

/-- What holds of a writer between two operations. -/
structure Sound (allowed : Block → Prop) (start : Memory) (writer : ShardWriter) (memory : Memory) :
    Prop where
  keeps : Keeps writer.filesOf allowed start memory
  isOpen : writer.HasOpen memory

variable {allowed : Block → Prop} {start : Memory}

theorem Sound.of_sameShard {after : ShardWriter} {memory : Memory} (h : SameShard writer after)
    (hkeeps : Keeps writer.filesOf allowed start memory) (hopen : after.HasOpen memory) :
    after.Sound allowed start memory :=
  ⟨h.filesOf_eq ▸ hkeeps, hopen⟩

/-- **Whatever is written, the pairs stay backed.** -/
theorem withstands_keeps {files : UInt32 → ShardFiles} (hapart : Apart files)
    (hallowed : ∀ block ∈ blocks, allowed block) :
    Withstands files blocks (Keeps files allowed start) (Keeps files allowed start) := by
  refine ⟨Keeps.allowsOpening hapart, fun _ h => h, Keeps.allowsData hapart, ?_⟩
  intro hfits n memory hkeeps pair front index hon
  have hbacked := hkeeps.backed n
  rw [Memory.bytes?_of_find? hon.opened.data_eq, Memory.bytes?_of_find? hon.opened.index_eq] at hbacked
  exact Keeps.allowsEntries hapart hallowed hfits hbacked hon.whole

end ShardWriter

end BlockShuffle
