import Mathlib
import BlockShuffle.Proofs.Reading.Opening
import BlockShuffle.Proofs.Results
import BlockShuffle.Proofs.Storage.Archive

/-!
# What opening finds

On a storage that looking at leaves as it is, opening a partition is a function of what is there. A pair is looked at
by itself: it does not count as there, or its index has some entries, or looking fails, and none of that depends on the
limits that the settings name (`ShardReader.exists_finds`). They come in afterwards, when the entries are planned
(`ShardReader.ofEntries?`).

A partition is its listings and what its pairs come to, put together in order (`PartitionReader.shardsIn`). So two
settings that differ in their limits only open the same files (`PartitionReader.files_shardsIn_congr`), and what a
listing names was looked at, or nothing opened (`PartitionReader.exists_outcome_of_shardsIn`).

A failure is an outcome like any other here. What a pair comes to has one of three forms, and each of them is a
function of what is there, so that two openings of one storage can be compared without running either: whoever
fails, fails with the same error. What it is that fails is not asked, and which errors may pass plays no part,
since a storage that does not change gives one answer to all attempts and the last of them is that answer.

This is where a directory under the name of a data file or an index is dealt with. It opens, has a length, and
cannot be read. To a memory nothing of the kind happens, and for memory the whole of this module comes down to
`Proofs/Reading/Discovery`.
-/

set_option autoImplicit false

namespace BlockShuffle

open Storage Program

variable {σ : Type} {handler : Handler σ} {good : σ → Prop} {s : σ} {files : Path → Option Bytes}

theorem indexEntries_of_none {path : Path} (h : files path = none) : indexEntries files path = [] := by
  rw [indexEntries, h, Option.getD_none, IndexEntry.decodeAll_nil]

/-! ## One pair -/

/-- Why nothing can be read from a path: it does not open, or what opens has a length and nothing inside it can be
read. -/
def Refuses (handler : Handler σ) (s : σ) (path : Path) (cause : IoError) : Prop :=
  (handler (.openRead path) s).1 = .error cause ∨
  ∃ reader size offset length, (handler (.openRead path) s).1 = .ok reader ∧
    (handler (.size reader) s).1 = .ok size ∧ 0 < length ∧ offset + length ≤ size ∧
    (handler (.readAt reader offset length) s).1 = .error cause

namespace ShardReader

/-- A failure is settled alike, whatever the call was to answer. -/
theorem exists_failure (attempts : Nat) (error : IoError) :
    ∃ failure, ∀ α, settle attempts (.error error : Except IoError α) = .error failure := by
  by_cases htransient : error.kind.isTransient = true
  · exact ⟨_, fun _ => if_pos htransient⟩
  · exact ⟨_, fun _ => if_neg htransient⟩

section Indexes

variable {policy : RetryPolicy} {path : Path} {reader : Reader} {failure : RetryError}

theorem yields_readIndex_of_unopened
    (hopen : (retried policy (Program.openRead path)).Yields handler good (· = .error failure)) (entryLimit : Nat) :
    (readIndex policy path entryLimit).Yields handler good (· = .error failure) := by
  rw [readIndex]
  apply hopen.bind
  rintro _ rfl
  exact yields_done rfl

/-- An index that opens, and has a length, comes to what its entries come to. -/
theorem yields_readIndex_of_size {size entryLimit : Nat} {post : Except RetryError (List IndexEntry) → Prop}
    (hopen : (retried policy (Program.openRead path)).Yields handler good (· = .ok reader))
    (hsize : (retried policy (Program.size reader)).Yields handler good (· = .ok size))
    (hentries : (readEntries policy reader entryLimit 0 (size - size % IndexEntry.size) []).Yields handler good
      post) : (readIndex policy path entryLimit).Yields handler good post := by
  rw [readIndex]
  apply hopen.bind
  rintro _ rfl
  apply hsize.bind
  rintro _ rfl
  exact hentries

/-- Whatever a chunk is, the first of them is not empty, and if it cannot be read nothing is. -/
theorem yields_readEntries_of_unread {offset left : Nat} (hleft : left ≠ 0)
    (hread : ∀ length, 0 < length → length ≤ left →
      (retried policy (Program.readAt reader offset length)).Yields handler good (· = .error failure))
    (entryLimit : Nat) (done : List IndexEntry) :
    (readEntries policy reader entryLimit offset left done).Yields handler good (· = .error failure) := by
  have hchunk : 0 < min (chunkSize entryLimit) left := by
    simp only [chunkSize, IndexEntry.size, UInt64.size]
    omega
  rw [readEntries, if_neg hleft]
  apply (hread _ hchunk (Nat.min_le_right _ _)).bind
  rintro _ rfl
  exact yields_done rfl

/-- Whatever the limit, an index that opens has the entries of its file, or it cannot be read and is no file. -/
theorem exists_index (h : Archive handler s files) (policy : RetryPolicy) (path : Path) :
    ∃ answer : Except RetryError (List IndexEntry),
      (∀ entryLimit, (readIndex policy path entryLimit).Yields handler (· = s) (· = answer)) ∧
      (answer = .ok (indexEntries files path) ∧ (∃ reader, (handler (.openRead path) s).1 = .ok reader) ∨
        files path = none ∧ ∃ cause, Refuses handler s path cause ∧
          answer = settle (policy.maxRetries + 1) (.error cause)) := by
  cases hbytes : files path with
  | some bytes =>
    obtain ⟨reader, hreader, -⟩ := h.file path bytes hbytes
    refine ⟨.ok (IndexEntry.decodeAll bytes).1, fun entryLimit => ?_, Or.inl ⟨?_, reader, hreader⟩⟩
    · exact yields_readIndex h.waits policy (h.openRead hbytes) entryLimit
    · rw [indexEntries, hbytes, Option.getD_some]
  | none =>
    have hopen := yields_retried_settle h.waits policy (h.answers (.openRead path) trivial)
    cases hreader : (handler (.openRead path) s).1 with
    | error error =>
      obtain ⟨failure, hfailure⟩ := exists_failure (policy.maxRetries + 1) error
      rw [hreader, hfailure] at hopen
      exact ⟨.error failure, yields_readIndex_of_unopened hopen,
        Or.inr ⟨rfl, error, Or.inl hreader, (hfailure _).symm⟩⟩
    | ok reader =>
      rw [hreader] at hopen
      obtain ⟨size, fault, hsize, hshut⟩ := h.other path reader hbytes hreader
      have hsized := yields_retried_eq h.waits policy (hsize ▸ h.answers (.size reader) trivial)
      -- The length is all that can be learnt, and if it is not zero the first chunk cannot be read.
      by_cases hleft : size - size % IndexEntry.size = 0
      · refine ⟨.ok [], fun entryLimit => yields_readIndex_of_size hopen hsized ?_,
          Or.inl ⟨by rw [indexEntries_of_none hbytes], reader, rfl⟩⟩
        rw [hleft, readEntries, if_pos rfl]
        exact yields_done rfl
      · obtain ⟨failure, hfailure⟩ := exists_failure (policy.maxRetries + 1) fault
        have hunread : ∀ length, 0 < length → length ≤ size - size % IndexEntry.size →
            (retried policy (Program.readAt reader 0 length)).Yields handler (· = s) (· = .error failure) := by
          intro length hpos hle
          have hread := yields_retried_settle h.waits policy (h.answers (.readAt reader 0 length) trivial)
          rwa [hshut 0 length hpos (by omega), hfailure] at hread
        have hrefuses : Refuses handler s path fault :=
          Or.inr ⟨reader, size, 0, size, hreader, hsize, by omega, by omega, hshut 0 size (by omega) (by omega)⟩
        exact ⟨.error failure, fun entryLimit => yields_readIndex_of_size hopen hsized
          (yields_readEntries_of_unread hleft hunread entryLimit []), Or.inr ⟨rfl, fault, hrefuses, (hfailure _).symm⟩⟩

end Indexes

/-- The shard that a pair with these entries opens as, if they are in order. -/
def ofEntries? (pair : ShardFiles) (policy : RetryPolicy) (entryLimit byteLimit : Nat) (entries : List IndexEntry) :
    Option ShardReader :=
  (ReadPlan.ofEntries entries byteLimit entryLimit).toOption.map fun reads =>
    { files := pair, retryPolicy := policy, reads := reads.toArray, blockCount := entries.length }

/-- What opening a pair comes to, when this is found. -/
def outcomeOf (pair : ShardFiles) (policy : RetryPolicy) (entryLimit byteLimit : Nat)
    (found : Except Error (Option (List IndexEntry))) : Except Error (Option ShardReader) :=
  found.map fun entries => entries.bind (ofEntries? pair policy entryLimit byteLimit)

/-- What there is to a pair, when this comes of asking for its data file and of reading its index. -/
def foundBy (pair : ShardFiles) (present : Except RetryError Bool) (index : Except RetryError (List IndexEntry)) :
    Except Error (Option (List IndexEntry)) :=
  match present with
  | .error failure => .error (failure.toError s!"check {pair.data.text}")
  | .ok false => .ok none
  | .ok true =>
    match index with
    | .error failure =>
      if failure.isNotFound || failure.isUnexpectedEof then .ok none
      else .error (failure.toError s!"read {pair.index.text}")
    | .ok entries => .ok (some entries)

theorem yields_open_foundBy {policy : RetryPolicy} {pair : ShardFiles} {present : Except RetryError Bool}
    {index : Except RetryError (List IndexEntry)}
    (hprobe : (retried policy (Program.probe pair.data)).Yields handler good (· = present))
    (hindex : ∀ entryLimit, (readIndex policy pair.index entryLimit).Yields handler good (· = index))
    (entryLimit byteLimit : Nat) :
    (ShardReader.open pair entryLimit byteLimit policy).Yields handler good
      (· = outcomeOf pair policy entryLimit byteLimit (foundBy pair present index)) := by
  rw [ShardReader.open]
  apply hprobe.bind
  rintro (failure | _ | _) rfl
  · exact yields_done rfl
  · exact yields_done rfl
  · apply (hindex entryLimit).bind
    rintro (failure | entries) rfl
    · dsimp only [foundBy]
      split <;> exact yields_done rfl
    · simp only [foundBy, outcomeOf, Except.map, Option.bind_some, ofEntries?]
      cases ReadPlan.ofEntries entries byteLimit entryLimit with
      | error fault => exact yields_done rfl
      | ok reads => exact yields_done rfl

/-- What there is to a pair, whatever the limits that it is opened with, and what that says of its files. -/
structure Finds (handler : Handler σ) (s : σ) (files : Path → Option Bytes) (policy : RetryPolicy) (pair : ShardFiles)
    (found : Except Error (Option (List IndexEntry))) : Prop where
  opens : ∀ entryLimit byteLimit, (ShardReader.open pair entryLimit byteLimit policy).Yields handler (· = s)
    (· = outcomeOf pair policy entryLimit byteLimit found)
  present : ∀ entries, found = .ok (some entries) → (handler (.probe pair.data) s).1 = .ok true ∧
    (∃ reader, (handler (.openRead pair.index) s).1 = .ok reader) ∧ entries = indexEntries files pair.index
  absent : found = .ok none → (handler (.probe pair.data) s).1 = .ok false ∨
    files pair.index = none ∧ ∃ cause, Refuses handler s pair.index cause ∧
      (cause.kind = .notFound ∨ cause.kind = .unexpectedEof)
  failing : ∀ error, found = .error error →
    (∃ cause, (handler (.probe pair.data) s).1 = .error cause) ∨ files pair.index = none

/-- A failure that is told to be one of a thing that is missing or too short is one. -/
theorem kind_of_settle {attempts : Nat} {cause : IoError} {failure : RetryError}
    (hfailure : ∀ α, settle attempts (.error cause : Except IoError α) = .error failure)
    (htold : (failure.isNotFound || failure.isUnexpectedEof) = true) :
    cause.kind = .notFound ∨ cause.kind = .unexpectedEof := by
  have hsettle := hfailure Unit
  rw [settle] at hsettle
  split at hsettle
  · cases hsettle
    cases htold
  · cases hsettle
    rw [Bool.or_eq_true] at htold
    exact htold.imp beq_iff_eq.mp beq_iff_eq.mp

/-- **What opening a pair finds is there before the limits are asked for.** -/
theorem exists_finds (h : Archive handler s files) (policy : RetryPolicy) (pair : ShardFiles) :
    ∃ found, Finds handler s files policy pair found := by
  have hprobe := yields_retried_settle h.waits policy (h.answers (.probe pair.data) trivial)
  obtain ⟨answer, hindex, hanswer⟩ := exists_index h policy pair.index
  rcases hpresent : (handler (.probe pair.data) s).1 with error | _ | _
  · obtain ⟨failure, hfailure⟩ := exists_failure (policy.maxRetries + 1) error
    rw [hpresent, hfailure] at hprobe
    refine ⟨_, yields_open_foundBy hprobe hindex, ?_, ?_, fun _ _ => Or.inl ⟨error, hpresent⟩⟩
    · rintro _ ⟨⟩
    · rintro ⟨⟩
  · rw [hpresent] at hprobe
    refine ⟨_, yields_open_foundBy hprobe hindex, ?_, fun _ => Or.inl hpresent, ?_⟩
    · rintro _ ⟨⟩
    · rintro _ ⟨⟩
  · rw [hpresent] at hprobe
    rcases hanswer with ⟨rfl, hopens⟩ | ⟨hnone, cause, hrefuses, rfl⟩
    · refine ⟨_, yields_open_foundBy hprobe hindex, ?_, ?_, ?_⟩
      · rintro _ ⟨⟩
        exact ⟨hpresent, hopens, rfl⟩
      · rintro ⟨⟩
      · rintro _ ⟨⟩
    · obtain ⟨failure, hfailure⟩ := exists_failure (policy.maxRetries + 1) cause
      rw [hfailure] at hindex
      refine ⟨_, yields_open_foundBy hprobe hindex, fun entries hfound => ?_,
        fun hfound => Or.inr ⟨hnone, cause, hrefuses, ?_⟩, fun _ _ => Or.inr hnone⟩
      · simp only [settle, foundBy] at hfound
        split at hfound <;> cases hfound
      · simp only [settle, foundBy] at hfound
        split at hfound
        · exact kind_of_settle hfailure ‹_›
        · cases hfound

theorem exists_found (h : Archive handler s files) (policy : RetryPolicy) (pair : ShardFiles) :
    ∃ found : Except Error (Option (List IndexEntry)),
      (∀ entryLimit byteLimit, (ShardReader.open pair entryLimit byteLimit policy).Yields handler (· = s)
        (· = outcomeOf pair policy entryLimit byteLimit found)) ∧
      (∀ entries, found = .ok (some entries) → entries = indexEntries files pair.index) ∧
      (found = .ok none → (handler (.probe pair.data) s).1 = .ok false ∨ files pair.index = none) := by
  obtain ⟨found, hfound⟩ := exists_finds h policy pair
  exact ⟨found, hfound.opens, fun entries heq => (hfound.present entries heq).2.2,
    fun heq => (hfound.absent heq).imp_right And.left⟩

theorem ofEntries?_eq_some_iff {pair : ShardFiles} {policy : RetryPolicy} {entryLimit byteLimit : Nat}
    {entries : List IndexEntry} {shard : ShardReader} :
    ofEntries? pair policy entryLimit byteLimit entries = some shard ↔
      ∃ reads, ReadPlan.ofEntries entries byteLimit entryLimit = .ok reads ∧
        shard = { files := pair, retryPolicy := policy, reads := reads.toArray, blockCount := entries.length } := by
  rw [ofEntries?]
  cases ReadPlan.ofEntries entries byteLimit entryLimit with
  | error fault => simp [Except.toOption]
  | ok reads => simp [Except.toOption, eq_comm]

theorem ofEntries?_eq_none {pair : ShardFiles} {policy : RetryPolicy} {entryLimit byteLimit : Nat}
    {entries : List IndexEntry} (h : ofEntries? pair policy entryLimit byteLimit entries = none) :
    ReadPlan.checkOrdered 0 entries ≠ .ok () := by
  intro hordered
  rw [ofEntries?, ReadPlan.ofEntries_eq_ok_iff.mpr ⟨hordered, rfl⟩] at h
  cases h

/-- A shard that a pair comes to has its files, and is opened from them. -/
theorem openedFrom_of_outcomeOf {pair : ShardFiles} {config : ReadConfig}
    {found : Except Error (Option (List IndexEntry))}
    (hentries : ∀ entries, found = .ok (some entries) → entries = indexEntries files pair.index) {shard : ShardReader}
    (h : outcomeOf pair config.retry config.entryLimit config.byteLimit found = .ok (some shard)) :
    shard.files = pair ∧ shard.OpenedFrom files config := by
  rcases found with error | _ | entries
  · cases h
  · cases h
  · obtain ⟨reads, hplan, rfl⟩ := ofEntries?_eq_some_iff.mp (Except.ok.inj h)
    refine ⟨rfl, ?_, rfl⟩
    rw [← hentries entries rfl]
    exact hplan

/-- Whether there is a shard does not depend on the limits, and neither do its files. -/
theorem files_ofEntries? (pair : ShardFiles) (policy : RetryPolicy) (entryLimit byteLimit : Nat)
    (entries : List IndexEntry) :
    (ofEntries? pair policy entryLimit byteLimit entries).map ShardReader.files =
      if ReadPlan.checkOrdered 0 entries = .ok () then some pair else none := by
  rw [ofEntries?, Option.map_map]
  split
  · rename_i hordered
    rw [ReadPlan.ofEntries_eq_ok_iff.mpr ⟨hordered, rfl⟩]
    rfl
  · rename_i hdisordered
    cases hplan : ReadPlan.ofEntries entries byteLimit entryLimit with
    | error fault => rfl
    | ok reads => exact absurd (ReadPlan.ofEntries_eq_ok_iff.mp hplan).1 hdisordered

theorem files_outcomeOf (pair : ShardFiles) (policy : RetryPolicy) (entryLimit byteLimit : Nat)
    (found : Except Error (Option (List IndexEntry))) :
    (outcomeOf pair policy entryLimit byteLimit found).map (Option.map ShardReader.files) =
      found.map fun entries => entries.bind fun entries =>
        if ReadPlan.checkOrdered 0 entries = .ok () then some pair else none := by
  rcases found with error | _ | entries
  · rfl
  · rfl
  · exact congrArg Except.ok (files_ofEntries? pair policy entryLimit byteLimit entries)

end ShardReader

/-! ## A partition -/

namespace PartitionReader

/-- The shards of the pairs in a listing, where each pair comes to this. -/
def shardsOf (outcome : ShardFiles → Except Error (Option ShardReader)) (paths : List Path) :
    Except Error (List ShardReader) :=
  ((paths.filterMap ShardFiles.ofIndex?).mapM outcome).map List.reduceOption

/-- The shards of a directory; none, if the directory does not exist. -/
def shardsAt (outcome : ShardFiles → Except Error (Option ShardReader))
    (listing : Path → Except RetryError (List Path)) (dir : Path) : Except Error (List ShardReader) :=
  match listing dir with
  | .error error => if error.isNotFound then .ok [] else .error (error.toError s!"list {dir.text}")
  | .ok paths => shardsOf outcome paths

/-- The shards of directories, in order. -/
def shardsIn (outcome : ShardFiles → Except Error (Option ShardReader))
    (listing : Path → Except RetryError (List Path)) (dirs : List Path) : Except Error (List ShardReader) :=
  (dirs.mapM (shardsAt outcome listing)).map List.flatten

variable {config : ReadConfig} {outcome other : ShardFiles → Except Error (Option ShardReader)}
  {listing : Path → Except RetryError (List Path)}

theorem yields_openListed_eq
    (hopen : ∀ pair, (ShardReader.open pair config.entryLimit config.byteLimit config.retry).Yields handler good
      (· = outcome pair)) (paths : List Path) :
    (openListed config paths).Yields handler good (· = shardsOf outcome paths) := by
  induction paths with
  | nil => exact yields_done rfl
  | cons path paths ih =>
    rw [openListed, shardsOf, List.filterMap_cons]
    cases ShardFiles.ofIndex? path with
    | none => exact ih
    | some pair =>
      apply (hopen pair).bind
      rintro _ rfl
      dsimp only
      rw [List.mapM_cons]
      cases outcome pair with
      | error error => exact yields_done rfl
      | ok shard =>
        apply ih.bind
        rintro _ rfl
        apply yields_done
        rw [shardsOf]
        cases (paths.filterMap ShardFiles.ofIndex?).mapM outcome with
        | error error => rfl
        | ok found => cases shard <;> rfl

theorem yields_openDirs_eq (hlist : ∀ dir, (retried config.retry (Program.list dir)).Yields handler good
      (· = listing dir))
    (hopen : ∀ pair, (ShardReader.open pair config.entryLimit config.byteLimit config.retry).Yields handler good
      (· = outcome pair)) (dirs : List Path) :
    (openDirs config dirs).Yields handler good (· = shardsIn outcome listing dirs) := by
  induction dirs with
  | nil => exact yields_done rfl
  | cons dir dirs ih =>
    rw [openDirs, shardsIn, List.mapM_cons]
    apply (hlist dir).bind
    rintro _ rfl
    rw [shardsAt]
    cases listing dir with
    | error error =>
      dsimp only
      split
      · apply ih.mono
        rintro _ rfl
        rw [shardsIn]
        cases dirs.mapM (shardsAt outcome listing) <;> rfl
      · exact yields_done rfl
    | ok paths =>
      apply (yields_openListed_eq hopen paths).bind
      rintro _ rfl
      dsimp only
      cases shardsOf outcome paths with
      | error error => exact yields_done rfl
      | ok shards =>
        apply ih.bind
        rintro _ rfl
        apply yields_done
        rw [shardsIn]
        cases dirs.mapM (shardsAt outcome listing) <;> rfl

/-! ### Only the files -/

theorem files_shardsOf (outcome : ShardFiles → Except Error (Option ShardReader)) (paths : List Path) :
    (shardsOf outcome paths).map (List.map ShardReader.files) =
      ((paths.filterMap ShardFiles.ofIndex?).mapM fun pair => (outcome pair).map (Option.map ShardReader.files)).map
        List.reduceOption := by
  rw [shardsOf, ← map_mapM]
  cases (paths.filterMap ShardFiles.ofIndex?).mapM outcome with
  | error error => rfl
  | ok found => exact congrArg Except.ok List.reduceOption_map.symm

/-- **Which files open, and in which order, is said by the files that each pair comes to.** -/
theorem files_shardsIn_congr (h : ∀ pair, (outcome pair).map (Option.map ShardReader.files) =
      (other pair).map (Option.map ShardReader.files)) (listing : Path → Except RetryError (List Path))
    (dirs : List Path) :
    (shardsIn outcome listing dirs).map (List.map ShardReader.files) =
      (shardsIn other listing dirs).map (List.map ShardReader.files) := by
  have hdir : ∀ dir, (shardsAt outcome listing dir).map (List.map ShardReader.files) =
      (shardsAt other listing dir).map (List.map ShardReader.files) := by
    intro dir
    rw [shardsAt, shardsAt]
    cases listing dir with
    | error error => rfl
    | ok paths =>
      dsimp only
      rw [files_shardsOf, files_shardsOf]
      simp only [h]
  have hflat : ∀ outcome : ShardFiles → Except Error (Option ShardReader),
      (shardsIn outcome listing dirs).map (List.map ShardReader.files) =
        (dirs.mapM fun dir => (shardsAt outcome listing dir).map (List.map ShardReader.files)).map List.flatten := by
    intro outcome
    rw [shardsIn, ← map_mapM]
    cases dirs.mapM (shardsAt outcome listing) with
    | error error => rfl
    | ok found => exact congrArg Except.ok List.map_flatten
  rw [hflat, hflat]
  simp only [hdir]

/-! ### Everything that is listed -/

/-- Directories that open are a list of results, one for each. -/
theorem exists_found_of_shardsIn {dirs : List Path} {shards : List ShardReader}
    (h : shardsIn outcome listing dirs = .ok shards) :
    ∃ found, dirs.mapM (shardsAt outcome listing) = .ok found ∧ shards = found.flatten := by
  obtain ⟨found, hdirs, rfl⟩ := map_eq_ok_iff.mp h
  exact ⟨found, hdirs, rfl⟩

theorem exists_found_of_shardsOf {paths : List Path} {shards : List ShardReader}
    (h : shardsOf outcome paths = .ok shards) :
    ∃ found, (paths.filterMap ShardFiles.ofIndex?).mapM outcome = .ok found ∧ shards = found.reduceOption := by
  obtain ⟨found, hpairs, rfl⟩ := map_eq_ok_iff.mp h
  exact ⟨found, hpairs, rfl⟩

/-- Every shard that opens is what a pair came to. -/
theorem exists_pair_of_shardsIn {dirs : List Path} {shards : List ShardReader}
    (h : shardsIn outcome listing dirs = .ok shards) {shard : ShardReader} (hshard : shard ∈ shards) :
    ∃ pair, outcome pair = .ok (some shard) := by
  obtain ⟨found, hdirs, rfl⟩ := exists_found_of_shardsIn h
  obtain ⟨those, hthose, hshard⟩ := List.mem_flatten.mp hshard
  obtain ⟨dir, -, hdir⟩ := (exists_mem_of_mapM hdirs).2 those hthose
  rw [shardsAt] at hdir
  cases hlisting : listing dir with
  | error error =>
    rw [hlisting] at hdir
    dsimp only at hdir
    split at hdir
    · cases hdir
      cases hshard
    · cases hdir
  | ok paths =>
    rw [hlisting] at hdir
    obtain ⟨found, hpairs, rfl⟩ := exists_found_of_shardsOf hdir
    obtain ⟨pair, -, hpair⟩ := (exists_mem_of_mapM hpairs).2 (some shard) (List.reduceOption_mem_iff.mp hshard)
    exact ⟨pair, hpair⟩

/-- **If shards open, every pair that is listed came to something**, and to a shard only if it is among them. -/
theorem exists_outcome_of_shardsIn {dirs : List Path} {shards : List ShardReader}
    (h : shardsIn outcome listing dirs = .ok shards) {dir : Path} (hdir : dir ∈ dirs) {paths : List Path}
    (hlisting : listing dir = .ok paths) {path : Path} (hpath : path ∈ paths) {pair : ShardFiles}
    (hpair : ShardFiles.ofIndex? path = some pair) :
    ∃ found, outcome pair = .ok found ∧ ∀ shard, found = some shard → shard ∈ shards := by
  obtain ⟨found, hdirs, rfl⟩ := exists_found_of_shardsIn h
  obtain ⟨those, hthose, hlisted⟩ := (exists_mem_of_mapM hdirs).1 dir hdir
  rw [shardsAt, hlisting] at hlisted
  obtain ⟨found, hpairs, rfl⟩ := exists_found_of_shardsOf hlisted
  obtain ⟨shard?, hmem, houtcome⟩ :=
    (exists_mem_of_mapM hpairs).1 pair (List.mem_filterMap.mpr ⟨path, hpath, hpair⟩)
  refine ⟨shard?, houtcome, ?_⟩
  rintro shard rfl
  exact List.mem_flatten.mpr ⟨_, hthose, List.reduceOption_mem_iff.mpr hmem⟩

end PartitionReader

/-! ## Opening a partition -/

/-- What listing a directory comes to, with retries. -/
def listingOf (handler : Handler σ) (s : σ) (policy : RetryPolicy) (dir : Path) : Except RetryError (List Path) :=
  settle (policy.maxRetries + 1) (handler (.list dir) s).1

theorem Storage.Archive.yields_list (h : Archive handler s files) (policy : RetryPolicy) (dir : Path) :
    (retried policy (Program.list dir)).Yields handler (· = s) (· = listingOf handler s policy dir) :=
  yields_retried_settle h.waits policy (h.answers (.list dir) trivial)

theorem PartitionReader.yields_open_eq (h : Archive handler s files) {config : ReadConfig}
    (hcheck : config.check = .ok ()) {outcome : ShardFiles → Except Error (Option ShardReader)}
    (hopen : ∀ pair, (ShardReader.open pair config.entryLimit config.byteLimit config.retry).Yields handler
      (· = s) (· = outcome pair)) :
    (PartitionReader.open config).Yields handler (· = s)
      (· = (shardsIn outcome (listingOf handler s config.retry) config.partitionDirs).map ofShards) := by
  rw [PartitionReader.open, hcheck]
  apply (yields_openDirs_eq (h.yields_list config.retry) hopen config.partitionDirs).bind
  rintro _ rfl
  exact yields_done rfl

/-- Limits that are not zero are not at fault. -/
theorem ReadConfig.check_limits (config : ReadConfig) {entryLimit byteLimit : Nat} (hentry : 0 < entryLimit)
    (hbyte : 0 < byteLimit) :
    ({ config with entryLimit, byteLimit } : ReadConfig).check =
      ({ config with entryLimit := 1, byteLimit := 1 } : ReadConfig).check := by
  simp only [check, Nat.pos_iff_ne_zero.mp hentry, Nat.pos_iff_ne_zero.mp hbyte, Nat.one_ne_zero, if_false]

namespace Reconciler

theorem files_ofReader (shards : Except Error (List ShardReader)) (expected tasks : IdSet) :
    ((shards.map PartitionReader.ofShards).map fun reader => ofReader reader expected tasks).map
        (fun opened => opened.reader.shards.map ShardReader.files) =
      shards.map (List.map ShardReader.files) := by
  cases shards <;> rfl

/-- **The limits do not show in what opens**: the same files in the same order, or the same error. -/
theorem exists_files_of_open (h : Archive handler s files) (config : ReadConfig) (expected tasks : IdSet) :
    ∃ opens : Except Error (List ShardFiles), ∀ entryLimit byteLimit, 0 < entryLimit → 0 < byteLimit →
      (Reconciler.open { config with entryLimit, byteLimit } expected tasks).Yields handler (· = s)
        fun answer => answer.map (fun opened => opened.reader.shards.map ShardReader.files) = opens := by
  -- What is found does not know the limits. So take the files for some that are accepted, and show it for all.
  choose found hopen _ _ using ShardReader.exists_found h config.retry
  cases hcheck : ({ config with entryLimit := 1, byteLimit := 1 } : ReadConfig).check with
  | error fault =>
    refine ⟨.error (.config fault), fun entryLimit byteLimit hentry hbyte => ?_⟩
    rw [Reconciler.open, config.check_limits hentry hbyte, hcheck]
    exact yields_done rfl
  | ok _ =>
    by_cases hempty : expected.isEmpty = true
    · refine ⟨.ok [], fun entryLimit byteLimit hentry hbyte => ?_⟩
      rw [Reconciler.open, config.check_limits hentry hbyte, hcheck]
      dsimp only
      rw [if_pos hempty]
      exact yields_done rfl
    · refine ⟨(PartitionReader.shardsIn (fun pair => ShardReader.outcomeOf pair config.retry 1 1 (found pair))
        (listingOf handler s config.retry) config.partitionDirs).map (List.map ShardReader.files),
        fun entryLimit byteLimit hentry hbyte => ?_⟩
      have hvalid := (config.check_limits hentry hbyte).trans hcheck
      have hsame := PartitionReader.files_shardsIn_congr (fun pair =>
        (ShardReader.files_outcomeOf pair config.retry entryLimit byteLimit (found pair)).trans
          (ShardReader.files_outcomeOf pair config.retry 1 1 (found pair)).symm)
        (listingOf handler s config.retry) config.partitionDirs
      rw [Reconciler.open, hvalid]
      dsimp only
      rw [if_neg hempty]
      apply (PartitionReader.yields_open_eq h hvalid fun pair => hopen pair entryLimit byteLimit).bind
      rintro _ rfl
      apply yields_done
      rw [← hsame]
      exact files_ofReader _ expected tasks

theorem yields_openedFrom (h : Archive handler s files) (config : ReadConfig) (expected tasks : IdSet) :
    (Reconciler.open config expected tasks).Yields handler (· = s)
      fun answer => ∀ opened, answer = .ok opened →
        ∃ shards, opened = ofReader (PartitionReader.ofShards shards) expected tasks ∧
          ∀ shard ∈ shards, shard.OpenedFrom files config := by
  apply yields_open_each h.waits fun dir => (h.answers (.list dir) trivial).mono fun _ _ => trivial
  intro pair
  obtain ⟨found, hopen, hentries, -⟩ := ShardReader.exists_found h config.retry pair
  apply (hopen config.entryLimit config.byteLimit).mono
  rintro _ rfl shard hshard
  exact (ShardReader.openedFrom_of_outcomeOf hentries hshard).2

end Reconciler

end BlockShuffle
