import Mathlib
import BlockShuffle.Proofs.Delivery.Resuming
import BlockShuffle.Proofs.Storage.Transient

/-!
# Reading through failures that pass

Every storage call of a reader is retried, and with the policy of the settings it was opened with. So a reader
weathers brief failures (`Program.Weathers`), call by call: opening, every read, and any requests after it come to
what they come to without failures, state for state (`faults_within_retries_invisible`).

What has to be carried through the proof is that the policy of the settings is the policy of every shard, also of
those that were passed (`PartitionReader.RetriesWith`): a shard keeps its own copy of it.

The condition on the storage is that it does not, of itself, give a failure that may pass (`Decisive`): such a
failure would use up one of the retries, and with it a brief failure in front of it might be one too many.
Memory and the disk satisfy it. The condition on the failures is about each call by itself, so a run may have
any number of them, and they need not be spread in any way. The storage of the run with failures is the same
storage behind a schedule, and in the end it is in the same state, since a failure that passes leaves nothing
behind.

Failures that go on longer than the retries, and those that do not pass, are a different matter: they are
reported, and what a reader does after a report is in `Proofs/Delivery/Resuming`.
-/

set_option autoImplicit false

namespace BlockShuffle

open Storage Program

variable {σ : Type} {handler : Handler σ} {policy : RetryPolicy} {config : ReadConfig}

/-! ## Opening -/

namespace ShardReader

theorem weathers_readEntries (h : Decisive handler) (policy : RetryPolicy) (index : Reader) (entryLimit left : Nat) :
    ∀ offset done, (readEntries policy index entryLimit offset left done).Weathers handler policy.maxRetries
      fun _ => True := by
  induction left using Nat.strong_induction_on with
  | _ left ih =>
    intro offset done
    rw [readEntries]
    by_cases hleft : left = 0
    · rw [if_pos hleft]
      exact weathers_done trivial
    · rw [if_neg hleft]
      apply (weathers_retried h (h.reaches_readAt _ _ _) policy).bind
      rintro (error | bytes) -
      · exact weathers_done trivial
      · refine ih _ ?_ _ _
        simp only [chunkSize, IndexEntry.size, UInt64.size]
        omega

theorem weathers_readIndex (h : Decisive handler) (policy : RetryPolicy) (path : Path) (entryLimit : Nat) :
    (readIndex policy path entryLimit).Weathers handler policy.maxRetries fun _ => True := by
  rw [readIndex]
  apply (weathers_retried h (h.reaches_openRead path) policy).bind
  rintro (error | index) -
  · exact weathers_done trivial
  apply (weathers_retried h (h.reaches_size index) policy).bind
  rintro (error | size) -
  · exact weathers_done trivial
  · exact weathers_readEntries h policy index entryLimit _ _ _

theorem weathers_open (h : Decisive handler) (pair : ShardFiles) (entryLimit byteLimit : Nat) (policy : RetryPolicy) :
    (ShardReader.open pair entryLimit byteLimit policy).Weathers handler policy.maxRetries
      fun answer => ∀ shard, answer = .ok (some shard) → shard.retryPolicy = policy := by
  rw [ShardReader.open]
  apply (weathers_retried h (h.reaches_probe pair.data) policy).bind
  rintro (error | present) -
  · exact weathers_done (by rintro _ ⟨⟩)
  cases present with
  | false => exact weathers_done (by rintro _ ⟨⟩)
  | true =>
    apply (weathers_readIndex h policy pair.index entryLimit).bind
    rintro (error | entries) -
    · dsimp only
      split <;> exact weathers_done (by rintro _ ⟨⟩)
    · dsimp only
      split
      · exact weathers_done (by rintro _ ⟨⟩)
      · apply weathers_done
        rintro shard ⟨⟩
        rfl

end ShardReader

/-- Every shard of the reader is retried by this policy. -/
def PartitionReader.RetriesWith (policy : RetryPolicy) (reader : PartitionReader) : Prop :=
  ∀ shard ∈ reader.shards, shard.retryPolicy = policy

namespace PartitionReader

theorem weathers_openListed (h : Decisive handler) (config : ReadConfig) (paths : List Path) :
    (openListed config paths).Weathers handler config.retry.maxRetries
      fun answer => ∀ shards, answer = .ok shards → ∀ shard ∈ shards, shard.retryPolicy = config.retry := by
  induction paths with
  | nil =>
    apply weathers_done
    rintro _ ⟨⟩ shard hs
    cases hs
  | cons path paths ih =>
    rw [openListed]
    cases ShardFiles.ofIndex? path with
    | none => exact ih
    | some pair =>
      apply (ShardReader.weathers_open h pair config.entryLimit config.byteLimit config.retry).bind
      rintro (error | found) hfound
      · exact weathers_error
      apply ih.bind
      rintro (error | others) hothers
      · exact weathers_error
      · apply weathers_done
        rintro _ ⟨⟩ shard hs
        rcases List.mem_append.mp hs with hs | hs
        · rw [Option.mem_toList] at hs
          exact hfound shard (congrArg Except.ok hs)
        · exact hothers others rfl shard hs

theorem weathers_openDirs (h : Decisive handler) (config : ReadConfig) (dirs : List Path) :
    (openDirs config dirs).Weathers handler config.retry.maxRetries
      fun answer => ∀ shards, answer = .ok shards → ∀ shard ∈ shards, shard.retryPolicy = config.retry := by
  induction dirs with
  | nil =>
    apply weathers_done
    rintro _ ⟨⟩ shard hs
    cases hs
  | cons dir dirs ih =>
    rw [openDirs]
    apply (weathers_retried h (h.reaches_list dir) config.retry).bind
    rintro (error | listing) -
    · dsimp only
      split
      · exact ih
      · exact weathers_error
    apply (weathers_openListed h config listing).bind
    rintro (error | found) hfound
    · exact weathers_error
    apply ih.bind
    rintro (error | others) hothers
    · exact weathers_error
    · apply weathers_done
      rintro _ ⟨⟩ shard hs
      rcases List.mem_append.mp hs with hs | hs
      · exact hfound found rfl shard hs
      · exact hothers others rfl shard hs

end PartitionReader

theorem Reconciler.weathers_open (h : Decisive handler) (config : ReadConfig) (expected tasks : IdSet) :
    (Reconciler.open config expected tasks).Weathers handler config.retry.maxRetries
      fun answer => ∀ opened, answer = .ok opened → opened.reader.RetriesWith config.retry := by
  rw [Reconciler.open]
  cases hcheck : config.check with
  | error fault => exact weathers_error
  | ok _ =>
    dsimp only
    split
    · apply weathers_done
      rintro _ ⟨⟩ shard hs
      cases hs
    · rw [PartitionReader.open, hcheck]
      dsimp only
      rw [bind_assoc]
      apply (PartitionReader.weathers_openDirs h config config.partitionDirs).bind
      rintro (error | shards) hshards
      · exact weathers_error
      · apply weathers_done
        rintro _ ⟨⟩ shard hs
        exact hshards shards rfl shard hs

/-! ## Reading -/

theorem ShardReader.weathers_read (h : Decisive handler) {shard : ShardReader} (hpolicy : shard.retryPolicy = policy)
    (index : Nat) :
    (shard.read index).Weathers handler policy.maxRetries fun result => result.2.retryPolicy = policy := by
  subst hpolicy
  rw [ShardReader.read]
  cases shard.reads[index]? with
  | none => exact weathers_done rfl
  | some planned =>
    have hopen : shard.openData.Weathers handler shard.retryPolicy.maxRetries fun _ => True := by
      rw [openData]
      cases shard.data with
      | some reader => exact weathers_done trivial
      | none => exact weathers_retried h (h.reaches_openRead _) _
    apply hopen.bind
    rintro (error | reader) -
    · exact weathers_done rfl
    apply (weathers_retried h (h.reaches_readAt reader planned.offset planned.length) _).bind
    rintro (error | buffer) -
    · exact weathers_done rfl
    · exact weathers_done rfl

namespace PartitionReader

theorem weathers_advance (h : Decisive handler) (index : Nat) {ahead : List ShardReader} :
    ∀ {passed : List ShardReader} {base : Nat}, (∀ shard ∈ passed ++ ahead, shard.retryPolicy = policy) →
      (advance index passed base ahead).Weathers handler policy.maxRetries
        fun result => result.2.RetriesWith policy := by
  induction ahead with
  | nil => exact fun hpolicy => weathers_done hpolicy
  | cons shard rest ih =>
    intro passed base hpolicy
    rw [advance]
    split
    · apply (ShardReader.weathers_read h (hpolicy shard (by simp)) _).bind
      rintro ⟨outcome, read⟩ hread
      apply weathers_done
      intro other ho
      rw [shards, List.mem_append, List.mem_cons] at ho
      rcases ho with ho | rfl | ho
      · exact hpolicy other (List.mem_append_left _ ho)
      · exact hread
      · exact hpolicy other (List.mem_append_right _ (List.mem_cons_of_mem _ ho))
    · apply ih
      intro other ho
      rw [List.append_assoc, List.mem_append, List.singleton_append, List.mem_cons] at ho
      rcases ho with ho | rfl | ho
      · exact hpolicy other (List.mem_append_left _ ho)
      · exact hpolicy shard (by simp)
      · exact hpolicy other (List.mem_append_right _ (List.mem_cons_of_mem _ ho))

theorem weathers_read (h : Decisive handler) {reader : PartitionReader} (hpolicy : reader.RetriesWith policy)
    (index : Nat) :
    (reader.read index).Weathers handler policy.maxRetries fun result => result.2.RetriesWith policy := by
  rw [PartitionReader.read]
  split
  · exact weathers_done hpolicy
  · exact weathers_advance h index hpolicy

theorem RetriesWith.close {reader : PartitionReader} (h : reader.RetriesWith policy) :
    reader.close.RetriesWith policy := by
  intro shard hs
  rw [shards, PartitionReader.close, ← List.map_append, List.mem_map] at hs
  obtain ⟨other, ho, rfl⟩ := hs
  exact h other ho

end PartitionReader

namespace Reconciler

theorem weathers_readFrom (h : Decisive handler) (left : Nat) : ∀ {state : Reconciler},
    state.reader.RetriesWith policy →
    (readFrom left state).Weathers handler policy.maxRetries fun result => result.2.reader.RetriesWith policy := by
  -- By the reads that may be left. The policy of the shards is the invariant: no batch changes it.
  induction left using Nat.strong_induction_on with
  | _ left ih =>
    intro state hpolicy
    rw [readFrom]
    split
    · exact weathers_done hpolicy
    apply (PartitionReader.weathers_read h hpolicy state.nextRead).bind
    rintro ⟨error | _ | batch, reader⟩ hreader
    · exact weathers_done hreader
    · exact weathers_done hreader
    dsimp only
    rcases hsettle : ({ state with reader } : Reconciler).settleBatch batch with ⟨settled, next⟩
    have hnext : next.reader.RetriesWith policy := (settleBatch_cursor hsettle).1 ▸ hreader
    cases settled with
    | error error => exact weathers_done hnext
    | ok settled =>
      dsimp only
      split
      · cases left with
        | zero => exact weathers_done hnext
        | succ left => exact ih left (Nat.lt_succ_self left) hnext
      · exact weathers_done hnext

theorem weathers_serve (h : Decisive handler) {requests : List Request} : ∀ {state : Reconciler},
    state.reader.RetriesWith policy →
    (serve requests state).Weathers handler policy.maxRetries fun _ => True := by
  induction requests with
  | nil => exact fun _ => weathers_done trivial
  | cons request requests ih =>
    intro state hpolicy
    cases request with
    | read =>
      rw [serve]
      apply (weathers_readFrom h _ hpolicy).bind
      rintro ⟨answer, next⟩ hnext
      apply (ih hnext).bind
      rintro ⟨answers, final⟩ -
      exact weathers_done trivial
    | cancel =>
      rw [serve]
      exact ih hpolicy
    | close =>
      rw [serve]
      apply ih
      rw [Reconciler.close]
      split
      · exact hpolicy
      · exact hpolicy.close

/-- **Failures within the retries are invisible.** Before any call of the read path reaches the storage, let it fail
as often as it is retried at most, in ways that may pass, with other failures for each call: `now` for the next one,
`later k` for those behind it. Opening answers what it answers without failures, the planned reads of all shards
included; and so do all requests after it, whatever they are, up to the state they leave: the same values and errors,
the same processed and superseded blocks, counters and verdict on completeness. -/
theorem faults_within_retries_invisible (hdecisive : Decisive handler) (config : ReadConfig) (expected tasks : IdSet)
    (s : σ) {now : List IoError} (hnow : Brief config.retry.maxRetries now) {later : Nat → List IoError}
    (hlater : ∀ k, Brief config.retry.maxRetries (later k)) :
    ∃ opening : Flaky σ,
      (Reconciler.open config expected tasks).run (Flaky.handler handler) ⟨s, now, later⟩ =
        (((Reconciler.open config expected tasks).run handler s).1, opening) ∧
      opening.storage = ((Reconciler.open config expected tasks).run handler s).2 ∧
      ∀ opened, ((Reconciler.open config expected tasks).run handler s).1 = .ok opened →
        ∀ (checksum : Checksum) (requests : List Request), ∃ served : Flaky σ,
          (serve requests { opened with checksum }).run (Flaky.handler handler) opening =
            (((serve requests { opened with checksum }).run handler opening.storage).1, served) ∧
          served.storage = ((serve requests { opened with checksum }).run handler opening.storage).2 := by
  have hworld : Flaky.Brief config.retry.maxRetries (⟨s, now, later⟩ : Flaky σ) := ⟨hnow, hlater⟩
  obtain ⟨opening, hopen, hstorage, hahead, hpolicy⟩ := weathers_open hdecisive config expected tasks _ hworld
  refine ⟨opening, hopen, hstorage, fun opened hopened checksum requests => ?_⟩
  have hserve : (serve requests { opened with checksum }).Weathers handler config.retry.maxRetries fun _ => True :=
    weathers_serve hdecisive (hpolicy opened hopened)
  obtain ⟨served, hrun, hleft, -, -⟩ := hserve opening hahead
  exact ⟨served, hrun, hleft⟩

/-- The settings for the one block, with one retry for each call. -/
def oneRetryConfig : ReadConfig := { oneBlockConfig with retry := .fixed 1 0 }

/-- Every call fails once, the first in another way than the rest, and the one block is delivered all the same. -/
theorem faults_within_retries_invisible_eachCallOnce :
    ∃ opened opening final served,
      (Reconciler.open oneRetryConfig {0} {0}).run (Flaky.handler Memory.handler)
        ⟨oneBlock, [⟨.timedOut, ""⟩], fun _ => [⟨.interrupted, ""⟩]⟩ = (.ok opened, opening) ∧
      (serve [.read, .read] { opened with checksum := crc32 }).run (Flaky.handler Memory.handler) opening =
        (([.ok (some ⟨[97], [⟨0, 1, ⟨0⟩, 0, crc32 [97], 1⟩]⟩), .ok none], final), served) ∧
      final.checkComplete = .ok () := by
  have hfacts : ((Reconciler.open oneRetryConfig {0} {0}).run Memory.handler oneBlock).1.toOption.any
      (fun opened =>
        let run := (serve [.read, .read] { opened with checksum := crc32 }).run Memory.handler oneBlock
        run.1.1 = [.ok (some ⟨[97], [⟨0, 1, ⟨0⟩, 0, crc32 [97], 1⟩]⟩), .ok none] ∧
          run.1.2.checkComplete = .ok ()) = true := by
    decide +kernel
  have hleft : ((Reconciler.open oneRetryConfig {0} {0}).run Memory.handler oneBlock).2 = oneBlock :=
    (yields_open (Memory.serves_memory oneBlock) oneRetryConfig {0} {0} oneBlock rfl).2
  have hnow : Brief 1 [(⟨.timedOut, ""⟩ : IoError)] := ⟨Nat.le_refl 1, by decide⟩
  have hlater : ∀ _ : Nat, Brief 1 [(⟨.interrupted, ""⟩ : IoError)] := fun _ => ⟨Nat.le_refl 1, by decide⟩
  obtain ⟨opening, hopen, hstorage, hserve⟩ :=
    faults_within_retries_invisible Memory.decisive oneRetryConfig {0} {0} oneBlock hnow hlater
  rw [hleft] at hstorage
  rcases hplain : ((Reconciler.open oneRetryConfig {0} {0}).run Memory.handler oneBlock).1 with error | opened
  · rw [hplain] at hfacts
    cases hfacts
  · rw [hplain] at hfacts hopen
    simp only [Except.toOption, Option.any_some, decide_eq_true_eq] at hfacts
    obtain ⟨hanswers, hcomplete⟩ := hfacts
    obtain ⟨served, hrun, -⟩ := hserve opened hplain crc32 [.read, .read]
    rw [hstorage] at hrun
    refine ⟨opened, opening, _, served, hopen, ?_, hcomplete⟩
    rw [hrun, ← hanswers]

end Reconciler

end BlockShuffle
