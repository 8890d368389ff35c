import Mathlib
import BlockShuffle.Proofs.Delivery.Safety
import BlockShuffle.Proofs.Reading.Discovery
import BlockShuffle.Proofs.Reading.Resuming

/-!
# Reading on after failures

A partition is read from a storage whose calls fail for a while, and after each read that failed the caller just
reads again. What is read in the end is what would have been read without any failure (`reads_resume`).

The two runs are compared read by read. `Follows` says that one reconciler is where another one is, except for
handles it has and for shards it has passed already. A read of the one that follows, where the other's read is
answered, is answered alike; or it fails, and then it follows the other one to some batch on the way
(`Follows.of_read`). A failing read may have skipped batches with nothing to deliver and counted them; these it does
not read again.

What the caller does is fixed: after an error it reads again, and it stops when the stream ends. A caller that
gives up after some errors has the front of such a run. That failures cannot go on for ever is a condition on
the storage, in finite numbers for each call, and without it there would be no end to speak of.

The states of the two runs differ for good. A reader that failed may have opened files that the other one has
not, and may have passed shards earlier; `Follows` is what is left when these are disregarded, and includes all
counters and all sets. So the equality at the end is one of what was delivered and of what was counted, and not
of handles.
-/

set_option autoImplicit false

namespace BlockShuffle

open Storage Program

namespace Reconciler

/-! ## Settling does not ask the reader -/

section Settling

variable {buffer : Packed} {slices delivered : List BlockSlice} {state final : Reconciler} {batch : Batch}

theorem settleSlices_reader (reader : PartitionReader) (state : Reconciler) :
    ({ state with reader } : Reconciler).settleSlices buffer slices =
      ((state.settleSlices buffer slices).1, { (state.settleSlices buffer slices).2 with reader }) := by
  induction slices generalizing state with
  | nil => rfl
  | cons slice slices ih =>
    have hjudge : ({ state with reader } : Reconciler).judge buffer slice = state.judge buffer slice := rfl
    rw [settleSlices, settleSlices, hjudge]
    cases state.judge buffer slice with
    | unexpected => exact ih state.countUnexpected
    | filtered => exact ih (state.countFiltered slice)
    | duplicate => exact ih state.countDuplicate
    | fail error => rfl
    | deliver =>
      have hrest : (({ state with reader } : Reconciler).countDelivered slice).settleSlices buffer slices = _ :=
        ih (state.countDelivered slice)
      dsimp only
      rw [hrest]

theorem settleBatch_reader (reader : PartitionReader) (state : Reconciler) (batch : Batch) :
    ({ state with reader } : Reconciler).settleBatch batch =
      ((state.settleBatch batch).1, { (state.settleBatch batch).2 with reader }) := by
  have hslices : ({ state with reader } : Reconciler).countBatch.settleSlices (Packed.ofBytes batch.buffer)
      batch.slices = _ := settleSlices_reader reader state.countBatch
  rw [settleBatch, settleBatch, hslices]

/-- Nothing was delivered in between. -/
def AddsNothing (before after : Reconciler) : Prop :=
  after.processed = before.processed ∧
    after.stats.blocksDelivered = before.stats.blocksDelivered ∧
    after.stats.bytesDelivered = before.stats.bytesDelivered

theorem AddsNothing.trans {before mid after : Reconciler} (h : AddsNothing before mid)
    (h' : AddsNothing mid after) : AddsNothing before after :=
  ⟨h'.1.trans h.1, h'.2.1.trans h.2.1, h'.2.2.trans h.2.2⟩

theorem Settles.processed_eq (h : Settles buffer state slices delivered final) (hnone : delivered = []) :
    final.processed = state.processed := by
  induction h with
  | done => rfl
  | unexpected _ _ ih | filtered _ _ ih | duplicate _ _ ih => exact ih hnone
  | deliver _ _ _ => cases hnone

theorem addsNothing_of_settleBatch {settled : Batch} (h : state.settleBatch batch = (.ok settled, final))
    (hempty : settled.isEmpty = true) : AddsNothing state final := by
  rcases settleBatch_cases h with ⟨delivered, hok, hs⟩ | ⟨error, -, -, -, -, herror, -⟩
  · cases hok
    obtain rfl : delivered = [] := List.isEmpty_iff.mp hempty
    exact ⟨hs.processed_eq rfl, hs.blocksDelivered_eq, hs.bytesDelivered_eq⟩
  · cases herror

end Settling

/-! ## Following -/

section Following

variable {source : Source}

/-- One reconciler is where another one is, but for the handles it has and the shards it has passed. -/
structure Follows (source : Source) (state plain : Reconciler) : Prop where
  same : state = { plain with reader := state.reader }
  shards : state.reader.shards.map ShardReader.close = plain.reader.shards.map ShardReader.close
  level : PartitionReader.Level source state.reader plain.nextRead
  level_plain : PartitionReader.Level source plain.reader plain.nextRead

/-- What is left of a partition: data files to open, and reads to make. -/
def work (state : Reconciler) : Nat :=
  PartitionReader.unopened state.reader.ahead + (state.reader.readCount - state.nextRead)

variable {state plain : Reconciler}

theorem Follows.gives_eq (h : Follows source state plain) (index : Nat) :
    PartitionReader.gives source state.reader.shards index =
      PartitionReader.gives source plain.reader.shards index := by
  rw [← PartitionReader.gives_map_close, h.shards, PartitionReader.gives_map_close]

theorem readCount_eq_of_close {reader other : PartitionReader}
    (h : reader.shards.map ShardReader.close = other.shards.map ShardReader.close) :
    reader.readCount = other.readCount := by
  have htotal : ∀ reader : PartitionReader,
      reader.readCount = ShardReader.total (reader.shards.map ShardReader.close) := by
    intro reader
    rw [ShardReader.total_map_close]
    rfl
  rw [htotal, h, ← htotal]

theorem Follows.with_readers (h : Follows source state plain) {reader other : PartitionReader}
    (hreader : reader.shards.map ShardReader.close = state.reader.shards.map ShardReader.close)
    (hother : other.shards.map ShardReader.close = plain.reader.shards.map ShardReader.close)
    (hlevel : PartitionReader.Level source reader plain.nextRead)
    (hlevel' : PartitionReader.Level source other plain.nextRead) :
    Follows source { state with reader } { plain with reader := other } :=
  ⟨congrArg (fun r : Reconciler => { r with reader }) h.same, hreader.trans (h.shards.trans hother.symm),
    hlevel, hlevel'⟩

theorem Follows.exhausted (h : Follows source state plain) :
    Follows source { state with exhausted := true } { plain with exhausted := true } :=
  ⟨congrArg (fun r : Reconciler => { r with exhausted := true }) h.same, h.shards, h.level, h.level_plain⟩

theorem settleBatch_cursor {batch : Batch} {settled : Except Error Batch} {final : Reconciler}
    (h : plain.settleBatch batch = (settled, final)) :
    final.reader = plain.reader ∧ final.nextRead = plain.nextRead + 1 := by
  rcases settleBatch_cases h with ⟨_, -, hs⟩ | ⟨_, _, _, _, _, -, -, hs, -⟩
  · exact hs.reader_eq
  · exact hs.reader_eq

/-- Behind the same batch, one follows the other as before. -/
theorem Follows.settleBatch (h : Follows source state plain) {batch : Batch} {settled : Except Error Batch}
    {final : Reconciler} (hplain : plain.settleBatch batch = (settled, final)) :
    ∃ after, state.settleBatch batch = (settled, after) ∧ Follows source after final := by
  obtain ⟨hreader, hnext⟩ := settleBatch_cursor hplain
  have hstate : state.settleBatch batch = (settled, { final with reader := state.reader }) := by
    rw [h.same, settleBatch_reader, hplain]
  refine ⟨_, hstate, rfl, ?_, ?_, ?_⟩
  · rw [hreader]
    exact h.shards
  · rw [hnext]
    exact h.level.mono (Nat.le_succ _)
  · rw [hreader, hnext]
    exact h.level_plain.mono (Nat.le_succ _)

end Following

/-! ## One read -/

section Reads

variable {σ τ : Type} {handler : Handler σ} {good : σ → Prop} {calm : σ → Nat} {shaky : Handler τ}
  {fine : τ → Prop} {budget : τ → Nat} {source : Source} {state plain : Reconciler}

/-- What a read comes to where the read of the other reconciler is answered: the same; or it fails, delivers
nothing, and follows the other one to somewhere from where that goes on to the same answer. -/
inductive Outcome (handler : Handler σ) (good : σ → Prop) (budget : τ → Nat) (source : Source)
    (state : Reconciler) (w : τ) (found : Option Batch) (final : Reconciler) (s' : σ) :
    Answer → Reconciler → τ → Prop where
  | answered {after : Reconciler} {w' : τ} (hgood : good s') (hfollows : Follows source after final) :
      Outcome handler good budget source state w found final s' (.ok found) after w'
  | failed {error : Error} {after mid : Reconciler} {s : σ} {w' : τ} (hadds : AddsNothing state after)
      (hless : after.work < state.work ∨ after.work ≤ state.work ∧ budget w' < budget w) (hgood : good s)
      (hfollows : Follows source after mid) (hrest : mid.read.run handler s = ((.ok found, final), s')) :
      Outcome handler good budget source state w found final s' (.error error) after w'

/-- Behind a batch with nothing to deliver there is less to do. -/
theorem work_lt_of_settleBatch {reader : PartitionReader} {batch : Batch} {settled : Except Error Batch}
    {after : Reconciler} (hsettle : ({ state with reader } : Reconciler).settleBatch batch = (settled, after))
    (hunopened : PartitionReader.unopened reader.ahead ≤ PartitionReader.unopened state.reader.ahead)
    (hcount : reader.readCount = state.reader.readCount) (hleft : state.nextRead < state.reader.readCount) :
    after.work < state.work := by
  obtain ⟨hreader, hnext⟩ := settleBatch_cursor hsettle
  dsimp only at hreader hnext
  rw [work, work, hreader, hnext, hcount]
  omega

/-- Where a batch could not be read, nothing has moved but the cursor and the handles. -/
theorem less_of_unread {reader : PartitionReader} {w w' : τ}
    (hcount : reader.readCount = state.reader.readCount)
    (hunopened : PartitionReader.unopened reader.ahead ≤ PartitionReader.unopened state.reader.ahead)
    (hless : PartitionReader.unopened reader.ahead < PartitionReader.unopened state.reader.ahead ∨
      budget w' < budget w) :
    work { state with reader } < state.work ∨ work { state with reader } ≤ state.work ∧ budget w' < budget w := by
  simp only [work, hcount]
  omega

/-- What a read comes to behind a batch that had nothing to deliver, it comes to in front of it. -/
theorem Outcome.of_skipped {next : Reconciler} {w w₁ : τ} {found : Option Batch} {final after : Reconciler}
    {s' : σ} {answer : Answer} {w' : τ}
    (h : Outcome handler good budget source next w₁ found final s' answer after w')
    (hadds : AddsNothing state next) (hwork : next.work < state.work) :
    Outcome handler good budget source state w found final s' answer after w' := by
  cases h with
  | answered hgood hfollows => exact .answered hgood hfollows
  | failed hadds' hless hgood hfollows hrest =>
    refine .failed (hadds.trans hadds') (Or.inl ?_) hgood hfollows hrest
    omega

/-- One batch, or the end, where the other reconciler finds it: it is found as well, or it cannot be read. -/
theorem Follows.read_cases (hcalm : Draws handler good calm source) (hshaky : Draws shaky fine budget source)
    (h : Follows source state plain) {s s' : σ} {w w' : τ} (hs : good s) (hw : fine w) {value : Option Batch}
    {other reader : PartitionReader} {outcome : Except Error (Option Batch)}
    (hplain : (plain.reader.read plain.nextRead).run handler s = ((.ok value, other), s'))
    (hstate : (state.reader.read state.nextRead).run shaky w = ((outcome, reader), w')) :
    good s' ∧ fine w' ∧ other.readCount = plain.reader.readCount ∧
      reader.readCount = state.reader.readCount ∧
      PartitionReader.unopened reader.ahead ≤ PartitionReader.unopened state.reader.ahead ∧
      ((outcome = .ok value ∧ Follows source { state with reader } { plain with reader := other }) ∨
        ∃ error, outcome = .error error ∧ Follows source { state with reader } plain ∧
          (PartitionReader.unopened reader.ahead < PartitionReader.unopened state.reader.ahead ∨
            budget w' < budget w)) := by
  have hnext : state.nextRead = plain.nextRead := by rw [h.same]
  rw [hnext] at hstate
  obtain ⟨hgood, hlevel, hshards, -, hcomes⟩ := PartitionReader.read_comes hcalm h.level_plain hs hplain
  obtain ⟨hfine, hlevel', hshards', hunopened, hcomes'⟩ := PartitionReader.read_comes hshaky h.level hw hstate
  rw [h.gives_eq] at hcomes'
  refine ⟨hgood, hfine, readCount_eq_of_close hshards, readCount_eq_of_close hshards', hunopened, ?_⟩
  rcases hcomes with ⟨given, hgives, hok⟩ | ⟨error, herror, -⟩
  swap
  · cases herror
  cases hok
  rcases hcomes' with ⟨given', hgives', rfl⟩ | ⟨error, rfl, hless⟩
  · cases hgives.symm.trans hgives'
    exact Or.inl ⟨rfl, h.with_readers hshards' hshards hlevel' hlevel⟩
  · have hfollows : Follows source { state with reader } { plain with reader := plain.reader } :=
      h.with_readers hshards' rfl hlevel' h.level_plain
    refine Or.inr ⟨error, rfl, hfollows, hless ?_⟩
    rw [hgives]
    exact Option.some_ne_none value

/-- **A read that is answered in one run is answered alike in the other, or fails on the way.** -/
theorem Follows.of_readFrom (hcalm : Draws handler good calm source) (hshaky : Draws shaky fine budget source)
    (left : Nat) : ∀ {state plain : Reconciler}, Follows source state plain →
      plain.reader.readCount - plain.nextRead = left → ∀ {s : σ} {w : τ}, good s → fine w →
      ∀ {found : Option Batch} {final : Reconciler} {s' : σ},
        (readFrom left plain).run handler s = ((.ok found, final), s') →
      ∀ {answer : Answer} {after : Reconciler} {w' : τ},
        (readFrom left state).run shaky w = ((answer, after), w') →
        fine w' ∧ Outcome handler good budget source state w found final s' answer after w' := by
  -- By the reads that may be left: a skipped batch uses one up in both runs, and `Follows` carries over.
  induction left using Nat.strong_induction_on with
  | _ left ih =>
    intro state plain h hleft s w hs hw found final s' hplain answer after w' hstate
    have hstopped : state.isStopped = plain.isStopped := by rw [h.same]; rfl
    have hnext : state.nextRead = plain.nextRead := by rw [h.same]
    have hcount := readCount_eq_of_close h.shards
    have hread : plain.read.run handler s = ((.ok found, final), s') := by
      rw [Reconciler.read, hleft]
      exact hplain
    rw [readFrom] at hplain hstate
    rw [hstopped] at hstate
    by_cases hst : plain.isStopped = true
    · rw [if_pos hst] at hplain hstate
      cases hplain
      cases hstate
      exact ⟨hw, .answered hs h⟩
    rw [if_neg hst, run_bind] at hplain hstate
    rcases hr : (plain.reader.read plain.nextRead).run handler s with ⟨⟨value, other⟩, s₁⟩
    rcases hr' : (state.reader.read state.nextRead).run shaky w with ⟨⟨outcome, reader⟩, w₁⟩
    rw [hr] at hplain
    rw [hr'] at hstate
    rcases value with error | value
    · cases hplain
    obtain ⟨hgood, hfine, hother, hreader, hunopened, ⟨rfl, hmid⟩ | ⟨error, rfl, hfollows, hless⟩⟩ :=
      h.read_cases hcalm hshaky hs hw hr hr'
    swap
    · -- The plain run has not moved, so it is its read from here that is left to be answered.
      cases hstate
      exact ⟨hfine, .failed ⟨rfl, rfl, rfl⟩ (less_of_unread hreader hunopened hless) hs hfollows hread⟩
    rcases value with _ | batch
    · cases hplain
      cases hstate
      exact ⟨hfine, .answered hgood hmid.exhausted⟩
    dsimp only at hplain hstate
    rcases hb : ({ plain with reader := other } : Reconciler).settleBatch batch with ⟨settled, next⟩
    obtain ⟨next', hb', hfollows⟩ := hmid.settleBatch hb
    rw [hb] at hplain
    rw [hb'] at hstate
    rcases settled with error | settled
    · cases hplain
    dsimp only at hplain hstate
    by_cases hempty : settled.isEmpty = true
    swap
    · rw [if_neg hempty] at hplain hstate
      cases hplain
      cases hstate
      exact ⟨hfine, .answered hgood hfollows⟩
    rw [if_pos hempty] at hplain hstate
    cases left with
    | zero =>
      cases hplain
      cases hstate
      exact ⟨hfine, .answered hgood hfollows⟩
    | succ left =>
      -- The batch had nothing to deliver, and both read on behind it.
      obtain ⟨hcursor, hnumber⟩ := settleBatch_cursor hb
      dsimp only at hcursor hnumber hplain hstate
      have hleft' : next.reader.readCount - next.nextRead = left := by
        rw [hcursor, hnumber, hother]
        omega
      have hwork : next'.work < state.work := work_lt_of_settleBatch hb' hunopened hreader (by omega)
      have hskipped : AddsNothing { state with reader } next' := addsNothing_of_settleBatch hb' hempty
      obtain ⟨hfine', houtcome⟩ := ih left (Nat.lt_succ_self left) hfollows hleft' hgood hfine hplain hstate
      exact ⟨hfine', houtcome.of_skipped hskipped hwork⟩

theorem Follows.of_read (hcalm : Draws handler good calm source) (hshaky : Draws shaky fine budget source)
    (h : Follows source state plain) {s : σ} {w : τ} (hs : good s) (hw : fine w) {found : Option Batch}
    {final : Reconciler} {s' : σ} (hplain : plain.read.run handler s = ((.ok found, final), s'))
    {answer : Answer} {after : Reconciler} {w' : τ} (hstate : state.read.run shaky w = ((answer, after), w')) :
    fine w' ∧ Outcome handler good budget source state w found final s' answer after w' := by
  have hnext : state.nextRead = plain.nextRead := by rw [h.same]
  rw [Reconciler.read, readCount_eq_of_close h.shards, hnext] at hstate
  exact h.of_readFrom hcalm hshaky _ rfl hs hw hplain hstate

/-! ## Reading to the end -/

/-- No read of these that failed has delivered anything. -/
def FailuresAddNothing (handler : Handler σ) (state : Reconciler) (s : σ) (answers : List Answer) : Prop :=
  ∀ front error rest, answers = front ++ .error error :: rest →
    ∃ before after s₁ s₂,
      (serve (List.replicate front.length .read) state).run handler s = ((front, before), s₁) ∧
      before.read.run handler s₁ = ((.error error, after), s₂) ∧ AddsNothing before after

theorem run_serve_read {s s₁ s' : σ} {mid final : Reconciler} {answer : Answer} {answers : List Answer}
    {count : Nat} (hread : state.read.run handler s = ((answer, mid), s₁))
    (hrest : (serve (List.replicate count .read) mid).run handler s₁ = ((answers, final), s')) :
    (serve (List.replicate (count + 1) .read) state).run handler s = ((answer :: answers, final), s') := by
  rw [List.replicate_succ, serve, run_bind, hread]
  dsimp only
  rw [run_bind, hrest]
  rfl

theorem read_of_run_serve {s s' : σ} {final : Reconciler} {answer : Answer} {answers : List Answer} {count : Nat}
    (h : (serve (List.replicate (count + 1) .read) state).run handler s = ((answer :: answers, final), s')) :
    ∃ mid s₁, state.read.run handler s = ((answer, mid), s₁) ∧
      (serve (List.replicate count .read) mid).run handler s₁ = ((answers, final), s') := by
  rcases hread : state.read.run handler s with ⟨⟨first, mid⟩, s₁⟩
  rcases hrest : (serve (List.replicate count .read) mid).run handler s₁ with ⟨⟨others, last⟩, s₂⟩
  rw [run_serve_read hread hrest] at h
  cases h
  exact ⟨mid, s₁, rfl, hrest⟩

theorem failuresAddNothing_cons {s s₁ : σ} {mid : Reconciler} {answer : Answer} {answers : List Answer}
    (hread : state.read.run handler s = ((answer, mid), s₁))
    (hadds : ∀ error, answer = .error error → AddsNothing state mid)
    (hrest : FailuresAddNothing handler mid s₁ answers) :
    FailuresAddNothing handler state s (answer :: answers) := by
  intro front error rest heq
  cases front with
  | nil =>
    rw [List.nil_append, List.cons.injEq] at heq
    obtain ⟨rfl, rfl⟩ := heq
    exact ⟨state, mid, s, s₁, rfl, hread, hadds error rfl⟩
  | cons first front =>
    rw [List.cons_append, List.cons.injEq] at heq
    obtain ⟨rfl, heq⟩ := heq
    obtain ⟨before, after, s₂, s₃, hserve, hfailed, hnothing⟩ := hrest front error rest heq
    exact ⟨before, after, s₂, s₃, run_serve_read hread hserve, hfailed, hnothing⟩

/-- Reading until the stream ends, and again after each failure, answers these batches, and leaves a reconciler that
follows the other one to its end. -/
def Resumes (shaky : Handler τ) (source : Source) (state : Reconciler) (w : τ) (found : List Batch)
    (final : Reconciler) : Prop :=
  ∃ answers after w',
    (serve (List.replicate (answers.length + 1) .read) state).run shaky w =
      ((answers ++ [.ok none], after), w') ∧
    answers.filter Except.isOk = found.map (fun batch => .ok (some batch)) ∧
    FailuresAddNothing shaky state w answers ∧ Follows source after final

namespace Resumes

variable {w w₁ : τ} {mid final : Reconciler} {found : List Batch}

theorem ended (hread : state.read.run shaky w = ((.ok none, mid), w₁)) (hfollows : Follows source mid final) :
    Resumes shaky source state w [] final := by
  refine ⟨[], mid, w₁, run_serve_read hread rfl, rfl, ?_, hfollows⟩
  intro front error rest heq
  simp at heq

theorem delivered {batch : Batch} (hread : state.read.run shaky w = ((.ok (some batch), mid), w₁))
    (hrest : Resumes shaky source mid w₁ found final) : Resumes shaky source state w (batch :: found) final := by
  obtain ⟨answers, after, w', hserve, hfound, hnothing, hfollows⟩ := hrest
  refine ⟨.ok (some batch) :: answers, after, w', run_serve_read hread hserve, ?_,
    failuresAddNothing_cons hread nofun hnothing, hfollows⟩
  rw [List.filter_cons_of_pos rfl, hfound, List.map_cons]

theorem failed {error : Error} (hread : state.read.run shaky w = ((.error error, mid), w₁))
    (hadds : AddsNothing state mid) (hrest : Resumes shaky source mid w₁ found final) :
    Resumes shaky source state w found final := by
  obtain ⟨answers, after, w', hserve, hfound, hnothing, hfollows⟩ := hrest
  refine ⟨.error error :: answers, after, w', run_serve_read hread hserve, ?_,
    failuresAddNothing_cons hread (fun _ _ => hadds) hnothing, hfollows⟩
  rw [List.filter_cons_of_neg Bool.false_ne_true, hfound]

end Resumes

/-- **A read is answered in the end.** Whatever is true where a read is answered, and behind a failing read if it
is true in front of it, is true: with each failure there is less work, or fewer failures are ahead. -/
theorem Follows.until_answered (hcalm : Draws handler good calm source) (hshaky : Draws shaky fine budget source)
    (goal : Reconciler → τ → Prop) {found : Option Batch} {final : Reconciler} {s' : σ}
    (hanswered : ∀ {state after w w'}, state.read.run shaky w = ((.ok found, after), w') → good s' → fine w' →
      Follows source after final → goal state w)
    (hfailed : ∀ {state after error w w'}, state.read.run shaky w = ((.error error, after), w') →
      AddsNothing state after → goal after w' → goal state w)
    {state plain : Reconciler} (h : Follows source state plain) {s : σ} {w : τ} (hs : good s) (hw : fine w)
    (hplain : plain.read.run handler s = ((.ok found, final), s')) : goal state w := by
  rcases hstate : state.read.run shaky w with ⟨⟨answer, after⟩, w'⟩
  obtain ⟨hfine, houtcome⟩ := h.of_read hcalm hshaky hs hw hplain hstate
  cases houtcome with
  | answered hgood hfollows => exact hanswered hstate hgood hfine hfollows
  | failed hadds hless hgood hfollows hagain =>
    exact hfailed hstate hadds
      (hfollows.until_answered hcalm hshaky goal hanswered hfailed hgood hfine hagain)
termination_by (state.work, budget w)
decreasing_by
  -- Work first: a data file that is opened lets the next call fail as often as it likes.
  rcases hless with hless | ⟨hwork, hless⟩
  · exact Prod.Lex.left _ _ hless
  · rcases Nat.lt_or_eq_of_le hwork with hlt | heq
    · exact Prod.Lex.left _ _ hlt
    · rw [heq]
      exact Prod.Lex.right _ hless

theorem Follows.resumes (hcalm : Draws handler good calm source) (hshaky : Draws shaky fine budget source)
    {final : Reconciler} {s' : σ} {found : List Batch} :
    ∀ {state plain : Reconciler}, Follows source state plain → ∀ {s : σ} {w : τ}, good s → fine w →
      (serve (List.replicate (found.length + 1) .read) plain).run handler s =
        ((found.map (fun batch => .ok (some batch)) ++ [.ok none], final), s') →
      Resumes shaky source state w found final := by
  induction found with
  | nil =>
    intro state plain h s w hs hw hplain
    obtain ⟨next, s₁, hread, hrest⟩ := read_of_run_serve hplain
    cases hrest
    refine h.until_answered hcalm hshaky (fun state w => Resumes shaky source state w [] final) ?_ ?_ hs hw
      hread
    · intro state after w w' hstate _ _ hfollows
      exact .ended hstate hfollows
    · intro state after error w w' hstate hadds hrest
      exact hrest.failed hstate hadds
  | cons batch found ih =>
    intro state plain h s w hs hw hplain
    obtain ⟨next, s₁, hread, hrest⟩ := read_of_run_serve hplain
    refine h.until_answered hcalm hshaky
      (fun state w => Resumes shaky source state w (batch :: found) final) ?_ ?_ hs hw hread
    · intro state after w w' hstate hgood hfine hfollows
      exact .delivered hstate (ih hfollows hgood hfine hrest)
    · intro state after error w w' hstate hadds hrest
      exact hrest.failed hstate hadds

/-- **Reading resumes after failures.** A partition is opened, and from then on the storage holds still. Read
without failures, it is read to the end of the stream. Now let each call fail any number of times, with any errors,
before it passes, and make another read after each one that failed. The end of the stream is reached; the reads that
were answered are those of the run without failures; none that failed has delivered anything; and the accounts are
the same at the end. -/
theorem reads_resume (hstill : HoldsStill handler good) {config : ReadConfig} {expected tasks : IdSet} {s s₀ : σ}
    {opened : Reconciler} (hopen : (Reconciler.open config expected tasks).run handler s = (.ok opened, s₀))
    (hgood : good s₀) (checksum : Checksum) {found : List Batch} {final : Reconciler} {s' : σ}
    (hrun : (serve (List.replicate (found.length + 1) .read) { opened with checksum }).run handler s₀ =
      ((found.map (fun batch => .ok (some batch)) ++ [.ok none], final), s'))
    (now : List IoError) (later : Nat → List IoError) :
    ∃ answers resumed world,
      (serve (List.replicate (answers.length + 1) .read) { opened with checksum }).run
        (Flaky.handler handler) ⟨s₀, now, later⟩ = ((answers ++ [.ok none], resumed), world) ∧
      answers.filter Except.isOk = found.map (fun batch => .ok (some batch)) ∧
      (∀ front error rest, answers = front ++ .error error :: rest →
        ∃ before after w₁ w₂,
          (serve (List.replicate front.length .read) { opened with checksum }).run
            (Flaky.handler handler) ⟨s₀, now, later⟩ = ((front, before), w₁) ∧
          before.read.run (Flaky.handler handler) w₁ = ((.error error, after), w₂) ∧
          after.processed = before.processed ∧
          after.stats.blocksDelivered = before.stats.blocksDelivered ∧
          after.stats.bytesDelivered = before.stats.bytesDelivered) ∧
      resumed.processed = final.processed ∧ resumed.superseded = final.superseded ∧
      resumed.stats = final.stats ∧ resumed.checkComplete = final.checkComplete := by
  obtain ⟨shards, rfl, hunread⟩ :=
    (unread_of_open handler config expected tasks s trivial).1 opened (by rw [hopen])
  -- At the start both runs are in the same state, and each storage draws from what the one below answers.
  have hlevel : PartitionReader.Level (Source.of handler s₀) (PartitionReader.ofShards shards) 0 :=
    PartitionReader.level_ofShards hunread
  have hfollows : Follows (Source.of handler s₀) (fresh shards expected tasks checksum)
      (fresh shards expected tasks checksum) := ⟨rfl, rfl, hlevel, hlevel⟩
  obtain ⟨answers, resumed, world, hserve, hfound, hnothing, hend⟩ :=
    hfollows.resumes (hstill.draws hgood) (hstill.draws_flaky hgood) hgood hgood hrun (w := ⟨s₀, now, later⟩)
  refine ⟨answers, resumed, world, hserve, hfound, hnothing, ?_⟩
  rw [hend.same]
  exact ⟨rfl, rfl, rfl, rfl⟩

end Reads

/-! ## A read that fails behind a batch it skipped -/

theorem length_twoBytes : (Packed.ofBytes [97, 97]).length < UInt64.size := by decide

/-- Two copies of a block, the first of an attempt that does not count. -/
def filteredFirst : Memory :=
  ((Memory.mk []).insert (.ofText "m/a/0/0-0/w_0.data") ⟨.ofBytes [97, 97], length_twoBytes⟩).insert
    (.ofText "m/a/0/0-0/w_0.index")
    ⟨.ofBytes (IndexEntry.encodeAll [⟨1, 1, crc32 [97], ⟨0⟩, 1, 0⟩, ⟨1, 1, crc32 [97], ⟨0⟩, 0, 1⟩]),
      by decide⟩

/-- One block in each batch. -/
def oneByOne : ReadConfig := { oneBlockConfig with byteLimit := 1 }

def startOfFiltered : Reconciler :=
  ofReader (PartitionReader.ofShards (filteredFirst.shardsIn oneByOne)) {0} {0}

/-- The first opening fails, and so does the first reading of the second batch. -/
def failsTwice : Flaky Memory :=
  ⟨filteredFirst, [⟨.other, ""⟩], fun call => if call = 1 then [⟨.timedOut, ""⟩] else []⟩

/-- The second copy of the block, as it is read. -/
def secondCopy : Batch := ⟨[97], [⟨0, 1, ⟨0⟩, 0, crc32 [97], 1⟩]⟩

/-- Two reads fail, the second of them behind the batch that is skipped, which is counted once. -/
theorem reads_resume_failsTwice :
    ((serve [.read, .read] startOfFiltered).run (Flaky.handler Memory.handler) failsTwice).1.1.map Except.isOk =
      [false, false] ∧
    ∃ answers resumed world,
      (serve (List.replicate (List.length answers + 1) .read) startOfFiltered).run
        (Flaky.handler Memory.handler) failsTwice = ((answers ++ [.ok none], resumed), world) ∧
      answers.filter Except.isOk = [.ok (some secondCopy)] ∧
      resumed.stats = ⟨2, 1, 1, 0, 1, 0⟩ ∧ resumed.checkComplete = .ok () := by
  have hopen : (Reconciler.open oneByOne {0} {0}).run Memory.handler filteredFirst =
      (.ok startOfFiltered, filteredFirst) := by
    have hcheck : oneByOne.check = .ok () := rfl
    obtain ⟨hanswer, hsame⟩ := Memory.yields_open filteredFirst hcheck {0} {0} _ rfl
    have hsome : ({0} : IdSet).isEmpty = false := by decide +kernel
    rw [hsome, if_neg Bool.false_ne_true] at hanswer
    exact Prod.ext hanswer hsame
  let plain := (serve [.read, .read] startOfFiltered).run Memory.handler filteredFirst
  have hanswers : plain.1.1 = [secondCopy].map (fun batch => .ok (some batch)) ++ [.ok none] := by
    decide +kernel
  have hstats : plain.1.2.stats = ⟨2, 1, 1, 0, 1, 0⟩ := by decide +kernel
  have hcomplete : plain.1.2.checkComplete = .ok () := by decide +kernel
  have hrun : (serve (List.replicate ([secondCopy].length + 1) .read)
      { startOfFiltered with checksum := crc32 }).run Memory.handler filteredFirst =
      (([secondCopy].map (fun batch => .ok (some batch)) ++ [.ok none], plain.1.2), plain.2) :=
    Prod.ext (Prod.ext hanswers rfl) rfl
  obtain ⟨answers, resumed, world, hserve, hfound, -, -, -, hstats', hcomplete'⟩ :=
    reads_resume (Memory.holdsStill filteredFirst) hopen rfl crc32 hrun failsTwice.now failsTwice.later
  exact ⟨by decide +kernel, answers, resumed, world, hserve, hfound, hstats'.trans hstats,
    hcomplete'.trans hcomplete⟩

end Reconciler

end BlockShuffle
