import Mathlib
import BlockShuffle.Proofs.Delivery.Settling
import BlockShuffle.Proofs.Reading.Cursor

/-!
# Calls on a reconciler

`Call` is everything that one read of a reconciler can do, against a storage that may answer anything: the
stream was ended, a batch could not be read, there was none left, a batch broke at one of its blocks,
batches with nothing to deliver were skipped, a batch was delivered. Beside the answer it lists what was
*lost*: the blocks of a broken batch that were counted as delivered before the block that failed, and are
in no answer. Only a broken batch loses anything.

`call_of_read` says that every run of `Reconciler.read` is such a call. `readFrom` gets by on a number of
reads that may be needed; a call does not mention it, because a reader whose base is where it should be
(`Proofs/Reading/Cursor.lean`) answers the end of the stream before the number runs out. So `Call` is also
the proof that the number is enough: no read ends because of it.

`Session` strings calls together with cancellations and closings in any order. It is what the accounts of
a reconciler are kept over, by induction on the session with one fact for each call.
-/

set_option autoImplicit false

namespace BlockShuffle

open Storage

namespace Reconciler

variable {σ : Type} {handler : Handler σ}

/-! ## One call -/

/-- What a read answers. -/
abbrev Answer := Except Error (Option Batch)

/-- One read from a state of the reconciler and of the storage: its answer, the blocks it lost, and both
states behind it. -/
inductive Call (handler : Handler σ) :
    Reconciler → σ → Answer → List BlockSlice → Reconciler → σ → Prop where
  /-- Reading was ended before. -/
  | stopped {state : Reconciler} {s : σ} (ended : state.isStopped = true) :
      Call handler state s (.ok none) [] state s
  /-- The next batch could not be read. -/
  | unread {state : Reconciler} {s s' : σ} {error : Error} {reader : PartitionReader}
      (going : state.isStopped = false)
      (read : (state.reader.read state.nextRead).run handler s = ((.error error, reader), s')) :
      Call handler state s (.error error) [] { state with reader } s'
  /-- Every batch was read. -/
  | exhausted {state : Reconciler} {s s' : σ} {reader : PartitionReader}
      (going : state.isStopped = false)
      (read : (state.reader.read state.nextRead).run handler s = ((.ok none, reader), s')) :
      Call handler state s (.ok none) [] { state with reader, exhausted := true } s'
  /-- A block of the batch failed. Those in front of it stay counted. -/
  | broken {state final : Reconciler} {s s' : σ} {batch : Batch} {reader : PartitionReader}
      {front rest lost : List BlockSlice} {slice : BlockSlice} {error : Error}
      (going : state.isStopped = false)
      (read : (state.reader.read state.nextRead).run handler s = ((.ok (some batch), reader), s'))
      (listed : batch.slices = front ++ slice :: rest)
      (settled : Settles (Packed.ofBytes batch.buffer) { state with reader }.countBatch front lost final)
      (failed : final.judge (Packed.ofBytes batch.buffer) slice = .fail error) :
      Call handler state s (.error error) lost final s'
  /-- The batch had nothing to deliver, and reading goes on. -/
  | skipped {state mid final : Reconciler} {s s' s'' : σ} {batch : Batch} {reader : PartitionReader}
      {answer : Answer} {lost : List BlockSlice}
      (going : state.isStopped = false)
      (read : (state.reader.read state.nextRead).run handler s = ((.ok (some batch), reader), s'))
      (settled : Settles (Packed.ofBytes batch.buffer) { state with reader }.countBatch batch.slices [] mid)
      (next : Call handler mid s' answer lost final s'') :
      Call handler state s answer lost final s''
  /-- The batch had something to deliver. -/
  | delivered {state final : Reconciler} {s s' : σ} {batch : Batch} {reader : PartitionReader}
      {delivered : List BlockSlice}
      (going : state.isStopped = false)
      (read : (state.reader.read state.nextRead).run handler s = ((.ok (some batch), reader), s'))
      (settled : Settles (Packed.ofBytes batch.buffer) { state with reader }.countBatch batch.slices
        delivered final)
      (nonempty : delivered ≠ []) :
      Call handler state s (.ok (some { batch with slices := delivered })) [] final s'

/-- Settling a batch, said of its blocks. -/
theorem settleBatch_cases {state final : Reconciler} {batch : Batch} {answer : Except Error Batch}
    (h : state.settleBatch batch = (answer, final)) :
    (∃ delivered, answer = .ok { batch with slices := delivered } ∧
      Settles (Packed.ofBytes batch.buffer) state.countBatch batch.slices delivered final) ∨
    (∃ error lost front slice rest, answer = .error error ∧ batch.slices = front ++ slice :: rest ∧
      Settles (Packed.ofBytes batch.buffer) state.countBatch front lost final ∧
      final.judge (Packed.ofBytes batch.buffer) slice = .fail error) := by
  rw [settleBatch] at h
  rcases hr : state.countBatch.settleSlices (Packed.ofBytes batch.buffer) batch.slices with
    ⟨settled, last⟩
  rw [hr, Prod.mk.injEq] at h
  obtain ⟨rfl, rfl⟩ := h
  rcases settleSlices_cases hr with
    ⟨delivered, rfl, hs⟩ | ⟨error, lost, front, slice, rest, rfl, hl, hs, hf⟩
  · exact Or.inl ⟨delivered, rfl, hs⟩
  · exact Or.inr ⟨error, lost, front, slice, rest, rfl, hl, hs, hf⟩

/-- Behind a batch that is settled, the reader is the one that read it. -/
theorem Settles.reader_eq {buffer : Packed} {state final : Reconciler}
    {slices delivered : List BlockSlice} (h : Settles buffer state.countBatch slices delivered final) :
    final.reader = state.reader ∧ final.nextRead = state.nextRead + 1 := by
  rw [h.frame]
  exact ⟨rfl, rfl⟩

/-- Every run of `readFrom` is a call, as long as the reads that are left are covered. -/
theorem call_of_readFrom (left : Nat) :
    ∀ {state final : Reconciler} {s s' : σ} {answer : Answer}, state.reader.Placed →
      state.reader.readCount ≤ state.nextRead + left →
      (readFrom left state).run handler s = ((answer, final), s') →
      ∃ lost, Call handler state s answer lost final s' := by
  induction left using Nat.strong_induction_on with
  | _ left ih =>
    intro state final s s' answer hp hleft h
    rw [readFrom] at h
    cases hst : state.isStopped with
    | true =>
      rw [hst, if_pos rfl] at h
      cases h
      exact ⟨[], .stopped hst⟩
    | false =>
      rw [hst, if_neg Bool.false_ne_true, Program.run_bind] at h
      rcases hr : (state.reader.read state.nextRead).run handler s with ⟨⟨error | _ | batch, reader⟩, s₁⟩
      · rw [hr] at h
        cases h
        exact ⟨[], .unread hst hr⟩
      · rw [hr] at h
        cases h
        exact ⟨[], .exhausted hst hr⟩
      rw [hr] at h
      dsimp only at h
      rcases hb : ({ state with reader } : Reconciler).settleBatch batch with ⟨settled, mid⟩
      rw [hb] at h
      rcases settleBatch_cases hb with ⟨delivered, rfl, hs⟩ | ⟨error, lost, front, slice, rest, rfl, hl, hs, hf⟩
      · cases delivered with
        | nil =>
          have hlt := PartitionReader.lt_readCount_of_batch hp hr
          obtain ⟨hp', hcount⟩ := PartitionReader.placed_read hp hr
          obtain ⟨hreader, hnext⟩ := hs.reader_eq
          dsimp only at hreader hnext hcount
          rw [← hreader] at hp' hcount
          cases left with
          | zero =>
            -- With no read left to make, none could have found a batch.
            omega
          | succ left =>
            obtain ⟨lost, hc⟩ := ih left (Nat.lt_succ_self left) hp' (by omega) h
            exact ⟨lost, .skipped hst hr hs hc⟩
        | cons slice delivered =>
          cases h
          exact ⟨[], .delivered hst hr hs (List.cons_ne_nil _ _)⟩
      · cases h
        exact ⟨lost, .broken hst hr hl hs hf⟩

/-- **Every read is a call.** -/
theorem call_of_read {state final : Reconciler} {s s' : σ} {answer : Answer}
    (hp : state.reader.Placed) (h : state.read.run handler s = ((answer, final), s')) :
    ∃ lost, Call handler state s answer lost final s' :=
  call_of_readFrom _ hp (by omega) h

/-- What is exhausted has no reads left. -/
def Spent (state : Reconciler) : Prop := state.exhausted = true → state.reader.readCount ≤ state.nextRead

/-- The blocks that an answer hands out. -/
def handedOut : Answer → List BlockSlice
  | .ok (some batch) => batch.slices
  | _ => []

namespace Call

variable {state final : Reconciler} {s s' : σ} {answer : Answer} {lost : List BlockSlice}

/-- What a call leaves alone. -/
theorem settings_eq (h : Call handler state s answer lost final s') :
    final.expected = state.expected ∧ final.tasks = state.tasks ∧ final.checksum = state.checksum ∧
      final.isStopped = state.isStopped := by
  induction h with
  | stopped _ | unread _ _ | exhausted _ _ => exact ⟨rfl, rfl, rfl, rfl⟩
  | broken _ _ _ settled _ | delivered _ _ settled _ =>
    rw [settled.frame]
    exact ⟨rfl, rfl, rfl, rfl⟩
  | skipped _ _ settled _ ih =>
    rw [settled.frame] at ih
    exact ih

/-- A reader stays where it should be. -/
theorem placed (h : Call handler state s answer lost final s') (hp : state.reader.Placed) :
    final.reader.Placed := by
  induction h with
  | stopped _ => exact hp
  | unread _ read | exhausted _ read => exact (PartitionReader.placed_read hp read).1
  | broken _ read _ settled _ | delivered _ read settled _ =>
    rw [settled.reader_eq.1]
    exact (PartitionReader.placed_read hp read).1
  | skipped _ read settled _ ih =>
    apply ih
    rw [settled.reader_eq.1]
    exact (PartitionReader.placed_read hp read).1

/-- A call goes forward, and a batch that it delivers is one of the reads that there are. -/
theorem progress (h : Call handler state s answer lost final s') (hp : state.reader.Placed) :
    final.reader.readCount = state.reader.readCount ∧ state.nextRead ≤ final.nextRead ∧
      ∀ batch, answer = .ok (some batch) →
        state.nextRead < state.reader.readCount ∧ state.nextRead < final.nextRead := by
  induction h with
  | stopped _ => exact ⟨rfl, Nat.le_refl _, nofun⟩
  | unread _ read | exhausted _ read =>
    exact ⟨(PartitionReader.placed_read hp read).2, Nat.le_refl _, nofun⟩
  | broken _ read _ settled _ =>
    obtain ⟨hreader, hnext⟩ := settled.reader_eq
    rw [hreader, hnext]
    exact ⟨(PartitionReader.placed_read hp read).2, Nat.le_succ _, nofun⟩
  | skipped _ read settled _ ih =>
    obtain ⟨hreader, hnext⟩ := settled.reader_eq
    obtain ⟨hplaced, hcount⟩ := PartitionReader.placed_read hp read
    obtain ⟨hcount', hle, hbatch⟩ := ih (hreader ▸ hplaced)
    rw [hnext] at hle hbatch
    rw [hreader] at hcount'
    have hforward := Nat.lt_of_succ_le hle
    exact ⟨hcount'.trans hcount, Nat.le_of_lt hforward,
      fun _ _ => ⟨PartitionReader.lt_readCount_of_batch hp read, hforward⟩⟩
  | delivered _ read settled _ =>
    obtain ⟨hreader, hnext⟩ := settled.reader_eq
    rw [hreader, hnext]
    exact ⟨(PartitionReader.placed_read hp read).2, Nat.le_succ _,
      fun _ _ => ⟨PartitionReader.lt_readCount_of_batch hp read, Nat.lt_succ_self _⟩⟩

/-- A stream that was not ended answers its end when every read was made, and then it knows. -/
theorem exhausted_of_none (h : Call handler state s (.ok none) lost final s') (hp : state.reader.Placed)
    (hgoing : state.isStopped = false) :
    final.exhausted = true ∧ final.reader.readCount ≤ final.nextRead := by
  generalize hanswer : (Except.ok none : Answer) = answer at h
  induction h with
  | stopped hst =>
    rw [hgoing] at hst
    cases hst
  | unread _ _ | broken _ _ _ _ _ | delivered _ _ _ _ => cases hanswer
  | exhausted _ read =>
    obtain ⟨-, hcount⟩ := PartitionReader.placed_read hp read
    exact ⟨rfl, hcount ▸ PartitionReader.readCount_le_of_none hp read⟩
  | skipped _ read settled _ ih =>
    refine ih ?_ ?_ hanswer
    · rw [settled.reader_eq.1]
      exact (PartitionReader.placed_read hp read).1
    · rw [settled.frame]
      exact hgoing

/-- Only the end of the stream makes a reconciler exhausted. -/
theorem exhausted_eq (h : Call handler state s answer lost final s') (hanswer : answer ≠ .ok none) :
    final.exhausted = state.exhausted := by
  induction h with
  | stopped _ | exhausted _ _ => exact absurd rfl hanswer
  | unread _ _ => rfl
  | broken _ _ _ settled _ | delivered _ _ settled _ =>
    rw [settled.frame]
    rfl
  | skipped _ _ settled _ ih =>
    rw [ih hanswer, settled.frame]
    rfl

/-- A call on an ended stream finds nothing and changes nothing. -/
theorem of_stopped (h : Call handler state s answer lost final s') (hst : state.isStopped = true) :
    answer = .ok none ∧ lost = [] ∧ final = state ∧ s' = s := by
  cases h with
  | stopped _ => exact ⟨rfl, rfl, rfl, rfl⟩
  | unread going _ | exhausted going _ | broken going _ _ _ _ | skipped going _ _ _
  | delivered going _ _ _ =>
    rw [going] at hst
    cases hst

/-- So one that finds something was not on an ended stream. -/
theorem going_of_ne_none (h : Call handler state s answer lost final s') (hanswer : answer ≠ .ok none) :
    state.isStopped = false := by
  cases hst : state.isStopped with
  | false => rfl
  | true => exact absurd (h.of_stopped hst).1 hanswer

theorem spent (h : Call handler state s answer lost final s') (hp : state.reader.Placed) (hs : state.Spent) :
    final.Spent := by
  obtain ⟨hcount, hle, -⟩ := h.progress hp
  by_cases hanswer : answer = .ok none
  · subst hanswer
    cases hst : state.isStopped with
    | true =>
      rw [(h.of_stopped hst).2.2.1]
      exact hs
    | false => exact fun _ => (h.exhausted_of_none hp hst).2
  · intro hexhausted
    rw [h.exhausted_eq hanswer] at hexhausted
    rw [hcount]
    exact (hs hexhausted).trans hle

end Call

/-! ## Sessions -/

/-- What the owner of a reconciler can ask for. -/
inductive Request where
  | read
  | cancel
  | close
deriving DecidableEq, Repr

/-- Serve requests in order, and list the answers of the reads. -/
def serve : List Request → Reconciler → Program (List Answer × Reconciler)
  | [], state => return ([], state)
  | .read :: rest, state => do
    let (answer, state) ← state.read
    let (answers, state) ← serve rest state
    return (answer :: answers, state)
  | .cancel :: rest, state => serve rest state.cancel
  | .close :: rest, state => serve rest state.close

/-- Calls one after the other: the requests served, the answers of the reads among them, and the blocks
that the failing ones lost, in order. -/
inductive Session (handler : Handler σ) :
    Reconciler → σ → List Request → List Answer → List BlockSlice → Reconciler → σ → Prop where
  | done {state : Reconciler} {s : σ} : Session handler state s [] [] [] state s
  | read {state mid final : Reconciler} {s s' s'' : σ} {requests : List Request}
      {answer : Answer} {answers : List Answer} {lost losses : List BlockSlice}
      (call : Call handler state s answer lost mid s')
      (rest : Session handler mid s' requests answers losses final s'') :
      Session handler state s (.read :: requests) (answer :: answers) (lost ++ losses) final s''
  | cancel {state final : Reconciler} {s s' : σ} {requests : List Request} {answers : List Answer}
      {losses : List BlockSlice}
      (rest : Session handler state.cancel s requests answers losses final s') :
      Session handler state s (.cancel :: requests) answers losses final s'
  | close {state final : Reconciler} {s s' : σ} {requests : List Request} {answers : List Answer}
      {losses : List BlockSlice}
      (rest : Session handler state.close s requests answers losses final s') :
      Session handler state s (.close :: requests) answers losses final s'

/-- Closing lets go of the storage and leaves every account as it is. -/
theorem close_frame (state : Reconciler) :
    state.close = { state with closed := state.close.closed, reader := state.close.reader } := by
  unfold close
  split <;> rfl

theorem placed_close {state : Reconciler} (h : state.reader.Placed) : state.close.reader.Placed := by
  unfold close
  split
  · exact h
  · exact PartitionReader.placed_close h

theorem readCount_reader_close (state : Reconciler) :
    state.close.reader.readCount = state.reader.readCount := by
  unfold close
  split
  · rfl
  · exact PartitionReader.readCount_close state.reader

theorem isStopped_cancel (state : Reconciler) : state.cancel.isStopped = true := by
  simp [isStopped, cancel]

theorem isStopped_close (state : Reconciler) : state.close.isStopped = true := by
  unfold close
  split <;> simp_all [isStopped]

/-- **Every run of requests is a session.** -/
theorem session_of_serve {requests : List Request} :
    ∀ {state final : Reconciler} {s s' : σ} {answers : List Answer}, state.reader.Placed →
      (serve requests state).run handler s = ((answers, final), s') →
      ∃ losses, Session handler state s requests answers losses final s' := by
  induction requests with
  | nil =>
    intro state final s s' answers _ h
    cases h
    exact ⟨[], .done⟩
  | cons request requests ih =>
    intro state final s s' answers hp h
    cases request with
    | read =>
      rw [serve, Program.run_bind] at h
      rcases hr : state.read.run handler s with ⟨⟨answer, mid⟩, s₁⟩
      rw [hr] at h
      dsimp only at h
      rw [Program.run_bind] at h
      obtain ⟨lost, hc⟩ := call_of_read hp hr
      rcases hq : (serve requests mid).run handler s₁ with ⟨⟨rest, last⟩, s₂⟩
      rw [hq] at h
      cases h
      obtain ⟨losses, hs⟩ := ih (hc.placed hp) hq
      exact ⟨lost ++ losses, .read hc hs⟩
    | cancel =>
      rw [serve] at h
      have hp' : state.cancel.reader.Placed := hp
      obtain ⟨losses, hs⟩ := ih hp' h
      exact ⟨losses, .cancel hs⟩
    | close =>
      rw [serve] at h
      obtain ⟨losses, hs⟩ := ih (placed_close hp) h
      exact ⟨losses, .close hs⟩

namespace Session

variable {state final : Reconciler} {s s' : σ} {requests : List Request} {answers : List Answer}
  {losses : List BlockSlice}

/-- One session behind another is a session. -/
theorem append (h : Session handler state s requests answers losses final s')
    {last : Reconciler} {s'' : σ} {requests' : List Request} {answers' : List Answer}
    {losses' : List BlockSlice} (h' : Session handler final s' requests' answers' losses' last s'') :
    Session handler state s (requests ++ requests') (answers ++ answers') (losses ++ losses') last
      s'' := by
  induction h with
  | done => exact h'
  | read call _ ih =>
    rw [List.append_assoc]
    exact .read call (ih h')
  | cancel _ ih => exact .cancel (ih h')
  | close _ ih => exact .close (ih h')

/-- Of the settings nothing changes. -/
theorem settings_eq (h : Session handler state s requests answers losses final s') :
    final.expected = state.expected ∧ final.tasks = state.tasks ∧
      final.checksum = state.checksum := by
  induction h with
  | done => exact ⟨rfl, rfl, rfl⟩
  | read call _ ih =>
    obtain ⟨hx, ht, hc, -⟩ := call.settings_eq
    rw [hx, ht, hc] at ih
    exact ih
  | cancel _ ih => exact ih
  | close _ ih =>
    rw [close_frame] at ih
    exact ih

theorem placed (h : Session handler state s requests answers losses final s')
    (hp : state.reader.Placed) : final.reader.Placed := by
  induction h with
  | done => exact hp
  | read call _ ih => exact ih (call.placed hp)
  | cancel _ ih => exact ih hp
  | close _ ih => exact ih (placed_close hp)

theorem spent (h : Session handler state s requests answers losses final s') (hp : state.reader.Placed)
    (hs : state.Spent) : final.Spent := by
  induction h with
  | done => exact hs
  | read call _ ih => exact ih (call.placed hp) (call.spent hp hs)
  | cancel _ ih => exact ih hp hs
  | close _ ih =>
    refine ih (placed_close hp) ?_
    intro hexhausted
    rw [close_frame] at hexhausted ⊢
    rw [readCount_reader_close]
    exact hs hexhausted

/-- A stream that was ended stays ended. -/
theorem isStopped_mono (h : Session handler state s requests answers losses final s')
    (hst : state.isStopped = true) : final.isStopped = true := by
  induction h with
  | done => exact hst
  | read call _ ih => exact ih (call.settings_eq.2.2.2.trans hst)
  | cancel _ ih => exact ih (isStopped_cancel _)
  | close _ ih => exact ih (isStopped_close _)

/-- Cancelling and closing end the stream. -/
theorem isStopped (h : Session handler state s requests answers losses final s')
    (hend : .cancel ∈ requests ∨ .close ∈ requests) : final.isStopped = true := by
  induction h with
  | done => simp at hend
  | read _ _ ih => exact ih (by simpa using hend)
  | cancel rest _ => exact rest.isStopped_mono (isStopped_cancel _)
  | close rest _ => exact rest.isStopped_mono (isStopped_close _)

/-- A session on an ended stream finds nothing and changes no account. -/
theorem of_stopped (h : Session handler state s requests answers losses final s') :
    state.isStopped = true → (∀ answer ∈ answers, answer = .ok none) ∧ losses = [] ∧
      final.processed = state.processed ∧ final.superseded = state.superseded ∧
      final.stats = state.stats ∧ s' = s := by
  induction h with
  | done => intro _; simp
  | read call _ ih =>
    intro hst
    obtain ⟨rfl, rfl, rfl, rfl⟩ := call.of_stopped hst
    obtain ⟨ha, rfl, hrest⟩ := ih hst
    refine ⟨?_, rfl, hrest⟩
    intro answer hmem
    rcases List.mem_cons.mp hmem with rfl | hmem
    · rfl
    · exact ha answer hmem
  | cancel _ ih => intro _; exact ih (isStopped_cancel _)
  | close _ ih =>
    intro _
    have hrest := ih (isStopped_close _)
    rw [close_frame] at hrest
    exact hrest

end Session

end Reconciler

end BlockShuffle
