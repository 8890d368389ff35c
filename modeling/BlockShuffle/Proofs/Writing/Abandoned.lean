import Mathlib
import BlockShuffle.Proofs.Storage.Trace
import BlockShuffle.Proofs.Writing.Interleaving

/-!
# Behind a write that failed

A write that fails leaves what reached the storage and moves on. Nothing that the writer does from then on,
whatever it is asked and whatever the storage answers, concerns a pair with a smaller number than the one it
has moved on to.

Each request is described by its calls alone (`Attempt`, `RollsOver`): they concern pairs between the number the
writer has and the one it goes on with, and the open pair, if there is one, is the pair of the number (`Sits`). A
life is such requests in a row, each on a storage of any content and with any failures (`Turn`), so the contents
may be anybody's doing. Numbers have an end, and a life that comes to the last of them is left out
(`NumbersLeft`): behind it there is no next pair to move on to.

This is about calls, and the reason to trace them: a pair that is never touched again leaves no mark in any
memory that could be inspected later, since somebody else may have touched it. The writer's memory is not even
the same from one request to the next here. So the conclusion holds on storage that other writers share.

It is the writer's own later life that is meant. A new writer of the shard starts at the first pair again and
may go on in an abandoned one, if its index ends with a whole entry. What a refused batch does is part of the
same account: it makes no call, takes no number and leaves the pair open.
-/

set_option autoImplicit false

namespace BlockShuffle

open Storage Program

namespace ShardWriter

/-! ## Pairs by number -/

/-- A file of a pair numbered from `first` on and below `stop`. -/
def FileIn (writer : ShardWriter) (first stop : Nat) (path : Path) : Prop :=
  ∃ n : UInt32, first ≤ n.toNat ∧ n.toNat < stop ∧
    (path = (writer.filesOf n).data ∨ path = (writer.filesOf n).index)

/-- The open pair is the one that the number says. -/
def Sits (writer : ShardWriter) : Prop :=
  ∀ pair, writer.pair = some pair → pair.Within (writer.FileIn writer.number.toNat (writer.number.toNat + 1))

/-- The last number of a pair. -/
def lastNumber : UInt32 := UInt32.ofNat (UInt32.size - 1)

variable {writer after : ShardWriter} {first stop : Nat} {blocks : List Block}

theorem FileIn.mono {first' stop' : Nat} (hfirst : first' ≤ first) (hstop : stop ≤ stop') (path : Path)
    (h : writer.FileIn first stop path) : writer.FileIn first' stop' path := by
  obtain ⟨n, hle, hlt, hpath⟩ := h
  exact ⟨n, hfirst.trans hle, hlt.trans_le hstop, hpath⟩

theorem SameShard.fileIn_eq (h : SameShard writer after) : after.FileIn first stop = writer.FileIn first stop := by
  unfold FileIn
  rw [h.filesOf_eq]

theorem sits_of_pair_eq_none (h : writer.pair = none) : writer.Sits := by
  intro pair hpair
  rw [h] at hpair
  cases hpair

theorem toNat_succ {number : UInt32} (h : number ≠ lastNumber) : (number + 1).toNat = number.toNat + 1 := by
  have hlt : number.toNat + 1 < UInt32.size := by
    have hbound := number.toNat_lt
    have hne : number.toNat ≠ lastNumber.toNat := fun heq => h (UInt32.toNat_inj.mp heq)
    have hlast : lastNumber.toNat = UInt32.size - 1 := rfl
    have hsize : UInt32.size = 2 ^ 32 := rfl
    omega
  rw [UInt32.toNat_add]
  exact Nat.mod_eq_of_lt hlt

/-! ## The search for a pair -/

/-- What a search from a number comes to: it has asked for the index of the pair it stops at, and for nothing
outside the pairs up to that one. -/
structure Found (writer : ShardWriter) (number : UInt32) (calls : List Call)
    (result : Except IoError OpenPair × UInt32) : Prop where
  forward : number.toNat ≤ result.2.toNat
  asked : .openAppend (writer.filesOf result.2).index ∈ calls
  within : ∀ call ∈ calls, call.Within (writer.FileIn number.toNat (result.2.toNat + 1))
  pair : ∀ pair, result.1 = .ok pair → pair.Within (writer.FileIn result.2.toNat (result.2.toNat + 1))

theorem Found.behind {number : UInt32} {front calls : List Call} {result : Except IoError OpenPair × UInt32}
    (h : writer.Found (number + 1) calls result) (hnumber : (number + 1).toNat = number.toNat + 1)
    (hfront : ∀ call ∈ front, call.Within (writer.FileIn number.toNat (number.toNat + 1))) :
    writer.Found number (front ++ calls) result := by
  have hle := h.forward
  refine ⟨by omega, List.mem_append_right _ h.asked, fun call hcall => ?_, h.pair⟩
  rcases List.mem_append.mp hcall with hcall | hcall
  · exact (hfront call hcall).mono (FileIn.mono le_rfl (Nat.succ_le_succ (by omega)))
  · exact (h.within call hcall).mono (FileIn.mono (by omega) le_rfl)

theorem traced_openPairFrom (writer : ShardWriter) (left : Nat) : ∀ number : UInt32,
    left + number.toNat + 1 = UInt32.size → (writer.openPairFrom left number).Traced (writer.Found number) := by
  induction left using Nat.strong_induction_on with
  | _ left ih =>
    intro number hleft
    have hindex : (Call.openAppend (writer.filesOf number).index).Within
        (writer.FileIn number.toNat (number.toNat + 1)) := ⟨number, le_rfl, Nat.lt_succ_self _, Or.inr rfl⟩
    have hdata : (Call.openAppend (writer.filesOf number).data).Within
        (writer.FileIn number.toNat (number.toNat + 1)) := ⟨number, le_rfl, Nat.lt_succ_self _, Or.inl rfl⟩
    have hstops {calls : List Call} (hcalls : ∀ call ∈ calls,
        call.Within (writer.FileIn number.toNat (number.toNat + 1))) (error : IoError) :
        writer.Found number (.openAppend (writer.filesOf number).index :: calls) (.error error, number) :=
      ⟨le_rfl, List.mem_cons_self, List.forall_mem_cons.mpr ⟨hindex, hcalls⟩, nofun⟩
    -- In whichever way it stops, it has asked for the index of this pair, and for nothing of another one.
    rw [openPairFrom.eq_def]
    refine Traced.bind (traced_call_self (.openAppend _)) ?_
    rintro _ (error | index) ⟨rfl, hopened⟩
    · exact hstops (fun _ h => absurd h List.not_mem_nil) error
    have hrelease : (Call.release index).Within (writer.FileIn number.toNat (number.toNat + 1)) := by
      change writer.FileIn number.toNat (number.toNat + 1) index.path
      rw [hopened index rfl]
      exact hindex
    dsimp only
    split
    · refine Traced.bind (traced_call_self (.openAppend _)) ?_
      rintro _ (error | data) ⟨rfl, hopened⟩
      · refine Traced.bind (traced_call_self (.release index)) ?_
        rintro _ - ⟨rfl, -⟩
        exact hstops (List.forall_mem_cons.mpr ⟨hdata, List.forall_mem_singleton.mpr hrelease⟩) error
      · refine ⟨le_rfl, List.mem_cons_self,
          List.forall_mem_cons.mpr ⟨hindex, List.forall_mem_singleton.mpr hdata⟩, ?_⟩
        rintro pair ⟨⟩
        refine ⟨?_, hrelease⟩
        change writer.FileIn number.toNat (number.toNat + 1) data.path
        rw [hopened data rfl]
        exact hdata
    · refine Traced.bind (traced_call_self (.release index)) ?_
      rintro _ - ⟨rfl, -⟩
      cases left with
      | zero => exact hstops (List.forall_mem_singleton.mpr hrelease) _
      | succ left =>
        have hnumber : (number + 1).toNat = number.toNat + 1 := by
          refine toNat_succ fun hlast => ?_
          have : number.toNat = UInt32.size - 1 := congrArg UInt32.toNat hlast
          omega
        have hfront : ∀ call ∈ [Call.openAppend (writer.filesOf number).index, .release index],
            call.Within (writer.FileIn number.toNat (number.toNat + 1)) :=
          List.forall_mem_cons.mpr ⟨hindex, List.forall_mem_singleton.mpr hrelease⟩
        exact (ih left (Nat.lt_succ_self left) (number + 1) (by omega)).mono fun calls result h =>
          h.behind hnumber hfront

/-! ## One request -/

/-- What writing a batch comes to that is fit to be written: the number of the pair that was tried last, and
either the batch is in it and the writer stays, or the writer goes on behind it. -/
def Attempt (writer : ShardWriter) (blocks : List Block) (calls : List Call)
    (result : Except Error Unit × ShardWriter) : Prop :=
  ∃ number : UInt32, writer.number.toNat ≤ number.toNat ∧
    (number = writer.number ∨ .openAppend (writer.filesOf number).index ∈ calls) ∧
    (∀ call ∈ calls, call.Within (writer.FileIn writer.number.toNat (number.toNat + 1))) ∧
    ((result.1 = .ok () ∧ ∃ pair : OpenPair, pair.Within (writer.FileIn number.toNat (number.toNat + 1)) ∧
      result.2 = { writer with
        pair := some pair, number, blocksWritten := writer.blocksWritten + blocks.length }) ∨
    ((∃ error, result.1 = .error error) ∧ result.2 = writer.abandonPair number))

/-- The pair of a batch: the open one, or the one that is found. -/
theorem traced_openPair (h : writer.Sits) : writer.openPair.Traced fun calls result =>
    writer.number.toNat ≤ result.2.toNat ∧
    (result.2 = writer.number ∨ .openAppend (writer.filesOf result.2).index ∈ calls) ∧
    (∀ call ∈ calls, call.Within (writer.FileIn writer.number.toNat (result.2.toNat + 1))) ∧
    ∀ pair, result.1 = .ok pair → pair.Within (writer.FileIn result.2.toNat (result.2.toNat + 1)) := by
  rw [openPair.eq_def]
  split
  · rename_i pair hpair
    refine ⟨le_rfl, Or.inl rfl, fun _ h => absurd h List.not_mem_nil, ?_⟩
    rintro other ⟨⟩
    exact h pair hpair
  · have hbound : writer.number.toNat < UInt32.size := writer.number.toNat_lt
    refine (writer.traced_openPairFrom _ writer.number (by omega)).mono fun calls result hfound => ?_
    exact ⟨hfound.forward, Or.inr hfound.asked, hfound.within, hfound.pair⟩

theorem traced_write (h : writer.Sits) (hfit : checkBlocks blocks = .ok ()) :
    (writer.write blocks).Traced (writer.Attempt blocks) := by
  rw [write, hfit]
  dsimp only
  rw [writeChecked, bind_assoc]
  refine (traced_openPair h).bind ?_
  rintro calls ⟨error | pair, number⟩ ⟨hforward, hasked, hwithin, hpair⟩
  · refine ⟨number, hforward, ?_, ?_, Or.inr ⟨⟨_, rfl⟩, rfl⟩⟩ <;> rwa [List.append_nil]
  have hmono : ∀ path, writer.FileIn number.toNat (number.toNat + 1) path →
      writer.FileIn writer.number.toNat (number.toNat + 1) path := FileIn.mono hforward le_rfl
  have hboth {more : List Call} (hmore : ∀ call ∈ more,
      call.Within (writer.FileIn number.toNat (number.toNat + 1))) : ∀ call ∈ calls ++ more,
        call.Within (writer.FileIn writer.number.toNat (number.toNat + 1)) :=
    List.forall_mem_append.mpr ⟨hwithin, fun call hcall => (hmore call hcall).mono hmono⟩
  dsimp only
  rw [bind_assoc]
  refine (OpenPair.confined_writeBatch writer.strategy (hpair pair rfl) blocks).traced.bind ?_
  rintro more ⟨error | ⟨⟩, written⟩ ⟨hmore, hwritten⟩
  · dsimp only
    rw [bind_assoc]
    refine (OpenPair.confined_release hwritten).traced.bind ?_
    rintro last - ⟨hlast, -⟩
    refine ⟨number, hforward, hasked.imp_right (List.mem_append_left _), ?_, Or.inr ⟨⟨_, rfl⟩, rfl⟩⟩
    rw [List.append_nil]
    exact hboth (List.forall_mem_append.mpr ⟨hmore, hlast⟩)
  · refine ⟨number, hforward, hasked.imp_right (List.mem_append_left _), ?_, Or.inl ⟨rfl, written, hwritten, rfl⟩⟩
    rw [List.append_nil]
    exact hboth hmore

/-- What rolling over comes to: no pair is open, and the number is the next one unless the pair could not be
finished. -/
structure RollsOver (writer : ShardWriter) (calls : List Call) (result : Except Error Unit × ShardWriter) :
    Prop where
  same : SameShard writer result.2
  pair : result.2.pair = none
  number : result.2.number = writer.number ∨ result.2.number = writer.number + 1
  blocksWritten : result.2.blocksWritten = writer.blocksWritten
  within : ∀ call ∈ calls, call.Within (writer.FileIn writer.number.toNat (writer.number.toNat + 1))

theorem traced_rollOver (h : writer.Sits) : writer.rollOver.Traced writer.RollsOver := by
  rw [rollOver.eq_def]
  split
  · rename_i hnone
    exact ⟨⟨rfl, rfl, rfl⟩, hnone, Or.inr rfl, rfl, fun _ h => absurd h List.not_mem_nil⟩
  · rename_i pair hpair
    refine (OpenPair.confined_finish (h pair hpair)).traced.bind ?_
    rintro calls (error | ⟨⟩) ⟨hcalls, -⟩
    · refine ⟨⟨rfl, rfl, rfl⟩, rfl, Or.inl rfl, rfl, ?_⟩
      rwa [List.append_nil]
    · refine ⟨⟨rfl, rfl, rfl⟩, rfl, Or.inr rfl, rfl, ?_⟩
      rwa [List.append_nil]

theorem traced_close (h : writer.Sits) : writer.close.Traced fun calls _ =>
    ∀ call ∈ calls, call.Within (writer.FileIn writer.number.toNat (writer.number.toNat + 1)) := by
  rw [close.eq_def]
  split
  · exact fun _ h => absurd h List.not_mem_nil
  · rename_i pair hpair
    refine (OpenPair.confined_finish (h pair hpair)).traced.bind ?_
    rintro calls finished ⟨hcalls, -⟩
    change ∀ call ∈ calls ++ [], _
    rwa [List.append_nil]

theorem traced_drop (h : writer.Sits) : writer.release.Traced fun calls _ =>
    ∀ call ∈ calls, call.Within (writer.FileIn writer.number.toNat (writer.number.toNat + 1)) := by
  rw [release.eq_def]
  split
  · exact fun _ h => absurd h List.not_mem_nil
  · rename_i pair hpair
    exact (OpenPair.confined_release (h pair hpair)).traced.mono fun _ _ h => h.1

/-! ## A life -/

/-- One thing that a writer is asked for, and the storage it is asked on. -/
inductive Turn where
  | write (blocks : List Block) (storage : Unreliable)
  | rollOver (storage : Unreliable)

namespace Turn

/-- The batch that is written; none, to roll over. -/
def batch : Turn → List Block
  | .write blocks _ => blocks
  | .rollOver _ => []

def storage : Turn → Unreliable
  | .write _ storage => storage
  | .rollOver storage => storage

def program (writer : ShardWriter) : Turn → Program (Except Error Unit × ShardWriter)
  | .write blocks _ => writer.write blocks
  | .rollOver _ => writer.rollOver

/-- What is answered, and the writer afterwards. -/
def result (turn : Turn) (writer : ShardWriter) : Except Error Unit × ShardWriter :=
  ((turn.program writer).run Unreliable.handler turn.storage).1

def calls (turn : Turn) (writer : ShardWriter) : List Call :=
  (turn.program writer).calls Unreliable.handler turn.storage

end Turn

/-- The writer that one becomes. -/
def live : List Turn → ShardWriter → ShardWriter
  | [], writer => writer
  | turn :: rest, writer => live rest (turn.result writer).2

/-- The calls that it makes on the way, in order. -/
def liveCalls : List Turn → ShardWriter → List Call
  | [], _ => []
  | turn :: rest, writer => turn.calls writer ++ liveCalls rest (turn.result writer).2

/-- The numbers that it has, at first and behind each turn. -/
def liveNumbers : List Turn → ShardWriter → List UInt32
  | [], writer => [writer.number]
  | turn :: rest, writer => writer.number :: liveNumbers rest (turn.result writer).2

/-- How many blocks are in the batches that were written. -/
def acknowledged : List Turn → ShardWriter → Nat
  | [], _ => 0
  | turn :: rest, writer =>
    (if (turn.result writer).1 = .ok () then turn.batch.length else 0) + acknowledged rest (turn.result writer).2

/-- The last number is not come to: not between two turns, and not by a search, which opens the index of every
pair it comes to. -/
structure NumbersLeft (turns : List Turn) (writer : ShardWriter) : Prop where
  between : lastNumber ∉ liveNumbers turns writer
  searched : .openAppend (writer.filesOf lastNumber).index ∉ liveCalls turns writer

theorem number_mem_liveNumbers (turns : List Turn) (writer : ShardWriter) :
    writer.number ∈ liveNumbers turns writer := by
  cases turns <;> exact List.mem_cons_self

/-- What is true of a writer that has made some calls for a batch and become another. -/
structure Moves (writer : ShardWriter) (batch : List Block) (calls : List Call)
    (result : Except Error Unit × ShardWriter) : Prop where
  same : SameShard writer result.2
  sits : result.2.Sits
  forward : writer.number.toNat ≤ result.2.number.toNat
  blocksWritten : result.2.blocksWritten = writer.blocksWritten + if result.1 = .ok () then batch.length else 0
  within : ∀ call ∈ calls, call.Within (writer.FileIn writer.number.toNat (result.2.number.toNat + 1))

section Turns

variable {calls : List Call} {result : Except Error Unit × ShardWriter} (hlast : writer.number ≠ lastNumber)
  (hcalls : .openAppend (writer.filesOf lastNumber).index ∉ calls)

include hlast hcalls

/-- The pair that was tried last is not the last that there is. -/
theorem Attempt.number_ne {number : UInt32}
    (hasked : number = writer.number ∨ .openAppend (writer.filesOf number).index ∈ calls) :
    number ≠ lastNumber := by
  rintro rfl
  rcases hasked with h | h
  · exact hlast h.symm
  · exact hcalls h

/-- **A write that fails goes on behind every pair that it concerned.** -/
theorem Attempt.fails (h : writer.Attempt blocks calls result) (hfails : result.1 ≠ .ok ()) :
    writer.number.toNat < result.2.number.toNat ∧ result.2.blocksWritten = writer.blocksWritten ∧
      SameShard writer result.2 ∧ result.2.pair = none ∧
      ∀ call ∈ calls, call.Within (writer.FileIn writer.number.toNat result.2.number.toNat) := by
  obtain ⟨number, hforward, hasked, hwithin, ⟨hok, -⟩ | ⟨-, hresult⟩⟩ := h
  · exact absurd hok hfails
  · have hnumber : result.2.number.toNat = number.toNat + 1 := by
      rw [hresult]
      exact toNat_succ (Attempt.number_ne hlast hcalls hasked)
    rw [hnumber]
    refine ⟨by omega, ?_, ?_, ?_, hwithin⟩ <;> rw [hresult]
    · rfl
    · exact ⟨rfl, rfl, rfl⟩
    · rfl

theorem Attempt.moves (h : writer.Attempt blocks calls result) : writer.Moves blocks calls result := by
  by_cases hok : result.1 = .ok ()
  · obtain ⟨number, hforward, -, hwithin, ⟨-, pair, hpair, hresult⟩ | ⟨⟨error, herror⟩, -⟩⟩ := h
    · have hsame : SameShard writer result.2 := by
        rw [hresult]
        exact ⟨rfl, rfl, rfl⟩
      refine ⟨hsame, ?_, ?_, ?_, ?_⟩
      · rw [Sits, hsame.fileIn_eq, hresult]
        rintro _ ⟨⟩
        exact hpair
      · rw [hresult]
        exact hforward
      · rw [if_pos hok, hresult]
      · rw [hresult]
        exact hwithin
    · rw [hok] at herror
      cases herror
  · obtain ⟨hforward, hwritten, hsame, hpair, hwithin⟩ := h.fails hlast hcalls hok
    refine ⟨hsame, sits_of_pair_eq_none hpair, hforward.le, ?_, fun call hcall => ?_⟩
    · rw [if_neg hok, Nat.add_zero, hwritten]
    · exact (hwithin call hcall).mono (FileIn.mono le_rfl (Nat.le_succ _))

omit hcalls in
theorem RollsOver.moves (h : writer.RollsOver calls result) : writer.Moves [] calls result := by
  have hforward : writer.number.toNat ≤ result.2.number.toNat := by
    rcases h.number with hnumber | hnumber <;> rw [hnumber]
    rw [toNat_succ hlast]
    exact Nat.le_succ _
  refine ⟨h.same, sits_of_pair_eq_none h.pair, hforward, ?_, fun call hcall => ?_⟩
  · rw [h.blocksWritten, List.length_nil, ite_self, Nat.add_zero]
  · exact (h.within call hcall).mono (FileIn.mono le_rfl (Nat.succ_le_succ hforward))

end Turns

/-- A batch that is not fit to be written changes nothing. -/
theorem write_of_checkBlocks {fault : InvalidBlock} (h : checkBlocks blocks = .error fault) :
    writer.write blocks = return (.error (.invalidBlock fault), writer) := by
  rw [write, h]

/-- What is true after each turn. -/
theorem moves_turn (hsits : writer.Sits) (hlast : writer.number ≠ lastNumber) (turn : Turn)
    (hcalls : .openAppend (writer.filesOf lastNumber).index ∉ turn.calls writer) :
    writer.Moves turn.batch (turn.calls writer) (turn.result writer) := by
  cases turn with
  | write blocks storage =>
    cases hcheck : checkBlocks blocks with
    | error fault =>
      rw [Turn.calls, Turn.result, Turn.program, write_of_checkBlocks hcheck]
      exact ⟨⟨rfl, rfl, rfl⟩, hsits, le_rfl, rfl, fun _ h => absurd h List.not_mem_nil⟩
    | ok => exact ((traced_write hsits hcheck).run Unreliable.fits_handler storage).moves hlast hcalls
  | rollOver storage => exact ((traced_rollOver hsits).run Unreliable.fits_handler storage).moves hlast

/-! ## Lives -/

/-- What is true of a writer after some turns. -/
structure Lived (writer : ShardWriter) (turns : List Turn) : Prop where
  same : SameShard writer (live turns writer)
  sits : (live turns writer).Sits
  forward : writer.number.toNat ≤ (live turns writer).number.toNat
  blocksWritten : (live turns writer).blocksWritten = writer.blocksWritten + acknowledged turns writer
  within : ∀ call ∈ liveCalls turns writer, call.Within (writer.FileIn writer.number.toNat UInt32.size)

variable {turn : Turn} {others : List Turn}

theorem NumbersLeft.head (h : NumbersLeft (turn :: others) writer) : writer.number ≠ lastNumber ∧
    .openAppend (writer.filesOf lastNumber).index ∉ turn.calls writer :=
  ⟨fun hlast => h.between (hlast ▸ List.mem_cons_self), fun hcall => h.searched (List.mem_append_left _ hcall)⟩

theorem NumbersLeft.tail (h : NumbersLeft (turn :: others) writer)
    (hsame : SameShard writer (turn.result writer).2) : NumbersLeft others (turn.result writer).2 := by
  refine ⟨fun hlast => h.between (List.mem_cons_of_mem _ hlast), fun hcall => h.searched ?_⟩
  rw [hsame.filesOf_eq] at hcall
  exact List.mem_append_right _ hcall

/-- **No turn of a life goes back.** -/
theorem lived (turns : List Turn) : ∀ {writer : ShardWriter}, writer.Sits → NumbersLeft turns writer →
    writer.Lived turns := by
  induction turns with
  | nil => exact fun hsits _ => ⟨⟨rfl, rfl, rfl⟩, hsits, le_rfl, rfl, fun _ h => absurd h List.not_mem_nil⟩
  | cons turn rest ih =>
    intro writer hsits hleft
    have hmoves := moves_turn hsits hleft.head.1 turn hleft.head.2
    obtain ⟨hsame, hsits', hforward, hwritten, hwithin⟩ := ih hmoves.sits (hleft.tail hmoves.same)
    refine ⟨hmoves.same.trans hsame, hsits', hmoves.forward.trans hforward, ?_, ?_⟩
    · rw [live, hwritten, hmoves.blocksWritten, acknowledged, Nat.add_assoc]
    · refine List.forall_mem_append.mpr ⟨fun call hcall => ?_, fun call hcall => ?_⟩
      · exact (hmoves.within call hcall).mono (FileIn.mono le_rfl (UInt32.toNat_lt _))
      · rw [hmoves.same.fileIn_eq] at hwithin
        exact (hwithin call hcall).mono (FileIn.mono hmoves.forward le_rfl)

theorem live_append (front others : List Turn) : ∀ writer : ShardWriter,
    live (front ++ others) writer = live others (live front writer) := by
  induction front with
  | nil => exact fun _ => rfl
  | cons turn front ih => exact fun writer => ih (turn.result writer).2

/-- A life with numbers left has them at every point. -/
theorem NumbersLeft.split (front : List Turn) : ∀ {writer : ShardWriter}, writer.Sits →
    NumbersLeft (front ++ others) writer → NumbersLeft front writer ∧ NumbersLeft others (live front writer) := by
  induction front with
  | nil =>
    intro writer _ h
    refine ⟨⟨fun hlast => h.between ?_, List.not_mem_nil⟩, h⟩
    rw [List.mem_singleton.mp hlast]
    exact number_mem_liveNumbers others writer
  | cons turn front ih =>
    intro writer hsits h
    have hmoves := moves_turn hsits h.head.1 turn h.head.2
    obtain ⟨hfront, hrest⟩ := ih hmoves.sits (h.tail hmoves.same)
    refine ⟨⟨?_, ?_⟩, hrest⟩
    · intro hlast
      rcases List.mem_cons.mp hlast with hlast | hlast
      · exact h.head.1 hlast.symm
      · exact hfront.between hlast
    · intro hcall
      rcases List.mem_append.mp hcall with hcall | hcall
      · exact h.head.2 hcall
      · apply hfront.searched
        rwa [hmoves.same.filesOf_eq]

/-! ## What is left behind -/

/-- A batch is checked from its front. -/
theorem checkBlocks_append {front : List Block} (h : ∀ block ∈ front, Fits block) (rest : List Block) :
    checkBlocks (front ++ rest) = checkBlocks rest := by
  induction front with
  | nil => rfl
  | cons block front ih =>
    obtain ⟨hblock, hfront⟩ := List.forall_mem_cons.mp h
    have hcheck : block.check = .ok () := if_pos hblock
    rw [List.cons_append, checkBlocks, hcheck]
    exact ih hfront

/-- What is left of pairs numbered below the writer's. -/
theorem fileIn_apart (hname : isShardName writer.shard = true) {n : UInt32} (hout : n.toNat < first ∨ stop ≤ n.toNat) :
    (∀ mine, writer.FileIn first stop mine → mine.components ≠ (writer.filesOf n).data.components) ∧
    ∀ mine, writer.FileIn first stop mine → mine.components ≠ (writer.filesOf n).index.components := by
  have hapart := apart_filesOf hname
  constructor
  · rintro _ ⟨m, hle, hlt, rfl | rfl⟩ heq
    · cases hapart.data_inj heq
      omega
    · exact hapart.data_ne_index n m heq.symm
  · rintro _ ⟨m, hle, hlt, rfl | rfl⟩ heq
    · exact hapart.data_ne_index m n heq
    · cases hapart.index_inj heq
      omega

/-- The calls of a life from here on, and those that end it: closing the writer, or dropping it. -/
def Makes (writer : ShardWriter) (future : List Turn) (call : Call) : Prop :=
  call ∈ liveCalls future writer ∨ ∃ storage : Unreliable,
    call ∈ (live future writer).close.calls Unreliable.handler storage ∨
    call ∈ (live future writer).release.calls Unreliable.handler storage

/-- **What a write that failed leaves**, with the writer and the memory it ends with, and with what the writer
is asked for afterwards. -/
structure LeavesBehind (writer : ShardWriter) (memory : Memory) (after : ShardWriter) (later : Memory)
    (future : List Turn) : Prop where
  blocksWritten : after.blocksWritten = writer.blocksWritten
  /-- No byte that was there is lost, -/
  kept : memory.Extends later
  /-- only pairs numbered from the old number on and below the new one may have become longer, -/
  others : ∀ path : Path, (∀ n, writer.number ≤ n → n < after.number →
      path.components ≠ (writer.filesOf n).data.components ∧ path.components ≠ (writer.filesOf n).index.components) →
    later.find? path = memory.find? path
  forward : writer.number < after.number
  /-- and nobody goes back to them: no later call is one on a pair numbered below the new number. -/
  never : ∀ call, after.Makes future call → ∀ n < after.number,
    ¬ call.Handles (writer.filesOf n).data ∧ ¬ call.Handles (writer.filesOf n).index

theorem Lived.within_of_makes (h : writer.Lived others) {call : Call} (hcall : writer.Makes others call) :
    call.Within (writer.FileIn writer.number.toNat UInt32.size) := by
  have hend {α : Type} {program : Program α} (htraced : program.Traced fun calls _ => ∀ call ∈ calls, call.Within
      ((live others writer).FileIn (live others writer).number.toNat ((live others writer).number.toNat + 1)))
      {storage : Unreliable} (hcall : call ∈ program.calls Unreliable.handler storage) :
      call.Within (writer.FileIn writer.number.toNat UInt32.size) := by
    have hwithin := htraced.run Unreliable.fits_handler storage call hcall
    rw [h.same.fileIn_eq] at hwithin
    exact hwithin.mono (FileIn.mono h.forward (UInt32.toNat_lt _))
  rcases hcall with hcall | ⟨storage, hcall | hcall⟩
  · exact h.within call hcall
  · exact hend (traced_close h.sits) hcall
  · exact hend (traced_drop h.sits) hcall

theorem leavesBehind (hname : isShardName writer.shard = true) (hsits : writer.Sits) {storage : Unreliable}
    (hleft : NumbersLeft (.write blocks storage :: others) writer) (hfit : checkBlocks blocks = .ok ())
    (hfails : ((writer.write blocks).run Unreliable.handler storage).1.1 ≠ .ok ()) :
    writer.LeavesBehind storage.memory ((writer.write blocks).run Unreliable.handler storage).1.2
      ((writer.write blocks).run Unreliable.handler storage).2.memory others := by
  have hattempt := (traced_write hsits hfit).run Unreliable.fits_handler storage
  obtain ⟨hforward, hwritten, hsame, hpair, hwithin⟩ := hattempt.fails hleft.head.1 hleft.head.2 hfails
  have hlived := lived others (sits_of_pair_eq_none hpair) (hleft.tail hsame)
  refine
    { blocksWritten := hwritten
      kept := Memory.ensures_extends (only_write writer blocks) _ storage (Memory.Extends.refl _)
      others := fun path hpath => ?_
      forward := hforward
      never := fun call hcall n hn => ?_ }
  · refine Unreliable.find?_run_of_calls ?_ hwithin
    rintro _ ⟨n, hle, hlt, rfl | rfl⟩
    · exact (hpath n hle hlt).1.symm
    · exact (hpath n hle hlt).2.symm
  · have hcallIn := hlived.within_of_makes hcall
    rw [hsame.fileIn_eq] at hcallIn
    obtain ⟨hdata, hindex⟩ := fileIn_apart hname (Or.inl hn)
    exact ⟨hcallIn.not_handles hdata, hcallIn.not_handles hindex⟩

/-- **A write that fails leaves only appended bytes and is never appended behind.** Take any life of a writer
that does not come to the last number, and any write in it. A batch with a block that is not fit to be written is
refused for the first of them, with no storage call and nothing changed. A write that fails otherwise leaves what
`LeavesBehind` says. Throughout the life the number never decreases, and the writer has counted the blocks of the
batches that were written. -/
theorem failed_write_left_behind {config : WriteConfig} {range : PartitionRange} {shard : String}
    {start : ShardWriter} (hcreate : create config range shard = .ok start) (past : List Turn)
    (blocks : List Block) (storage : Unreliable) (future : List Turn)
    (hleft : NumbersLeft (past ++ .write blocks storage :: future) start) :
    let writer := live past start
    let written := (writer.write blocks).run Unreliable.handler storage
    (∀ front block rest, blocks = front ++ block :: rest → (∀ other ∈ front, Fits other) → ¬ Fits block →
      writer.write blocks =
        return (.error (.invalidBlock (.wrongLength block.id block.length block.payload.length)), writer)) ∧
    ((∀ block ∈ blocks, Fits block) → written.1.1 ≠ .ok () →
      writer.LeavesBehind storage.memory written.1.2 written.2.memory future) ∧
    ∀ front mid rest, past ++ .write blocks storage :: future = front ++ mid ++ rest →
      (live front start).number ≤ (live (front ++ mid) start).number ∧
      (live front start).blocksWritten = acknowledged front start := by
  intro writer written
  have hsits : start.Sits := sits_of_pair_eq_none (create_eq_ok hcreate).2
  have hnone : start.blocksWritten = 0 := by
    rw [(create_eq_ok_iff.mp hcreate).2]
  obtain ⟨hpast, hrest⟩ := hleft.split past hsits
  have hlived := lived past hsits hpast
  have hname : isShardName writer.shard = true := by
    rw [hlived.same.shard]
    exact (create_eq_ok hcreate).1
  -- A batch that is not fit is refused before the storage is asked; the rest is about one that reached it.
  refine ⟨?_, fun hfit hfails => ?_, fun front mid rest hlife => ?_⟩
  · rintro front block rest rfl hfront hblock
    have hcheck : block.check = .error (.wrongLength block.id block.length block.payload.length) := if_neg hblock
    apply write_of_checkBlocks
    rw [checkBlocks_append hfront, checkBlocks, hcheck]
  · refine leavesBehind hname hlived.sits hrest ?_ hfails
    have hcheck := checkBlocks_append hfit []
    rwa [List.append_nil] at hcheck
  · rw [hlife, List.append_assoc] at hleft
    obtain ⟨hfront, hmid⟩ := hleft.split front hsits
    have hlivedFront := lived front hsits hfront
    refine ⟨?_, by rw [hlivedFront.blocksWritten, hnone, Nat.zero_add]⟩
    rw [live_append]
    exact (lived mid hlivedFront.sits (hmid.split mid hlivedFront.sits).1).forward

/-- A writer that has written a block, and the memory it is in. -/
def beforeFailure : List Turn := [.write [oneByte 1] ⟨{}, fun _ => none⟩]

/-- The next batch fails with 40 bytes of its two entries in the index. -/
def failingStorage : Unreliable where
  memory := ((writerOfNew.write [oneByte 1]).run Unreliable.handler ⟨{}, fun _ => none⟩).2.memory
  failures := fun count => if count = 3 then some (⟨.other, ""⟩, 40) else none

/-- Then a block is written on the memory that this leaves. -/
def afterFailure : List Turn :=
  [.write [oneByte 4] ⟨(((live beforeFailure writerOfNew).write [oneByte 2, oneByte 3]).run Unreliable.handler
    failingStorage).2.memory, fun _ => none⟩]

/-- The pair that failed keeps its front and what was cut short behind it, and the next block is in the next
pair. -/
theorem failed_write_left_behind_entriesCutShort :
    let writer := live beforeFailure writerOfNew
    let written := (writer.write [oneByte 2, oneByte 3]).run Unreliable.handler failingStorage
    writer.LeavesBehind failingStorage.memory written.1.2 written.2.memory afterFailure ∧
    written.1.2.number = 1 ∧
    (written.2.memory.bytes? (writer.filesOf 0).data) = some [1, 2, 3] ∧
    (written.2.memory.bytes? (writer.filesOf 0).index).map List.length = some 76 ∧
    (live afterFailure written.1.2).number = 1 ∧ (live afterFailure written.1.2).blocksWritten = 2 := by
  intro writer written
  have hleft : NumbersLeft (beforeFailure ++ .write [oneByte 2, oneByte 3] failingStorage :: afterFailure)
      writerOfNew := ⟨by decide +kernel, by decide +kernel⟩
  have hcreate : create { base := .ofText "a", app := "app" } ⟨0, 0⟩ "w" = .ok writerOfNew := rfl
  have hfit : ∀ block ∈ [oneByte 2, oneByte 3], Fits block := by
    unfold Fits
    decide +kernel
  obtain ⟨-, hleaves, -⟩ := failed_write_left_behind hcreate beforeFailure [oneByte 2, oneByte 3] failingStorage
    afterFailure hleft
  exact ⟨hleaves hfit (by decide +kernel), by decide +kernel, by decide +kernel, by decide +kernel,
    by decide +kernel, by decide +kernel⟩

end ShardWriter

end BlockShuffle
