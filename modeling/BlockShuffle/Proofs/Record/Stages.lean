import Mathlib
import BlockShuffle.Proofs.Delivery.Accounting
import BlockShuffle.Proofs.Record.Session

/-!
# The stages of a stream of records

While a stream has not ended, what it holds is what was delivered to it and not given yet: records of one block,
and blocks behind that one (`Holding`). Each event keeps that, up to the one that ends the stream (`Ends`), and
behind that there is nothing to see any more (`Over`). So every run is of one of two shapes
(`stands_of_traces`).

The invariant is about the trace and not about the stream alone. A stream knows what it still holds, but not
what it was given from, so `Holding` has the events as a parameter: what the client delivered in them is what
was decoded and the blocks behind; what was given in them and the records in hand are the records of what was
decoded. Counters are part of it (`Counts`), so whatever the metrics promise is proved by the same induction as
what is given.

The end is kept apart because several things can bring it about and each leaves something else undone: a client
that failed, a client without a further batch, a payload that does not decode, or somebody who cancelled or
closed. `Ends` has one constructor for each of them, and `Leftover` says what they leave alone: the metrics, the
records in hand and the blocks that are held, without the one that does not decode. That one is held no more and
was not decoded either. Behind the end nothing happens, and `Over` is kept by every event for that reason alone.
-/

set_option autoImplicit false

namespace BlockShuffle

open Storage Program

namespace Reconciler

theorem checkComplete_close (state : Reconciler) : state.close.checkComplete = state.checkComplete := by
  rw [close_frame]
  rfl

end Reconciler

namespace RecordStream

variable {α σ : Type} {handler : Handler σ}

/-! ## Payloads -/

/-- The records of some payloads, up to the first that does not decode. -/
def recordsOf (codec : RecordCodec α) : List Bytes → List α
  | [] => []
  | block :: rest =>
    match codec.decodeAll block with
    | .error _ => []
    | .ok records => records ++ recordsOf codec rest

/-- What is wrong with the first of them that does not decode. -/
def faultOf (codec : RecordCodec α) : List Bytes → Option RecordFault
  | [] => none
  | block :: rest =>
    match codec.decodeAll block with
    | .error fault => some fault
    | .ok _ => faultOf codec rest

/-- How many bytes some payloads have. -/
def bytesIn (blocks : List Bytes) : Nat := (blocks.map List.length).sum

variable {codec : RecordCodec α} {front back : List Bytes}

theorem faultOf_append (h : faultOf codec front = none) : faultOf codec (front ++ back) = faultOf codec back := by
  induction front with
  | nil => rfl
  | cons block front ih =>
    rw [faultOf] at h
    rw [List.cons_append, faultOf]
    cases hblock : codec.decodeAll block with
    | error fault =>
      rw [hblock] at h
      cases h
    | ok records =>
      rw [hblock] at h
      exact ih h

theorem recordsOf_append (h : faultOf codec front = none) :
    recordsOf codec (front ++ back) = recordsOf codec front ++ recordsOf codec back := by
  induction front with
  | nil => rfl
  | cons block front ih =>
    rw [faultOf] at h
    rw [List.cons_append, recordsOf, recordsOf]
    cases hblock : codec.decodeAll block with
    | error fault =>
      rw [hblock] at h
      cases h
    | ok records =>
      rw [hblock] at h
      dsimp only
      rw [ih h, List.append_assoc]

theorem recordsOf_singleton {block : Bytes} {records : List α} (h : codec.decodeAll block = .ok records) :
    recordsOf codec [block] = records ∧ faultOf codec [block] = none := by
  rw [recordsOf, faultOf, h]
  exact ⟨List.append_nil records, rfl⟩

/-! ## A stream that has not ended -/

/-- What was decoded, and what of it is counted and given. -/
structure Counts (codec : RecordCodec α) (decoded : List Bytes) (given : List α) (stream : RecordStream α) :
    Prop where
  fault : faultOf codec decoded = none
  records : recordsOf codec decoded = given ++ stream.records
  last : recordsOf codec decoded.dropLast <+: given
  bytesRead : stream.metrics.bytesRead = UInt64.ofNat (bytesIn decoded)
  recordsRead : stream.metrics.recordsRead = UInt64.ofNat given.length

/-- An event that does not end a stream. -/
def Event.GoesOn : Event α → Prop
  | .read answer => ∃ batch, answer = .ok (some batch)
  | .gave item => ∃ record, item = some (.ok record)
  | .cancelled => True
  | .closed => False

/-- Behind these events, a stream over this client has not ended, and holds what was delivered and not given. -/
structure Holding (codec : RecordCodec α) (source : Reconciler) (trace : List (Event α))
    (stream : RecordStream α) : Prop where
  going : stream.finished = false
  codec_eq : stream.codec = codec
  placed : stream.source.reader.Placed
  spent : stream.source.Spent
  exhausted : stream.source.exhausted = true → source.exhausted = true ∧ ∀ event ∈ trace, event = .cancelled
  stopped : stream.source.isStopped = true ↔ source.isStopped = true ∨ .cancelled ∈ trace
  goesOn : ∀ event ∈ trace, event.GoesOn
  quiet : ∀ before behind, trace = before ++ .cancelled :: behind → ∀ answer, .read answer ∉ behind
  decoded : ∃ decoded, deliveredIn trace = decoded ++ stream.blocks ∧ Counts codec decoded (givenIn trace) stream

variable {source : Reconciler} {trace : List (Event α)} {stream : RecordStream α}

theorem holding_start (hp : source.reader.Placed) (hs : source.Spent) :
    Holding codec source [] (ofReconciler codec source) where
  going := rfl
  codec_eq := rfl
  placed := hp
  spent := hs
  exhausted h := ⟨h, by simp⟩
  stopped := by simp [ofReconciler]
  goesOn := by simp
  quiet := by simp
  decoded := ⟨[], rfl, rfl, rfl, List.nil_prefix, rfl, rfl⟩

/-- An event in front of which nobody cancelled, or that is no read. -/
theorem quiet_concat {event : Event α}
    (h : ∀ before behind, trace = before ++ .cancelled :: behind → ∀ answer, .read answer ∉ behind)
    (hevent : .cancelled ∈ trace → ∀ answer, event ≠ .read answer) :
    ∀ before behind, trace ++ [event] = before ++ .cancelled :: behind → ∀ answer, .read answer ∉ behind := by
  intro before behind heq answer hmem
  rcases List.eq_nil_or_concat behind with rfl | ⟨behind, last, rfl⟩
  · cases hmem
  · rw [List.concat_eq_append] at heq hmem
    rw [← List.cons_append, ← List.append_assoc] at heq
    obtain ⟨htrace, hlast⟩ := List.append_inj' heq rfl
    rw [List.mem_append, List.mem_singleton] at hmem
    rcases hmem with hmem | rfl
    · exact h before behind htrace answer hmem
    · cases hlast
      exact hevent (by rw [htrace]; simp) answer rfl

namespace Holding

theorem decode (h : Holding codec source trace stream) (hnone : stream.records = []) {block : Bytes}
    {blocks : List Bytes} (hblocks : stream.blocks = block :: blocks) {records : List α}
    (hdecode : codec.decodeAll block = .ok records) :
    Holding codec source trace
      { stream with blocks, records, metrics := stream.metrics.countBytes (UInt64.ofNat block.length) } := by
  obtain ⟨decoded, hdelivered, hcounts⟩ := h.decoded
  refine { h with decoded := ⟨decoded ++ [block], ?_, ?_⟩ }
  · rw [hdelivered, hblocks, List.append_assoc]
    rfl
  obtain ⟨hrecords, hfault⟩ := recordsOf_singleton hdecode
  have hgiven : recordsOf codec decoded = givenIn trace := by
    rw [hcounts.records, hnone, List.append_nil]
  refine ⟨?_, ?_, ?_, ?_, hcounts.recordsRead⟩
  · rw [faultOf_append hcounts.fault, hfault]
  · rw [recordsOf_append hcounts.fault, hrecords, hgiven]
  · rw [List.dropLast_concat, hgiven]
  · rw [ReadMetrics.countBytes, hcounts.bytesRead, ← UInt64.ofNat_add]
    simp [bytesIn]

/-- Of a client that was exhausted nothing was delivered. -/
theorem nothing_of_exhausted (h : Holding codec source trace stream) (hexhausted : stream.source.exhausted = true) :
    stream.records = [] ∧ stream.blocks = [] := by
  have hcancelled := (h.exhausted hexhausted).2
  obtain ⟨decoded, hdelivered, hcounts⟩ := h.decoded
  have hnothing : deliveredIn trace = [] := by
    rw [deliveredIn, List.flatMap_eq_nil_iff]
    intro event hevent
    rw [hcancelled event hevent]
  rw [hnothing] at hdelivered
  obtain ⟨rfl, hblocks⟩ := List.append_eq_nil_iff.mp hdelivered.symm
  exact ⟨(List.append_eq_nil_iff.mp hcounts.records.symm).2, hblocks⟩

/-- A record is given of those that are held. -/
theorem give (h : Holding codec source trace stream) {record : α} {records : List α}
    (hrecords : stream.records = record :: records) :
    Holding codec source (trace ++ [.gave (some (.ok record))]) (stream.give record records).2 := by
  have hgiven : givenIn [Event.gave (some (.ok record))] = [record] := rfl
  obtain ⟨decoded, hdelivered, hcounts⟩ := h.decoded
  refine { h with exhausted := ?_, stopped := ?_, goesOn := ?_, quiet := ?_, decoded := ⟨decoded, ?_, ?_⟩ }
  · intro hexhausted
    rw [(h.nothing_of_exhausted hexhausted).1] at hrecords
    cases hrecords
  · show stream.source.isStopped = true ↔ _
    rw [h.stopped]
    simp
  · rw [List.forall_mem_append, List.forall_mem_singleton]
    exact ⟨h.goesOn, record, rfl⟩
  · exact quiet_concat h.quiet fun _ _ => nofun
  · rw [deliveredIn_append, hdelivered]
    exact List.append_nil _
  · rw [givenIn_append, hgiven]
    refine ⟨hcounts.fault, ?_, hcounts.last.trans (List.prefix_append _ _), hcounts.bytesRead, ?_⟩
    · rw [hcounts.records, hrecords, List.append_assoc]
      rfl
    · show stream.metrics.recordsRead + 1 = _
      rw [hcounts.recordsRead, List.length_append, List.length_singleton, UInt64.ofNat_add]
      rfl

/-- The client was cancelled. -/
theorem cancel (h : Holding codec source trace stream) :
    Holding codec source (trace ++ [.cancelled]) stream.cancel := by
  obtain ⟨decoded, hdelivered, hcounts⟩ := h.decoded
  refine { h with exhausted := ?_, stopped := ?_, goesOn := ?_, quiet := ?_, decoded := ⟨decoded, ?_, ?_⟩ }
  · intro hexhausted
    obtain ⟨hsource, hcancelled⟩ := h.exhausted hexhausted
    refine ⟨hsource, ?_⟩
    rw [List.forall_mem_append, List.forall_mem_singleton]
    exact ⟨hcancelled, rfl⟩
  · simp [RecordStream.cancel, Reconciler.isStopped_cancel]
  · rw [List.forall_mem_append, List.forall_mem_singleton]
    exact ⟨h.goesOn, trivial⟩
  · exact quiet_concat h.quiet fun _ _ => nofun
  · rw [deliveredIn_append, hdelivered]
    exact List.append_nil _
  · rw [givenIn_append]
    exact (List.append_nil (givenIn trace)).symm ▸ ⟨hcounts.fault, hcounts.records, hcounts.last,
      hcounts.bytesRead, hcounts.recordsRead⟩

/-- The client delivered a batch. -/
theorem fetched (h : Holding codec source trace stream) {s s' : σ} {batch : Batch} {final : Reconciler}
    (hread : stream.source.read.run handler s = ((.ok (some batch), final), s')) (wait : Nat) :
    Holding codec source (trace ++ [.read (.ok (some batch))]) (stream.fetched final batch wait) := by
  obtain ⟨lost, hcall⟩ := Reconciler.call_of_read h.placed hread
  obtain ⟨decoded, hdelivered, hcounts⟩ := h.decoded
  obtain ⟨hcount, -, hforward⟩ := hcall.progress h.placed
  have hgoing := hcall.going_of_ne_none nofun
  have hnot : ¬ (source.isStopped = true ∨ .cancelled ∈ trace) := by
    rw [← h.stopped, hgoing]
    decide
  refine { h with
    placed := hcall.placed h.placed, spent := hcall.spent h.placed h.spent,
    exhausted := ?_, stopped := ?_, goesOn := ?_, quiet := ?_, decoded := ⟨decoded, ?_, ?_⟩ }
  · intro hexhausted
    have hbefore : stream.source.exhausted = true := (hcall.exhausted_eq nofun) ▸ hexhausted
    have := h.spent hbefore
    have := (hforward batch rfl).1
    omega
  · show final.isStopped = true ↔ _
    rw [hcall.settings_eq.2.2.2, hgoing]
    simpa using hnot
  · rw [List.forall_mem_append, List.forall_mem_singleton]
    exact ⟨h.goesOn, batch, rfl⟩
  · exact quiet_concat h.quiet fun hcancelled => absurd (Or.inr hcancelled) hnot
  · rw [deliveredIn_append, hdelivered, List.append_assoc]
    show decoded ++ (stream.blocks ++ ([batch].flatMap fun batch => batch.blocks.map (·.2))) = _
    rw [List.flatMap_singleton]
    rfl
  · rw [givenIn_append]
    exact (List.append_nil (givenIn trace)).symm ▸ ⟨hcounts.fault, hcounts.records, hcounts.last,
      hcounts.bytesRead, hcounts.recordsRead⟩

/-- Decoding stops at a block with records, at one that does not decode, or when there is none left. -/
theorem decodeBlocks {blocks : List Bytes} : ∀ {stream : RecordStream α}, Holding codec source trace stream →
    stream.records = [] → stream.blocks = blocks →
    match RecordStream.decodeBlocks codec stream.metrics blocks with
    | (none, rest, metrics) => rest = [] ∧ Holding codec source trace { stream with blocks := [], metrics }
    | (some (.ok (record, records)), rest, metrics) =>
      Holding codec source trace { stream with blocks := rest, metrics, records := record :: records }
    | (some (.error fault), rest, metrics) => ∃ bad, codec.decodeAll bad = .error fault ∧
      Holding codec source trace { stream with blocks := bad :: rest, metrics } := by
  -- By the blocks that are held: one without records is as good as passed.
  induction blocks with
  | nil =>
    intro stream h hrecords hblocks
    obtain ⟨codec', source', metrics, blocks, records, finished⟩ := stream
    cases hblocks
    exact ⟨rfl, h⟩
  | cons block blocks ih =>
    intro stream h hrecords hblocks
    obtain ⟨codec', source', metrics, blocks', records, finished⟩ := stream
    dsimp only at hrecords hblocks
    subst hrecords hblocks
    rw [RecordStream.decodeBlocks]
    cases hblock : codec.decodeAll block with
    | error fault => exact ⟨block, hblock, h⟩
    | ok records =>
      have hdecoded := h.decode rfl rfl hblock
      cases records with
      | nil => exact ih hdecoded rfl rfl
      | cons record records => exact hdecoded

/-- **What is held is given before the client is read again**: a record, if there is one, or the fault of the next
block, if it does not decode. -/
theorem nextHeld (h : Holding codec source trace stream) :
    (∃ mid, stream.nextHeld = (none, mid) ∧ Holding codec source trace mid ∧ mid.records = [] ∧ mid.blocks = []) ∨
    (∃ record after, stream.nextHeld = (some (some (.ok record)), after) ∧
      Holding codec source (trace ++ [.gave (some (.ok record))]) after) ∨
    (∃ fault mid bad rest, stream.nextHeld =
        (some (some (.error (.serialization fault))), RecordStream.close { mid with blocks := rest }) ∧
      Holding codec source trace mid ∧ mid.records = [] ∧ mid.blocks = bad :: rest ∧
      codec.decodeAll bad = .error fault) := by
  obtain rfl := h.codec_eq
  rw [RecordStream.nextHeld]
  cases hrecords : stream.records with
  | cons record records => exact Or.inr (Or.inl ⟨record, _, rfl, h.give hrecords⟩)
  | nil =>
    have hdecoded := h.decodeBlocks hrecords rfl
    rw [hrecords] at hdecoded
    dsimp only
    rcases hcut : RecordStream.decodeBlocks stream.codec stream.metrics stream.blocks with
      ⟨_ | fault | ⟨record, records⟩, rest, metrics⟩
    · rw [hcut] at hdecoded
      obtain ⟨rfl, hmid⟩ := hdecoded
      exact Or.inl ⟨_, rfl, hmid, rfl, rfl⟩
    · rw [hcut] at hdecoded
      obtain ⟨bad, hbad, hmid⟩ := hdecoded
      exact Or.inr (Or.inr ⟨fault, _, bad, rest, rfl, hmid, rfl, rfl, hbad⟩)
    · rw [hcut] at hdecoded
      exact Or.inr (Or.inl ⟨record, _, rfl, hdecoded.give rfl⟩)

end Holding

/-! ## The end of a stream -/

/-- What a client gives at its end: the failure of the completeness check, if it fails. -/
def lastItem (final : Reconciler) : Option (Except Error α) :=
  match final.checkComplete with
  | .ok () => none
  | .error error => some (.error error)

/-- How a stream comes to its end: the events of that, and the client behind them. -/
inductive Ends (codec : RecordCodec α) (mid : RecordStream α) : List (Event α) → Reconciler → Prop where
  | closed : Ends codec mid [.closed] mid.source
  | undecodable {bad : Bytes} {rest : List Bytes} {fault : RecordFault} (blocks : mid.blocks = bad :: rest)
      (records : mid.records = []) (decode : codec.decodeAll bad = .error fault) :
      Ends codec mid [.gave (some (.error (.serialization fault)))] mid.source
  | unread {error : Error} {final : Reconciler} (blocks : mid.blocks = []) (records : mid.records = [])
      (going : mid.source.isStopped = false) :
      Ends codec mid [.read (.error error), .gave (some (.error error))] final
  /-- The client was ended before it was at its end. -/
  | stopped (blocks : mid.blocks = []) (records : mid.records = []) (ended : mid.source.isStopped = true)
      (left : mid.source.exhausted = false) : Ends codec mid [.read (.ok none), .gave none] mid.source
  | checked {final : Reconciler} (blocks : mid.blocks = []) (records : mid.records = [])
      (cause : mid.source.isStopped = false ∨ mid.source.exhausted = true) :
      Ends codec mid [.read (.ok none), .gave (lastItem final)] final

/-- An event of a stream that has ended. -/
def Event.IsIdle : Event α → Prop
  | .gave none => True
  | .cancelled => True
  | .closed => True
  | _ => False

/-- What a stream is left with at its end: all that it held, but for the block that it ended with because it does not
decode. -/
structure Leftover (codec : RecordCodec α) (mid : RecordStream α) (ending : List (Event α))
    (after : RecordStream α) : Prop where
  metrics_eq : after.metrics = mid.metrics
  records_eq : after.records = mid.records
  blocks : after.blocks = mid.blocks ∨ ∃ bad fault, mid.blocks = bad :: after.blocks ∧
    codec.decodeAll bad = .error fault ∧ errorsIn ending = [.serialization fault]

/-- Behind these events, a stream over this client has ended, and since then nothing happened. -/
def Over (codec : RecordCodec α) (source : Reconciler) (trace : List (Event α)) (after : RecordStream α) : Prop :=
  ∃ upTo mid ending final idle, trace = upTo ++ (ending ++ idle) ∧ Holding codec source upTo mid ∧
    Ends codec mid ending final ∧ (∀ event ∈ idle, event.IsIdle) ∧ after.finished = true ∧
    Leftover codec mid ending after ∧ after.source.checkComplete = final.checkComplete

theorem Ends.over {mid after : RecordStream α} {ending : List (Event α)} {final : Reconciler}
    (hends : Ends codec mid ending final) (h : Holding codec source trace mid) (hfinished : after.finished = true)
    (hleft : Leftover codec mid ending after) (hcheck : after.source.checkComplete = final.checkComplete) :
    Over codec source (trace ++ ending) after :=
  ⟨trace, mid, ending, final, [], by rw [List.append_nil], h, hends, by simp, hfinished, hleft, hcheck⟩

theorem Over.finished {after : RecordStream α} (h : Over codec source trace after) : after.finished = true := by
  obtain ⟨_, _, _, _, _, -, -, -, -, hfinished, -⟩ := h
  exact hfinished

/-- An ended stream stays so. -/
theorem Over.concat {after after' : RecordStream α} (h : Over codec source trace after) {event : Event α}
    (hidle : event.IsIdle) (hfinished : after'.finished = true)
    (hsame : after'.metrics = after.metrics ∧ after'.records = after.records ∧ after'.blocks = after.blocks)
    (hcheck : after'.source.checkComplete = after.source.checkComplete) :
    Over codec source (trace ++ [event]) after' := by
  obtain ⟨upTo, mid, ending, final, idle, rfl, hholding, hends, hall, -, hleft, hcheck'⟩ := h
  obtain ⟨hmetrics, hrecords, hblocks⟩ := hsame
  refine ⟨upTo, mid, ending, final, idle ++ [event], by simp only [List.append_assoc], hholding, hends, ?_,
    hfinished, ⟨hmetrics.trans hleft.metrics_eq, hrecords.trans hleft.records_eq, ?_⟩, hcheck.trans hcheck'⟩
  · rw [List.forall_mem_append, List.forall_mem_singleton]
    exact ⟨hall, hidle⟩
  · rw [hblocks]
    exact hleft.blocks

theorem finish_eq (stream : RecordStream α) : stream.finish =
    ((if stream.source.exhausted = true then lastItem stream.source else none), stream.close) := rfl

/-- A stream that has nothing to give holds nothing. -/
theorem Holding.of_used {mid : RecordStream α} (h : Holding codec source trace stream) (hused : stream.Used mid) :
    Holding codec source trace mid ∧ mid.records = [] ∧ mid.blocks = [] := by
  rcases h.nextHeld with ⟨mid', heq, hmid⟩ | ⟨record, after, heq, -⟩ | ⟨fault, mid', bad, rest, heq, -⟩ <;>
    rw [hused.2] at heq <;> cases heq
  exact hmid

/-- Where the client says that it has no more, the stream ends: unchecked, if somebody ended the client early. -/
theorem Holding.over_of_none {mid : RecordStream α} (h : Holding codec source trace mid) (hrecords : mid.records = [])
    (hblocks : mid.blocks = []) {final : Reconciler} {s s' : σ}
    (hread : mid.source.read.run handler s = ((.ok none, final), s')) :
    Over codec source (trace ++ [.read (.ok none), .gave ({ mid with source := final } : RecordStream α).finish.1])
      ({ mid with source := final } : RecordStream α).finish.2 := by
  obtain ⟨lost, hcall⟩ := Reconciler.call_of_read h.placed hread
  have hcheck := Reconciler.checkComplete_close final
  rw [finish_eq]
  dsimp only
  cases hst : mid.source.isStopped with
  | false =>
    rw [if_pos (hcall.exhausted_of_none h.placed hst).1]
    exact (Ends.checked hblocks hrecords (Or.inl hst)).over h rfl ⟨rfl, rfl, Or.inl rfl⟩ hcheck
  | true =>
    obtain ⟨-, -, rfl, -⟩ := hcall.of_stopped hst
    cases hexhausted : mid.source.exhausted with
    | false =>
      rw [if_neg Bool.false_ne_true]
      exact (Ends.stopped hblocks hrecords hst hexhausted).over h rfl ⟨rfl, rfl, Or.inl rfl⟩ hcheck
    | true =>
      rw [if_pos rfl]
      exact (Ends.checked hblocks hrecords (Or.inr hexhausted)).over h rfl ⟨rfl, rfl, Or.inl rfl⟩ hcheck

/-- **One item**: the stream goes on, or ends in one of the ways it can. -/
theorem Holding.next {after : RecordStream α} {s s' : σ} {events : List (Event α)}
    (hnext : Next handler stream s events after s') : ∀ {trace}, Holding codec source trace stream →
      Holding codec source (trace ++ events) after ∨ Over codec source (trace ++ events) after := by
  induction hnext with
  | idle finished =>
    intro trace h
    rw [h.going] at finished
    cases finished
  | held going held =>
    intro trace h
    rcases h.nextHeld with ⟨mid, heq, -⟩ | ⟨record, after, heq, hafter⟩ |
      ⟨fault, mid, bad, rest, heq, hmid, hrecords, hblocks, hbad⟩ <;> rw [held] at heq <;> cases heq
    · exact Or.inl hafter
    · exact Or.inr ((Ends.undecodable hblocks hrecords hbad).over hmid rfl
        ⟨rfl, rfl, Or.inr ⟨bad, fault, hblocks, hbad, rfl⟩⟩ (Reconciler.checkComplete_close _))
  | unread used read =>
    intro trace h
    obtain ⟨h, hrecords, hblocks⟩ := h.of_used used
    obtain ⟨lost, hcall⟩ := Reconciler.call_of_read h.placed read
    have hgoing := hcall.going_of_ne_none nofun
    exact Or.inr ((Ends.unread hblocks hrecords hgoing).over h rfl ⟨rfl, rfl, Or.inl rfl⟩
      (Reconciler.checkComplete_close _))
  | ended used read =>
    intro trace h
    obtain ⟨h, hrecords, hblocks⟩ := h.of_used used
    exact Or.inr (h.over_of_none hrecords hblocks read)
  | fetched used read _ ih =>
    intro trace h
    obtain ⟨h, -, -⟩ := h.of_used used
    rw [List.append_cons]
    exact ih (h.fetched read _)

/-- **A run**: at its end the stream goes on, or is over. -/
theorem stands_of_traces {after : RecordStream α} {s s' : σ} {requests : List Request} {events : List (Event α)}
    (htraces : Traces handler stream s requests events after s') : ∀ {trace},
      (Holding codec source trace stream ∨ Over codec source trace stream) →
      Holding codec source (trace ++ events) after ∨ Over codec source (trace ++ events) after := by
  -- By the requests. `Over` is where a run stays: an ended stream has only idle events left.
  induction htraces with
  | done =>
    intro trace h
    rwa [List.append_nil]
  | next hnext _ ih =>
    intro trace h
    rw [← List.append_assoc]
    apply ih
    rcases h with h | h
    · exact h.next hnext
    · have hfinished := h.finished
      cases hnext with
      | idle _ => exact Or.inr (h.concat trivial hfinished ⟨rfl, rfl, rfl⟩ rfl)
      | held going _ =>
        rw [hfinished] at going
        cases going
      | unread used _ | ended used _ | fetched used _ _ =>
        rw [used.1] at hfinished
        cases hfinished
  | cancel _ ih =>
    intro trace h
    rw [List.append_cons]
    apply ih
    rcases h with h | h
    · exact Or.inl h.cancel
    · exact Or.inr (h.concat trivial h.finished ⟨rfl, rfl, rfl⟩ rfl)
  | close _ ih =>
    intro trace h
    rw [List.append_cons]
    apply ih
    rcases h with h | h
    · exact Or.inr (Ends.closed.over h rfl ⟨rfl, rfl, Or.inl rfl⟩ (Reconciler.checkComplete_close _))
    · exact Or.inr (h.concat trivial rfl ⟨rfl, rfl, rfl⟩ (Reconciler.checkComplete_close _))

end RecordStream

end BlockShuffle
