import Mathlib
import BlockShuffle.Proofs.Record.Stages

/-!
# The protocol of a stream of records

A stream gives records, then at most one error, then nothing for ever. Which records, and which error, depends on
how it ended: at the end of the client, at a read that failed, at a block that does not decode, because the client
was cancelled, or because the stream was closed (`Protocol`). All of that is read off the two shapes that a run
can have (`Holding.protocol`, `Over.protocol`). And each item brings the end nearer, so it is reached.

## What the metrics count

Records are counted as they are given. Bytes are counted by the block, when it is decoded, so they run ahead of the
records by what is left of one block. Which blocks these are is said without a look at the counter: all that was
delivered, without the blocks that the stream still holds, and without the one that did not decode, if it ended with
one (`HasDecoded`). There is one such list (`HasDecoded.unique`), and the counter has its bytes. A block that does not
decode adds none of its own, however much of it could be read as records.

## What is left open

The storage may answer anything here, so nothing is said of what is delivered, nor in which order; that is a matter
of the client, and is settled where deliveries are. The time that was waited is a metric too, and depends on a clock
that is part of the storage. And a client that was read to its end by somebody else before the stream was made is
taken as it is: the first request then goes straight to the check.
-/

set_option autoImplicit false

namespace BlockShuffle

open Storage Program

namespace RecordStream

variable {α σ : Type} {handler : Handler σ} {codec : RecordCodec α} {source : Reconciler}
variable {trace : List (Event α)} {stream : RecordStream α}

/-! ## What there is to see -/

/-- Something else than a record was given. -/
def Ended (trace : List (Event α)) : Prop := ∃ item, .gave item ∈ trace ∧ ∀ record, item ≠ some (.ok record)

/-- These blocks are the ones that a stream has decoded. Of what was delivered to it they are all but those that it
still holds, and but for one: a block that does not decode is held no more, and was not decoded either. -/
structure HasDecoded (codec : RecordCodec α) (trace : List (Event α)) (stream : RecordStream α)
    (decoded : List Bytes) : Prop where
  decodes : faultOf codec decoded = none
  delivered : deliveredIn trace = decoded ++ stream.blocks ∨
    ∃ bad fault, deliveredIn trace = decoded ++ bad :: stream.blocks ∧ codec.decodeAll bad = .error fault ∧
      errorsIn trace = [.serialization fault]
  records : recordsOf codec decoded = givenIn trace ++ stream.records
  /-- A block is decoded when a record of it is asked for, and not before all that stand in front of it. -/
  last : recordsOf codec decoded.dropLast <+: givenIn trace

/-- What a stream does, by what happens to it. -/
structure Protocol (codec : RecordCodec α) (source : Reconciler) (trace : List (Event α))
    (after : RecordStream α) : Prop where
  /-- Records are given, then errors, then nothing. -/
  order : ∃ count, gaveIn trace = (givenIn trace).map (fun record => some (.ok record)) ++
    (errorsIn trace).map (fun error => some (.error error)) ++ List.replicate count none
  /-- There is at most one error. -/
  once : (errorsIn trace).length ≤ 1
  /-- Records are given in the order of delivery, up to a block that does not decode. -/
  given : givenIn trace <+: recordsOf codec (deliveredIn trace)
  /-- If nothing gets in the way, all records are given, and then the completeness check has its say. -/
  whole : .closed ∉ trace → .cancelled ∉ trace → source.isStopped = false →
    (∀ error, .read (.error error) ∉ trace) → faultOf codec (deliveredIn trace) = none → Ended trace →
    givenIn trace = recordsOf codec (deliveredIn trace) ∧
      errorsIn trace = match after.source.checkComplete with
        | .ok () => []
        | .error error => [error]
  /-- A read that fails ends the stream with its error, behind all records that were delivered. -/
  unread : ∀ error, .read (.error error) ∈ trace → faultOf codec (deliveredIn trace) = none ∧
    givenIn trace = recordsOf codec (deliveredIn trace) ∧ errorsIn trace = [error]
  /-- So does a block that does not decode, behind the records in front of it. -/
  undecodable : ∀ fault, faultOf codec (deliveredIn trace) = some fault → .closed ∉ trace → Ended trace →
    givenIn trace = recordsOf codec (deliveredIn trace) ∧ errorsIn trace = [.serialization fault]
  /-- Behind a cancellation nothing more is delivered, and nothing fails to be read. What was delivered before is
  given, and then the stream ends without a check, if no block of it fails to decode. -/
  cancelled : ∀ before behind, trace = before ++ .cancelled :: behind → ¬ Ended before →
    (∃ item, .gave item ∈ before) ∨ source.exhausted = false →
    deliveredIn behind = [] ∧ (∀ error, .read (.error error) ∉ behind) ∧
      (.closed ∉ trace → Ended trace → givenIn trace = recordsOf codec (deliveredIn before) ∧
        (faultOf codec (deliveredIn before) = none → errorsIn trace = []))
  /-- Behind a closing there is nothing. -/
  closed : ∀ before behind, trace = before ++ .closed :: behind → ∀ item, .gave item ∈ behind → item = none
  recordsRead : after.metrics.recordsRead = UInt64.ofNat (givenIn trace).length
  /-- Bytes are counted of the blocks that were decoded, and of no others. -/
  bytesRead : ∃ decoded, HasDecoded codec trace after decoded ∧
    after.metrics.bytesRead = UInt64.ofNat (bytesIn decoded)

/-- **Which blocks were decoded is no matter of choice**: there is one list of them. -/
theorem HasDecoded.unique {decoded decoded' : List Bytes} (h : HasDecoded codec trace stream decoded)
    (h' : HasDecoded codec trace stream decoded') : decoded = decoded' := by
  -- A block that does not decode cannot be left out of the one list and be the last of the other.
  have hnot : ∀ {front back : List Bytes} {bad : Bytes} {fault : RecordFault}, faultOf codec front = none →
      faultOf codec back = none → codec.decodeAll bad = .error fault →
      front ++ stream.blocks ≠ back ++ bad :: stream.blocks := by
    intro front back bad fault hfront hback hbad heq
    rw [List.append_cons, List.append_cancel_right_eq] at heq
    rw [heq, faultOf_append hback, faultOf, hbad] at hfront
    cases hfront
  rcases h.delivered with heq | ⟨bad, fault, heq, hbad, -⟩ <;>
    rcases h'.delivered with heq' | ⟨bad', fault', heq', hbad', -⟩ <;> rw [heq] at heq'
  · exact List.append_cancel_right heq'
  · exact absurd heq' (hnot h.decodes h'.decodes hbad')
  · exact absurd heq'.symm (hnot h'.decodes h.decodes hbad)
  · exact (List.append_inj' heq' rfl).1

theorem facts_of_goesOn (h : ∀ event ∈ trace, event.GoesOn) :
    gaveIn trace = (givenIn trace).map (fun record => some (.ok record)) ∧ errorsIn trace = [] ∧ ¬ Ended trace ∧
      .closed ∉ trace ∧ ∀ error, .read (.error error) ∉ trace := by
  refine ⟨?_, ?_, ?_, fun hclosed => h _ hclosed, ?_⟩
  · induction trace with
    | nil => rfl
    | cons event trace ih =>
      rw [List.forall_mem_cons] at h
      cases event with
      | gave item =>
        obtain ⟨record, rfl⟩ := h.1
        exact congrArg (some (.ok record) :: ·) (ih h.2)
      | read _ | cancelled => exact ih h.2
      | closed => exact h.1.elim
  · rw [errorsIn, List.filterMap_eq_nil_iff]
    intro event hevent
    have hgoesOn := h event hevent
    cases event with
    | gave item =>
      obtain ⟨record, rfl⟩ := hgoesOn
      rfl
    | _ => rfl
  · rintro ⟨item, hitem, hother⟩
    obtain ⟨record, rfl⟩ := h _ hitem
    exact hother record rfl
  · intro error herror
    obtain ⟨batch, hbatch⟩ := h _ herror
    cases hbatch

theorem facts_of_isIdle (h : ∀ event ∈ trace, event.IsIdle) :
    (∃ count, gaveIn trace = List.replicate count none) ∧ givenIn trace = [] ∧ errorsIn trace = [] ∧
      deliveredIn trace = [] ∧ ∀ answer, .read answer ∉ trace := by
  induction trace with
  | nil => exact ⟨⟨0, rfl⟩, rfl, rfl, rfl, by simp⟩
  | cons event trace ih =>
    rw [List.forall_mem_cons] at h
    obtain ⟨⟨count, hgave⟩, hgiven, herrors, hdelivered, hread⟩ := ih h.2
    cases event with
    | gave item =>
      cases item with
      | some item => exact h.1.elim
      | none =>
        exact ⟨⟨count + 1, congrArg (none :: ·) hgave⟩, hgiven, herrors, hdelivered, by simp [hread]⟩
    | read answer => exact h.1.elim
    | cancelled | closed => exact ⟨⟨count, hgave⟩, hgiven, herrors, hdelivered, by simp [hread]⟩

theorem facts_of_ends {mid : RecordStream α} {ending : List (Event α)} {final : Reconciler}
    (h : Ends codec mid ending final) :
    (∃ count, gaveIn ending = (errorsIn ending).map (fun error => some (.error error)) ++
      List.replicate count none) ∧ (errorsIn ending).length ≤ 1 ∧ givenIn ending = [] ∧
      deliveredIn ending = [] ∧ .cancelled ∉ ending := by
  cases h with
  | closed => exact ⟨⟨0, rfl⟩, Nat.zero_le 1, rfl, rfl, by simp⟩
  | undecodable _ _ _ | unread _ _ _ => exact ⟨⟨0, rfl⟩, Nat.le_refl 1, rfl, rfl, by simp⟩
  | stopped _ _ _ _ => exact ⟨⟨1, rfl⟩, Nat.zero_le 1, rfl, rfl, by simp⟩
  | checked _ _ _ =>
    rw [lastItem]
    cases final.checkComplete with
    | ok => exact ⟨⟨1, rfl⟩, Nat.zero_le 1, rfl, rfl, by simp⟩
    | error error => exact ⟨⟨0, rfl⟩, Nat.le_refl 1, rfl, rfl, by simp⟩

theorem deliveredIn_of_no_read (h : ∀ answer, .read answer ∉ trace) : deliveredIn trace = [] := by
  rw [deliveredIn, List.flatMap_eq_nil_iff]
  intro event hevent
  cases event with
  | read answer => exact absurd hevent (h answer)
  | _ => rfl

namespace Holding

/-- Of what is delivered, the records that are given are first. -/
theorem given_prefix (h : Holding codec source trace stream) :
    givenIn trace <+: recordsOf codec (deliveredIn trace) := by
  obtain ⟨decoded, hdelivered, hcounts⟩ := h.decoded
  rw [hdelivered, recordsOf_append hcounts.fault, hcounts.records, List.append_assoc]
  exact List.prefix_append _ _

/-- A stream that holds nothing has given everything. -/
theorem given_eq (h : Holding codec source trace stream) (hblocks : stream.blocks = [])
    (hrecords : stream.records = []) : givenIn trace = recordsOf codec (deliveredIn trace) ∧
      faultOf codec (deliveredIn trace) = none := by
  obtain ⟨decoded, hdelivered, hcounts⟩ := h.decoded
  rw [hblocks, List.append_nil] at hdelivered
  rw [hdelivered, hcounts.records, hrecords, List.append_nil]
  exact ⟨rfl, hcounts.fault⟩

/-- A stream whose next block does not decode has given everything in front of it. -/
theorem given_eq_of_fault (h : Holding codec source trace stream) {bad : Bytes} {rest : List Bytes}
    (hblocks : stream.blocks = bad :: rest) (hrecords : stream.records = []) {fault : RecordFault}
    (hbad : codec.decodeAll bad = .error fault) : givenIn trace = recordsOf codec (deliveredIn trace) ∧
      faultOf codec (deliveredIn trace) = some fault := by
  obtain ⟨decoded, hdelivered, hcounts⟩ := h.decoded
  have hnext : recordsOf codec (bad :: rest) = [] ∧ faultOf codec (bad :: rest) = some fault := by
    rw [recordsOf, faultOf, hbad]
    exact ⟨rfl, rfl⟩
  rw [hdelivered, hblocks, recordsOf_append hcounts.fault, faultOf_append hcounts.fault, hnext.1, hnext.2,
    List.append_nil, hcounts.records, hrecords, List.append_nil]
  exact ⟨rfl, rfl⟩

theorem protocol (h : Holding codec source trace stream) : Protocol codec source trace stream := by
  obtain ⟨hgave, herrors, hgoing, hclosed, hread⟩ := facts_of_goesOn h.goesOn
  obtain ⟨decoded, hdelivered, hcounts⟩ := h.decoded
  constructor
  · exact ⟨0, by rw [hgave, herrors]; simp⟩
  · simp [herrors]
  · exact h.given_prefix
  · exact fun _ _ _ _ _ hended => absurd hended hgoing
  · exact fun error herror => absurd herror (hread error)
  · exact fun _ _ _ hended => absurd hended hgoing
  · intro before behind heq _ _
    have hquiet := h.quiet before behind heq
    exact ⟨deliveredIn_of_no_read hquiet, fun error => hquiet _, fun _ hended => absurd hended hgoing⟩
  · intro before behind heq
    exact absurd (by simp [heq]) hclosed
  · exact hcounts.recordsRead
  · exact ⟨decoded, ⟨hcounts.fault, Or.inl hdelivered, hcounts.records, hcounts.last⟩, hcounts.bytesRead⟩

end Holding

namespace Ends

variable {upTo ending : List (Event α)} {mid : RecordStream α} {final : Reconciler}

theorem whole (hends : Ends codec mid ending final) (h : Holding codec source upTo mid)
    (hclosed : .closed ∉ ending) (hgoing : mid.source.isStopped = false)
    (hread : ∀ error, .read (.error error) ∉ ending) (hfault : faultOf codec (deliveredIn upTo) = none) :
    givenIn upTo = recordsOf codec (deliveredIn upTo) ∧
      errorsIn ending = match final.checkComplete with
        | .ok () => []
        | .error error => [error] := by
  cases hends with
  | closed => simp at hclosed
  | undecodable blocks records decode =>
    rw [(h.given_eq_of_fault blocks records decode).2] at hfault
    cases hfault
  | @unread error _ blocks records _ => exact absurd (by simp) (hread error)
  | stopped blocks records ended _ =>
    rw [hgoing] at ended
    cases ended
  | checked blocks records _ =>
    refine ⟨(h.given_eq blocks records).1, ?_⟩
    rw [lastItem]
    cases final.checkComplete <;> rfl

theorem of_unread (hends : Ends codec mid ending final) (h : Holding codec source upTo mid) {error : Error}
    (hread : .read (.error error) ∈ ending) : faultOf codec (deliveredIn upTo) = none ∧
      givenIn upTo = recordsOf codec (deliveredIn upTo) ∧ errorsIn ending = [error] := by
  cases hends with
  | closed | undecodable _ _ _ | stopped _ _ _ _ | checked _ _ _ => simp at hread
  | unread blocks records _ =>
    obtain ⟨hgiven, hfault⟩ := h.given_eq blocks records
    simp only [List.mem_cons, Event.read.injEq, Except.error.injEq, reduceCtorEq, List.not_mem_nil, or_false]
      at hread
    subst hread
    exact ⟨hfault, hgiven, rfl⟩

theorem of_fault (hends : Ends codec mid ending final) (h : Holding codec source upTo mid)
    (hclosed : .closed ∉ ending) {fault : RecordFault} (hfault : faultOf codec (deliveredIn upTo) = some fault) :
    givenIn upTo = recordsOf codec (deliveredIn upTo) ∧ errorsIn ending = [.serialization fault] := by
  cases hends with
  | closed => simp at hclosed
  | undecodable blocks records decode =>
    obtain ⟨hgiven, hfault'⟩ := h.given_eq_of_fault blocks records decode
    rw [hfault] at hfault'
    cases hfault'
    exact ⟨hgiven, rfl⟩
  | unread blocks records _ | stopped blocks records _ _ | checked blocks records _ =>
    rw [(h.given_eq blocks records).2] at hfault
    cases hfault

theorem of_cancelled (hends : Ends codec mid ending final) (h : Holding codec source upTo mid)
    (hstopped : mid.source.isStopped = true) (hleft : mid.source.exhausted = false) :
    (∀ error, .read (.error error) ∉ ending) ∧
      (.closed ∉ ending → givenIn upTo = recordsOf codec (deliveredIn upTo) ∧
        (faultOf codec (deliveredIn upTo) = none → errorsIn ending = [])) := by
  cases hends with
  | closed => simp
  | undecodable blocks records decode =>
    obtain ⟨hgiven, hfault⟩ := h.given_eq_of_fault blocks records decode
    refine ⟨by simp, fun _ => ⟨hgiven, fun hnone => ?_⟩⟩
    rw [hfault] at hnone
    cases hnone
  | unread _ _ going =>
    rw [hstopped] at going
    cases going
  | stopped blocks records _ _ =>
    exact ⟨by simp, fun _ => ⟨(h.given_eq blocks records).1, fun _ => rfl⟩⟩
  | checked _ _ cause =>
    rw [hstopped, hleft] at cause
    simp at cause

/-- What ends a stream is its closing, or can be seen by what is given. -/
theorem ended (hends : Ends codec mid ending final) : .closed ∈ ending ∨ Ended ending := by
  cases hends with
  | closed => exact Or.inl (by simp)
  | undecodable _ _ _ => exact Or.inr ⟨_, List.mem_cons_self, nofun⟩
  | unread _ _ _ | stopped _ _ _ _ => exact Or.inr ⟨_, List.mem_cons_of_mem _ List.mem_cons_self, nofun⟩
  | checked _ _ _ =>
    refine Or.inr ⟨_, List.mem_cons_of_mem _ List.mem_cons_self, ?_⟩
    rw [lastItem]
    cases final.checkComplete <;> exact nofun

end Ends

/-- An element that is not in the middle of three parts is in the first or in the last. -/
theorem split_of_not_mem {β : Type} {x : β} {first mid last before behind : List β} (hx : x ∉ mid)
    (h : first ++ (mid ++ last) = before ++ x :: behind) :
    (∃ rest, first = before ++ x :: rest ∧ behind = rest ++ (mid ++ last)) ∨
    (∃ rest, before = first ++ (mid ++ rest) ∧ last = rest ++ x :: behind) := by
  have hhead : ∀ {part rest : List β}, x :: behind = part ++ rest → x ∉ part → part = [] := by
    intro part rest heq hnot
    cases part with
    | nil => rfl
    | cons y part =>
      rw [List.cons_append, List.cons.injEq] at heq
      exact absurd (heq.1 ▸ List.mem_cons_self) hnot
  rcases List.append_eq_append_iff.mp h with ⟨more, rfl, hmore⟩ | ⟨more, rfl, hmore⟩
  · rcases List.append_eq_append_iff.mp hmore with ⟨rest, rfl, rfl⟩ | ⟨rest, rfl, hrest⟩
    · exact Or.inr ⟨rest, rfl, rfl⟩
    · obtain rfl := hhead hrest fun hmem => hx (List.mem_append_right _ hmem)
      exact Or.inr ⟨[], by simp, hrest.symm⟩
  · cases more with
    | nil =>
      rw [List.nil_append] at hmore
      obtain rfl := hhead hmore hx
      exact Or.inr ⟨[], by simp, hmore.symm⟩
    | cons y more =>
      rw [List.cons_append, List.cons.injEq] at hmore
      obtain ⟨rfl, rfl⟩ := hmore
      exact Or.inl ⟨more, rfl, rfl⟩

section Over

variable {upTo ending idle before behind : List (Event α)} {mid : RecordStream α} {final : Reconciler}

/-- A cancellation of a stream that ends later is in front of its end, or the stream was closed before it. -/
theorem cancelled_of_ends (h : Holding codec source upTo mid) (hends : Ends codec mid ending final)
    (hidle : ∀ event ∈ idle, event.IsIdle) (heq : upTo ++ (ending ++ idle) = before ++ .cancelled :: behind)
    (hbefore : ¬ Ended before) (hsource : (∃ item, .gave item ∈ before) ∨ source.exhausted = false) :
    deliveredIn behind = [] ∧ (∀ error, .read (.error error) ∉ behind) ∧
      (.closed ∉ ending → givenIn upTo = recordsOf codec (deliveredIn before) ∧
        (faultOf codec (deliveredIn before) = none → errorsIn ending = [])) := by
  obtain ⟨-, -, -, hdeliveredEnding, hcancelled⟩ := facts_of_ends hends
  obtain ⟨-, -, -, hdeliveredIdle, hreadIdle⟩ := facts_of_isIdle hidle
  rcases split_of_not_mem hcancelled heq with ⟨rest, rfl, rfl⟩ | ⟨rest, rfl, rfl⟩
  · have hstopped : mid.source.isStopped = true := h.stopped.mpr (Or.inr (by simp))
    have hleft : mid.source.exhausted = false := by
      by_contra hexhausted
      obtain ⟨hsource', hall⟩ := h.exhausted (by simpa using hexhausted)
      rcases hsource with ⟨item, hitem⟩ | hsource
      · cases hall (.gave item) (by simp [hitem])
      · rw [hsource] at hsource'
        cases hsource'
    obtain ⟨hread, hrest⟩ := hends.of_cancelled h hstopped hleft
    have hquiet := h.quiet before rest rfl
    have hdelivered : deliveredIn (before ++ .cancelled :: rest) = deliveredIn before := by
      rw [deliveredIn_append]
      show deliveredIn before ++ deliveredIn rest = _
      rw [deliveredIn_of_no_read hquiet, List.append_nil]
    rw [hdelivered] at hrest
    refine ⟨?_, fun error hmem => ?_, hrest⟩
    · rw [deliveredIn_append, deliveredIn_append, deliveredIn_of_no_read hquiet, hdeliveredEnding, hdeliveredIdle]
      rfl
    · simp [hquiet, hread, hreadIdle] at hmem
  · -- Behind the end nothing is delivered, and what ended the stream was its closing.
    have hquiet : ∀ answer, .read answer ∉ behind := fun answer hmem => hreadIdle answer (by simp [hmem])
    refine ⟨deliveredIn_of_no_read hquiet, fun error => hquiet _, fun hclosed => ?_⟩
    rcases hends.ended with hclosing | ⟨item, hitem, hother⟩
    · exact absurd hclosing hclosed
    · exact absurd ⟨item, by simp [hitem], hother⟩ hbefore

/-- A closing is the end of the stream, or behind it. -/
theorem closed_of_ends (h : Holding codec source upTo mid) (hends : Ends codec mid ending final)
    (heq : upTo ++ (ending ++ idle) = before ++ .closed :: behind) : ∀ event ∈ behind, event ∈ idle := by
  -- In front of an event that is not in the first part there is that part.
  have hskip : ∀ {first last before : List (Event α)}, .closed ∉ first →
      first ++ last = before ++ .closed :: behind → ∃ rest, last = rest ++ .closed :: behind := by
    intro first last before hnot heq
    rcases split_of_not_mem hnot ((List.nil_append _).trans heq) with ⟨rest, hrest, -⟩ | ⟨rest, -, hrest⟩
    · simp at hrest
    · exact ⟨rest, hrest⟩
  obtain ⟨rest, hrest⟩ := hskip (fun hmem => h.goesOn _ hmem) heq
  intro event hevent
  cases hends with
  | closed =>
    rcases List.cons_eq_append_iff.mp hrest with ⟨-, hbehind⟩ | ⟨rest, -, hbehind⟩
    · cases hbehind
      exact hevent
    · have hidle : idle = rest ++ .closed :: behind := hbehind
      simp [hidle, hevent]
  | undecodable _ _ _ | unread _ _ _ | stopped _ _ _ _ | checked _ _ _ =>
    obtain ⟨rest, hidle⟩ := hskip (by simp) hrest
    simp [hidle, hevent]

end Over

theorem Over.protocol {after : RecordStream α} (h : Over codec source trace after) :
    Protocol codec source trace after := by
  obtain ⟨upTo, mid, ending, final, idle, rfl, h, hends, hidle, -, hleft, hcheck⟩ := h
  obtain ⟨⟨count, hgaveIdle⟩, hgivenIdle, herrorsIdle, hdeliveredIdle, hreadIdle⟩ := facts_of_isIdle hidle
  obtain ⟨⟨count', hgaveEnding⟩, honce, hgivenEnding, hdeliveredEnding, -⟩ := facts_of_ends hends
  obtain ⟨hgave, herrors, -, hclosed, hread⟩ := facts_of_goesOn h.goesOn
  obtain ⟨decoded, hdelivered, hcounts⟩ := h.decoded
  have hgivenIn : givenIn (upTo ++ (ending ++ idle)) = givenIn upTo := by
    simp [hgivenIdle, hgivenEnding]
  have herrorsIn : errorsIn (upTo ++ (ending ++ idle)) = errorsIn ending := by
    simp [herrorsIdle, herrors]
  have hdeliveredIn : deliveredIn (upTo ++ (ending ++ idle)) = deliveredIn upTo := by
    simp [hdeliveredIdle, hdeliveredEnding]
  -- What is given is given before the end, errors only at it, and behind it comes nothing.
  constructor
  · refine ⟨count' + count, ?_⟩
    rw [hgivenIn, herrorsIn, gaveIn_append, gaveIn_append, hgave, hgaveEnding, hgaveIdle]
    simp [List.append_assoc]
  · rw [herrorsIn]
    exact honce
  · rw [hgivenIn, hdeliveredIn]
    exact h.given_prefix
  · intro hclosed hcancelled hsource hread hfault _
    rw [hgivenIn, hdeliveredIn, herrorsIn, hcheck]
    rw [hdeliveredIn] at hfault
    have hgoing : mid.source.isStopped = false := by
      rw [← Bool.not_eq_true, h.stopped, hsource]
      simp_all
    exact hends.whole h (by simp_all) hgoing (fun error hmem => hread error (by simp [hmem])) hfault
  · intro error herror
    rw [hgivenIn, hdeliveredIn, herrorsIn]
    refine hends.of_unread h ?_
    simpa [hread error, hreadIdle] using herror
  · intro fault hfault hclosed _
    rw [hgivenIn, hdeliveredIn, herrorsIn]
    rw [hdeliveredIn] at hfault
    exact hends.of_fault h (by simp_all) hfault
  · intro before behind heq hbefore hsource
    obtain ⟨hbehind, hreads, hrest⟩ := cancelled_of_ends h hends hidle heq hbefore hsource
    rw [hgivenIn, herrorsIn]
    exact ⟨hbehind, hreads, fun hclosed _ => hrest fun hmem => hclosed (by simp [hmem])⟩
  · intro before behind heq item hitem
    have hidleItem := hidle _ (closed_of_ends h hends heq _ hitem)
    cases item with
    | none => rfl
    | some item => exact hidleItem.elim
  · rw [hgivenIn, hleft.metrics_eq]
    exact hcounts.recordsRead
  · rw [hleft.metrics_eq]
    refine ⟨decoded, ⟨hcounts.fault, ?_, ?_, ?_⟩, hcounts.bytesRead⟩
    · rw [hdeliveredIn, herrorsIn, hdelivered]
      rcases hleft.blocks with hsame | ⟨bad, fault, hblocks, hbad, herror⟩
      · exact Or.inl (by rw [hsame])
      · exact Or.inr ⟨bad, fault, by rw [hblocks], hbad, herror⟩
    · rw [hgivenIn, hleft.records_eq]
      exact hcounts.records
    · rw [hgivenIn]
      exact hcounts.last

/-! ## The end is reached -/

/-- What a stream has in front of it: reads of the client, and records that it holds. -/
def ahead (stream : RecordStream α) : Nat × Nat :=
  (stream.source.reader.readCount - stream.source.nextRead,
    stream.records.length + (recordsOf stream.codec stream.blocks).length)

theorem recordsOf_decodeBlocks {blocks rest : List Bytes} {record : α} {records : List α} :
    ∀ {metrics metrics' : ReadMetrics},
      decodeBlocks codec metrics blocks = (some (.ok (record, records)), rest, metrics') →
      recordsOf codec blocks = record :: records ++ recordsOf codec rest := by
  induction blocks with
  | nil =>
    intro metrics metrics' h
    cases h
  | cons block blocks ih =>
    intro metrics metrics' h
    rw [decodeBlocks] at h
    rw [recordsOf]
    cases hblock : codec.decodeAll block with
    | error fault =>
      rw [hblock] at h
      cases h
    | ok found =>
      rw [hblock] at h
      cases found with
      | nil => exact ih h
      | cons first others =>
        cases h
        rfl

/-- What is given is one record less to give. -/
theorem ahead_of_nextHeld {stream after : RecordStream α} {item : Option (Except Error α)}
    (h : stream.nextHeld = (some item, after)) :
    after.finished = true ∨ Prod.Lex (· < ·) (· < ·) after.ahead stream.ahead := by
  rw [nextHeld] at h
  cases hrecords : stream.records with
  | cons record records =>
    rw [hrecords] at h
    cases h
    refine Or.inr (Prod.Lex.right _ ?_)
    rw [hrecords, List.length_cons]
    exact Nat.add_lt_add_right (Nat.lt_succ_self _) _
  | nil =>
    rw [hrecords] at h
    dsimp only at h
    rcases hcut : decodeBlocks stream.codec stream.metrics stream.blocks with
      ⟨_ | fault | ⟨record, records⟩, rest, metrics⟩
    · rw [hcut] at h
      cases h
    · rw [hcut] at h
      cases h
      exact Or.inl rfl
    · rw [hcut] at h
      cases h
      refine Or.inr (Prod.Lex.right _ ?_)
      rw [hrecords, recordsOf_decodeBlocks hcut, List.length_append, List.length_cons]
      show records.length + (recordsOf stream.codec rest).length <
        0 + (records.length + 1 + (recordsOf stream.codec rest).length)
      omega

/-- **Each item brings the end nearer.** -/
theorem Next.ahead_lt {after : RecordStream α} {s s' : σ} {events : List (Event α)}
    (h : Next handler stream s events after s') (hp : stream.source.reader.Placed) :
    after.finished = true ∨ Prod.Lex (· < ·) (· < ·) after.ahead stream.ahead := by
  induction h with
  | idle finished => exact Or.inl finished
  | held _ held => exact ahead_of_nextHeld held
  | unread _ _ | ended _ _ => exact Or.inl rfl
  | @fetched stream mid after s s' s'' batch source events used read rest ih =>
    have hsource := source_nextHeld used.2
    obtain ⟨lost, hcall⟩ := Reconciler.call_of_read (hsource ▸ hp) read
    obtain ⟨hcount, -, hforward⟩ := hcall.progress (hsource ▸ hp)
    obtain ⟨hwithin, hnext⟩ := hforward _ rfl
    rw [hsource] at hcount hwithin hnext
    rcases ih (hcall.placed (hsource ▸ hp)) with hfinished | hlt
    · exact Or.inl hfinished
    · refine Or.inr (Prod.Lex.trans hlt (Prod.Lex.left _ _ ?_))
      show source.reader.readCount - source.nextRead < stream.source.reader.readCount - stream.source.nextRead
      omega

theorem exists_none_of_finished {stream : RecordStream α} (h : stream.finished = true) (s : σ) :
    none ∈ ((serve [.next] stream).run handler s).1.1 := by
  rw [serve, next, nextFrom.eq_def]
  dsimp only
  rw [if_pos h]
  exact List.mem_singleton_self none

/-- A stream that is asked often enough is at its end. -/
theorem exists_none (stream : RecordStream α) : ∀ s : σ, stream.source.reader.Placed →
    ∃ count, none ∈ ((serve (List.replicate count .next) stream).run handler s).1.1 := by
  have hwf : WellFounded (Prod.Lex (α := Nat) (β := Nat) (· < ·) (· < ·)) := IsWellFounded.wf
  -- By what is ahead: reads to make, and in front of them records to give.
  induction stream using (InvImage.wf ahead hwf).induction with
  | _ stream ih =>
    intro s hp
    rcases hrun : stream.next.run handler s with ⟨⟨item, after⟩, s'⟩
    obtain ⟨events, hnext, -⟩ := next_of_run hp hrun
    have hrest : ∃ count, none ∈ ((serve (List.replicate count .next) after).run handler s').1.1 := by
      rcases hnext.ahead_lt hp with hfinished | hlt
      · exact ⟨1, exists_none_of_finished hfinished s'⟩
      · exact ih after hlt s' (hnext.placed hp)
    obtain ⟨count, hnone⟩ := hrest
    refine ⟨count + 1, ?_⟩
    rw [List.replicate_succ, serve, run_bind, hrun]
    dsimp only
    rw [run_bind]
    exact List.mem_cons_of_mem item hnone

/-! ## Every stream -/

/-- **The protocol of every stream of records.** Take a storage that may answer anything, and a client that was
opened, and used, cancelled or closed in any way since. Make a stream of it and ask for items, and cancel or close
in between. Then what happens is as in `Protocol`, and asked often enough the stream comes to its end.

A client that was read to its end before, and is cancelled before the first item is asked for, is still checked; so
a cancellation is only said to go without a check behind the first item, or if the client was not exhausted. -/
theorem stream_protocol (handler : Handler σ) (s : σ) (shards : List ShardReader) (expected tasks : IdSet)
    (checksum : Checksum) (before : List Reconciler.Request) (codec : RecordCodec α) (requests : List Request) :
    let client := (Reconciler.serve before (Reconciler.fresh shards expected tasks checksum)).run handler s
    let stream := ofReconciler codec client.1.2
    let run := (serve requests stream).run handler client.2
    (∃ trace, Traces handler stream client.2 requests trace run.1.2 run.2 ∧ gaveIn trace = run.1.1 ∧
      Protocol codec client.1.2 trace run.1.2) ∧
    ∃ count, none ∈ ((serve (List.replicate count .next) run.1.2).run handler run.2).1.1 := by
  intro client stream run
  have hfresh := Reconciler.placed_fresh shards expected tasks checksum
  obtain ⟨losses, hsession⟩ := Reconciler.session_of_serve hfresh
    (rfl : (Reconciler.serve before _).run handler s = ((client.1.1, client.1.2), client.2))
  have hplaced : client.1.2.reader.Placed := hsession.placed hfresh
  have hspent : client.1.2.Spent := hsession.spent hfresh nofun
  obtain ⟨trace, htraces, hgave⟩ := traces_of_serve hplaced
    (rfl : (serve requests stream).run handler client.2 = ((run.1.1, run.1.2), run.2))
  refine ⟨⟨trace, htraces, hgave, ?_⟩, exists_none _ _ (htraces.placed hplaced)⟩
  rcases stands_of_traces htraces (Or.inl (holding_start hplaced hspent)) with h | h
  · exact h.protocol
  · exact h.protocol

/-! ## A block that does not decode -/

/-- Numbers of two bytes. -/
def numbers : RecordCodec UInt16 := { toCodec := .u16, least_pos := by decide }

/-- Three blocks: a number, a number with half of another behind it, and a number. -/
def threePayloads : List Bytes := [[1, 0], [2, 0, 3], [4, 0]]

/-- The entry of a block with this payload. -/
def entryOf (id : UInt64) (offset : UInt64) (payload : Bytes) : IndexEntry :=
  ⟨UInt32.ofNat payload.length, UInt32.ofNat payload.length, crc32 payload, ⟨id⟩, 0, offset⟩

def threeBlocks : Memory :=
  (Memory.mk []).insert (.ofText "m/a/0/0-0/w_0.data") ⟨.ofBytes threePayloads.flatten, by decide⟩

/-- One read has all three. -/
def threeBlocksShard : ShardReader where
  files := ⟨"w", 0, .ofText "m/a/0/0-0/w_0.data", .ofText "m/a/0/0-0/w_0.index"⟩
  retryPolicy := .fixed 0 0
  reads := #[.ofBatch (entryOf 0 0 [1, 0]) [entryOf 1 2 [2, 0, 3], entryOf 2 5 [4, 0]]]
  blockCount := 3

def threeBlocksClient : Reconciler := .fresh [threeBlocksShard] {0, 1, 2} {0} crc32

/-- The first block is given and counted, with its two bytes. The second ends the stream: not even the number that it
starts with is given, and none of its three bytes counts. The third is not looked at any more. -/
theorem stream_protocol_undecodable :
    let stream := ofReconciler numbers threeBlocksClient
    let run := (serve [.next, .next, .next] stream).run Memory.handler threeBlocks
    run.1.1 = [some (.ok 1), some (.error (.serialization .endOfInput)), none] ∧
      run.1.2.metrics.recordsRead = 1 ∧ run.1.2.metrics.bytesRead = 2 ∧ run.1.2.blocks = [[4, 0]] ∧
      ∃ trace, Traces Memory.handler stream threeBlocks [.next, .next, .next] trace run.1.2 run.2 ∧
        gaveIn trace = run.1.1 ∧ Protocol numbers threeBlocksClient trace run.1.2 := by
  intro stream run
  obtain ⟨⟨trace, htraces, hgave, hprotocol⟩, -⟩ := stream_protocol Memory.handler threeBlocks [threeBlocksShard]
    {0, 1, 2} {0} crc32 [] numbers [.next, .next, .next]
  have hrun : run.1.1 = [some (.ok 1), some (.error (.serialization .endOfInput)), none] ∧
      run.1.2.metrics.recordsRead = 1 ∧ run.1.2.metrics.bytesRead = 2 ∧ run.1.2.blocks = [[4, 0]] := by
    decide +kernel
  obtain ⟨hitems, hrecords, hbytes, hblocks⟩ := hrun
  exact ⟨hitems, hrecords, hbytes, hblocks, trace, htraces, hgave, hprotocol⟩

end RecordStream

end BlockShuffle
