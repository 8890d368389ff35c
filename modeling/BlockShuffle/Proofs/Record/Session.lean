import Mathlib
import BlockShuffle.Record.Stream
import BlockShuffle.Proofs.Delivery.Calls

/-!
# What happens to a stream of records

The owner of a stream asks for the next item, cancels the client below it, or closes it, in any order. `Event` is
what there is to see of that: the client was read and answered, an item was given, the client was cancelled, the
stream was closed. `Traces` says which events a run goes through, in order, against a storage that may answer
anything; `traces_of_serve` says that every run goes through some.

`nextFrom` gets by on a number of batches that may be needed. `Next` does not mention it: each batch that is read
is one of the reads that there are, so the number does not run out (`next_of_nextFrom`).

There are two descriptions of a run. One is the program with its storage; the other is the list of events, which
is what the statements about streams are made of. `Traces` connects them and keeps the states between the
events, so that an invariant can be carried from one to the next. Nothing is lost by it: the items that the
program answers are those that were given in the trace.

What the client does between two events is not described, only what it answered. Waiting is an event's side
effect: the clock is part of the storage, and how much was waited is whatever it says.
-/

set_option autoImplicit false

namespace BlockShuffle

open Storage Program

namespace RecordStream

variable {α σ : Type} {handler : Handler σ}

/-! ## Requests -/

/-- Ask the client of a stream to stop. -/
def cancel (stream : RecordStream α) : RecordStream α := { stream with source := stream.source.cancel }

/-- What the owner of a stream can ask for. -/
inductive Request where
  | next
  | cancel
  | close
deriving DecidableEq, Repr

/-- Serve requests in order, and list the items given. -/
def serve : List Request → RecordStream α → Program (List (Option (Except Error α)) × RecordStream α)
  | [], stream => return ([], stream)
  | .next :: rest, stream => do
    let (item, stream) ← stream.next
    let (items, stream) ← serve rest stream
    return (item :: items, stream)
  | .cancel :: rest, stream => serve rest stream.cancel
  | .close :: rest, stream => serve rest stream.close

/-! ## Events -/

inductive Event (α : Type) where
  /-- The client was read, with this answer. -/
  | read (answer : Reconciler.Answer)
  | gave (item : Option (Except Error α))
  | cancelled
  | closed

variable {trace more : List (Event α)}

/-- The items that were given. -/
def gaveIn (trace : List (Event α)) : List (Option (Except Error α)) :=
  trace.filterMap fun
    | .gave item => some item
    | _ => none

/-- The records that were given. -/
def givenIn (trace : List (Event α)) : List α :=
  trace.filterMap fun
    | .gave (some (.ok record)) => some record
    | _ => none

/-- The errors that were given. -/
def errorsIn (trace : List (Event α)) : List Error :=
  trace.filterMap fun
    | .gave (some (.error error)) => some error
    | _ => none

/-- The payloads of the blocks that were delivered to the stream. -/
def deliveredIn (trace : List (Event α)) : List Bytes :=
  trace.flatMap fun
    | .read (.ok (some batch)) => batch.blocks.map (·.2)
    | _ => []

@[simp] theorem gaveIn_append : gaveIn (trace ++ more) = gaveIn trace ++ gaveIn more := List.filterMap_append

@[simp] theorem givenIn_append : givenIn (trace ++ more) = givenIn trace ++ givenIn more := List.filterMap_append

@[simp] theorem errorsIn_append : errorsIn (trace ++ more) = errorsIn trace ++ errorsIn more :=
  List.filterMap_append

@[simp] theorem deliveredIn_append : deliveredIn (trace ++ more) = deliveredIn trace ++ deliveredIn more :=
  List.flatMap_append

/-! ## One item -/

/-- What the stream is like when it has nothing to give without reading. -/
def Used (stream mid : RecordStream α) : Prop := stream.finished = false ∧ stream.nextHeld = (none, mid)

/-- The stream with a batch that was waited for. -/
def fetched (mid : RecordStream α) (source : Reconciler) (batch : Batch) (wait : Nat) : RecordStream α :=
  { mid with
    source
    metrics := mid.metrics.countWait wait
    blocks := mid.blocks ++ batch.blocks.map (·.2) }

/-- Asking for the next item: the events, and the stream and the storage behind them. -/
inductive Next (handler : Handler σ) :
    RecordStream α → σ → List (Event α) → RecordStream α → σ → Prop where
  /-- The stream has ended. -/
  | idle {stream : RecordStream α} {s : σ} (finished : stream.finished = true) :
      Next handler stream s [.gave none] stream s
  /-- There was something to give. -/
  | held {stream after : RecordStream α} {s : σ} {item : Option (Except Error α)}
      (going : stream.finished = false) (held : stream.nextHeld = (some item, after)) :
      Next handler stream s [.gave item] after s
  /-- The client failed. -/
  | unread {stream mid : RecordStream α} {s s' : σ} {error : Error} {source : Reconciler}
      (used : stream.Used mid)
      (read : mid.source.read.run handler (handler .clock s).2 = ((.error error, source), s')) :
      Next handler stream s [.read (.error error), .gave (some (.error error))] { mid with source }.close s'
  /-- The client is at its end. -/
  | ended {stream mid : RecordStream α} {s s' : σ} {source : Reconciler}
      (used : stream.Used mid)
      (read : mid.source.read.run handler (handler .clock s).2 = ((.ok none, source), s')) :
      Next handler stream s [.read (.ok none), .gave { mid with source }.finish.1] { mid with source }.finish.2 s'
  /-- The client delivered a batch, and the stream goes on with it. -/
  | fetched {stream mid after : RecordStream α} {s s' s'' : σ} {batch : Batch} {source : Reconciler}
      {events : List (Event α)}
      (used : stream.Used mid)
      (read : mid.source.read.run handler (handler .clock s).2 = ((.ok (some batch), source), s'))
      (rest : Next handler (mid.fetched source batch ((handler .clock s').1 - (handler .clock s).1))
        (handler .clock s').2 events after s'') :
      Next handler stream s (.read (.ok (some batch)) :: events) after s''

/-- Decoding what is held does not touch the client. -/
theorem source_nextHeld {stream mid : RecordStream α} (h : stream.nextHeld = (none, mid)) :
    mid.source = stream.source := by
  rw [nextHeld] at h
  split at h
  · cases h
  · dsimp only at h
    split at h
    · cases h
      rfl
    · cases h
    · cases h

theorem run_fetch {stream : RecordStream α} {s s' : σ} {answer : Reconciler.Answer} {source : Reconciler} :
    stream.source.read.run handler (handler .clock s).2 = ((answer, source), s') →
    stream.fetch.run handler s = match answer with
      | .error error => ((.error error, { stream with source }), s')
      | .ok none => ((.ok false, { stream with source }), s')
      | .ok (some batch) =>
        ((.ok true, stream.fetched source batch ((handler .clock s').1 - (handler .clock s).1)),
          (handler .clock s').2) := by
  intro h
  rw [fetch, Program.clock, run_bind]
  show (stream.source.read >>= _).run handler (handler .clock s).2 = _
  rw [run_bind, h]
  rcases answer with error | _ | batch <;> rfl

theorem source_nextHeld_cases (stream : RecordStream α) :
    stream.nextHeld.2.source = stream.source ∨ stream.nextHeld.2.source = stream.source.close := by
  rw [nextHeld]
  split
  · exact Or.inl rfl
  · dsimp only
    split
    · exact Or.inl rfl
    · exact Or.inl rfl
    · exact Or.inr rfl

/-- Every run of `nextFrom` gives one item, as long as the batches that are left are covered. -/
theorem next_of_nextFrom {left : Nat} : ∀ {stream after : RecordStream α} {s s' : σ}
    {item : Option (Except Error α)}, stream.source.reader.Placed →
    stream.source.reader.readCount ≤ stream.source.nextRead + left →
    (nextFrom left stream).run handler s = ((item, after), s') →
    ∃ events, Next handler stream s events after s' ∧ gaveIn events = [item] := by
  induction left using Nat.strong_induction_on with
  | _ left ih =>
    intro stream after s s' item hp hleft h
    rw [nextFrom.eq_def] at h
    dsimp only at h
    cases hgoing : stream.finished with
    | true =>
      rw [hgoing, if_pos rfl] at h
      cases h
      exact ⟨_, .idle hgoing, rfl⟩
    | false =>
      rw [hgoing, if_neg (by simp)] at h
      rcases hheld : stream.nextHeld with ⟨_ | found, mid⟩
      · have hused : stream.Used mid := ⟨hgoing, hheld⟩
        have hsource := source_nextHeld hheld
        rw [hheld] at h
        dsimp only at h
        rcases hread : mid.source.read.run handler (handler .clock s).2 with ⟨⟨answer, source⟩, s₁⟩
        obtain ⟨lost, hcall⟩ := Reconciler.call_of_read (hsource ▸ hp) hread
        rw [run_bind, run_fetch hread] at h
        rcases answer with error | _ | batch
        · cases h
          exact ⟨_, .unread hused hread, rfl⟩
        · cases h
          exact ⟨_, .ended hused hread, rfl⟩
        · -- A batch that was delivered is one of those that are left.
          obtain ⟨hcount, -, hforward⟩ := hcall.progress (hsource ▸ hp)
          obtain ⟨hwithin, hnext⟩ := hforward batch rfl
          rw [hsource] at hcount hwithin hnext
          cases left with
          | zero => omega
          | succ left =>
            dsimp only at h
            obtain ⟨events, hevents, hgave⟩ := ih left (Nat.lt_succ_self left)
              (hcall.placed (hsource ▸ hp)) (by rw [fetched]; dsimp only; omega) h
            exact ⟨_, .fetched hused hread hevents, hgave⟩
      · rw [hheld] at h
        cases h
        exact ⟨_, .held hgoing hheld, rfl⟩

/-- **Asking for the next item gives one item.** -/
theorem next_of_run {stream after : RecordStream α} {s s' : σ} {item : Option (Except Error α)}
    (hp : stream.source.reader.Placed) (h : stream.next.run handler s = ((item, after), s')) :
    ∃ events, Next handler stream s events after s' ∧ gaveIn events = [item] :=
  next_of_nextFrom hp (by omega) h

theorem Next.placed {stream after : RecordStream α} {s s' : σ} {events : List (Event α)}
    (h : Next handler stream s events after s') (hp : stream.source.reader.Placed) :
    after.source.reader.Placed := by
  induction h with
  | idle _ => exact hp
  | @held stream after s item going held =>
    have hsource := source_nextHeld_cases stream
    rw [held] at hsource
    rcases hsource with heq | heq <;> rw [heq]
    · exact hp
    · exact Reconciler.placed_close hp
  | unread used read | ended used read =>
    rw [← source_nextHeld used.2] at hp
    obtain ⟨lost, hcall⟩ := Reconciler.call_of_read hp read
    exact Reconciler.placed_close (hcall.placed hp)
  | fetched used read _ ih =>
    rw [← source_nextHeld used.2] at hp
    obtain ⟨lost, hcall⟩ := Reconciler.call_of_read hp read
    exact ih (hcall.placed hp)

/-! ## A run -/

/-- The events of a run of requests. -/
inductive Traces (handler : Handler σ) :
    RecordStream α → σ → List Request → List (Event α) → RecordStream α → σ → Prop where
  | done {stream : RecordStream α} {s : σ} : Traces handler stream s [] [] stream s
  | next {stream mid after : RecordStream α} {s s' s'' : σ} {requests : List Request}
      {events trace : List (Event α)} (next : Next handler stream s events mid s')
      (rest : Traces handler mid s' requests trace after s'') :
      Traces handler stream s (.next :: requests) (events ++ trace) after s''
  | cancel {stream after : RecordStream α} {s s' : σ} {requests : List Request} {trace : List (Event α)}
      (rest : Traces handler stream.cancel s requests trace after s') :
      Traces handler stream s (.cancel :: requests) (.cancelled :: trace) after s'
  | close {stream after : RecordStream α} {s s' : σ} {requests : List Request} {trace : List (Event α)}
      (rest : Traces handler stream.close s requests trace after s') :
      Traces handler stream s (.close :: requests) (.closed :: trace) after s'

/-- **Every run goes through some events**, and the items that it lists are the ones given in them. -/
theorem traces_of_serve {requests : List Request} : ∀ {stream after : RecordStream α} {s s' : σ}
    {items : List (Option (Except Error α))}, stream.source.reader.Placed →
    (serve requests stream).run handler s = ((items, after), s') →
    ∃ trace, Traces handler stream s requests trace after s' ∧ gaveIn trace = items := by
  -- By the requests. That the cursor of the client is in place is what makes each item a `Next`.
  induction requests with
  | nil =>
    intro stream after s s' items _ h
    cases h
    exact ⟨[], .done, rfl⟩
  | cons request requests ih =>
    intro stream after s s' items hp h
    cases request with
    | next =>
      rw [serve, run_bind] at h
      rcases hn : stream.next.run handler s with ⟨⟨item, mid⟩, s₁⟩
      rw [hn] at h
      dsimp only at h
      rw [run_bind] at h
      obtain ⟨events, hnext, hgave⟩ := next_of_run hp hn
      rcases hq : (serve requests mid).run handler s₁ with ⟨⟨rest, last⟩, s₂⟩
      rw [hq] at h
      cases h
      obtain ⟨trace, htraces, hitems⟩ := ih (hnext.placed hp) hq
      exact ⟨_, .next hnext htraces, by rw [gaveIn_append, hgave, hitems]; rfl⟩
    | cancel =>
      rw [serve] at h
      have hp' : stream.cancel.source.reader.Placed := hp
      obtain ⟨trace, htraces, hitems⟩ := ih hp' h
      exact ⟨_, .cancel htraces, hitems⟩
    | close =>
      rw [serve] at h
      obtain ⟨trace, htraces, hitems⟩ := ih (Reconciler.placed_close hp) h
      exact ⟨_, .close htraces, hitems⟩

theorem Traces.placed {stream after : RecordStream α} {s s' : σ} {requests : List Request}
    {trace : List (Event α)} (h : Traces handler stream s requests trace after s')
    (hp : stream.source.reader.Placed) : after.source.reader.Placed := by
  induction h with
  | done => exact hp
  | next hnext _ ih => exact ih (hnext.placed hp)
  | cancel _ ih => exact ih hp
  | close _ ih => exact ih (Reconciler.placed_close hp)

end RecordStream

end BlockShuffle
