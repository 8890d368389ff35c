import Mathlib
import BlockShuffle.Storage.Faults
import BlockShuffle.Proofs.Storage.Steady

/-!
# Reading from a storage whose calls fail for a while

Each call that can fail does so any number of times, with any errors, and then passes. `Flaky` is a storage with
the failures that are still ahead, those of the next call and those of the calls after it.

Below the failures the storage holds still, so what a call answers when it passes does not depend on how often it
failed before. `Source` is what calls answer then, and `Draws` says of a storage that it answers from a source or
fails; a failure where the source has an answer uses up some of a budget. A storage that holds still draws from
itself, with no budget at all (`HoldsStill.draws`), and so does the flaky storage over it, with the failures of the
next call for a budget (`HoldsStill.draws_flaky`). So one lemma about a program on a storage that draws is a lemma
about its run without failures and about its run with them.
-/

set_option autoImplicit false

namespace BlockShuffle

namespace Storage

variable {σ α ε : Type}

/-! ## Storages that hold still -/

/-- The calls that are made once everything is open: opening files, reading from them, and waiting. -/
def Call.Fetches : Call → Prop
  | .openRead _ => True
  | .readAt _ _ _ => True
  | .pause _ => True
  | _ => False

/-- A storage whose answers to such calls do not depend on when they are made, while it is good. -/
def HoldsStill (handler : Handler σ) (good : σ → Prop) : Prop :=
  ∀ call : Call, call.Fetches → ∀ s, good s →
    good (handler call s).2 ∧ ∀ s', good s' → (handler call s').1 = (handler call s).1

/-! ## Failures that pass -/

/-- A storage and how its calls fail. -/
structure Flaky (σ : Type) where
  storage : σ
  /-- The failures of the call that is made next, before it passes. -/
  now : List IoError
  /-- Those of the calls behind it. -/
  later : Nat → List IoError

def Flaky.handler (inner : Handler σ) : Handler (Flaky σ) := fun call world =>
  match call.shown?, world.now with
  | none, _ =>
    let (answer, storage) := inner call world.storage
    (answer, { world with storage })
  | some _, error :: rest =>
    let (answer, storage) := Faulty.fail inner error 0 call world.storage
    (answer, { world with storage, now := rest })
  | some _, [] =>
    let (answer, storage) := inner call world.storage
    (answer, ⟨storage, world.later 0, fun k => world.later (k + 1)⟩)

/-! ## What calls answer when they pass -/

structure Source where
  reader : Path → Option Reader
  bytes : Reader → (offset length : Nat) → Option Bytes

def Source.of (handler : Handler σ) (s : σ) : Source where
  reader path := (handler (.openRead path) s).1.toOption
  bytes reader offset length := (handler (.readAt reader offset length) s).1.toOption

/-- The program comes to what is expected, or it fails; if something is expected, failing costs. -/
def Program.Tries (handler : Handler σ) (good : σ → Prop) (budget : σ → Nat)
    (program : Program (Except ε α)) (expected : Option α) : Prop :=
  ∀ s, good s → good (program.run handler s).2 ∧
    ((∃ value, expected = some value ∧ (program.run handler s).1 = .ok value) ∨
      ∃ error, (program.run handler s).1 = .error error ∧
        (expected ≠ none → budget (program.run handler s).2 < budget s))

/-- A storage that answers from a source, where it does not fail. -/
structure Draws (handler : Handler σ) (good : σ → Prop) (budget : σ → Nat) (source : Source) : Prop where
  openRead : ∀ path, (Program.openRead path).Tries handler good budget (source.reader path)
  readAt : ∀ reader offset length,
    (Program.readAt reader offset length).Tries handler good budget (source.bytes reader offset length)
  pause : ∀ microseconds s, good s →
    good (handler (.pause microseconds) s).2 ∧ budget (handler (.pause microseconds) s).2 ≤ budget s

/-- An answer is what is expected of it. -/
theorem toOption_cases (answer : Except ε α) (cost : Prop) :
    (∃ value, answer.toOption = some value ∧ answer = .ok value) ∨
      ∃ error, answer = .error error ∧ (answer.toOption ≠ none → cost) := by
  cases answer with
  | ok value => exact Or.inl ⟨value, rfl, rfl⟩
  | error error => exact Or.inr ⟨error, rfl, fun hne => absurd rfl hne⟩

namespace HoldsStill

variable {handler : Handler σ} {good : σ → Prop} {s : σ}

theorem openRead (h : HoldsStill handler good) (hs : good s) (path : Path) {s' : σ} (hs' : good s') (cost : Prop) :
    good (handler (.openRead path) s').2 ∧
      ((∃ value, (Source.of handler s).reader path = some value ∧ (handler (.openRead path) s').1 = .ok value) ∨
        ∃ error, (handler (.openRead path) s').1 = .error error ∧
          ((Source.of handler s).reader path ≠ none → cost)) := by
  obtain ⟨hgood, hsame⟩ := h (.openRead path) trivial s' hs'
  dsimp only [Source.of]
  rw [hsame s hs]
  exact ⟨hgood, toOption_cases _ _⟩

theorem readAt (h : HoldsStill handler good) (hs : good s) (reader : Reader) (offset length : Nat) {s' : σ}
    (hs' : good s') (cost : Prop) :
    good (handler (.readAt reader offset length) s').2 ∧
      ((∃ value, (Source.of handler s).bytes reader offset length = some value ∧
          (handler (.readAt reader offset length) s').1 = .ok value) ∨
        ∃ error, (handler (.readAt reader offset length) s').1 = .error error ∧
          ((Source.of handler s).bytes reader offset length ≠ none → cost)) := by
  obtain ⟨hgood, hsame⟩ := h (.readAt reader offset length) trivial s' hs'
  dsimp only [Source.of]
  rw [hsame s hs]
  exact ⟨hgood, toOption_cases _ _⟩

theorem draws (h : HoldsStill handler good) (hs : good s) :
    Draws handler good (fun _ => 0) (Source.of handler s) where
  openRead path _ hs' := h.openRead hs path hs' _
  readAt reader offset length _ hs' := h.readAt hs reader offset length hs' _
  pause microseconds s' hs' := ⟨(h (.pause microseconds) trivial s' hs').1, Nat.le_refl _⟩

/-- A call that fails has one failure less ahead of it; one that passes answers from below. -/
theorem draws_flaky (h : HoldsStill handler good) (hs : good s) :
    Draws (Flaky.handler handler) (fun world => good world.storage) (fun world => world.now.length)
      (Source.of handler s) := by
  refine ⟨fun path => ?_, fun reader offset length => ?_, fun microseconds world hworld => ?_⟩
  · rintro ⟨storage, _ | ⟨error, rest⟩, later⟩ hstorage
    · exact h.openRead hs path hstorage _
    · exact ⟨hstorage, Or.inr ⟨error, rfl, fun _ => Nat.lt_succ_self _⟩⟩
  · rintro ⟨storage, _ | ⟨error, rest⟩, later⟩ hstorage
    · exact h.readAt hs reader offset length hstorage _
    · exact ⟨hstorage, Or.inr ⟨error, rfl, fun _ => Nat.lt_succ_self _⟩⟩
  · exact ⟨(h (.pause microseconds) trivial world.storage hworld).1, Nat.le_refl _⟩

end HoldsStill

end Storage

open Storage Program

variable {σ α : Type} {handler : Handler σ} {good : σ → Prop} {budget : σ → Nat} {source : Source}

/-! ## Retries -/

theorem settle_error (α : Type) (attempts : Nat) (error : IoError) :
    ∃ failure, settle attempts (.error error : Except IoError α) = .error failure := by
  rw [settle]
  split
  · exact ⟨_, rfl⟩
  · exact ⟨_, rfl⟩

/-- Trying again is trying. -/
theorem tries_retryFrom (hdraws : Draws handler good budget source) (policy : RetryPolicy)
    {operation : Program (Except IoError α)} {expected : Option α}
    (h : operation.Tries handler good budget expected) (left : Nat) :
    (retryFrom policy Program.pause operation left).Tries handler good budget expected := by
  -- Each attempt that fails takes from the budget, and a pause gives nothing back.
  induction left with
  | zero =>
    intro s hs
    obtain ⟨hgood, ⟨value, hexpected, hok⟩ | ⟨error, herror, hcost⟩⟩ := h s hs
    · rw [retryFrom, run_bind, hok]
      exact ⟨hgood, Or.inl ⟨value, hexpected, rfl⟩⟩
    · obtain ⟨failure, hfailure⟩ := settle_error α (policy.maxRetries + 1) error
      rw [retryFrom, run_bind, herror]
      exact ⟨hgood, Or.inr ⟨failure, hfailure, hcost⟩⟩
  | succ left ih =>
    intro s hs
    obtain ⟨hgood, ⟨value, hexpected, hok⟩ | ⟨error, herror, hcost⟩⟩ := h s hs
    · rw [retryFrom, run_bind, hok]
      exact ⟨hgood, Or.inl ⟨value, hexpected, rfl⟩⟩
    rw [retryFrom, run_bind, herror]
    by_cases hmay : mayPass (.error error : Except IoError α) = true
    · rw [if_pos hmay, run_bind]
      obtain ⟨hpaused, hkept⟩ := hdraws.pause (policy.backoff (policy.maxRetries - (left + 1))) _ hgood
      obtain ⟨hgood', hok | ⟨failure, hfailure, hcost'⟩⟩ := ih _ hpaused
      · exact ⟨hgood', Or.inl hok⟩
      · refine ⟨hgood', Or.inr ⟨failure, hfailure, fun hne => ?_⟩⟩
        exact Nat.lt_trans (hcost' hne) (Nat.lt_of_le_of_lt hkept (hcost hne))
    · obtain ⟨failure, hfailure⟩ := settle_error α (policy.maxRetries - left) error
      rw [if_neg hmay]
      exact ⟨hgood, Or.inr ⟨failure, hfailure, hcost⟩⟩

theorem tries_retried (hdraws : Draws handler good budget source) (policy : RetryPolicy)
    {operation : Program (Except IoError α)} {expected : Option α}
    (h : operation.Tries handler good budget expected) :
    (retried policy operation).Tries handler good budget expected :=
  tries_retryFrom hdraws policy h policy.maxRetries

/-! ## Memory -/

/-- A memory that is only read holds still. -/
theorem Memory.holdsStill (memory : Memory) : HoldsStill Memory.handler (· = memory) := by
  rintro call hfetches s rfl
  refine ⟨?_, fun s' hs' => by rw [hs']⟩
  cases call with
  | openRead _ | readAt _ _ _ | pause _ => rfl
  | _ => exact hfetches.elim

end BlockShuffle
