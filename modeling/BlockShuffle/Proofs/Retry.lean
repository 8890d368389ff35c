import Mathlib
import BlockShuffle.Error

/-!
# What a retried call comes to

A call that is retried meets one outcome after another, and which they are is up to the storage. So they are any
sequence here, and each attempt takes the next of them (`Attempts.next`). An outcome decides if retrying would not
change it (`Decides`). The loop stops at the first outcome that does, or with the last attempt that the policy allows,
whichever comes first; `run_retryFrom` says both in one, from any attempt on.

The loop is run in a state that only counts, so the number of attempts and the list of the waits are part of
what is proved and not a remark about it: a call is not made again behind a decisive outcome, and there is no
wait behind the last attempt. A storage whose later answers depend on the earlier ones makes one sequence of
outcomes like another; for a run on a given storage, where the outcomes come from its states,
`Proofs/Storage/Transient` and its neighbours go by the loop itself.

How long a wait is appears only as `policy.backoff`. It is worked out in floating point, about which nothing is
proved, and nothing here depends on its value. The two wrappers that name a failed call differ in the errors
they make, so the result is stated once for any pair of names (`Settled`) and read for each.
-/

set_option autoImplicit false

namespace BlockShuffle

/-- The attempts that were made, and the waits between them. -/
structure Attempts where
  made : Nat := 0
  waits : List Nat := []
deriving DecidableEq, Repr

variable {α ε : Type}

namespace Attempts

/-- A call that has these outcomes, one attempt after another. -/
def next (outcomes : Nat → Except IoError α) : StateM Attempts (Except IoError α) :=
  modifyGet fun attempts => (outcomes attempts.made, { attempts with made := attempts.made + 1 })

def wait (microseconds : Nat) : StateM Attempts Unit :=
  modify fun attempts => { attempts with waits := attempts.waits ++ [microseconds] }

/-- In front of attempt number `k` each attempt was made and waited behind. -/
def before (policy : RetryPolicy) (k : Nat) : Attempts := ⟨k, (List.range k).map policy.backoff⟩

/-- Behind attempt number `k` there was no wait yet. -/
def upTo (policy : RetryPolicy) (k : Nat) : Attempts := ⟨k + 1, (List.range k).map policy.backoff⟩

variable {policy : RetryPolicy} {outcomes : Nat → Except IoError α} {k : Nat}

theorem run_next : (next outcomes).run (before policy k) = (outcomes k, upTo policy k) := rfl

theorem run_wait : (wait (policy.backoff k)).run (upTo policy k) = ((), before policy (k + 1)) := by
  rw [before, List.range_succ, List.map_append]
  rfl

end Attempts

open Attempts

/-! ## Outcomes that decide -/

/-- An outcome that retrying does not change: a value, or a failure that does not pass. -/
def Decides (outcome : Except IoError α) : Prop :=
  ∀ error, outcome = .error error → error.kind.isTransient = false

theorem decides_iff {outcome : Except IoError α} : Decides outcome ↔ mayPass outcome = false := by
  cases outcome with
  | ok value => exact ⟨fun _ => rfl, fun _ => nofun⟩
  | error error =>
    refine ⟨fun h => h error rfl, fun h => ?_⟩
    rintro _ ⟨⟩
    exact h

theorem settle_of_decides {outcome : Except IoError α} (h : Decides outcome) (attempts : Nat) :
    settle attempts outcome = outcome.mapError .permanent := by
  cases outcome with
  | ok value => rfl
  | error error =>
    rw [settle, if_neg (by rw [h error rfl]; exact Bool.false_ne_true)]
    rfl

theorem settle_of_not_decides {outcome : Except IoError α} (h : ¬ Decides outcome) (attempts : Nat) :
    ∃ error, outcome = .error error ∧ settle attempts outcome = .error (.exhausted attempts error) := by
  rw [decides_iff, Bool.not_eq_false] at h
  cases outcome with
  | ok value => cases h
  | error error => exact ⟨error, rfl, if_pos h⟩

/-- The first outcome that decides. -/
def FirstToDecide (outcomes : Nat → Except IoError α) (k : Nat) : Prop := IsLeast {i | Decides (outcomes i)} k

theorem exists_firstToDecide {outcomes : Nat → Except IoError α} {i : Nat} (h : Decides (outcomes i)) :
    ∃ k ≤ i, FirstToDecide outcomes k := by
  classical
  have hsome : ∃ i, Decides (outcomes i) := ⟨i, h⟩
  exact ⟨Nat.find hsome, Nat.find_min' hsome h, Nat.find_spec hsome, fun _ => Nat.find_min' hsome⟩

/-! ## The loop -/

variable {policy : RetryPolicy} {outcomes : Nat → Except IoError α}

/-- **From any attempt on, the loop stops at the first decisive outcome or at the last attempt.** -/
theorem run_retryFrom (left : Nat) : ∀ {j k : Nat}, j + left = policy.maxRetries → j ≤ k → k ≤ policy.maxRetries →
    (∀ i, j ≤ i → i < k → ¬ Decides (outcomes i)) → (Decides (outcomes k) ∨ k = policy.maxRetries) →
      (retryFrom policy wait (next outcomes) left).run (before policy j) =
        (settle (k + 1) (outcomes k), upTo policy k) := by
  induction left with
  | zero =>
    intro j k hj hle hmax _ _
    obtain rfl : k = policy.maxRetries := by omega
    obtain rfl : j = policy.maxRetries := by omega
    rfl
  | succ left ih =>
    intro j k hj hle hmax hpassing hstops
    rw [retryFrom, StateT.run_bind, run_next]
    rcases Nat.eq_or_lt_of_le hle with rfl | hlt
    · have hlasts : mayPass (outcomes j) = false := decides_iff.mp (hstops.resolve_right (by omega))
      have hattempts : policy.maxRetries - left = j + 1 := by omega
      change StateT.run (if mayPass (outcomes j) = true then _ else _) (upTo policy j) = _
      rw [if_neg (by rw [hlasts]; exact Bool.false_ne_true), hattempts]
      rfl
    · have hpasses := hpassing j le_rfl hlt
      rw [decides_iff, Bool.not_eq_false] at hpasses
      have hretry : policy.maxRetries - (left + 1) = j := by omega
      change StateT.run (if mayPass (outcomes j) = true then _ else _) (upTo policy j) = _
      rw [if_pos hpasses, StateT.run_bind, hretry, run_wait]
      exact ih (by omega) hlt hmax (fun i hi => hpassing i (Nat.le_of_succ_le hi)) hstops

/-- A call that was retried stopped at an attempt that was the first to decide, or was the last. -/
theorem run_retry {k : Nat} (hmax : k ≤ policy.maxRetries) (hpassing : ∀ i < k, ¬ Decides (outcomes i))
    (hstops : Decides (outcomes k) ∨ k = policy.maxRetries) :
    (retry policy wait (next outcomes)).run {} = (settle (k + 1) (outcomes k), upTo policy k) :=
  run_retryFrom policy.maxRetries (Nat.zero_add _) (Nat.zero_le k) hmax (fun i _ => hpassing i) hstops

/-- What a retried call comes to, by its outcomes, where failures are reported as these errors. -/
structure Settled (policy : RetryPolicy) (outcomes : Nat → Except IoError α) (permanent : IoError → ε)
    (exhausted : Nat → IoError → ε) (answer : Except ε α × Attempts) : Prop where
  /-- If the first decisive outcome is within the retries, it is the answer, and the last attempt. -/
  decided : ∀ k ≤ policy.maxRetries, FirstToDecide outcomes k →
    answer = ((outcomes k).mapError permanent, upTo policy k)
  /-- Otherwise every attempt is made, and the last failure is the one that is reported. -/
  spent : (¬ ∃ k ≤ policy.maxRetries, FirstToDecide outcomes k) →
    ∃ error, outcomes policy.maxRetries = .error error ∧
      answer = (.error (exhausted (policy.maxRetries + 1) error), upTo policy policy.maxRetries)

theorem settled_retry (policy : RetryPolicy) (outcomes : Nat → Except IoError α) :
    Settled policy outcomes .permanent .exhausted ((retry policy wait (next outcomes)).run {}) := by
  constructor
  · intro k hmax hfirst
    rw [run_retry hmax (fun i hi hdecides => Nat.not_lt.mpr (hfirst.2 hdecides) hi) (Or.inl hfirst.1),
      settle_of_decides hfirst.1]
  · intro hnone
    have hpassing : ∀ i ≤ policy.maxRetries, ¬ Decides (outcomes i) := by
      intro i hi hdecides
      obtain ⟨k, hk, hfirst⟩ := exists_firstToDecide hdecides
      exact hnone ⟨k, hk.trans hi, hfirst⟩
    obtain ⟨error, herror, hsettle⟩ := settle_of_not_decides (hpassing _ le_rfl) (policy.maxRetries + 1)
    refine ⟨error, herror, ?_⟩
    rw [run_retry le_rfl (fun i hi => hpassing i (Nat.le_of_lt hi)) (Or.inr rfl), hsettle]

/-- Failures that are reported under other names are decided and spent as before. -/
theorem Settled.mapError {δ : Type} {permanent : IoError → ε} {exhausted : Nat → IoError → ε}
    {answer : Except ε α} {attempts : Attempts} (h : Settled policy outcomes permanent exhausted (answer, attempts))
    (f : ε → δ) : Settled policy outcomes (fun error => f (permanent error))
      (fun attempts error => f (exhausted attempts error)) (answer.mapError f, attempts) := by
  constructor
  · intro k hmax hfirst
    cases h.decided k hmax hfirst
    cases outcomes k <;> rfl
  · intro hnone
    obtain ⟨error, herror, heq⟩ := h.spent hnone
    cases heq
    exact ⟨error, herror, rfl⟩

theorem run_retryIo (policy : RetryPolicy) (operation : String) (outcomes : Nat → Except IoError α) :
    (retryIo policy operation wait (next outcomes)).run {} =
      (((retry policy wait (next outcomes)).run {}).1.mapError (·.toError operation),
        ((retry policy wait (next outcomes)).run {}).2) := rfl

/-- A failure is only reported as one of a kind that does not pass if it was the first decisive outcome. -/
theorem Settled.reported_iff {answer : Except RetryError α} {attempts : Attempts}
    (h : Settled policy outcomes .permanent .exhausted (answer, attempts)) {tells : RetryError → Bool} {kind : IoKind}
    (hpermanent : ∀ error, tells (.permanent error) = (error.kind == kind))
    (hexhausted : ∀ attempts error, tells (.exhausted attempts error) = false) :
    (∃ error, answer = .error error ∧ tells error = true) ↔
      ∃ k ≤ policy.maxRetries, FirstToDecide outcomes k ∧ ∃ cause, outcomes k = .error cause ∧ cause.kind = kind := by
  -- Only an outcome that decides is reported as it is. Retries that are spent hide the kind.
  by_cases hfirst : ∃ k ≤ policy.maxRetries, FirstToDecide outcomes k
  · obtain ⟨k, hmax, hk⟩ := hfirst
    have hanswer : answer = (outcomes k).mapError .permanent := congrArg Prod.fst (h.decided k hmax hk)
    constructor
    · rintro ⟨error, rfl, htells⟩
      refine ⟨k, hmax, hk, ?_⟩
      cases houtcome : outcomes k with
      | ok value =>
        rw [houtcome] at hanswer
        cases hanswer
      | error cause =>
        rw [houtcome] at hanswer
        cases hanswer
        exact ⟨cause, rfl, beq_iff_eq.mp ((hpermanent cause).symm.trans htells)⟩
    · rintro ⟨other, -, hother, cause, hcause, hkind⟩
      cases hk.unique hother
      refine ⟨.permanent cause, ?_, ?_⟩
      · rw [hanswer, hcause]
        rfl
      · rw [hpermanent]
        exact beq_iff_eq.mpr hkind
  · obtain ⟨last, -, heq⟩ := h.spent hfirst
    cases heq
    constructor
    · rintro ⟨error, ⟨⟩, htells⟩
      rw [hexhausted] at htells
      cases htells
    · rintro ⟨k, hmax, hk, -⟩
      exact absurd ⟨k, hmax, hk⟩ hfirst

/-- **A retried call comes to its first decisive outcome, if that is within the retries**, and runs out of attempts
otherwise. How many attempts it takes is exact, and so are the waits between them. Naming the call changes the
error and nothing else, and what is missing or cut short is only said to be when that was the decisive outcome. -/
theorem retry_settles (policy : RetryPolicy) (outcomes : Nat → Except IoError α) (operation : String) :
    Settled policy outcomes .permanent .exhausted ((retry policy wait (next outcomes)).run {}) ∧
    Settled policy outcomes .io (.retriesExhausted operation)
      ((retryIo policy operation wait (next outcomes)).run {}) ∧
    ((∃ error, ((retry policy wait (next outcomes)).run {}).1 = .error error ∧ error.isNotFound = true) ↔
      ∃ k ≤ policy.maxRetries, FirstToDecide outcomes k ∧
        ∃ cause, outcomes k = .error cause ∧ cause.kind = .notFound) ∧
    ((∃ error, ((retry policy wait (next outcomes)).run {}).1 = .error error ∧ error.isUnexpectedEof = true) ↔
      ∃ k ≤ policy.maxRetries, FirstToDecide outcomes k ∧
        ∃ cause, outcomes k = .error cause ∧ cause.kind = .unexpectedEof) := by
  have hsettled := settled_retry policy outcomes
  refine ⟨hsettled, ?_, ?_, ?_⟩
  · rw [run_retryIo]
    exact hsettled.mapError (RetryError.toError operation)
  · exact hsettled.reported_iff (fun _ => rfl) fun _ _ => rfl
  · exact hsettled.reported_iff (fun _ => rfl) fun _ _ => rfl

/-- Two failures that pass: one retry is not enough, and with two it is the third attempt that decides. -/
example :
    let outcomes : Nat → Except IoError Nat := fun k => if k < 2 then .error ⟨.timedOut, "slow"⟩ else .ok 7
    let run := fun retries => (retry (.fixed retries 1000) wait (next outcomes)).run {}
    ((run 1).1, (run 1).2.made) = (.error (.exhausted 2 ⟨.timedOut, "slow"⟩), 2) ∧
      ((run 2).1, (run 2).2.made) = (.ok 7, 3) := ⟨rfl, rfl⟩

end BlockShuffle
