import BlockShuffle.Storage.Failure

/-!
# Retrying

Storage calls of the read path are retried while they fail in a way that may pass. A call that fails
for good is not repeated: a missing file is left to the caller, who may take it for absence. The
waits between attempts grow by a factor and are capped.

`retry` is written over any monad, so that it is one definition for programs over storage and for
any other sequence of outcomes; its recursion is on the retries that are left.

A wait is worked out in whole milliseconds and in floating point, so it is what a policy's numbers
come to and not their exact product: a backoff of less than a millisecond is none. No decision
depends on it. Nothing is drawn at random, and time that passes in the call itself is not counted.

How many retries there are is a natural, and so is the number of attempts in an error; the attempts
that the loop makes are one more than the retries. Which failures may pass is decided by kind alone.
A kind that is not on the list is one that does not pass, also if a storage means it otherwise.
-/

set_option autoImplicit false

namespace BlockShuffle

/-! ## Policies -/

/-- How often to retry and how long to wait. Durations are in microseconds. -/
structure RetryPolicy where
  /-- Attempts after the first one. -/
  maxRetries : Nat := 3
  /-- The wait before the first retry. -/
  initialBackoff : Nat := 100000
  /-- The longest wait. -/
  maxBackoff : Nat := 5000000
  /-- What each wait is multiplied by for the next one. -/
  multiplier : Float := 2.0

namespace RetryPolicy

/-- A policy that always waits for the same time. -/
def fixed (maxRetries interval : Nat) : RetryPolicy := ⟨maxRetries, interval, interval, 1.0⟩

/-- `acc` times `base` to a power, by repeated squaring from the lowest bit. -/
def powerFrom (acc base : Float) (exponent : Nat) : Float :=
  let acc := if exponent % 2 = 1 then acc * base else acc
  if exponent / 2 = 0 then acc else powerFrom acc (base * base) (exponent / 2)
termination_by exponent
decreasing_by omega

/-- A whole power; a negative one is the reciprocal of the positive. -/
def power (base : Float) (exponent : Int) : Float :=
  let positive := powerFrom 1.0 base exponent.natAbs
  if exponent < 0 then 1.0 / positive else positive

/-- The wait before retry number `attempt`, counted from zero. It is worked out in whole milliseconds,
in floating point; the exponent is the low 32 bits of the attempt, signed. -/
def backoff (policy : RetryPolicy) (attempt : Nat) : Nat :=
  let initial := (UInt64.ofNat (policy.initialBackoff / 1000)).toFloat
  let exponent := Int.bmod attempt UInt32.size
  -- The conversion truncates, takes negatives and what is no number to zero, and stops at the top.
  let milliseconds := (initial * power policy.multiplier exponent).toUInt64
  min (milliseconds.toNat * 1000) policy.maxBackoff

end RetryPolicy

/-- Whether a failure of this kind may pass. -/
def IoKind.isTransient : IoKind → Bool
  | .timedOut => true
  | .interrupted => true
  | .wouldBlock => true
  | .connectionReset => true
  | .connectionAborted => true
  | _ => false

/-! ## Outcomes -/

/-- How a retried call failed. -/
inductive RetryError where
  /-- A failure that does not pass, at the attempt that met it. -/
  | permanent (error : IoError)
  /-- A failure that may pass, at the last attempt there was. -/
  | exhausted (attempts : Nat) (source : IoError)
deriving DecidableEq, Repr

namespace RetryError

/-- Whether the call said for good that its target does not exist. -/
def isNotFound : RetryError → Bool
  | .permanent error => error.kind == .notFound
  | .exhausted _ _ => false

/-- Whether the call said for good that it read past the end of its target. -/
def isUnexpectedEof : RetryError → Bool
  | .permanent error => error.kind == .unexpectedEof
  | .exhausted _ _ => false

end RetryError

/-! ## The loop -/

section Loop

variable {m : Type → Type} [Monad m] {α : Type}

/-- Whether an attempt failed in a way that may pass. -/
def mayPass : Except IoError α → Bool
  | .ok _ => false
  | .error error => error.kind.isTransient

/-- What the last of `attempts` attempts comes to. -/
def settle (attempts : Nat) : Except IoError α → Except RetryError α
  | .ok value => .ok value
  | .error error =>
    if error.kind.isTransient then .error (.exhausted attempts error)
    else .error (.permanent error)

/-- Make an attempt, and further ones while failures may pass and retries are left. -/
def retryFrom (policy : RetryPolicy) (pause : Nat → m Unit) (operation : m (Except IoError α)) :
    (left : Nat) → m (Except RetryError α)
  | 0 => do return settle (policy.maxRetries + 1) (← operation)
  | left + 1 => do
    let outcome ← operation
    if mayPass outcome then
      pause (policy.backoff (policy.maxRetries - (left + 1)))
      retryFrom policy pause operation left
    else return settle (policy.maxRetries - left) outcome

/-- Make a call, retrying it as the policy says. -/
def retry (policy : RetryPolicy) (pause : Nat → m Unit) (operation : m (Except IoError α)) :
    m (Except RetryError α) :=
  retryFrom policy pause operation policy.maxRetries

end Loop

end BlockShuffle
