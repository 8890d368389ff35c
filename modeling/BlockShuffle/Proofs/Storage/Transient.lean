import Mathlib
import BlockShuffle.ShardReader
import BlockShuffle.Storage.Disk
import BlockShuffle.Storage.Memory
import BlockShuffle.Proofs.Storage.Flaky

/-!
# Failures that pass while a call is retried

One program, run twice over one storage: once as it is, and once over a flaky one, where calls fail for a while
before they reach it. If every call that fails is retried at least as often as it fails, and only fails in ways
that may pass, the two runs cannot be told apart by what they come to (`Program.Weathers`).

The storage below may not fail in such ways itself: a call that it refuses is refused for good, or its failures
and the injected ones would share one budget. Memory and disk are like that (`Memory.decisive`, `Disk.decisive`).
Nor may waiting change it, because the run with failures waits and the other one does not.

`Weathers` is about the value and the state below, and not about the calls or about time: the run with failures
makes more calls and waits between them. The predicate has a part for what is true of the value, so that a loop
can carry along that its shards have the policy that the failures are brief for. Its bind rule is the whole of
the induction over a program; what is proved anew for each of them is that it is made of retried calls.

The kinds of the failures are any that may pass, mixed as one likes. A failure that does not pass is not brief,
however often a call is retried, and one call more than the retries allow is not either; what happens then is in
`Proofs/Delivery/Resuming`.
-/

set_option autoImplicit false

namespace BlockShuffle

namespace Storage

variable {σ α β : Type}

/-! ## Storages that refuse for good -/

/-- A storage that answers lookups or refuses them for good, and on which waiting changes nothing. -/
structure Decisive (handler : Handler σ) : Prop where
  openRead : ∀ path s, mayPass (handler (.openRead path) s).1 = false
  list : ∀ dir s, mayPass (handler (.list dir) s).1 = false
  probe : ∀ path s, mayPass (handler (.probe path) s).1 = false
  size : ∀ reader s, mayPass (handler (.size reader) s).1 = false
  readAt : ∀ reader offset length s, mayPass (handler (.readAt reader offset length) s).1 = false
  pause : ∀ microseconds s, (handler (.pause microseconds) s).2 = s

/-! ## Brief failures -/

/-- Failures that a call gets past when it is retried this often. -/
structure Brief (retries : Nat) (failures : List IoError) : Prop where
  length_le : failures.length ≤ retries
  transient : ∀ error ∈ failures, error.kind.isTransient = true

/-- Of every call that is still to be made, the failures are brief. -/
structure Flaky.Brief (retries : Nat) (world : Flaky σ) : Prop where
  now : Storage.Brief retries world.now
  later : ∀ k, Storage.Brief retries (world.later k)

theorem Flaky.Brief.passed {retries : Nat} {world : Flaky σ} (h : world.Brief retries) (storage : σ) :
    Flaky.Brief retries ⟨storage, world.later 0, fun k => world.later (k + 1)⟩ :=
  ⟨h.later 0, fun k => h.later (k + 1)⟩

/-! ## Programs that do not notice -/

/-- Whatever brief failures its calls meet, the program comes to what it comes to without them, leaves the storage
below as it leaves it without them, and only brief failures are ahead. -/
def Program.Weathers (handler : Handler σ) (retries : Nat) (program : Program α) (post : α → Prop) : Prop :=
  ∀ world : Flaky σ, world.Brief retries → ∃ after : Flaky σ,
    program.run (Flaky.handler handler) world = ((program.run handler world.storage).1, after) ∧
    after.storage = (program.run handler world.storage).2 ∧ after.Brief retries ∧
    post (program.run handler world.storage).1

namespace Program

variable {handler : Handler σ} {retries : Nat}

theorem weathers_done {value : α} {post : α → Prop} (h : post value) :
    (Program.done value).Weathers handler retries post :=
  fun world hbrief => ⟨world, rfl, rfl, hbrief, h⟩

/-- An error promises nothing about a value. -/
theorem weathers_error {ε : Type} {error : ε} {post : α → Prop} :
    (Program.done (Except.error error : Except ε α)).Weathers handler retries
      fun answer => ∀ value, answer = .ok value → post value := by
  apply weathers_done
  rintro _ ⟨⟩

theorem Weathers.bind {program : Program α} {next : α → Program β} {mid : α → Prop} {post : β → Prop}
    (h : program.Weathers handler retries mid)
    (hnext : ∀ value, mid value → (next value).Weathers handler retries post) :
    (program >>= next).Weathers handler retries post := by
  intro world hbrief
  obtain ⟨between, hrun, hstorage, hbetween, hmid⟩ := h world hbrief
  obtain ⟨after, hrun', hstorage', hafter, hpost⟩ := hnext _ hmid between hbetween
  rw [hstorage] at hrun' hstorage' hpost
  refine ⟨after, ?_, ?_, hafter, ?_⟩
  · rw [run_bind, run_bind, hrun]
    exact hrun'
  · rw [run_bind]
    exact hstorage'
  · rw [run_bind]
    exact hpost

end Program

/-! ## Retried calls -/

/-- A call as a flaky storage makes it: it fails as often as it has failures ahead, then it reaches the storage
below, which does not fail it in a way that may pass. -/
structure Reaches (handler : Handler σ) (operation : Program (Except IoError α)) : Prop where
  fails : ∀ s error rest later, operation.run (Flaky.handler handler) ⟨s, error :: rest, later⟩ =
    (.error error, ⟨s, rest, later⟩)
  passes : ∀ s later, operation.run (Flaky.handler handler) ⟨s, [], later⟩ =
    ((operation.run handler s).1, ⟨(operation.run handler s).2, later 0, fun k => later (k + 1)⟩)
  lasts : ∀ s, mayPass (operation.run handler s).1 = false

end Storage

open Storage Program

variable {σ α : Type} {handler : Handler σ} {operation : Program (Except IoError α)}

/-- What cannot pass is the same at any attempt. -/
theorem settle_eq_of_lasts {outcome : Except IoError α} (h : mayPass outcome = false) (attempts others : Nat) :
    settle attempts outcome = settle others outcome := by
  cases outcome with
  | ok value => rfl
  | error error =>
    have hlasts : ¬ error.kind.isTransient = true := by
      rw [show error.kind.isTransient = false from h]
      exact Bool.false_ne_true
    rw [settle, settle, if_neg hlasts, if_neg hlasts]

theorem run_retryFrom_of_lasts (policy : RetryPolicy) {s : σ} (h : mayPass (operation.run handler s).1 = false)
    (left : Nat) :
    (retryFrom policy Program.pause operation left).run handler s =
      (settle 0 (operation.run handler s).1, (operation.run handler s).2) := by
  cases left with
  | zero =>
    rw [retryFrom, run_bind, settle_eq_of_lasts h 0 (policy.maxRetries + 1)]
    rfl
  | succ left =>
    rw [retryFrom, run_bind, h, if_neg Bool.false_ne_true, settle_eq_of_lasts h 0 (policy.maxRetries - left)]
    rfl

/-- Each failure takes one retry, so the call is reached while retries are left. -/
theorem run_retryFrom_flaky (hpause : ∀ microseconds s, (handler (.pause microseconds) s).2 = s)
    (hreaches : Reaches handler operation) (policy : RetryPolicy) (s : σ) {now : List IoError}
    (later : Nat → List IoError) : ∀ {left : Nat}, Brief left now →
      (retryFrom policy Program.pause operation left).run (Flaky.handler handler) ⟨s, now, later⟩ =
        (settle 0 (operation.run handler s).1,
          ⟨(operation.run handler s).2, later 0, fun k => later (k + 1)⟩) := by
  -- By the failures ahead: each uses up one retry, and there are no more of them than retries.
  induction now with
  | nil =>
    intro left _
    have hpasses := hreaches.passes s later
    have hlasts : mayPass (operation.run (Flaky.handler handler) ⟨s, [], later⟩).1 = false := by
      rw [hpasses]
      exact hreaches.lasts s
    rw [run_retryFrom_of_lasts policy hlasts, hpasses]
  | cons error rest ih =>
    intro left hbrief
    obtain ⟨left, rfl⟩ := Nat.exists_eq_succ_of_ne_zero (n := left) fun hzero => by
      have hlength := hbrief.length_le
      rw [hzero] at hlength
      exact Nat.not_succ_le_zero _ hlength
    have hmay : mayPass (.error error : Except IoError α) = true := hbrief.transient error List.mem_cons_self
    have hpaused : ∀ microseconds, (Program.pause microseconds).run (Flaky.handler handler) ⟨s, rest, later⟩ =
        ((), ⟨s, rest, later⟩) := by
      intro microseconds
      have hsame := hpause microseconds s
      change (_, (⟨(handler (.pause microseconds) s).2, rest, later⟩ : Flaky σ)) = _
      rw [hsame]
    rw [retryFrom, run_bind, hreaches.fails]
    dsimp only
    rw [hmay, if_pos rfl, run_bind, hpaused]
    refine ih ⟨Nat.le_of_succ_le_succ hbrief.length_le, fun other ho => ?_⟩
    exact hbrief.transient other (List.mem_cons_of_mem _ ho)

/-- **A retried call does not notice brief failures.** -/
theorem weathers_retried (hdecisive : Decisive handler) (hreaches : Reaches handler operation)
    (policy : RetryPolicy) :
    (retried policy operation).Weathers handler policy.maxRetries fun _ => True := by
  rintro ⟨s, now, later⟩ hbrief
  have hplain : (retried policy operation).run handler s = _ :=
    run_retryFrom_of_lasts policy (hreaches.lasts s) policy.maxRetries
  refine ⟨_, ?_, ?_, hbrief.passed (operation.run handler s).2, trivial⟩
  · rw [hplain]
    exact run_retryFrom_flaky hdecisive.pause hreaches policy s later hbrief.now
  · rw [hplain]

namespace Storage.Decisive

theorem reaches_openRead (h : Decisive handler) (path : Path) : Reaches handler (Program.openRead path) :=
  ⟨fun _ _ _ _ => rfl, fun _ _ => rfl, h.openRead path⟩

theorem reaches_list (h : Decisive handler) (dir : Path) : Reaches handler (Program.list dir) :=
  ⟨fun _ _ _ _ => rfl, fun _ _ => rfl, h.list dir⟩

theorem reaches_probe (h : Decisive handler) (path : Path) : Reaches handler (Program.probe path) :=
  ⟨fun _ _ _ _ => rfl, fun _ _ => rfl, h.probe path⟩

theorem reaches_size (h : Decisive handler) (reader : Reader) : Reaches handler (Program.size reader) :=
  ⟨fun _ _ _ _ => rfl, fun _ _ => rfl, h.size reader⟩

theorem reaches_readAt (h : Decisive handler) (reader : Reader) (offset length : Nat) :
    Reaches handler (Program.readAt reader offset length) :=
  ⟨fun _ _ _ _ => rfl, fun _ _ => rfl, h.readAt reader offset length⟩

end Storage.Decisive

/-! ## Memory and disk -/

/-- Memory never fails in a way that may pass. -/
theorem Memory.decisive : Decisive Memory.handler where
  openRead path memory := by
    rw [Memory.handler]
    dsimp only
    split <;> rfl
  list dir memory := by
    change mayPass (Memory.list dir memory) = false
    rw [Memory.list]
    split <;> rfl
  probe _ _ := rfl
  size reader memory := by
    change mayPass (Memory.size reader memory) = false
    rw [Memory.size]
    split <;> rfl
  readAt reader offset length memory := by
    change mayPass (Memory.readAt reader offset length memory) = false
    rw [Memory.readAt]
    split
    · rfl
    · split <;> rfl
  pause _ _ := rfl

theorem OsFault.mayPass_toIoError (fault : OsFault) : mayPass (.error fault.toIoError : Except IoError α) = false := by
  cases fault <;> rfl

/-- A disk never fails in a way that may pass. -/
theorem Disk.decisive : Decisive Disk.handler where
  openRead path disk := by
    change mayPass (Disk.openRead path disk) = false
    rw [Disk.openRead]
    split
    · exact OsFault.mayPass_toIoError _
    · rfl
  list dir disk := by
    change mayPass (Disk.list dir disk) = false
    rw [Disk.list]
    split
    · exact OsFault.mayPass_toIoError _
    · rfl
    · rfl
  probe path disk := by
    change mayPass (Disk.probe path disk) = false
    rw [Disk.probe]
    split
    · rfl
    · rfl
    · exact OsFault.mayPass_toIoError _
  size _ _ := rfl
  readAt reader offset length disk := by
    change mayPass (Disk.readAt reader offset length disk) = false
    rw [Disk.readAt]
    dsimp only
    split
    · split <;> rfl
    · split_ifs <;> rfl
    · rfl
  pause _ _ := rfl

end BlockShuffle
