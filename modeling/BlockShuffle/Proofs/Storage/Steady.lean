import Mathlib
import BlockShuffle.ShardReader
import BlockShuffle.Proofs.Storage.Memory

/-!
# Reading from a storage that holds still

A storage that no call fails on and nobody writes to still goes from state to state: it may count its
calls, or keep a cache. What a reader needs is that it stays *good*, whatever that means for the storage,
and that in good states it answers from the same files. `Yields` says of a program that it keeps the
storage good and what it ends with; programs are put together from calls, and so are the facts about
them (`Yields.bind`).

`Serves` is the storage itself: which files there are, and that reads of them are answered with their
bytes. For bytes that are known to be in a file it is enough that the file starts with them (`Offers`): such
a file may have grown. Nothing is asked of listings and probes but to keep the storage good, for a reader believes the
index and not the listing. A memory that is only read serves what is in it (`serves_memory`).
-/

set_option autoImplicit false

namespace BlockShuffle

namespace Storage

variable {σ α β : Type} {handler : Handler σ} {good : σ → Prop}

/-! ## Programs that keep a storage good -/

/-- Run in any good state, the program ends in a good state, with a value of which `post` holds. -/
def Program.Yields (handler : Handler σ) (good : σ → Prop) (program : Program α)
    (post : α → Prop) : Prop :=
  ∀ s, good s → post (program.run handler s).1 ∧ good (program.run handler s).2

namespace Program

theorem run_call (call : Call) (s : σ) : (Program.call call).run handler s = handler call s := rfl

theorem yields_done {value : α} {post : α → Prop} (h : post value) :
    (Program.done value).Yields handler good post :=
  fun _ hs => ⟨h, hs⟩

theorem yields_any (program : Program α) : program.Yields handler (fun _ => True) fun _ => True :=
  fun _ _ => ⟨trivial, trivial⟩

theorem Yields.bind {program : Program α} {next : α → Program β} {mid : α → Prop} {post : β → Prop}
    (h : program.Yields handler good mid)
    (hnext : ∀ value, mid value → (next value).Yields handler good post) :
    (program >>= next).Yields handler good post := by
  intro s hs
  obtain ⟨hmid, hgood⟩ := h s hs
  rw [run_bind]
  exact hnext _ hmid _ hgood

theorem Yields.mono {program : Program α} {post post' : α → Prop}
    (h : program.Yields handler good post) (himp : ∀ value, post value → post' value) :
    program.Yields handler good post' :=
  fun s hs => ⟨himp _ (h s hs).1, (h s hs).2⟩

end Program

/-! ## Files that are there to read -/

/-- A reader of a file with these bytes. -/
structure Reads (handler : Handler σ) (good : σ → Prop) (reader : Reader) (bytes : Bytes) : Prop where
  length_lt : bytes.length < UInt64.size
  size : (Program.size reader).Yields handler good (· = .ok bytes.length)
  readAt : ∀ offset length, offset + length ≤ bytes.length →
    (Program.readAt reader offset length).Yields handler good
      (· = .ok ((bytes.drop offset).take length))

/-- A storage that answers reads of these files, while it is good, and stays good while it is read. -/
structure Serves (handler : Handler σ) (good : σ → Prop) (files : Path → Option Bytes) : Prop where
  openRead : ∀ path bytes, files path = some bytes →
    (Program.openRead path).Yields handler good
      fun answer => ∃ reader, answer = .ok reader ∧ Reads handler good reader bytes
  openRead_none : ∀ path, files path = none →
    (Program.openRead path).Yields handler good
      fun answer => ∃ error, answer = .error error ∧ error.kind.isTransient = false
  list : ∀ dir, (Program.list dir).Yields handler good fun _ => True
  probe : ∀ path, (Program.probe path).Yields handler good fun _ => True
  pause : ∀ microseconds, (Program.pause microseconds).Yields handler good fun _ => True

/-! ## Files that may grow -/

/-- A storage that waits when told to, and stays good. -/
def Waits (handler : Handler σ) (good : σ → Prop) : Prop :=
  ∀ microseconds, (Program.pause microseconds).Yields handler good fun _ => True

/-- A reader of a file that starts with these bytes. -/
structure Holds (handler : Handler σ) (good : σ → Prop) (reader : Reader) (bytes : Bytes) : Prop where
  length_lt : bytes.length < UInt64.size
  readAt : ∀ offset length, offset + length ≤ bytes.length →
    (Program.readAt reader offset length).Yields handler good
      (· = .ok ((bytes.drop offset).take length))

/-- A storage with files that start with these bytes, while it is good. -/
structure Offers (handler : Handler σ) (good : σ → Prop) (files : Path → Option Bytes) : Prop where
  openRead : ∀ path bytes, files path = some bytes →
    (Program.openRead path).Yields handler good
      fun answer => ∃ reader, answer = .ok reader ∧ Holds handler good reader bytes
  pause : Waits handler good

theorem Reads.holds {reader : Reader} {bytes : Bytes} (h : Reads handler good reader bytes) :
    Holds handler good reader bytes := ⟨h.length_lt, h.readAt⟩

theorem Serves.offers {files : Path → Option Bytes} (h : Serves handler good files) :
    Offers handler good files := by
  refine ⟨fun path bytes hbytes => (h.openRead path bytes hbytes).mono ?_, h.pause⟩
  rintro answer ⟨reader, rfl, hreads⟩
  exact ⟨reader, rfl, hreads.holds⟩

end Storage

open Storage Program

variable {σ α : Type} {handler : Handler σ} {good : σ → Prop}

/-! ## Retries -/

section Retried

variable {operation : Program (Except IoError α)}

theorem yields_retryFrom {pause : Nat → Program Unit} {policy : RetryPolicy}
    (hpause : ∀ microseconds, (pause microseconds).Yields handler good fun _ => True)
    {mid : Except IoError α → Prop} (h : operation.Yields handler good mid) (left : Nat) :
    (retryFrom policy pause operation left).Yields handler good
      fun answer => ∃ attempts outcome, mid outcome ∧ answer = settle attempts outcome := by
  induction left with
  | zero =>
    rw [retryFrom]
    exact h.bind fun outcome hmid => yields_done ⟨_, outcome, hmid, rfl⟩
  | succ left ih =>
    rw [retryFrom]
    apply h.bind
    intro outcome hmid
    split
    · exact (hpause _).bind fun _ _ => ih
    · exact yields_done ⟨_, outcome, hmid, rfl⟩

/-- What a retried call comes to is what one of its attempts came to. -/
theorem yields_retried (hpause : Waits handler good) (policy : RetryPolicy)
    {mid : Except IoError α → Prop} (h : operation.Yields handler good mid) :
    (retried policy operation).Yields handler good
      fun answer => ∃ attempts outcome, mid outcome ∧ answer = settle attempts outcome :=
  yields_retryFrom hpause h policy.maxRetries

theorem yields_retried_ok (hpause : Waits handler good) (policy : RetryPolicy) {mid : α → Prop}
    (h : operation.Yields handler good fun answer => ∃ value, answer = .ok value ∧ mid value) :
    (retried policy operation).Yields handler good
      fun answer => ∃ value, answer = .ok value ∧ mid value := by
  apply (yields_retried hpause policy h).mono
  rintro answer ⟨attempts, outcome, ⟨value, rfl, hmid⟩, rfl⟩
  exact ⟨value, rfl, hmid⟩

theorem yields_retried_eq (hpause : Waits handler good) (policy : RetryPolicy) {value : α}
    (h : operation.Yields handler good (· = .ok value)) :
    (retried policy operation).Yields handler good (· = .ok value) := by
  apply (yields_retried hpause policy h).mono
  rintro answer ⟨attempts, outcome, rfl, rfl⟩
  rfl

end Retried

/-! ## Programs that lead somewhere -/

/-- From every state with `pre` the program ends with a value and a state with `post`. -/
def Storage.Program.Leads (handler : Handler σ) (pre : σ → Prop) (program : Program α)
    (post : α → σ → Prop) : Prop :=
  ∀ s, pre s → post (program.run handler s).1 (program.run handler s).2

namespace Storage.Program

variable {β : Type} {pre : σ → Prop}

theorem Yields.leads {program : Program α} {post : α → Prop} (h : program.Yields handler good post) :
    program.Leads handler good fun value s => post value ∧ good s := h

theorem leads_done {value : α} {post : α → σ → Prop} (h : ∀ s, pre s → post value s) :
    (Program.done value).Leads handler pre post := h

theorem Leads.bind {program : Program α} {next : α → Program β} {mid : α → σ → Prop} {post : β → σ → Prop}
    (h : program.Leads handler pre mid) (hnext : ∀ value, (next value).Leads handler (mid value) post) :
    (program >>= next).Leads handler pre post := by
  intro s hs
  rw [run_bind]
  exact hnext _ _ (h s hs)

theorem Leads.of_each {program : Program α} {post : α → σ → Prop}
    (h : ∀ s, pre s → program.Leads handler (· = s) post) : program.Leads handler pre post :=
  fun s hs => h s hs s rfl

theorem Leads.from_state {program : Program α} {post : α → σ → Prop} (h : program.Leads handler pre post)
    {s : σ} (hs : pre s) : program.Leads handler (· = s) post :=
  fun _ heq => heq ▸ h s hs

/-- A call that does not fail in a way that may pass is made once. -/
theorem leads_retried {operation : Program (Except IoError α)} {mid : Except IoError α → σ → Prop}
    (policy : RetryPolicy) (h : operation.Leads handler pre mid)
    (hsettled : ∀ outcome s, mid outcome s → mayPass outcome = false) :
    (retried policy operation).Leads handler pre fun answer s =>
      ∃ attempts outcome, mid outcome s ∧ answer = settle attempts outcome := by
  rw [retried, retry]
  cases policy.maxRetries with
  | zero =>
    rw [retryFrom]
    exact h.bind fun outcome => leads_done fun s hmid => ⟨_, outcome, hmid, rfl⟩
  | succ left =>
    rw [retryFrom]
    refine h.bind fun outcome => Leads.of_each fun s hmid => ?_
    rw [hsettled outcome s hmid]
    rintro _ rfl
    exact ⟨_, outcome, hmid, rfl⟩

end Storage.Program

/-! ## Memory -/

namespace Memory

theorem reads_memory {memory : Memory} {path : Path} {contents : Contents}
    (h : memory.find? path = some contents) :
    Reads Memory.handler (· = memory) { path } contents.bytes where
  length_lt := contents.length_lt
  size := by
    rintro s rfl
    refine ⟨?_, rfl⟩
    change Memory.size _ _ = _
    rw [Memory.size, h]
    rfl
  readAt := by
    rintro offset length hle s rfl
    refine ⟨?_, rfl⟩
    change Memory.readAt _ _ _ _ = _
    rw [Memory.readAt, h]
    dsimp only
    rw [Contents.slice?_eq_slice?_bytes, Bytes.slice?, if_pos hle]

/-- A memory that is only read serves what is in it. -/
theorem serves_memory (memory : Memory) : Serves Memory.handler (· = memory) memory.bytes? where
  openRead := by
    rintro path bytes hbytes s rfl
    obtain ⟨contents, hfind, rfl⟩ := Option.map_eq_some_iff.mp hbytes
    refine ⟨⟨{ path }, ?_, reads_memory hfind⟩, rfl⟩
    change (Memory.handler (.openRead path) s).1 = _
    rw [Memory.handler, hfind]
  openRead_none := by
    rintro path hbytes s rfl
    have hfind := Option.map_eq_none_iff.mp hbytes
    refine ⟨⟨notFound path, ?_, rfl⟩, rfl⟩
    change (Memory.handler (.openRead path) s).1 = _
    rw [Memory.handler, hfind]
  list := by
    rintro dir s rfl
    exact ⟨trivial, rfl⟩
  probe := by
    rintro path s rfl
    exact ⟨trivial, rfl⟩
  pause := by
    rintro microseconds s rfl
    exact ⟨trivial, rfl⟩

end Memory

end BlockShuffle
