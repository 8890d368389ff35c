import Mathlib
import BlockShuffle.ShardReader
import BlockShuffle.Proofs.Storage.Memory

/-!
# Two storages that differ in the bytes of one file

A program is run on two storages side by side. While it looks at no byte that differs it cannot tell them apart,
and what it comes to where it does look is a relation between two values (`Program.Lockstep`).

`Damaged` is the pair of storages: one answers reads of a file from the bytes that were written, the other
from as many bytes with some of them changed. All else is answered alike, failures included, and nothing is
said about which failures there are. Two memories with the file changed in one of them are such a pair
(`Memory.damaged`).

The relation between the two storages is kept through the run, so it has to be one that no answer breaks. That
is why the damaged file has as many bytes as the other: its length is answered as before, no read falls short
that did not, and an error is the same error on both sides. Files that were cut short are another matter, since
readers notice them; they are treated in `Proofs/Reading/Losses`.

Two runs side by side are needed here, where a single run and a postcondition are enough elsewhere, because the
statement compares outcomes and does not say what they are. `Blind` is the case in which nothing was noticed.
Writing is not covered; a program that appends to a damaged file is not one of the programs that are compared.
-/

set_option autoImplicit false

namespace BlockShuffle

namespace Storage

variable {σ τ α β γ δ ε : Type} {handler : Handler σ} {handler' : Handler τ} {alike : σ → τ → Prop}

/-! ## Side by side -/

/-- Both are the same failure, or both are values and these are related. -/
inductive Outcomes (related : α → β → Prop) : Except ε α → Except ε β → Prop where
  | error (error : ε) : Outcomes related (.error error) (.error error)
  | ok {value : α} {other : β} (h : related value other) : Outcomes related (.ok value) (.ok other)

theorem Outcomes.mono {related related' : α → β → Prop} {outcome : Except ε α} {other : Except ε β}
    (h : Outcomes related outcome other) (himp : ∀ value other, related value other → related' value other) :
    Outcomes related' outcome other := by
  cases h with
  | error error => exact .error error
  | ok h => exact .ok (himp _ _ h)

theorem outcomes_eq_iff {outcome outcome' : Except ε α} :
    Outcomes (fun value other => other = value) outcome outcome' ↔ outcome' = outcome := by
  constructor
  · intro h
    cases h with
    | error error => rfl
    | ok h => rw [h]
  · rintro rfl
    cases outcome' with
    | error error => exact .error error
    | ok value => exact .ok rfl

/-- Run on storages that are alike, the two programs leave them alike, and end in values that are related. -/
def Program.Lockstep (handler : Handler σ) (handler' : Handler τ) (alike : σ → τ → Prop) (program : Program α)
    (other : Program β) (post : α → β → Prop) : Prop :=
  ∀ s t, alike s t → post (program.run handler s).1 (other.run handler' t).1 ∧
    alike (program.run handler s).2 (other.run handler' t).2

namespace Program

theorem lockstep_done {value : α} {other : β} {post : α → β → Prop} (h : post value other) :
    (Program.done value).Lockstep handler handler' alike (Program.done other) post :=
  fun _ _ hs => ⟨h, hs⟩

theorem Lockstep.bind {program : Program α} {other : Program β} {next : α → Program γ} {next' : β → Program δ}
    {mid : α → β → Prop} {post : γ → δ → Prop} (h : program.Lockstep handler handler' alike other mid)
    (hnext : ∀ value value', mid value value' →
      (next value).Lockstep handler handler' alike (next' value') post) :
    (program >>= next).Lockstep handler handler' alike (other >>= next') post := by
  intro s t hs
  obtain ⟨hmid, hafter⟩ := h s t hs
  rw [run_bind, run_bind]
  exact hnext _ _ hmid _ _ hafter

theorem Lockstep.mono {program : Program α} {other : Program β} {post post' : α → β → Prop}
    (h : program.Lockstep handler handler' alike other post)
    (himp : ∀ value value', post value value' → post' value value') :
    program.Lockstep handler handler' alike other post' :=
  fun s t hs => ⟨himp _ _ (h s t hs).1, (h s t hs).2⟩

/-- The program does not notice on which of the two storages it runs. -/
def Blind (handler : Handler σ) (handler' : Handler τ) (alike : σ → τ → Prop) (program : Program α) : Prop :=
  program.Lockstep handler handler' alike program fun value other => other = value

theorem blind_done (value : α) : (Program.done value).Blind handler handler' alike := lockstep_done rfl

theorem Blind.bind {program : Program α} {next : α → Program β} (h : program.Blind handler handler' alike)
    (hnext : ∀ value, (next value).Blind handler handler' alike) :
    (program >>= next).Blind handler handler' alike := by
  apply Lockstep.bind h
  rintro _ value rfl
  exact hnext value

end Program

/-! ## One file -/

/-- What two storages answer to a read of a range of a file. Of the file that differs these are the bytes of
the range in either version of it; of any other file they are the same bytes. -/
structure Torn (file : Path → Prop) (before after : Bytes) (path : Path) (offset length : Nat)
    (bytes others : Bytes) : Prop where
  changed : file path → before.slice? offset length = some bytes ∧ after.slice? offset length = some others
  same : ¬file path → others = bytes

/-- Two storages that answer alike, but for the bytes of a file: the first reads it as `before`, the second
as `after`. -/
structure Damaged (handler : Handler σ) (handler' : Handler τ) (alike : σ → τ → Prop) (file : Path → Prop)
    (before after : Bytes) : Prop where
  list : ∀ dir, (Program.list dir).Blind handler handler' alike
  probe : ∀ path, (Program.probe path).Blind handler handler' alike
  /-- A handle is one of the file that was asked for. -/
  openRead : ∀ path, (Program.openRead path).Lockstep handler handler' alike (Program.openRead path)
    (Outcomes fun reader other => other = reader ∧ reader.path = path)
  size : ∀ reader, (Program.size reader).Blind handler handler' alike
  readAt : ∀ reader offset length, (Program.readAt reader offset length).Lockstep handler handler' alike
    (Program.readAt reader offset length) (Outcomes (Torn file before after reader.path offset length))
  pause : ∀ microseconds, (Program.pause microseconds).Blind handler handler' alike

end Storage

open Storage

/-! ## Retries -/

section Retries

open Program

variable {σ τ α β : Type} {handler : Handler σ} {handler' : Handler τ} {alike : σ → τ → Prop} {file : Path → Prop}
  {before after : Bytes}

theorem outcomes_settle {related : α → β → Prop} {outcome : Except IoError α} {other : Except IoError β}
    (h : Outcomes related outcome other) (attempts : Nat) :
    Outcomes related (settle attempts outcome) (settle attempts other) := by
  cases h with
  | ok h => exact .ok h
  | error error =>
    rw [settle, settle]
    split
    · exact .error _
    · exact .error _

theorem mayPass_eq_of_outcomes {related : α → β → Prop} {outcome : Except IoError α} {other : Except IoError β}
    (h : Outcomes related outcome other) : mayPass other = mayPass outcome := by
  cases h with
  | error error => rfl
  | ok h => rfl

theorem lockstep_retryFrom (hdamaged : Damaged handler handler' alike file before after) (policy : RetryPolicy)
    {operation : Program (Except IoError α)} {operation' : Program (Except IoError β)} {related : α → β → Prop}
    (h : operation.Lockstep handler handler' alike operation' (Outcomes related)) (left : Nat) :
    (retryFrom policy Program.pause operation left).Lockstep handler handler' alike
      (retryFrom policy Program.pause operation' left) (Outcomes related) := by
  induction left with
  | zero => exact h.bind fun outcome other houtcome => lockstep_done (outcomes_settle houtcome _)
  | succ left ih =>
    rw [retryFrom, retryFrom]
    refine h.bind fun outcome other houtcome => ?_
    rw [mayPass_eq_of_outcomes houtcome]
    split
    · exact Lockstep.bind (hdamaged.pause _) fun _ _ _ => ih
    · exact lockstep_done (outcomes_settle houtcome _)

/-- A call that is retried goes on side by side. -/
theorem lockstep_retried (hdamaged : Damaged handler handler' alike file before after) (policy : RetryPolicy)
    {operation : Program (Except IoError α)} {operation' : Program (Except IoError β)} {related : α → β → Prop}
    (h : operation.Lockstep handler handler' alike operation' (Outcomes related)) :
    (retried policy operation).Lockstep handler handler' alike (retried policy operation') (Outcomes related) :=
  lockstep_retryFrom hdamaged policy h policy.maxRetries

/-- Retrying does not make it notice more. -/
theorem blind_retried (hdamaged : Damaged handler handler' alike file before after) (policy : RetryPolicy)
    {operation : Program (Except IoError α)} (h : operation.Blind handler handler' alike) :
    (retried policy operation).Blind handler handler' alike :=
  (lockstep_retried hdamaged policy (h.mono fun _ _ => outcomes_eq_iff.mpr)).mono fun _ _ => outcomes_eq_iff.mp

end Retries

/-! ## Memory -/

namespace Memory

/-- Change what the file of a path holds, and nothing else. -/
def overwrite (path : Path) (contents : Contents) (memory : Memory) : Memory :=
  ⟨memory.files.map fun entry => if entry.1.sameAs path then (entry.1, contents) else entry⟩

variable {path : Path} {contents : Contents} {memory : Memory}

theorem paths_overwrite : (memory.overwrite path contents).files.map (·.1) = memory.files.map (·.1) := by
  rw [overwrite, List.map_map]
  refine List.map_congr_left fun entry _ => ?_
  rw [Function.comp_apply]
  split_ifs <;> rfl

theorem find?_overwrite (other : Path) : (memory.overwrite path contents).find? other =
    if other.sameAs path then (memory.find? other).map fun _ => contents else memory.find? other := by
  have hkey (entry : Path × Contents) :
      ((if entry.1.sameAs path then (entry.1, contents) else entry) : Path × Contents).1 = entry.1 := by
    split_ifs <;> rfl
  rw [find?, overwrite, List.find?_map, Option.map_map, find?]
  simp only [Function.comp_def, hkey]
  cases hfound : memory.files.find? fun entry => entry.1.sameAs other with
  | none => split_ifs <;> rfl
  | some entry =>
    have hsame : entry.1.sameAs path = other.sameAs path := by
      have := List.find?_some hfound
      rw [Path.sameAs, Path.sameAs, Path.sameAs_iff.mp this]
    rw [Option.map_some, Option.map_some, hsame]
    split_ifs <;> rfl

theorem contains_overwrite (other : Path) :
    (memory.overwrite path contents).contains other = memory.contains other := by
  have hany (files : List (Path × Contents)) : (files.any fun entry => entry.1.isWithin other) =
      (files.map (·.1)).any fun stored => stored.isWithin other := by
    rw [List.any_map]
    rfl
  rw [contains, contains, hany, hany, paths_overwrite]

theorem list_overwrite (dir : Path) : list dir (memory.overwrite path contents) = list dir memory := by
  have hfilter (files : List (Path × Contents)) : (files.filter fun entry => entry.1.isDirectlyIn dir).map (·.1) =
      (files.map (·.1)).filter fun stored => stored.isDirectlyIn dir := by
    rw [List.filter_map]
    rfl
  rw [list, list, contains_overwrite, hfilter, hfilter, paths_overwrite]

theorem openRead_overwrite (other : Path) :
    (handler (.openRead other) (memory.overwrite path contents)).1 = (handler (.openRead other) memory).1 := by
  rw [handler, handler, find?_overwrite]
  dsimp only
  cases memory.find? other <;> split_ifs <;> rfl

theorem size_overwrite {written : Contents} (h : memory.find? path = some written)
    (hlength : contents.length = written.length) (reader : Reader) :
    size reader (memory.overwrite path contents) = size reader memory := by
  rw [size, size, find?_overwrite]
  split_ifs with hpath
  · rw [find?_congr hpath, h, Option.map_some]
    exact congrArg Except.ok hlength
  · rfl

/-- A range is inside both versions of the file, or outside both. -/
theorem outcomes_readAt_overwrite {written : Contents} (h : memory.find? path = some written)
    (hlength : contents.length = written.length) (reader : Reader) (offset length : Nat) :
    Outcomes (Torn (fun other => other.sameAs path = true) written.bytes contents.bytes reader.path offset length)
      (readAt reader offset length memory) (readAt reader offset length (memory.overwrite path contents)) := by
  rw [readAt, readAt, find?_overwrite]
  split_ifs with hpath
  · rw [find?_congr hpath, h, Option.map_some]
    dsimp only
    have hbytes : contents.bytes.length = written.bytes.length := by
      rw [Contents.length_bytes, Contents.length_bytes, hlength]
    rw [Contents.slice?_eq_slice?_bytes, Contents.slice?_eq_slice?_bytes, hlength]
    by_cases hinside : offset + length ≤ written.bytes.length
    · have hbefore := Bytes.slice?_eq_some_iff.mpr ⟨hinside, rfl⟩
      have hafter := Bytes.slice?_eq_some_iff.mpr ⟨hinside.trans_eq hbytes.symm, rfl⟩
      rw [hbefore, hafter]
      exact .ok ⟨fun _ => ⟨hbefore, hafter⟩, fun hne => absurd hpath hne⟩
    · rw [Bytes.slice?, Bytes.slice?, hbytes, if_neg hinside, if_neg hinside]
      exact .error _
  · cases memory.find? reader.path with
    | none => exact .error _
    | some found =>
      dsimp only
      cases found.slice? offset length with
      | none => exact .error _
      | some bytes => exact .ok ⟨fun hp => absurd hp hpath, fun _ => rfl⟩

/-- **Two memories, one with a file changed**, are alike but for the bytes of that file. -/
theorem damaged {written : Contents} (h : memory.find? path = some written)
    (hlength : contents.length = written.length) :
    Damaged handler handler (fun s t => s = memory ∧ t = memory.overwrite path contents)
      (fun other => other.sameAs path = true) written.bytes contents.bytes where
  list dir := by
    rintro s t ⟨rfl, rfl⟩
    exact ⟨list_overwrite dir, rfl, rfl⟩
  probe other := by
    rintro s t ⟨rfl, rfl⟩
    exact ⟨congrArg Except.ok (contains_overwrite other), rfl, rfl⟩
  openRead other := by
    rintro s t ⟨rfl, rfl⟩
    refine ⟨?_, rfl, rfl⟩
    change Outcomes _ (handler (.openRead other) s).1 (handler (.openRead other) (s.overwrite path contents)).1
    rw [openRead_overwrite, handler]
    dsimp only
    cases s.find? other with
    | none => exact .error _
    | some found => exact .ok ⟨rfl, rfl⟩
  size reader := by
    rintro s t ⟨rfl, rfl⟩
    exact ⟨size_overwrite h hlength reader, rfl, rfl⟩
  readAt reader offset length := by
    rintro s t ⟨rfl, rfl⟩
    exact ⟨outcomes_readAt_overwrite h hlength reader offset length, rfl, rfl⟩
  pause microseconds := by
    rintro s t ⟨rfl, rfl⟩
    exact ⟨rfl, rfl, rfl⟩

end Memory

end BlockShuffle
