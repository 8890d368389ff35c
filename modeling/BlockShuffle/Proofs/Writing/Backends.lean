import Mathlib
import BlockShuffle.Proofs.Writing.Pushing

/-!
# In memory and on a disk the same is written

Whichever storage handlers of shards write to, and however they push their batches, they answer the same, come
equally far, and leave the same files (`backends_write_alike`). In memory the way of pushing makes no difference
(`Fleet.run_pushing`), and a fleet on a disk goes together with one in memory (`Together.run`), whether the two push
alike or not.

What is compared is everything a caller can see: the answer of each step, how far every handler is, the files
and their bytes, and what the directories list, after each step and not only at the end. Handlers in memory and
on a disk are not equal, as one has handles and buffers and the other has not, so the proof carries a relation
(`Twins`) that says which handle belongs to which file and that everything handed to the disk has been sent. It
is kept by each step, and what can be seen follows from it.

Failures of storage are left out on both sides. A disk refuses a path that is too long and a memory does not,
and no relation survives that; hence the run in memory is one without failures, and the files it made are ones
that the system would open. A batch that the writer itself refuses is no such failure, and is refused on both
sides. Handlers are used one at a time here, which `Proofs/Writing/Fleet` gives the form for.
-/

set_option autoImplicit false

namespace BlockShuffle

open Storage Program

/-! ## Handlers that are twins -/

section Twins

variable {layout : Layout} {range : PartitionRange} {shard : String} {memory memory' : Memory} {disk later : Disk}
  {live live' other : Option ShardWriter}

/-- There is no handler on either side, or there are twins. -/
inductive Twins (layout : Layout) (range : PartitionRange) (shard : String) (memory : Memory) (disk : Disk) :
    Option ShardWriter → Option ShardWriter → Prop where
  | none : Twins layout range shard memory disk none none
  | some {writer other : ShardWriter} (twin : Twin layout range shard memory disk writer other) :
      Twins layout range shard memory disk (some writer) (some other)

theorem Twins.frame (h : Twins layout range shard memory disk live other)
    (hfind : ShardWriter.isShardName shard = true → ∀ number extension, IsExtension extension →
      memory'.find? (layout.file range shard number extension) =
        memory.find? (layout.file range shard number extension))
    (hextends : disk.Extends later) : Twins layout range shard memory' later live other := by
  cases h with
  | none => exact .none
  | some twin => exact .some (twin.frame (hfind twin.named) hextends)

/-- A handler that was just created. -/
theorem twin_create (memory : Memory) (disk : Disk) {config config' : WriteConfig} {writer : ShardWriter}
    (hcreate : ShardWriter.create config range shard = .ok writer) (hlayout : config.layout = layout)
    (hlayout' : config'.layout = layout) :
    ∃ other, ShardWriter.create config' range shard = .ok other ∧
      Twin layout range shard memory disk writer other := by
  obtain ⟨hshard, rfl⟩ := ShardWriter.create_eq_ok_iff.mp hcreate
  exact ⟨_, ShardWriter.create_eq_ok_iff.mpr ⟨hshard, rfl⟩, hshard, ⟨hlayout, rfl, rfl⟩, ⟨hlayout', rfl, rfl⟩, rfl,
    rfl, Or.inl ⟨rfl, rfl⟩⟩

/-- A name that is refused is refused whatever the settings are. -/
theorem create_refuses {config config' : WriteConfig} {fault : ConfigFault}
    (h : ShardWriter.create config range shard = .error fault) :
    ShardWriter.create config' range shard = .error fault := by
  rw [ShardWriter.create] at h ⊢
  split at h
  · cases h
  · rename_i hshard
    rw [if_neg hshard]
    exact h

theorem Twins.run_letGo (h : Twins layout range shard memory disk live other) :
    (ShardWriter.letGo other).run Disk.handler disk = ((), disk) := by
  cases h with
  | none => rfl
  | some twin => exact (twin_drop twin).2

/-- **What goes well with a handler in memory goes well with its twin.** -/
theorem twin_use {writer twin : ShardWriter} (h : Twin layout range shard memory disk writer twin)
    (hreflects : Reflected layout memory disk) {what : ShardWriter.Use} {answer : Except Error Unit}
    (hrun : (writer.use what).run Memory.handler memory = ((answer, live'), memory'))
    (hfree : ∀ error, answer ≠ .error (.io error)) (hopen : AllOpen memory') :
    ∃ other' later, (twin.use what).run Disk.handler disk = ((answer, other'), later) ∧
      Twins layout range shard memory' later live' other' ∧ Reflected layout memory' later ∧ disk.Extends later := by
  have hrefl := Disk.Extends.refl disk
  cases what with
  | write blocks =>
    rw [ShardWriter.use, run_bind] at hrun ⊢
    rcases hwrite : (writer.write blocks).run Memory.handler memory with ⟨⟨result, writer'⟩, memory₁⟩
    rw [hwrite] at hrun
    cases hrun
    obtain ⟨twin', later, htwin, hafter, hreflects', hextends⟩ := twin_write h hreflects hwrite hfree hopen
    rw [htwin]
    exact ⟨_, later, rfl, .some hafter, hreflects', hextends⟩
  | rollOver =>
    obtain ⟨writer', twin', hroll, hroll', hafter⟩ := twin_rollOver h
    rw [ShardWriter.use, run_bind, hroll] at hrun
    rw [ShardWriter.use, run_bind, hroll']
    cases hrun
    exact ⟨_, disk, rfl, .some hafter, hreflects, hrefl⟩
  | close =>
    obtain ⟨hclose, hclose'⟩ := twin_close h
    rw [ShardWriter.use, run_bind, hclose] at hrun
    rw [ShardWriter.use, run_bind, hclose']
    cases hrun
    exact ⟨_, disk, rfl, .none, hreflects, hrefl⟩
  | drop =>
    obtain ⟨hdrop, hdrop'⟩ := twin_drop h
    rw [ShardWriter.use, run_bind, hdrop] at hrun
    rw [ShardWriter.use, run_bind, hdrop']
    cases hrun
    exact ⟨_, disk, rfl, .none, hreflects, hrefl⟩

theorem twins_step {config config' : WriteConfig} (hlayout : config.layout = layout) (hlayout' : config'.layout = layout)
    (h : Twins layout range shard memory disk live other) (hreflects : Reflected layout memory disk) {step : Step}
    {answer : Option (Except Error Unit)}
    (hrun : (ShardWriter.step config range shard step live).run Memory.handler memory = ((answer, live'), memory'))
    (hfree : ∀ error, answer ≠ some (.error (.io error))) (hopen : AllOpen memory') :
    ∃ other' later, (ShardWriter.step config' range shard step other).run Disk.handler disk =
        ((answer, other'), later) ∧
      Twins layout range shard memory' later live' other' ∧ Reflected layout memory' later ∧ disk.Extends later := by
  have hrefl := Disk.Extends.refl disk
  -- A writer is made from its settings alone, and so is its twin; to use one takes the storage, and a live writer.
  cases step with
  | create =>
    rw [ShardWriter.step, run_bind, ShardWriter.run_letGo_memory] at hrun
    rw [ShardWriter.step, run_bind, h.run_letGo]
    dsimp only at hrun ⊢
    cases hcreate : ShardWriter.create config range shard with
    | ok writer =>
      obtain ⟨twin, hcreate', htwin⟩ := twin_create memory disk hcreate hlayout hlayout'
      rw [hcreate] at hrun
      rw [hcreate']
      cases hrun
      exact ⟨_, disk, rfl, .some htwin, hreflects, hrefl⟩
    | error fault =>
      rw [hcreate] at hrun
      rw [create_refuses hcreate]
      cases hrun
      exact ⟨_, disk, rfl, .none, hreflects, hrefl⟩
  | use what =>
    cases h with
    | none =>
      cases hrun
      exact ⟨_, disk, rfl, .none, hreflects, hrefl⟩
    | @some writer twin htwin =>
      rw [ShardWriter.step, run_bind] at hrun ⊢
      rcases huse : (writer.use what).run Memory.handler memory with ⟨⟨result, live₁⟩, memory₁⟩
      rw [huse] at hrun
      cases hrun
      obtain ⟨other', later, hother, hafter⟩ :=
        twin_use htwin hreflects huse (fun error heq => hfree error (by rw [heq])) hopen
      rw [hother]
      exact ⟨other', later, rfl, hafter⟩

end Twins

/-! ## Fleets that go together -/

section Together

variable {κ : Type} [DecidableEq κ] {layout : Layout} {config config' : WriteConfig}
  {place : κ → PartitionRange × String} {fleet : Fleet κ Memory} {other : Fleet κ Disk}

/-- The memory and the disk reflect one another, and so do the handlers. -/
structure Together (layout : Layout) (place : κ → PartitionRange × String) (fleet : Fleet κ Memory)
    (other : Fleet κ Disk) : Prop where
  reflects : Reflected layout fleet.storage other.storage
  writers : ∀ k, Twins layout (place k).1 (place k).2 fleet.storage other.storage (fleet.writer k) (other.writer k)

omit [DecidableEq κ] in
theorem together_start : Together layout place (.start {}) (.start {}) := ⟨Or.inl ⟨rfl, rfl⟩, fun _ => .none⟩

/-- What is done with a handler does not touch the files of another shard. -/
theorem find?_step_of_twins {range range' : PartitionRange} {shard shard' : String} {memory : Memory} {disk : Disk}
    {live other : Option ShardWriter} (h : Twins layout range shard memory disk live other)
    (hne : (range, shard) ≠ (range', shard')) (config : WriteConfig) (step : Step)
    (hshard' : ShardWriter.isShardName shard' = true) (number : UInt32) {extension : List Char}
    (he : IsExtension extension) :
    ((ShardWriter.step config range shard step live).run Memory.handler memory).2.find?
        (layout.file range' shard' number extension) =
      memory.find? (layout.file range' shard' number extension) := by
  cases h with
  | none =>
    have howns : ∀ writer : ShardWriter, none = some writer → writer.Owns fun _ => False := by
      intro writer heq
      cases heq
    have hconfined := ShardWriter.confined_step howns config range shard step
    exact Memory.find?_run_of_ne hconfined (fun _ hmine => hmine.elim) memory
  | @some writer other twin =>
    have howns : ∀ writer', some writer = some writer' → writer'.Owns (IsFileOf layout range shard) := by
      intro writer' heq
      cases heq
      exact twin.owns
    refine Memory.find?_run_of_ne (ShardWriter.confined_step howns config range shard step) ?_ memory
    intro mine hmine heq
    obtain ⟨number', extension', he', rfl⟩ := hmine
    obtain ⟨hrange, hshard, -⟩ := Layout.file_inj_of_layout twin.named hshard' he' he heq
    exact hne (Prod.ext hrange hshard)

/-- **What goes well in memory goes well on the disk**, and the two fleets stay together. -/
theorem Together.act (h : Together layout place fleet other) (hplace : Function.Injective place)
    (hlayout : config.layout = layout) (hlayout' : config'.layout = layout) (k : κ) (step : Step)
    (hfree : ∀ error, (fleet.act Memory.handler config place k step).1 ≠ some (.error (.io error)))
    (hopen : AllOpen (fleet.act Memory.handler config place k step).2.storage) :
    (other.act Disk.handler config' place k step).1 = (fleet.act Memory.handler config place k step).1 ∧
      Together layout place (fleet.act Memory.handler config place k step).2
        (other.act Disk.handler config' place k step).2 := by
  rw [Fleet.act] at hfree hopen
  rcases hrun : (ShardWriter.step config (place k).1 (place k).2 step (fleet.writer k)).run Memory.handler
    fleet.storage with ⟨⟨answer, live⟩, memory⟩
  rw [hrun] at hfree hopen
  obtain ⟨live', later, hother, htwins, hreflects, hextends⟩ :=
    twins_step hlayout hlayout' (h.writers k) h.reflects hrun hfree hopen
  rw [Fleet.act, Fleet.act, hrun, hother]
  refine ⟨rfl, hreflects, fun k' => ?_⟩
  dsimp only
  by_cases hk : k' = k
  · subst hk
    rw [Function.update_self, Function.update_self]
    exact htwins
  · rw [Function.update_of_ne hk, Function.update_of_ne hk]
    refine (h.writers k').frame (fun hshard number extension he => ?_) hextends
    have hfind := find?_step_of_twins (h.writers k) (fun heq => hk (hplace heq).symm) config step hshard number he
    rw [hrun] at hfind
    exact hfind

/-- **Fleets go together for as long as nothing fails.** -/
theorem Together.run (hplace : Function.Injective place) (hlayout : config.layout = layout)
    (hlayout' : config'.layout = layout) (actions : List (κ × Step)) : ∀ {fleet other},
    Together layout place fleet other →
    (∀ error, some (.error (.io error)) ∉ (fleet.run Memory.handler config place actions).1) →
    AllOpen (fleet.run Memory.handler config place actions).2.storage →
    (other.run Disk.handler config' place actions).1 = (fleet.run Memory.handler config place actions).1 ∧
      Together layout place (fleet.run Memory.handler config place actions).2
        (other.run Disk.handler config' place actions).2 := by
  induction actions with
  | nil => exact fun h _ _ => ⟨rfl, h⟩
  | cons action actions ih =>
    intro fleet other h hfree hopen
    obtain ⟨k, step⟩ := action
    rw [Fleet.run_cons] at hfree hopen
    have hopen₁ : AllOpen (fleet.act Memory.handler config place k step).2.storage :=
      fun path hpath => hopen path (Fleet.mem_paths_run actions hpath)
    obtain ⟨hanswer, hmid⟩ := h.act hplace hlayout hlayout' k step
      (fun error heq => hfree error (heq ▸ List.mem_cons_self)) hopen₁
    obtain ⟨hanswers, hlast⟩ := ih hmid (fun error hmem => hfree error (List.mem_cons_of_mem _ hmem)) hopen
    rw [Fleet.run_cons, Fleet.run_cons, hanswer, hanswers]
    exact ⟨rfl, hlast⟩

end Together

/-! ## The same whatever it is written to -/

/-- Where files can be kept. -/
inductive Backend where
  | memory
  | disk

namespace Backend

@[reducible]
def Storage : Backend → Type
  | .memory => Memory
  | .disk => Disk

def handler : (backend : Backend) → Handler backend.Storage
  | .memory => Memory.handler
  | .disk => Disk.handler

def empty : (backend : Backend) → backend.Storage
  | .memory => {}
  | .disk => {}

/-- The contents of the file of a path. What is still buffered is not in them. -/
def find? : (backend : Backend) → backend.Storage → Path → Option Contents
  | .memory => Memory.find?
  | .disk => Disk.find?

/-- The paths of the files in a directory, in the order in which they are listed; none where the listing fails. -/
def listed (backend : Backend) (storage : backend.Storage) (dir : Path) : List Path :=
  BlockShuffle.listed (backend.handler (.list dir) storage).1

/-- Do one thing behind the other, from empty storage. -/
def run {κ : Type} [DecidableEq κ] (backend : Backend) (config : WriteConfig) (place : κ → PartitionRange × String)
    (actions : List (κ × Step)) : List (Option (Except Error Unit)) × Fleet κ backend.Storage :=
  (Fleet.start backend.empty).run backend.handler config place actions

end Backend

/-- An appender apart from what its storage holds for it. -/
def Storage.Appender.state (appender : Appender) : Appender := { path := appender.path, position := appender.position }

/-- A handler apart from how it pushes, and from what its storage holds for it. -/
def ShardWriter.state (writer : ShardWriter) : ShardWriter :=
  { writer with
    strategy := .everyBatch
    pair := writer.pair.map fun pair => { pair with data := pair.data.state, index := pair.index.state } }

section Alike

variable {κ : Type} {layout : Layout} {range : PartitionRange} {shard : String} {memory : Memory} {disk : Disk}
  {place : κ → PartitionRange × String}

/-- Handlers that are in the same state, over storages with the same files of a shuffle. -/
structure Alike (layout : Layout) (backend backend' : Backend) (fleet : Fleet κ backend.Storage)
    (other : Fleet κ backend'.Storage) : Prop where
  writers : ∀ k, (other.writer k).map ShardWriter.state = (fleet.writer k).map ShardWriter.state
  data : ∀ range shard number, ShardWriter.isShardName shard = true →
    backend'.find? other.storage (layout.shardFiles range shard number).data =
      backend.find? fleet.storage (layout.shardFiles range shard number).data
  index : ∀ range shard number, ShardWriter.isShardName shard = true →
    backend'.find? other.storage (layout.shardFiles range shard number).index =
      backend.find? fleet.storage (layout.shardFiles range shard number).index
  lists : ∀ range, backend'.listed other.storage (layout.partitionDir range) =
    backend.listed fleet.storage (layout.partitionDir range)

theorem alike_pushing (layout : Layout) (strategy : SyncStrategy) (fleet : Fleet κ Memory) :
    Alike layout .memory .memory fleet (fleet.pushing strategy) where
  writers _ := Option.map_map ..
  data _ _ _ _ := rfl
  index _ _ _ _ := rfl
  lists _ := rfl

theorem FileAtRest.state_eq {number : UInt32} {extension : List Char} {appender other : Appender}
    (h : FileAtRest layout range shard number extension memory disk appender other) :
    other.state = appender.state := by
  rw [Appender.state, Appender.state, AtRest.other_path h, AtRest.position h]

theorem Twin.state_eq {writer other : ShardWriter} (h : Twin layout range shard memory disk writer other) :
    other.state = writer.state := by
  have hpair : (other.pair.map fun pair => { pair with data := pair.data.state, index := pair.index.state }) =
      writer.pair.map fun pair => { pair with data := pair.data.state, index := pair.index.state } := by
    rcases h.pair with ⟨hnone, hnone'⟩ | ⟨number, pair, pair', hpair, hpair', htwin⟩
    · rw [hnone, hnone']
    · rw [hpair, hpair', Option.map_some, Option.map_some, htwin.other_files, htwin.data.state_eq,
        htwin.index.state_eq]
  rw [ShardWriter.state, ShardWriter.state, hpair, h.isOf.layout, h.isOf.range, h.isOf.shard, h.other_isOf.layout,
    h.other_isOf.range, h.other_isOf.shard, h.number, h.blocksWritten]

theorem Twins.state_eq {live other : Option ShardWriter} (h : Twins layout range shard memory disk live other) :
    other.map ShardWriter.state = live.map ShardWriter.state := by
  cases h with
  | none => rfl
  | some twin => exact congrArg Option.some twin.state_eq

theorem Together.alike {fleet : Fleet κ Memory} {other : Fleet κ Disk} (h : Together layout place fleet other)
    (hopen : AllOpen fleet.storage) : Alike layout .memory .disk fleet other where
  writers k := (h.writers k).state_eq
  data range shard number hshard := by
    have hname := isName_fileName hshard number isExtension_data
    exact (h.reflects.find?_eq layout.isNamed_shuffleDir (isName_text range) hname hopen).symm
  index range shard number hshard := by
    have hname := isName_fileName hshard number isExtension_index
    exact (h.reflects.find?_eq layout.isNamed_shuffleDir (isName_text range) hname hopen).symm
  lists range := (h.reflects.listed_eq layout.isNamed_shuffleDir (isName_text range) hopen).symm

end Alike

section Runs

open Company (similar similarConfig)
open ShardWriter (oneByte)

variable {κ : Type} [DecidableEq κ] {config : WriteConfig} {place : κ → PartitionRange × String}
  {actions : List (κ × Step)}

/-- At the end of a run the four ways to write are alike. -/
theorem alike_run (hplace : Function.Injective place)
    (hfree : ∀ error, some (.error (.io error)) ∉ (Backend.memory.run config place actions).1)
    (hopen : AllOpen (Backend.memory.run config place actions).2.storage) (backend : Backend) (strategy : SyncStrategy) :
    (backend.run { config with sync := strategy } place actions).1 = (Backend.memory.run config place actions).1 ∧
      Alike config.layout .memory backend (Backend.memory.run config place actions).2
        (backend.run { config with sync := strategy } place actions).2 := by
  cases backend with
  | memory =>
    have hrun : Backend.memory.run { config with sync := strategy } place actions =
        ((Backend.memory.run config place actions).1, (Backend.memory.run config place actions).2.pushing strategy) :=
      Fleet.run_pushing config place actions (Fleet.start {})
    rw [hrun]
    exact ⟨rfl, alike_pushing config.layout strategy _⟩
  | disk =>
    have hlayout : WriteConfig.layout { config with sync := strategy } = config.layout := rfl
    obtain ⟨hanswers, htogether⟩ := Together.run hplace rfl hlayout actions together_start hfree hopen
    exact ⟨hanswers, htogether.alike hopen⟩

/-- **In memory and on a disk, and however batches are pushed, the same is written.** Take any shards, no two with the
same range and name, and start from empty storage. Let handlers of them be created, write batches of any blocks, roll
over, be closed and be dropped, in any order, with at most one handler of a shard at a time. If no call fails in
memory, and the operating system accepts the names of the files that are there in the end, then in memory as on a
disk, and with either way of pushing, every answer is the same. Behind each of the things that are done the handlers
are in the same state, every data file and every index file has the same contents, buffered bytes left out, or is
missing, and the directory of every range lists the same files in the same order. -/
theorem backends_write_alike (hplace : Function.Injective place)
    (hfree : ∀ error, some (.error (.io error)) ∉ (Backend.memory.run config place actions).1)
    (hopen : ∀ path ∈ (Backend.memory.run config place actions).2.storage.paths, Disk.Opens path)
    (backend : Backend) (strategy : SyncStrategy) :
    (backend.run { config with sync := strategy } place actions).1 = (Backend.memory.run config place actions).1 ∧
      ∀ done, done <+: actions → Alike config.layout .memory backend (Backend.memory.run config place done).2
        (backend.run { config with sync := strategy } place done).2 := by
  refine ⟨(alike_run hplace hfree hopen backend strategy).1, fun done hdone => ?_⟩
  obtain ⟨rest, rfl⟩ := hdone
  have happend : Backend.memory.run config place (done ++ rest) =
      ((Backend.memory.run config place done).1 ++
          ((Backend.memory.run config place done).2.run Memory.handler config place rest).1,
        ((Backend.memory.run config place done).2.run Memory.handler config place rest).2) := by
    rw [Backend.run, Fleet.run_append]
    rfl
  rw [happend] at hfree hopen
  have hfree' : ∀ error, some (.error (.io error)) ∉ (Backend.memory.run config place done).1 :=
    fun error hmem => hfree error (List.mem_append_left _ hmem)
  have hopen' : AllOpen (Backend.memory.run config place done).2.storage :=
    fun path hpath => hopen path (Fleet.mem_paths_run rest hpath)
  exact (alike_run hplace hfree' hopen' backend strategy).2

/-- One of them rolls over and has a batch refused, and the other is closed and goes on in the same pair. -/
def comingAndGoing : List (Bool × Step) :=
  [(true, .use (.write [])), (false, .create), (true, .create), (false, .use (.write [oneByte 1, oneByte 2])),
    (true, .use (.write [oneByte 3])), (false, .use .rollOver), (false, .use (.write [oneByte 4])),
    (false, .use (.write [{ oneByte 5 with length := 7 }])), (true, .use .close), (true, .create),
    (true, .use (.write [oneByte 6, oneByte 7])), (false, .use .drop), (true, .create)]

/-- The answer that a call to the storage failed. -/
def isStorageFailure : Option (Except Error Unit) → Bool
  | some (.error (.io _)) => true
  | _ => false

/-- Only the refused batch is answered with an error, and the pair that was gone on in has both blocks. -/
theorem backends_write_alike_comingAndGoing :
    let reference := Backend.memory.run similarConfig similar comingAndGoing
    reference.1.map (·.map Except.isOk) = [none, some true, some true, some true, some true, some true, some true,
      some false, some true, some true, some true, some true, some true] ∧
    (∀ path ∈ reference.2.storage.paths, Disk.Opens path) ∧
    ∀ backend strategy, let other := Backend.run backend { similarConfig with sync := strategy } similar comingAndGoing
      other.1 = reference.1 ∧
      (backend.find? other.2.storage (similarConfig.layout.shardFiles ⟨0, 0⟩ "a_1" 0).data).map Contents.bytes =
        some [3, 6, 7] := by
  intro reference
  have hplace : Function.Injective similar := by
    intro k other
    revert k other
    decide +kernel
  have hfree : ∀ error, some (.error (.io error)) ∉ reference.1 := by
    intro error hmem
    have hnone : (reference.1.all fun answer => !isStorageFailure answer) = true := by decide +kernel
    exact absurd (List.all_eq_true.mp hnone _ hmem) (by simp [isStorageFailure])
  have hopen : ∀ path ∈ reference.2.storage.paths, Disk.Opens path := by
    intro path hpath
    have hall : (reference.2.storage.paths.all fun path => (Disk.openAppend path {}).1.isOk) = true := by decide +kernel
    have hok := List.all_eq_true.mp hall path hpath
    cases hopened : (Disk.openAppend path {}).1 with
    | error fault => simp [hopened, Except.isOk, Except.toBool] at hok
    | ok appender => exact ⟨appender, hopened⟩
  refine ⟨by decide +kernel, hopen, fun backend strategy => ?_⟩
  obtain ⟨hanswers, halike⟩ := backends_write_alike hplace hfree hopen backend strategy
  refine ⟨hanswers, ?_⟩
  dsimp only
  rw [(halike _ List.prefix_rfl).data ⟨0, 0⟩ "a_1" 0 (by decide)]
  decide +kernel

end Runs

end BlockShuffle
