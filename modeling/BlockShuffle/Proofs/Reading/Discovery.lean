import Mathlib
import BlockShuffle.Proofs.Reading.Opening
import BlockShuffle.Proofs.Storage.Memory

/-!
# Finding shards in memory

On a memory, opening a partition cannot fail: a directory that is not there holds nothing, and an index that
is listed can be read. So opening is a function of the memory, `Memory.shardsIn`: list the directories,
recognise the index files, and keep the pairs that count as there.

What is found does not depend on the limits of the settings or on the number of retries, only on the roots, the
partition and what is stored: `shard?` reads an index as a whole where the program reads it in chunks, and
`yields_openShard` is the place where the two meet. So two readers with other limits find shards of the same
files, though their plans differ.

A memory is as generous as a storage can be, which is why there is a function to give. On one whose calls may
fail, or whose files are being written to meanwhile, what an opening comes to is said call by call in
`Proofs/Reading/Finding`. Which files a name is taken for is not decided here either; that is
`Proofs/ShardNames`, and `mem_shardsIn_iff` only refers to it.
-/

set_option autoImplicit false

namespace BlockShuffle

open Storage Program

theorem ShardFiles.index_of_ofIndex? {path : Path} {pair : ShardFiles}
    (h : ShardFiles.ofIndex? path = some pair) : pair.index = path := by
  simp only [ofIndex?, Option.bind_eq_bind, Option.bind_eq_some_iff] at h
  obtain ⟨_, -, h⟩ := h
  split at h
  · cases h
  · simp only [Option.bind_eq_some_iff] at h
    obtain ⟨_, -, _, -, ⟨⟩⟩ := h
    rfl

namespace Memory

/-- The files directly inside a directory. -/
def listing (memory : Memory) (dir : Path) : List Path :=
  memory.paths.filter fun path => path.isDirectlyIn dir

/-- The shard of a pair whose index is there; none, if the pair does not count as there. -/
def shard? (memory : Memory) (config : ReadConfig) (pair : ShardFiles) : Option ShardReader :=
  let entries := indexEntries memory.bytes? pair.index
  if memory.contains pair.data then
    match ReadPlan.ofEntries entries config.byteLimit config.entryLimit with
    | .error _ => none
    | .ok reads => some ⟨pair, config.retry, reads.toArray, entries.length, none⟩
  else none

/-- The shards whose index files are among these paths. -/
def shardsOf (memory : Memory) (config : ReadConfig) (paths : List Path) : List ShardReader :=
  paths.filterMap fun path => (ShardFiles.ofIndex? path).bind (memory.shard? config)

/-- The shards of the partition that the settings name. -/
def shardsIn (memory : Memory) (config : ReadConfig) : List ShardReader :=
  config.partitionDirs.flatMap fun dir => memory.shardsOf config (memory.listing dir)

variable {memory : Memory} {config : ReadConfig}

theorem shard?_eq_some {pair : ShardFiles} {shard : ShardReader}
    (h : memory.shard? config pair = some shard) :
    shard.files = pair ∧ shard.OpenedFrom memory.bytes? config := by
  rw [shard?] at h
  split at h
  · split at h
    · cases h
    · rename_i reads hplan
      cases h
      exact ⟨rfl, hplan, rfl⟩
  · cases h

/-- A pair with a data file counts as there if its index is in order. -/
theorem isSome_shard? {pair : ShardFiles} {data : Contents} (hdata : memory.find? pair.data = some data) :
    (memory.shard? config pair).isSome = true ↔
      ReadPlan.checkOrdered 0 (indexEntries memory.bytes? pair.index) = .ok () := by
  rw [shard?, if_pos (contains_of_find? hdata)]
  constructor
  · intro hsome
    split at hsome
    · cases hsome
    · rename_i reads hplan
      exact (ReadPlan.ofEntries_eq_ok_iff.mp hplan).1
  · intro hordered
    have hplan : ReadPlan.ofEntries _ config.byteLimit config.entryLimit = .ok _ :=
      ReadPlan.ofEntries_eq_ok_iff.mpr ⟨hordered, rfl⟩
    rw [hplan]
    rfl

theorem list_eq (memory : Memory) (dir : Path) :
    memory.list dir = if memory.contains dir then .ok (memory.listing dir) else .error (notFound dir) := by
  rw [list, listing, paths, List.filter_map]
  rfl

theorem listing_of_not_contains {dir : Path} (h : ¬ memory.contains dir = true) :
    memory.listing dir = [] := by
  rw [listing, List.filter_eq_nil_iff]
  intro path hp hin
  obtain ⟨entry, he, rfl⟩ := List.mem_map.mp hp
  exact h (List.any_eq_true.mpr ⟨entry, he, Path.isWithin_of_isDirectlyIn hin⟩)

/-! ## Opening -/

theorem yields_probe (memory : Memory) (path : Path) :
    (Program.probe path).Yields Memory.handler (· = memory) (· = .ok (memory.contains path)) := by
  rintro _ rfl
  exact ⟨rfl, rfl⟩

theorem yields_list (memory : Memory) (dir : Path) :
    (Program.list dir).Yields Memory.handler (· = memory) (· = memory.list dir) := by
  rintro _ rfl
  exact ⟨rfl, rfl⟩

theorem yields_openShard {pair : ShardFiles} {contents : Contents}
    (hfind : memory.find? pair.index = some contents) :
    (ShardReader.open pair config.entryLimit config.byteLimit config.retry).Yields Memory.handler
      (· = memory) (· = .ok (memory.shard? config pair)) := by
  have hserves := serves_memory memory
  have hbytes := bytes?_of_find? hfind
  rw [ShardReader.open, shard?]
  apply (yields_retried_eq hserves.pause config.retry (yields_probe memory pair.data)).bind
  rintro _ rfl
  cases memory.contains pair.data with
  | false => exact yields_done rfl
  | true =>
    apply (ShardReader.yields_readIndex hserves.pause config.retry (hserves.openRead _ _ hbytes)
      config.entryLimit).bind
    rintro _ rfl
    have hentries : indexEntries memory.bytes? pair.index = (IndexEntry.decodeAll contents.bytes).1 := by
      rw [indexEntries, hbytes, Option.getD_some]
    dsimp only
    rw [hentries, if_pos rfl]
    cases ReadPlan.ofEntries (IndexEntry.decodeAll contents.bytes).1 config.byteLimit config.entryLimit with
    | error fault => exact yields_done rfl
    | ok reads => exact yields_done rfl

theorem yields_openListed {paths : List Path} (hpaths : ∀ path ∈ paths, path ∈ memory.paths) :
    (PartitionReader.openListed config paths).Yields Memory.handler (· = memory)
      (· = .ok (memory.shardsOf config paths)) := by
  induction paths with
  | nil => exact yields_done rfl
  | cons path paths ih =>
    have hrest := ih fun other ho => hpaths other (List.mem_cons_of_mem _ ho)
    rw [PartitionReader.openListed, shardsOf, List.filterMap_cons]
    cases hpair : ShardFiles.ofIndex? path with
    | none => exact hrest
    | some pair =>
      have hindex : pair.index ∈ memory.paths := by
        rw [ShardFiles.index_of_ofIndex? hpair]
        exact hpaths path List.mem_cons_self
      obtain ⟨contents, hfind⟩ := exists_find?_of_mem_paths hindex
      apply (yields_openShard hfind).bind
      rintro _ rfl
      apply hrest.bind
      rintro _ rfl
      apply yields_done
      rw [Option.bind_some]
      cases memory.shard? config pair <;> rfl

theorem yields_openDirs (memory : Memory) (config : ReadConfig) (dirs : List Path) :
    (PartitionReader.openDirs config dirs).Yields Memory.handler (· = memory)
      (· = .ok (dirs.flatMap fun dir => memory.shardsOf config (memory.listing dir))) := by
  have hserves := serves_memory memory
  induction dirs with
  | nil => exact yields_done rfl
  | cons dir dirs ih =>
    rw [PartitionReader.openDirs, List.flatMap_cons]
    apply (yields_retried hserves.pause config.retry (yields_list memory dir)).bind
    rintro _ ⟨attempts, _, rfl, rfl⟩
    rw [list_eq]
    by_cases hcontains : memory.contains dir = true
    · rw [if_pos hcontains]
      have hpaths : ∀ path ∈ memory.listing dir, path ∈ memory.paths :=
        fun path hp => (List.mem_filter.mp hp).1
      apply (yields_openListed hpaths).bind
      rintro _ rfl
      apply ih.bind
      rintro _ rfl
      exact yields_done rfl
    · rw [if_neg hcontains, listing_of_not_contains hcontains]
      exact ih

/-- **Opening a partition in memory finds the shards that are there**, and fails only on its settings. -/
theorem yields_open (memory : Memory) (hcheck : config.check = .ok ()) (expected tasks : IdSet) :
    (Reconciler.open config expected tasks).Yields Memory.handler (· = memory)
      (· = .ok (Reconciler.ofReader (PartitionReader.ofShards
        (if expected.isEmpty then [] else memory.shardsIn config)) expected tasks)) := by
  rw [Reconciler.open, hcheck]
  dsimp only
  split
  · exact yields_done rfl
  · rw [PartitionReader.open, hcheck]
    dsimp only
    rw [bind_assoc]
    apply (yields_openDirs memory config config.partitionDirs).bind
    rintro _ rfl
    exact yields_done rfl

/-! ## What is found -/

theorem mem_shardsIn_iff {shard : ShardReader} :
    shard ∈ memory.shardsIn config ↔ ∃ dir ∈ config.partitionDirs, ∃ path ∈ memory.paths,
      path.isDirectlyIn dir = true ∧
      ∃ pair, ShardFiles.ofIndex? path = some pair ∧ memory.shard? config pair = some shard := by
  simp only [shardsIn, shardsOf, listing, List.mem_flatMap, List.mem_filterMap, List.mem_filter,
    Option.bind_eq_some_iff, and_assoc]

end Memory

end BlockShuffle
