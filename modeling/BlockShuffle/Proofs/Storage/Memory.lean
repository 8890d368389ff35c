import Mathlib
import BlockShuffle.Storage.Memory
import BlockShuffle.Proofs.Path

/-!
# Files in memory

Memory is a sorted list, but nothing about what a path holds depends on the order: `find?_insert` is the
law of a map from what paths name to contents, for any list. `paths` are the spellings that files are
listed under. Storing a file adds at most its own spelling, and takes none away.

These are the equations that a path looked up behind an update satisfies, one for each operation of a memory and
each thing one asks of it: the contents, the bytes, the spellings it lists. Proofs about programs use these and
never see the list. Where two paths are compared it is by their components, since that is what a memory does,
and the lemmas for another path ask for other components and not for another text.

Deleting and renaming have no lemmas here. The library itself calls neither; they are part of the storage that
callers get, and where a file is gone or damaged in a statement, the memory it is gone from is given.
-/

set_option autoImplicit false

namespace BlockShuffle

namespace Bytes

theorem slice?_eq_some_iff {bytes payload : Bytes} {offset length : Nat} :
    bytes.slice? offset length = some payload ↔
      offset + length ≤ bytes.length ∧ (bytes.drop offset).take length = payload := by
  rw [slice?]
  split_ifs with h <;> simp [h]

theorem slice?_append {bytes payload : Bytes} {offset length : Nat}
    (h : bytes.slice? offset length = some payload) (more : Bytes) :
    Bytes.slice? (bytes ++ more) offset length = some payload := by
  obtain ⟨hle, hpayload⟩ := slice?_eq_some_iff.mp h
  refine slice?_eq_some_iff.mpr ⟨by rw [List.length_append]; omega, ?_⟩
  rw [List.drop_append_of_le_length (by omega),
    List.take_append_of_le_length (by rw [List.length_drop]; omega), hpayload]

end Bytes

namespace Path

theorem sameAs_refl (path : Path) : path.sameAs path = true := sameAs_iff.mpr rfl

/-- What is directly in a directory is a name behind it. -/
theorem isDirectlyIn_iff {path dir : Path} {above : List Component} {name : List Char}
    (h : path.components = above ++ [.name name]) :
    path.isDirectlyIn dir = true ↔ above = dir.components := by
  rw [isDirectlyIn, h, List.reverse_append, List.reverse_singleton, List.singleton_append]
  simp

theorem components_of_isDirectlyIn {path dir : Path} (h : path.isDirectlyIn dir = true) :
    ∃ last, path.components = dir.components ++ [last] := by
  rw [isDirectlyIn] at h
  split at h
  · cases h
  · cases h
  · rename_i last above hroot heq
    have hcomponents := congrArg List.reverse heq
    rw [List.reverse_reverse, List.reverse_cons, beq_iff_eq.mp h] at hcomponents
    exact ⟨last, hcomponents⟩

theorem isWithin_iff {path dir : Path} : path.isWithin dir = true ↔ dir.components <+: path.components :=
  List.isPrefixOf_iff_prefix

theorem isWithin_of_isDirectlyIn {path dir : Path} (h : path.isDirectlyIn dir = true) :
    path.isWithin dir = true := by
  obtain ⟨last, hcomponents⟩ := components_of_isDirectlyIn h
  rw [isWithin_iff, hcomponents]
  exact List.prefix_append _ _

end Path

namespace Memory

theorem find?_sortedInsert (path other : Path) (contents : Contents) (files : List (Path × Contents)) :
    ((SortedList.insert Path.order path contents files).find? fun entry => entry.1.sameAs other).map
        (·.2) =
      if path.sameAs other then some contents
      else (files.find? fun entry => entry.1.sameAs other).map (·.2) := by
  induction files with
  | nil =>
    rw [SortedList.insert, List.find?_cons]
    cases path.sameAs other <;> rfl
  | cons entry files ih =>
    obtain ⟨key, kept⟩ := entry
    rw [SortedList.insert]
    cases horder : Path.order path key with
    | lt =>
      dsimp only
      rw [List.find?_cons]
      cases path.sameAs other <;> rfl
    | eq =>
      have hsame : key.sameAs other = path.sameAs other := by
        rw [Path.sameAs, Path.sameAs, Path.order_eq_iff.mp horder]
      dsimp only
      rw [List.find?_cons, List.find?_cons]
      dsimp only
      rw [hsame]
      cases path.sameAs other <;> rfl
    | gt =>
      dsimp only
      rw [List.find?_cons, List.find?_cons]
      cases hkey : key.sameAs other with
      | false => exact ih
      | true =>
        -- The key that is found is another than the one stored.
        have hne : path.sameAs other = false := by
          cases hpath : path.sameAs other with
          | false => rfl
          | true =>
            have heq := (Path.sameAs_iff.mp hpath).trans (Path.sameAs_iff.mp hkey).symm
            rw [Path.order_eq_iff.mpr heq] at horder
            cases horder
        simp [hne]

theorem find?_insert (memory : Memory) (path other : Path) (contents : Contents) :
    (memory.insert path contents).find? other =
      if path.sameAs other then some contents else memory.find? other :=
  find?_sortedInsert path other contents memory.files

theorem find?_insert_self (memory : Memory) (path : Path) (contents : Contents) :
    (memory.insert path contents).find? path = some contents := by
  rw [find?_insert, if_pos path.sameAs_refl]

theorem find?_insert_of_ne {path other : Path} (h : path.components ≠ other.components) (memory : Memory)
    (contents : Contents) : (memory.insert path contents).find? other = memory.find? other := by
  rw [find?_insert, if_neg]
  rw [Path.sameAs_iff]
  exact h

theorem find?_congr {path other : Path} (h : path.sameAs other = true) (memory : Memory) :
    memory.find? path = memory.find? other := by
  have hsame : ∀ entry : Path × Contents, entry.1.sameAs path = entry.1.sameAs other := by
    intro entry
    rw [Path.sameAs, Path.sameAs, Path.sameAs_iff.mp h]
  simp only [find?, hsame]

/-- The bytes of the file of a path. -/
def bytes? (memory : Memory) (path : Path) : Option Bytes := (memory.find? path).map Contents.bytes

theorem bytes?_of_find? {memory : Memory} {path : Path} {contents : Contents}
    (h : memory.find? path = some contents) : memory.bytes? path = some contents.bytes := by
  rw [bytes?, h]
  rfl

theorem bytes?_insert_self (memory : Memory) (path : Path) (contents : Contents) :
    (memory.insert path contents).bytes? path = some contents.bytes :=
  bytes?_of_find? (find?_insert_self memory path contents)

theorem bytes?_insert_of_ne {path other : Path} (h : path.components ≠ other.components) (memory : Memory)
    (contents : Contents) : (memory.insert path contents).bytes? other = memory.bytes? other := by
  rw [bytes?, find?_insert_of_ne h, bytes?]

/-- What an append comes to: an error, with nothing done, or a longer file, with the appender at its end. -/
theorem append_cases (appender : Storage.Appender) (bytes : Bytes) (memory : Memory) :
    (∃ error, append appender bytes memory = ((.error error, appender), memory)) ∨
    ∃ contents longer, memory.find? appender.path = some contents ∧ contents.append? bytes = some longer ∧
      append appender bytes memory =
        ((.ok (), { appender with position := longer.size }), memory.insert appender.path longer) := by
  rw [append]
  cases hfind : memory.find? appender.path with
  | none => exact Or.inl ⟨_, rfl⟩
  | some contents =>
    dsimp only
    cases hlonger : contents.append? bytes with
    | none => exact Or.inl ⟨_, rfl⟩
    | some longer => exact Or.inr ⟨contents, longer, rfl, hlonger, rfl⟩

/-- An opened file is there, and its appender is at its end. -/
theorem openAppend_eq (path : Path) (memory : Memory) :
    ∃ contents, (openAppend path memory).2.find? path = some contents ∧
      (openAppend path memory).1 = { path, position := contents.size } := by
  rw [openAppend]
  cases hfind : memory.find? path with
  | some contents => exact ⟨contents, hfind, rfl⟩
  | none => exact ⟨.empty, find?_insert_self _ _ _, rfl⟩

/-- Opening a file creates it, empty, if nothing is there, and changes nothing else. -/
theorem find?_openAppend (path other : Path) (memory : Memory) :
    (openAppend path memory).2.find? other =
      (memory.find? other).or (if path.sameAs other then some .empty else none) := by
  rw [openAppend]
  cases hfind : memory.find? path with
  | some contents =>
    dsimp only
    split
    · rename_i hsame
      rw [← find?_congr hsame, hfind, Option.some_or]
    · rw [Option.or_none]
  | none =>
    dsimp only
    rw [find?_insert]
    split
    · rename_i hsame
      rw [← find?_congr hsame, hfind, Option.none_or]
    · rw [Option.or_none]

theorem find?_openAppend_of_ne {path other : Path} (h : path.components ≠ other.components)
    (memory : Memory) : (openAppend path memory).2.find? other = memory.find? other := by
  rw [find?_openAppend, if_neg, Option.or_none]
  rw [Path.sameAs_iff]
  exact h

/-- Opening a file puts no bytes anywhere. -/
theorem bytes?_openAppend (path other : Path) (memory : Memory) :
    ((openAppend path memory).2.bytes? other).getD [] = (memory.bytes? other).getD [] := by
  rw [openAppend]
  cases hfind : memory.find? path with
  | some contents => rfl
  | none =>
    dsimp only
    rw [bytes?, find?_insert]
    split
    · rename_i hsame
      rw [bytes?, ← find?_congr hsame, hfind]
      rfl
    · rfl

/-! ## Spellings -/

/-- The paths that files are listed under. -/
def paths (memory : Memory) : List Path := memory.files.map (·.1)

theorem mem_sortedInsert {path stored : Path} {contents : Contents} {files : List (Path × Contents)} :
    (stored ∈ (SortedList.insert Path.order path contents files).map (·.1) →
      stored = path ∨ stored ∈ files.map (·.1)) ∧
    (stored ∈ files.map (·.1) →
      stored ∈ (SortedList.insert Path.order path contents files).map (·.1)) := by
  induction files with
  | nil => simp [SortedList.insert]
  | cons entry files ih =>
    obtain ⟨key, kept⟩ := entry
    rw [SortedList.insert]
    cases Path.order path key with
    | lt =>
      simp only [List.map_cons, List.mem_cons]
      exact ⟨id, Or.inr⟩
    | eq =>
      simp only [List.map_cons, List.mem_cons]
      exact ⟨Or.inr, id⟩
    | gt =>
      simp only [List.map_cons, List.mem_cons]
      constructor
      · rintro (h | h)
        · exact Or.inr (Or.inl h)
        · exact (ih.1 h).imp_right Or.inr
      · rintro (h | h)
        · exact Or.inl h
        · exact Or.inr (ih.2 h)

theorem mem_paths_of_insert {memory : Memory} {path stored : Path} {contents : Contents}
    (h : stored ∈ (memory.insert path contents).paths) : stored = path ∨ stored ∈ memory.paths :=
  mem_sortedInsert.1 h

theorem mem_paths_insert {memory : Memory} {stored : Path} (h : stored ∈ memory.paths) (path : Path)
    (contents : Contents) : stored ∈ (memory.insert path contents).paths :=
  mem_sortedInsert.2 h

/-- A file is listed under some spelling of its path. -/
theorem exists_mem_paths {memory : Memory} {path : Path} {contents : Contents}
    (h : memory.find? path = some contents) :
    ∃ stored ∈ memory.paths, stored.components = path.components := by
  obtain ⟨entry, hentry, -⟩ := Option.map_eq_some_iff.mp h
  have hsame := List.find?_some hentry
  exact ⟨entry.1, List.mem_map_of_mem (List.mem_of_find?_eq_some hentry), Path.sameAs_iff.mp hsame⟩

/-- What is listed is a file. -/
theorem exists_find?_of_mem_paths {memory : Memory} {path : Path} (h : path ∈ memory.paths) :
    ∃ contents, memory.find? path = some contents := by
  obtain ⟨entry, hentry, rfl⟩ := List.mem_map.mp h
  have hsome : (memory.files.find? fun other => other.1.sameAs entry.1).isSome = true :=
    List.find?_isSome.mpr ⟨entry, hentry, Path.sameAs_refl _⟩
  obtain ⟨found, hfound⟩ := Option.isSome_iff_exists.mp hsome
  exact ⟨found.2, by rw [find?, hfound]; rfl⟩

/-- A new file is listed under its own path. -/
theorem mem_paths_insert_self {memory : Memory} {path : Path} (h : memory.find? path = none) (contents : Contents) :
    path ∈ (memory.insert path contents).paths := by
  obtain ⟨stored, hstored, hsame⟩ := exists_mem_paths (find?_insert_self memory path contents)
  rcases mem_paths_of_insert hstored with rfl | hold
  · exact hstored
  · obtain ⟨found, hfound⟩ := exists_find?_of_mem_paths hold
    rw [find?_congr (Path.sameAs_iff.mpr hsame), h] at hfound
    cases hfound

theorem mem_paths_openAppend {path stored : Path} {memory : Memory} :
    stored ∈ (openAppend path memory).2.paths ↔
      stored ∈ memory.paths ∨ memory.find? path = none ∧ stored = path := by
  rw [openAppend]
  cases hfind : memory.find? path with
  | some contents => simp
  | none =>
    dsimp only
    constructor
    · intro h
      exact (mem_paths_of_insert h).symm.imp_right fun heq => ⟨rfl, heq⟩
    · rintro (h | ⟨-, rfl⟩)
      · exact mem_paths_insert h _ _
      · exact mem_paths_insert_self hfind _

/-! ## Directories -/

theorem contains_of_find? {memory : Memory} {path : Path} {contents : Contents}
    (h : memory.find? path = some contents) : memory.contains path = true := by
  obtain ⟨stored, hstored, heq⟩ := exists_mem_paths h
  obtain ⟨entry, hentry, rfl⟩ := List.mem_map.mp hstored
  refine List.any_eq_true.mpr ⟨entry, hentry, ?_⟩
  rw [Path.isWithin_iff, heq]

end Memory

end BlockShuffle
