import Mathlib
import BlockShuffle.Proofs.Storage.Mirror

/-!
# What there is to see of a memory and a disk

A storage that nothing was stored in is empty, and from the first file on the two mirror one another
(`Reflects`). Either way the same files are found in both under the same paths, and the directories of files list the
same paths in the same order. On a disk a directory may be there before there is a file in it, and in memory it is not;
a listing that fails is as good as one of nothing.

`Mirrors` is about one directory and its number, and before the first file there is neither. `Reflects` covers
both cases, so that the comparison of two runs may start from nothing. What is listed is compared as the list it
is, in its order: in memory the order of the paths, on a disk that of the names, which agree because the paths
have the directory in common (`order_join`).

Only directories in which files are kept are compared. The directories above them are on the disk as nodes and
in memory not at all, and a listing of one of those would differ, in nothing that a reader or a writer asks for.
That a listing which fails is as good as one of nothing is said by `listed`, and it is also what a reader makes
of a directory that is missing.
-/

set_option autoImplicit false

namespace BlockShuffle

open Storage
open BlockShuffle.Path (IsName IsNamed)
open Disk (Placed skeleton Takes Accepted)

namespace Path

theorem compare_append (front : List Component) (back other : List Component) :
    compare (front ++ back) (front ++ other) = compare back other := by
  induction front with
  | nil => rfl
  | cons component front ih =>
    have hself : compare component component = .eq := Std.ReflCmp.compare_self
    rw [List.cons_append, List.cons_append, List.compare_eq_compareLex, List.compareLex_cons_cons, hself,
      ← List.compare_eq_compareLex, ih]
    rfl

/-- Paths in one directory are in the order of their names. -/
theorem order_join (dir : Path) {name other : List Char} (hname : IsName name) (hother : IsName other) :
    order (dir.join name) (dir.join other) = compare name other := by
  rw [order, components_join dir hname, components_join dir hother, compare_append, List.compare_eq_compareLex,
    List.compareLex_cons_cons, List.compareLex_nil_nil, Ordering.then_eq]
  show (compare name other).then .eq = _
  rw [Ordering.then_eq]

instance : Std.Irrefl fun path other : Path => order path other = .lt where
  irrefl path h := by
    have hself : order path path = .eq := Std.ReflCmp.compare_self
    exact absurd (hself.symm.trans h) nofun

instance : Std.Antisymm fun path other : Path => order path other = .lt where
  antisymm path other h h' := by
    have hself : order path path = .eq := Std.ReflCmp.compare_self
    exact absurd (hself.symm.trans (Std.TransCmp.lt_trans h h')) nofun

end Path

/-! ## Storages that reflect one another -/

/-- The number that a directory gets on a disk that was empty. -/
def Disk.numberOf (dir : Path) : Nat :=
  match (skeleton dir).resolve dir with
  | .ok here => here
  | .error _ => 0

theorem Disk.numberOf_eq {dir : Path} {here : Nat} (h : (skeleton dir).resolve dir = .ok here) :
    numberOf dir = here := by
  rw [numberOf, h]

/-- A path that a file can be opened under on an empty disk. -/
def Disk.Opens (path : Path) : Prop := ∃ appender, (openAppend path {}).1 = .ok appender

/-- Both are empty, or hold the same files in the directories of `dir`. -/
def Reflects (dir : Path) (memory : Memory) (disk : Disk) : Prop :=
  (memory = {} ∧ disk = {}) ∨ Mirrors dir (Disk.numberOf dir) memory disk

variable {dir : Path} {memory : Memory} {disk : Disk} {range name : List Char}

theorem takes_of_opens (hdir : dir.IsNamed) (hrange : IsName range) (hname : IsName name)
    (h : Disk.Opens ((dir.join range).join name)) :
    (skeleton dir).resolve dir = .ok (Disk.numberOf dir) ∧ (skeleton dir).IsDir (Disk.numberOf dir) ∧
      Takes dir range name (Disk.numberOf dir) ∧
      Disk.openAppend ((dir.join range).join name) {} =
        Disk.openAppend ((dir.join range).join name) (skeleton dir) := by
  obtain ⟨appender, happender⟩ := h
  obtain ⟨here, hleads, hisDir, htakes, hopen⟩ := Disk.takes_of_openAppend hdir hrange hname happender
  rw [Disk.numberOf_eq hleads]
  exact ⟨hleads, hisDir, htakes, hopen⟩

/-- **A file that can be opened on an empty disk is opened on both alike**, the first as well as any other. -/
theorem Reflects.openAppend (h : Reflects dir memory disk) (hdir : dir.IsNamed) (hrange : IsName range)
    (hname : IsName name) (hopens : Disk.Opens ((dir.join range).join name)) :
    ∃ other later, Disk.openAppend ((dir.join range).join name) disk = (.ok other, later) ∧
      Mirrors dir (Disk.numberOf dir) (Memory.openAppend ((dir.join range).join name) memory).2 later ∧
      AtRest dir (Disk.numberOf dir) range name (Memory.openAppend ((dir.join range).join name) memory).2 later
        (Memory.openAppend ((dir.join range).join name) memory).1 other ∧
      disk.Extends later := by
  obtain ⟨hleads, hisDir, htakes, hopen⟩ := takes_of_opens hdir hrange hname hopens
  rcases h with ⟨rfl, rfl⟩ | h
  · obtain ⟨other, later, heq, hmirrors, hrest, hextends⟩ :=
      (Mirrors.skeleton hleads hisDir).openAppend hdir hrange hname htakes
    rw [hopen]
    exact ⟨other, later, heq, hmirrors, hrest, (Disk.extends_makeDirectories {} _).trans hextends⟩
  · exact h.openAppend hdir hrange hname htakes

/-! ## Files -/

/-- A file is listed under the path that it was joined to. -/
theorem Mirrors.mem_paths {here : Nat} {contents : Contents} (h : Mirrors dir here memory disk)
    (hrange : IsName range) (hname : IsName name)
    (hfind : memory.find? ((dir.join range).join name) = some contents) :
    (dir.join range).join name ∈ memory.paths := by
  obtain ⟨stored, hstored, hsame⟩ := Memory.exists_mem_paths hfind
  obtain ⟨range', name', hrange', hname', rfl⟩ := h.stored stored hstored
  obtain ⟨rfl, rfl⟩ := (Path.sameAs_join_join_iff hrange' hname' hrange hname).mp (Path.sameAs_iff.mpr hsame)
  exact hstored

/-- A path that is opened is listed. -/
theorem Reflects.mem_paths_openAppend (h : Reflects dir memory disk) (hrange : IsName range) (hname : IsName name) :
    (dir.join range).join name ∈ (Memory.openAppend ((dir.join range).join name) memory).2.paths := by
  rw [Memory.openAppend]
  cases hfind : memory.find? ((dir.join range).join name) with
  | none => exact Memory.mem_paths_insert_self hfind .empty
  | some contents =>
    rcases h with ⟨rfl, -⟩ | h
    · cases hfind
    · exact h.mem_paths hrange hname hfind

/-- What a path leads to in a directory of `dir`. -/
theorem Mirrors.resolve_join_join_eq_ok_iff {here number : Nat} (h : Mirrors dir here memory disk)
    (hdir : dir.IsNamed) (hrange : IsName range) (hname : IsName name) :
    disk.resolve ((dir.join range).join name) = .ok number ↔
      Disk.Fits range ∧ Disk.Fits name ∧ disk.Placed here range name number := by
  rw [Disk.resolve_join_eq_ok_iff (Path.isNamed_join dir hrange) hname]
  simp only [Disk.resolve_join_eq_ok_iff hdir hrange, h.leads, Except.ok.injEq]
  constructor
  · intro ⟨mid, ⟨_, rfl, hfits, hmid⟩, hfits', hnumber⟩
    exact ⟨hfits, hfits', mid, hmid, hnumber⟩
  · intro ⟨hfits, hfits', mid, hmid, hnumber⟩
    exact ⟨mid, ⟨here, rfl, hfits, hmid⟩, hfits', hnumber⟩

theorem Disk.find?_eq_some_iff {path : Path} {contents : Contents} :
    disk.find? path = some contents ↔
      Accepted path ∧ ∃ number, disk.resolve path = .ok number ∧ disk.nodes[number]? = some (.file contents) := by
  have hlookup : ∀ {found : Contents}, (∃ number, disk.lookup path = .ok (number, .file found)) ↔
      Accepted path ∧ ∃ number, disk.resolve path = .ok number ∧ disk.nodes[number]? = some (.file found) := by
    simp only [Disk.lookup_eq_ok_iff, exists_and_left, implies_true]
  rw [← hlookup, Disk.find?]
  constructor
  · intro h
    split at h
    · rename_i number found heq
      cases h
      exact ⟨number, heq⟩
    · cases h
  · intro ⟨number, heq⟩
    rw [heq]

/-- **The same files are found under the same paths.** -/
theorem Reflects.find?_eq (h : Reflects dir memory disk) (hdir : dir.IsNamed) (hrange : IsName range)
    (hname : IsName name) (hopens : ∀ path ∈ memory.paths, Disk.Opens path) :
    memory.find? ((dir.join range).join name) = disk.find? ((dir.join range).join name) := by
  rcases h with ⟨rfl, rfl⟩ | h
  · have hnone : Disk.find? {} ((dir.join range).join name) = none := by
      rw [Option.eq_none_iff_forall_ne_some]
      intro contents hcontents
      obtain ⟨-, number, hnumber, -⟩ := Disk.find?_eq_some_iff.mp hcontents
      exact Disk.resolve_empty (Path.isNamed_join _ hname) hnumber
    rw [hnone]
    rfl
  · ext contents
    rw [Disk.find?_eq_some_iff, h.files hrange hname]
    simp only [h.resolve_join_join_eq_ok_iff hdir hrange hname]
    constructor
    · intro ⟨number, hplaced, hfile⟩
      have hmem := h.mem_paths hrange hname ((h.files hrange hname).mpr ⟨number, hplaced, hfile⟩)
      obtain ⟨-, -, htakes, -⟩ := takes_of_opens hdir hrange hname (hopens _ hmem)
      exact ⟨htakes.accepted, number, ⟨htakes.fitsDir, htakes.fits, hplaced⟩, hfile⟩
    · intro ⟨_, number, ⟨_, _, hplaced⟩, hfile⟩
      exact ⟨number, hplaced, hfile⟩

/-! ## Listings -/

/-- The paths that a listing gives. -/
def listed (answer : Except IoError (List Path)) : List Path := answer.toOption.getD []

theorem Memory.listed_list (dir : Path) (memory : Memory) :
    listed (memory.list dir) = (memory.files.filter fun entry => entry.1.isDirectlyIn dir).map (·.1) := by
  rw [Memory.list]
  split
  · rfl
  · rename_i hcontains
    have hnone : memory.files.filter (fun entry => entry.1.isDirectlyIn dir) = [] := by
      rw [List.filter_eq_nil_iff]
      intro entry hentry hin
      exact hcontains (List.any_eq_true.mpr ⟨entry, hentry, Path.isWithin_of_isDirectlyIn hin⟩)
    rw [hnone]
    rfl

/-- In memory, the files of a directory are listed. -/
theorem Mirrors.mem_listed_iff {here : Nat} {path : Path} (h : Mirrors dir here memory disk) (hrange : IsName range) :
    path ∈ listed (memory.list (dir.join range)) ↔ ∃ name contents, IsName name ∧
      path = (dir.join range).join name ∧ memory.find? ((dir.join range).join name) = some contents := by
  have hin : ∀ {range' name}, IsName range' → IsName name →
      (((dir.join range').join name).isDirectlyIn (dir.join range) = true ↔ range' = range) := by
    intro range' name hrange' hname
    rw [Path.isDirectlyIn_iff (Path.components_join _ hname), Path.components_join _ hrange',
      Path.components_join _ hrange]
    simp
  rw [Memory.listed_list]
  constructor
  · intro hpath
    obtain ⟨entry, hentry, rfl⟩ := List.mem_map.mp hpath
    obtain ⟨hmem, hdirectly⟩ := List.mem_filter.mp hentry
    have hpaths : entry.1 ∈ memory.paths := List.mem_map_of_mem hmem
    obtain ⟨range', name, hrange', hname, heq⟩ := h.stored _ hpaths
    rw [heq] at hdirectly hpaths ⊢
    rw [hin hrange' hname] at hdirectly
    subst hdirectly
    obtain ⟨contents, hcontents⟩ := Memory.exists_find?_of_mem_paths hpaths
    exact ⟨name, contents, hname, rfl, hcontents⟩
  · intro ⟨name, contents, hname, hpath, hfind⟩
    obtain ⟨entry, hentry, heq⟩ := List.mem_map.mp (h.mem_paths hrange hname hfind)
    rw [hpath, ← heq]
    refine List.mem_map_of_mem (List.mem_filter.mpr ⟨hentry, ?_⟩)
    rw [heq]
    exact (hin hrange hname).mpr rfl

/-- Where there is a directory, the files in it are listed. -/
theorem Disk.listed_list {number : Nat} {node : DiskNode} (h : disk.lookup dir = .ok (number, node)) :
    listed (disk.list dir) = (disk.entries number).filterMap fun (name, number) =>
      match disk.nodes[number]? with
      | some (.file _) => some (dir.join name)
      | _ => none := by
  rw [Disk.list, h, Disk.entries_of_node (Disk.lookup_eq_ok_iff.mp h).2.2]
  cases node <;> rfl

/-- On the disk, so are the files of a directory that is there. -/
theorem Mirrors.mem_listed_disk_iff {here mid : Nat} {node : DiskNode} {path : Path}
    (h : Mirrors dir here memory disk) (hrange : IsName range) (hmid : disk.child? here range = some mid)
    (hlookup : disk.lookup (dir.join range) = .ok (mid, node)) :
    path ∈ listed (disk.list (dir.join range)) ↔ ∃ name contents, IsName name ∧
      path = (dir.join range).join name ∧ memory.find? ((dir.join range).join name) = some contents := by
  rw [Disk.listed_list hlookup]
  simp only [List.mem_filterMap, Prod.exists]
  constructor
  · intro ⟨name, number, hentry, heq⟩
    split at heq
    · rename_i contents hfile
      have hnumber : disk.child? mid name = some number := (h.tree.sorted mid).lookup_eq_some_iff.mpr hentry
      have hname := h.named hnumber hfile
      exact ⟨name, contents, hname, (Option.some.inj heq).symm,
        (h.files hrange hname).mpr ⟨number, ⟨mid, hmid, hnumber⟩, hfile⟩⟩
    · cases heq
  · intro ⟨name, contents, hname, hpath, hfind⟩
    obtain ⟨number, ⟨mid', hmid', hnumber⟩, hfile⟩ := (h.files hrange hname).mp hfind
    rw [hmid] at hmid'
    cases hmid'
    refine ⟨name, number, (h.tree.sorted mid).lookup_eq_some_iff.mp hnumber, ?_⟩
    rw [hfile, hpath]

theorem Mirrors.pairwise_listed {here : Nat} (h : Mirrors dir here memory disk) (path : Path) :
    (listed (memory.list path)).Pairwise fun path other => Path.order path other = .lt := by
  rw [Memory.listed_list]
  exact List.pairwise_map.mpr (h.sorted.filter _)

theorem Mirrors.pairwise_listed_disk {here number : Nat} {node : DiskNode} {path : Path}
    (h : Mirrors dir here memory disk) (hlookup : disk.lookup path = .ok (number, node)) :
    (listed (disk.list path)).Pairwise fun path other => Path.order path other = .lt := by
  rw [Disk.listed_list hlookup, List.pairwise_filterMap]
  refine (List.Pairwise.and_mem.mp (h.tree.sorted number)).imp ?_
  -- What is listed is a file, and its name is in its place.
  have hnamed : ∀ {entry : List Char × Nat} {path' : Path}, entry ∈ disk.entries number →
      (match disk.nodes[entry.2]? with
        | some (.file _) => some (path.join entry.1)
        | _ => none) = some path' → IsName entry.1 ∧ path' = path.join entry.1 := by
    intro entry path' hentry heq
    split at heq
    · rename_i contents hfile
      exact ⟨h.named ((h.tree.sorted number).lookup_eq_some_iff.mpr hentry) hfile, (Option.some.inj heq).symm⟩
    · cases heq
  intro entry other ⟨hentry, hother, hlt⟩ path' hpath other' hother'
  obtain ⟨hname, rfl⟩ := hnamed hentry hpath
  obtain ⟨hname', rfl⟩ := hnamed hother hother'
  rw [Path.order_join path hname hname']
  exact hlt

/-- **The directories of files list the same paths in the same order.** -/
theorem Reflects.listed_eq (h : Reflects dir memory disk) (hdir : dir.IsNamed) (hrange : IsName range)
    (hopens : ∀ path ∈ memory.paths, Disk.Opens path) :
    listed (memory.list (dir.join range)) = listed (disk.list (dir.join range)) := by
  have hmissing : (∀ number node, disk.lookup (dir.join range) ≠ .ok (number, node)) →
      listed (disk.list (dir.join range)) = [] := by
    intro hnone
    rw [Disk.list]
    cases hlookup : disk.lookup (dir.join range) with
    | error fault => rfl
    | ok found => exact absurd hlookup (hnone found.1 found.2)
  rcases h with ⟨rfl, rfl⟩ | h
  · rw [hmissing fun number node hlookup =>
      Disk.resolve_empty (Path.isNamed_join dir hrange) (Disk.lookup_eq_ok_iff.mp hlookup).2.1]
    rfl
  · by_cases hlookup : ∃ number node, disk.lookup (dir.join range) = .ok (number, node)
    · obtain ⟨mid, node, hlookup⟩ := hlookup
      obtain ⟨-, hresolve, -⟩ := Disk.lookup_eq_ok_iff.mp hlookup
      obtain ⟨here, hhere, -, hmid⟩ := (Disk.resolve_join_eq_ok_iff hdir hrange).mp hresolve
      rw [h.leads] at hhere
      cases hhere
      refine (h.pairwise_listed _).eq_of_mem_iff (h.pairwise_listed_disk hlookup) fun path => ?_
      rw [h.mem_listed_iff hrange, h.mem_listed_disk_iff hrange hmid hlookup]
    · -- A file would be in a directory that is there.
      have hnone : ∀ number node, disk.lookup (dir.join range) ≠ .ok (number, node) :=
        fun number node heq => hlookup ⟨number, node, heq⟩
      rw [hmissing hnone, List.eq_nil_iff_forall_not_mem]
      intro path hpath
      obtain ⟨name, contents, hname, -, hfind⟩ := (h.mem_listed_iff hrange).mp hpath
      obtain ⟨number, ⟨mid, hmid, -⟩, -⟩ := (h.files hrange hname).mp hfind
      obtain ⟨-, -, htakes, -⟩ := takes_of_opens hdir hrange hname (hopens _ (h.mem_paths hrange hname hfind))
      obtain ⟨above, entries, length, hnode⟩ := h.ranges hmid
      exact hnone mid _ (Disk.lookup_eq_ok_iff.mpr ⟨htakes.acceptedDir,
        (Disk.resolve_join_eq_ok_iff hdir hrange).mpr ⟨_, h.leads, htakes.fitsDir, hmid⟩, hnode⟩)

end BlockShuffle
