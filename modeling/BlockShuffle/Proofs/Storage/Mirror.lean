import Mathlib
import BlockShuffle.Proofs.Storage.Memory
import BlockShuffle.Proofs.Storage.Directories

/-!
# A memory and a disk that hold the same files

Files are kept in directories of one directory: on a disk with numbers for all of it, in memory by their paths alone.
`Mirrors` says that both hold the same, and it is kept when a file is opened and when one gets other contents.

On a disk there may be directories besides, which a path leads through on its way back up. They are in the `skeleton`
from the start, so a file that could be made there finds its name free, or has been made before.

On the memory's side there are no directories to speak of and every path says where it is; on the disk's, a file
is found by two names below the number of `dir`. So files are compared by their two names, and only the lemmas
at the ends go from paths to names and back. The two sides need not have their files in one order, nor under one
spelling of their paths: memory lists a file as it was first opened, and the mirror says that this is the path
the layout joins.

Nothing is removed on either side. A file that was deleted on one of them would leave no mirror, and neither
would a file that somebody put elsewhere; both sides are written to by the same handlers and by nobody else.
-/

set_option autoImplicit false

namespace BlockShuffle

open Storage
open BlockShuffle.Path (IsName IsNamed)

namespace Path

theorem sameAs_join_join_iff {dir : Path} {range name range' name' : List Char} (hrange : IsName range)
    (hname : IsName name) (hrange' : IsName range') (hname' : IsName name') :
    ((dir.join range).join name).sameAs ((dir.join range').join name') = true ↔ range = range' ∧ name = name' := by
  rw [sameAs_iff, components_join _ hname, components_join _ hrange, components_join _ hname',
    components_join _ hrange']
  simp

end Path

namespace Disk

variable {disk later : Disk} {here mid number number' : Nat} {range name range' name' : List Char}
  {contents : Contents}

/-! ## Two directories down -/

/-- The number of what has a name in a directory of a directory. -/
def Placed (disk : Disk) (here : Nat) (range name : List Char) (number : Nat) : Prop :=
  ∃ mid, disk.child? here range = some mid ∧ disk.child? mid name = some number

theorem Placed.of_extends (h : disk.Placed here range name number) (hextends : disk.Extends later) :
    later.Placed here range name number := by
  obtain ⟨mid, hmid, hnumber⟩ := h
  exact ⟨mid, child?_of_extends hmid hextends, child?_of_extends hnumber hextends⟩

theorem Placed.unique (h : disk.Placed here range name number) (h' : disk.Placed here range name number') :
    number = number' := by
  obtain ⟨mid, hmid, hnumber⟩ := h
  obtain ⟨mid', hmid', hnumber'⟩ := h'
  rw [hmid] at hmid'
  cases hmid'
  rw [hnumber] at hnumber'
  exact Option.some.inj hnumber'

theorem Tree.placed_once (htree : disk.Tree) (h : disk.Placed here range name number)
    (h' : disk.Placed here range' name' number) : range = range' ∧ name = name' := by
  obtain ⟨mid, hmid, hnumber⟩ := h
  obtain ⟨mid', hmid', hnumber'⟩ := h'
  obtain ⟨rfl, hname⟩ := htree.once hnumber hnumber'
  exact ⟨(htree.once hmid hmid').2, hname⟩

theorem Tree.placed_lt (htree : disk.Tree) (h : disk.Placed here range name number) : number < disk.nodes.size := by
  obtain ⟨mid, -, hnumber⟩ := h
  exact (htree.newer hnumber).2

theorem placed_withDir (htree : disk.Tree) (hdir : disk.IsDir here) :
    (disk.withDir here range).Placed here range' name' number ↔ disk.Placed here range' name' number := by
  refine ⟨fun h => ?_, fun h => h.of_extends (extends_withDir hdir range)⟩
  obtain ⟨mid, hmid, hnumber⟩ := h
  rcases child?_withDir_cases hdir hmid with hmid | ⟨-, -, rfl, -⟩
  · have hne : here ≠ mid := Nat.ne_of_lt (htree.newer hmid).1
    rcases child?_withDir_cases hdir hnumber with hnumber | ⟨heq, -⟩
    · exact ⟨mid, hmid, hnumber⟩
    · exact absurd heq hne
  · -- In a new directory there is nothing.
    have hlt : disk.nodes.size < disk.nodes.size := by
      rcases child?_withDir_cases hdir hnumber with hnumber | ⟨heq, -⟩
      · exact (isDir_of_child? hnumber).lt_size
      · exact heq ▸ hdir.lt_size
    exact absurd hlt (Nat.lt_irrefl _)

theorem placed_make (htree : disk.Tree) (hmid : disk.child? here range = some mid) (hdir : disk.IsDir mid)
    (hfree : disk.child? mid name = none) (contents : Contents) :
    (disk.make mid name (.file contents)).Placed here range' name' number ↔
      (range' = range ∧ name' = name ∧ number = disk.nodes.size) ∨ disk.Placed here range' name' number := by
  have hne : mid ≠ here := (Nat.ne_of_lt (htree.newer hmid).1).symm
  have hentry : ∀ other name', (disk.make mid name (.file contents)).child? other name' = _ := child?_make hdir rfl
  constructor
  · intro ⟨mid', hmid', hnumber⟩
    rw [hentry, if_neg fun h => hne h.1] at hmid'
    rw [hentry] at hnumber
    split_ifs at hnumber with heq
    · obtain ⟨rfl, rfl⟩ := heq
      cases hnumber
      exact Or.inl ⟨(htree.once hmid' hmid).2, rfl, rfl⟩
    · exact Or.inr ⟨mid', hmid', hnumber⟩
  · intro h
    rcases h with ⟨rfl, rfl, rfl⟩ | h
    · refine ⟨mid, ?_, ?_⟩
      · rw [hentry, if_neg fun h => hne h.1, hmid]
      · rw [hentry, if_pos ⟨rfl, rfl⟩]
    · exact h.of_extends (extends_make hdir hfree _)

theorem child?_change_file (h : disk.nodes[number]? = some (.file contents)) (contents' : Contents) (other : Nat)
    (name' : List Char) : (disk.change number (.file contents')).child? other name' = disk.child? other name' := by
  rw [child?, child?, entries_change_file h]

/-! ## Files -/

theorem file_withDir_iff (hdir : disk.IsDir here) :
    (disk.withDir here range).nodes[number]? = some (.file contents) ↔
      disk.nodes[number]? = some (.file contents) := by
  rw [withDir]
  cases disk.child? here range with
  | some found => rfl
  | none =>
    obtain ⟨above, entries, length, hnode⟩ := hdir
    dsimp only
    rw [nodes_make hnode]
    split_ifs with hhere hsize
    · subst hhere
      simp [hnode]
    · simp [hsize]
    · rfl

theorem file_make_iff (hdir : disk.IsDir mid) {contents' : Contents} :
    (disk.make mid name (.file contents')).nodes[number]? = some (.file contents) ↔
      (number = disk.nodes.size ∧ contents' = contents) ∨ disk.nodes[number]? = some (.file contents) := by
  have hlt := hdir.lt_size
  obtain ⟨above, entries, length, hnode⟩ := hdir
  rw [nodes_make hnode]
  split_ifs with hmid hsize
  · subst hmid
    simp [hnode, Nat.ne_of_lt hlt]
  · simp [hsize]
  · simp [hsize]

theorem isDir_iff_change_file (h : disk.nodes[number]? = some (.file contents)) (contents' : Contents) :
    (disk.change number (.file contents')).IsDir number' ↔ disk.IsDir number' := by
  constructor
  · intro ⟨above, entries, length, hnode⟩
    rw [nodes_change] at hnode
    split_ifs at hnode
    · cases hnode
    · exact ⟨above, entries, length, hnode⟩
  · exact fun hdir => hdir.of_extends (extends_change_file h contents')

/-- A file with these contents, in a directory of a directory. -/
def HasFile (disk : Disk) (here : Nat) (range name : List Char) (contents : Contents) : Prop :=
  ∃ number, disk.Placed here range name number ∧ disk.nodes[number]? = some (.file contents)

section Make

variable (htree : disk.Tree) (hmid : disk.child? here range = some mid) (hdir : disk.IsDir mid)
  (hfree : disk.child? mid name = none) {contents' : Contents}

include htree hmid hdir hfree

theorem hasFile_make_self_iff :
    (disk.make mid name (.file contents')).HasFile here range name contents ↔ contents' = contents := by
  have hnew := (placed_make htree hmid hdir hfree contents').mpr (Or.inl ⟨rfl, rfl, rfl⟩)
  constructor
  · intro ⟨number, hplaced, hfile⟩
    cases hplaced.unique hnew
    rcases (file_make_iff hdir).mp hfile with ⟨-, heq⟩ | hold
    · exact heq
    · exact absurd (Array.getElem?_eq_some_iff.mp hold).1 (Nat.lt_irrefl _)
  · intro heq
    exact ⟨_, hnew, (file_make_iff hdir).mpr (Or.inl ⟨rfl, heq⟩)⟩

theorem hasFile_make_of_ne (hne : ¬(range' = range ∧ name' = name)) :
    (disk.make mid name (.file contents')).HasFile here range' name' contents ↔
      disk.HasFile here range' name' contents := by
  constructor
  · intro ⟨number, hplaced, hfile⟩
    rcases (placed_make htree hmid hdir hfree contents').mp hplaced with ⟨hr, hn, -⟩ | hplaced
    · exact absurd ⟨hr, hn⟩ hne
    · rcases (file_make_iff hdir).mp hfile with ⟨rfl, -⟩ | hfile
      · exact absurd (htree.placed_lt hplaced) (Nat.lt_irrefl _)
      · exact ⟨number, hplaced, hfile⟩
  · intro ⟨number, hplaced, hfile⟩
    exact ⟨number, (placed_make htree hmid hdir hfree contents').mpr (Or.inr hplaced),
      (file_make_iff hdir).mpr (Or.inr hfile)⟩

end Make

section Change

variable (hfile : disk.nodes[number]? = some (.file contents)) {contents' found : Contents}

include hfile

theorem placed_change_file : (disk.change number (.file contents')).Placed here range' name' number' ↔
    disk.Placed here range' name' number' := by
  simp only [Placed, child?_change_file hfile]

theorem hasFile_change_self_iff (hplaced : disk.Placed here range name number) :
    (disk.change number (.file contents')).HasFile here range name found ↔ contents' = found := by
  have hlt := (Array.getElem?_eq_some_iff.mp hfile).1
  constructor
  · intro ⟨number', hplaced', hfound⟩
    cases hplaced.unique ((placed_change_file hfile).mp hplaced')
    rw [nodes_change, if_pos rfl, if_pos hlt] at hfound
    cases hfound
    rfl
  · rintro rfl
    refine ⟨number, (placed_change_file hfile).mpr hplaced, ?_⟩
    rw [nodes_change, if_pos rfl, if_pos hlt]

theorem hasFile_change_of_ne (htree : disk.Tree) (hplaced : disk.Placed here range name number)
    (hne : ¬(range' = range ∧ name' = name)) :
    (disk.change number (.file contents')).HasFile here range' name' found ↔
      disk.HasFile here range' name' found := by
  -- Another file has another number.
  have hother {number' : Nat} (hplaced' : disk.Placed here range' name' number') : number ≠ number' := by
    rintro rfl
    exact hne (htree.placed_once hplaced' hplaced)
  constructor
  · intro ⟨number', hplaced', hfound⟩
    rw [placed_change_file hfile] at hplaced'
    rw [nodes_change, if_neg (hother hplaced')] at hfound
    exact ⟨number', hplaced', hfound⟩
  · intro ⟨number', hplaced', hfound⟩
    refine ⟨number', (placed_change_file hfile).mpr hplaced', ?_⟩
    rw [nodes_change, if_neg (hother hplaced'), hfound]

end Change

end Disk

/-! ## The same files -/

open Disk (Placed skeleton Takes)

/-- The files in the directories of `dir`, which has this number on the disk, are the files in memory. -/
structure Mirrors (dir : Path) (here : Nat) (memory : Memory) (disk : Disk) : Prop where
  tree : disk.Tree
  leads : disk.resolve dir = .ok here
  isDir : disk.IsDir here
  ranges : ∀ {range number}, disk.child? here range = some number → disk.IsDir number
  files : ∀ {range name contents}, IsName range → IsName name →
    (memory.find? ((dir.join range).join name) = some contents ↔
      ∃ number, disk.Placed here range name number ∧ disk.nodes[number]? = some (.file contents))
  dirs : ∀ {range name number}, disk.Placed here range name number → disk.IsDir number →
    ∃ number, (skeleton dir).Placed here range name number
  named : ∀ {mid name number contents}, disk.child? mid name = some number →
    disk.nodes[number]? = some (.file contents) → IsName name
  stored : ∀ path ∈ memory.paths, ∃ range name, IsName range ∧ IsName name ∧ path = (dir.join range).join name
  sorted : SortedList.Sorted Path.order memory.files

namespace Mirrors

variable {dir : Path} {here number : Nat} {memory : Memory} {disk : Disk} {range name : List Char}
  {contents : Contents}

/-- In the skeleton there is no file, and in the empty memory there is none either. -/
theorem skeleton (hleads : (skeleton dir).resolve dir = .ok here) (hisDir : (skeleton dir).IsDir here) :
    Mirrors dir here {} (skeleton dir) where
  tree := (Disk.bare_skeleton dir).tree
  leads := hleads
  isDir := hisDir
  ranges := (Disk.bare_skeleton dir).isDir_of_child?
  files _ _ := ⟨nofun, fun ⟨_, _, hfile⟩ => absurd hfile (Disk.bare_skeleton dir).fileless⟩
  dirs h _ := ⟨_, h⟩
  named _ hfile := absurd hfile (Disk.bare_skeleton dir).fileless
  stored _ := nofun
  sorted := List.Pairwise.nil

theorem withDir (h : Mirrors dir here memory disk) (range : List Char) :
    Mirrors dir here memory (disk.withDir here range) := by
  have hextends := Disk.extends_withDir h.isDir range
  refine { h with
    tree := ?_, leads := Disk.resolve_of_extends h.leads hextends, isDir := h.isDir.of_extends hextends,
    ranges := ?_, files := ?_, dirs := ?_, named := ?_ }
  · rw [Disk.withDir]
    cases disk.child? here range with
    | some found => exact h.tree
    | none => exact h.tree.make h.isDir range rfl
  · intro range' number hnumber
    rcases Disk.child?_withDir_cases h.isDir hnumber with hold | ⟨-, -, -, hnew⟩
    · exact (h.ranges hold).of_extends hextends
    · exact hnew
  · intro range' name contents hrange' hname
    rw [h.files hrange' hname]
    simp only [Disk.placed_withDir h.tree h.isDir, Disk.file_withDir_iff h.isDir]
  · intro range' name number hplaced hdir
    rw [Disk.placed_withDir h.tree h.isDir] at hplaced
    exact h.dirs hplaced ((Disk.isDir_iff_of_extends hextends (h.tree.placed_lt hplaced)).mp hdir)
  · intro mid name number contents hnumber hfile
    rcases Disk.child?_withDir_cases h.isDir hnumber with hold | ⟨-, -, -, hnew⟩
    · exact h.named hold ((Disk.file_withDir_iff h.isDir).mp hfile)
    · obtain ⟨_, _, _, hnode⟩ := hnew
      rw [hfile] at hnode
      cases hnode

/-- Where one file gets contents on both sides, and the others are left, the files are the same again. -/
theorem files_insert (h : Mirrors dir here memory disk) {later : Disk} (hrange : IsName range) (hname : IsName name)
    (hself : ∀ found, later.HasFile here range name found ↔ contents = found)
    (hothers : ∀ {range' name'}, ¬(range' = range ∧ name' = name) → ∀ found,
      (later.HasFile here range' name' found ↔ disk.HasFile here range' name' found))
    {range' name' : List Char} (hrange' : IsName range') (hname' : IsName name') (found : Contents) :
    (memory.insert ((dir.join range).join name) contents).find? ((dir.join range').join name') = some found ↔
      later.HasFile here range' name' found := by
  rw [Memory.find?_insert]
  by_cases hsame : ((dir.join range).join name).sameAs ((dir.join range').join name') = true
  · rw [if_pos hsame, Option.some.injEq]
    obtain ⟨rfl, rfl⟩ := (Path.sameAs_join_join_iff hrange hname hrange' hname').mp hsame
    exact (hself found).symm
  · have hne : ¬(range' = range ∧ name' = name) := by
      rintro ⟨rfl, rfl⟩
      exact hsame (Path.sameAs_refl _)
    rw [if_neg hsame, h.files hrange' hname']
    exact (hothers hne found).symm

theorem stored_insert (h : Mirrors dir here memory disk) (hrange : IsName range) (hname : IsName name) :
    ∀ path ∈ (memory.insert ((dir.join range).join name) contents).paths,
      ∃ range name, IsName range ∧ IsName name ∧ path = (dir.join range).join name := by
  intro path hpath
  rcases Memory.mem_paths_of_insert hpath with rfl | hpath
  · exact ⟨range, name, hrange, hname, rfl⟩
  · exact h.stored path hpath

/-- A new file, in a directory that is there. -/
theorem make (h : Mirrors dir here memory disk) {mid : Nat} (hrange : IsName range) (hname : IsName name)
    (hmid : disk.child? here range = some mid) (hfree : disk.child? mid name = none) :
    Mirrors dir here (memory.insert ((dir.join range).join name) .empty) (disk.make mid name (.file .empty)) := by
  have hdir := h.ranges hmid
  have hextends := Disk.extends_make hdir hfree (.file .empty)
  have hentry : ∀ other name', (disk.make mid name (.file .empty)).child? other name' = _ :=
    Disk.child?_make hdir rfl
  -- The name was free, so the number is new, and no file has it.
  refine {
    tree := h.tree.make hdir name rfl, leads := Disk.resolve_of_extends h.leads hextends,
    isDir := h.isDir.of_extends hextends, ranges := ?_, files := ?_, dirs := ?_, named := ?_,
    stored := h.stored_insert hrange hname, sorted := h.sorted.insert _ _ }
  · intro range' number hnumber
    rw [hentry, if_neg fun heq => (Nat.ne_of_lt (h.tree.newer hmid).1).symm heq.1] at hnumber
    exact (h.ranges hnumber).of_extends hextends
  · intro range' name' contents hrange' hname'
    exact h.files_insert hrange hname (fun _ => Disk.hasFile_make_self_iff h.tree hmid hdir hfree)
      (fun hne _ => Disk.hasFile_make_of_ne h.tree hmid hdir hfree hne) hrange' hname' contents
  · intro range' name' number hplaced hnumber
    rcases (Disk.placed_make h.tree hmid hdir hfree .empty).mp hplaced with ⟨-, -, rfl⟩ | hplaced
    · obtain ⟨_, _, _, hnode⟩ := hnumber
      rw [(Disk.file_make_iff hdir).mpr (Or.inl ⟨rfl, rfl⟩)] at hnode
      cases hnode
    · exact h.dirs hplaced ((Disk.isDir_iff_of_extends hextends (h.tree.placed_lt hplaced)).mp hnumber)
  · intro mid' name' number contents hnumber hfile
    rw [hentry] at hnumber
    split_ifs at hnumber with heq
    · exact heq.2 ▸ hname
    · rcases (Disk.file_make_iff hdir).mp hfile with ⟨rfl, -⟩ | hfile
      · exact absurd (h.tree.newer hnumber).2 (Nat.lt_irrefl _)
      · exact h.named hnumber hfile

/-- A file with other contents. -/
theorem change (h : Mirrors dir here memory disk) (hrange : IsName range) (hname : IsName name)
    (hplaced : disk.Placed here range name number) (hfile : disk.nodes[number]? = some (.file contents))
    (contents' : Contents) :
    Mirrors dir here (memory.insert ((dir.join range).join name) contents')
      (disk.change number (.file contents')) := by
  have hextends := Disk.extends_change_file hfile contents'
  have hentry := Disk.child?_change_file hfile contents'
  refine {
    tree := h.tree.change_file hfile contents', leads := Disk.resolve_of_extends h.leads hextends,
    isDir := h.isDir.of_extends hextends, ranges := ?_, files := ?_, dirs := ?_, named := ?_,
    stored := h.stored_insert hrange hname, sorted := h.sorted.insert _ _ }
  · intro range' number' hnumber
    rw [hentry] at hnumber
    exact (h.ranges hnumber).of_extends hextends
  · intro range' name' contents hrange' hname'
    exact h.files_insert hrange hname (fun _ => Disk.hasFile_change_self_iff hfile hplaced)
      (fun hne _ => Disk.hasFile_change_of_ne hfile h.tree hplaced hne) hrange' hname' contents
  · intro range' name' number' hplaced' hdir
    exact h.dirs ((Disk.placed_change_file hfile).mp hplaced') ((Disk.isDir_iff_change_file hfile contents').mp hdir)
  · intro mid name' number' contents'' hnumber hfile'
    rw [hentry] at hnumber
    rw [Disk.nodes_change] at hfile'
    split_ifs at hfile' with heq
    · subst heq
      exact h.named hnumber hfile
    · exact h.named hnumber hfile'

end Mirrors

/-! ## Appenders of the same file -/

/-- Two appenders of this file, in memory and on the disk, are at its end, and nothing is held back. -/
structure AtRest (dir : Path) (here : Nat) (range name : List Char) (memory : Memory) (disk : Disk)
    (appender other : Appender) : Prop where
  path : appender.path = (dir.join range).join name
  other_path : other.path = appender.path
  position : other.position = appender.position
  sent : other.unflushed = []
  file : ∃ number contents, other.file = some number ∧ disk.Placed here range name number ∧
    memory.find? appender.path = some contents ∧ appender.position = contents.size

section Opening

variable {dir : Path} {here : Nat} {memory memory' : Memory} {disk later : Disk} {range name : List Char}
  {appender other : Appender}

theorem AtRest.frame (h : AtRest dir here range name memory disk appender other)
    (hfind : memory'.find? appender.path = memory.find? appender.path) (hextends : disk.Extends later) :
    AtRest dir here range name memory' later appender other := by
  obtain ⟨number, contents, hnumber, hplaced, hcontents, hposition⟩ := h.file
  exact { h with file := ⟨number, contents, hnumber, hplaced.of_extends hextends, hfind ▸ hcontents, hposition⟩ }

/-- In a directory that is there, a file is opened or made. -/
theorem Mirrors.openFile (h : Mirrors dir here memory disk) (hdir : dir.IsNamed) (hrange : IsName range)
    (hname : IsName name) (htakes : Takes dir range name here) {mid : Nat} (hmid : disk.child? here range = some mid) :
    ∃ number contents later, disk.openFile ((dir.join range).join name) = .ok (number, later) ∧
      Mirrors dir here (Memory.openAppend ((dir.join range).join name) memory).2 later ∧ disk.Extends later ∧
      later.Placed here range name number ∧ later.nodes[number]? = some (.file contents) ∧
      (Memory.openAppend ((dir.join range).join name) memory).2.find? ((dir.join range).join name) = some contents ∧
      (Memory.openAppend ((dir.join range).join name) memory).1.position = contents.size := by
  have hisDir := h.ranges hmid
  have hresolve := (Disk.resolve_join_eq_ok_iff hdir hrange).mpr ⟨here, h.leads, htakes.fitsDir, hmid⟩
  rw [Disk.openFile_join (Path.isNamed_join dir hrange) hname htakes.accepted htakes.fits hresolve hisDir,
    Memory.openAppend]
  cases hnumber : disk.child? mid name with
  | none =>
    have hnone : memory.find? ((dir.join range).join name) = none := by
      rw [Option.eq_none_iff_forall_ne_some]
      intro contents hcontents
      obtain ⟨number, ⟨mid', hmid', hnumber'⟩, -⟩ := (h.files hrange hname).mp hcontents
      rw [hmid] at hmid'
      cases hmid'
      cases hnumber'.symm.trans hnumber
    rw [hnone]
    exact ⟨_, .empty, _, rfl, h.make hrange hname hmid hnumber, Disk.extends_make hisDir hnumber _,
      (Disk.placed_make h.tree hmid hisDir hnumber .empty).mpr (Or.inl ⟨rfl, rfl, rfl⟩),
      (Disk.file_make_iff hisDir).mpr (Or.inl ⟨rfl, rfl⟩), Memory.find?_insert_self _ _ _, rfl⟩
  | some number =>
    have hplaced : disk.Placed here range name number := ⟨mid, hmid, hnumber⟩
    -- A directory of this name would be in the skeleton.
    obtain ⟨contents, hfile⟩ : ∃ contents, disk.nodes[number]? = some (.file contents) := by
      obtain ⟨node, hnode⟩ : ∃ node, disk.nodes[number]? = some node :=
        ⟨_, Array.getElem?_eq_getElem (h.tree.placed_lt hplaced)⟩
      cases node with
      | file contents => exact ⟨contents, hnode⟩
      | directory above entries length =>
        obtain ⟨_, mid', hmid', hnumber'⟩ := h.dirs hplaced ⟨above, entries, length, hnode⟩
        cases hnumber'.symm.trans (htakes.free hmid')
    have hfind := (h.files hrange hname).mpr ⟨number, hplaced, hfile⟩
    dsimp only
    rw [hfile, hfind]
    exact ⟨number, contents, disk, rfl, h, Disk.Extends.refl disk, hplaced, hfile, hfind, rfl⟩

/-- **A file that can be made is opened on both alike.** -/
theorem Mirrors.openAppend (h : Mirrors dir here memory disk) (hdir : dir.IsNamed) (hrange : IsName range)
    (hname : IsName name) (htakes : Takes dir range name here) :
    ∃ other later, Disk.openAppend ((dir.join range).join name) disk = (.ok other, later) ∧
      Mirrors dir here (Memory.openAppend ((dir.join range).join name) memory).2 later ∧
      AtRest dir here range name (Memory.openAppend ((dir.join range).join name) memory).2 later
        (Memory.openAppend ((dir.join range).join name) memory).1 other ∧
      disk.Extends later := by
  have hparents := Disk.makeParents_eq hdir hrange hname htakes.acceptedDir htakes.fitsDir h.leads h.isDir h.ranges
  obtain ⟨mid, hmid, -⟩ := Disk.child?_withDir h.isDir fun hentry => h.ranges (hentry : disk.child? here range = _)
  obtain ⟨number, contents, later, hopen, hafter, hextends, hplaced, hfile, hfind, hposition⟩ :=
    (h.withDir range).openFile hdir hrange hname htakes hmid
  obtain ⟨contents', -, happender⟩ := Memory.openAppend_eq ((dir.join range).join name) memory
  have hsize : (later.contents number).size = contents.size := by rw [Disk.contents, hfile]
  rw [Disk.openAppend, hparents]
  dsimp only
  rw [hopen]
  refine ⟨_, later, rfl, hafter, ⟨?_, ?_, ?_, rfl, ?_⟩, (Disk.extends_withDir h.isDir range).trans hextends⟩
  · rw [happender]
  · rw [happender]
  · rw [hposition, hsize]
  · exact ⟨number, contents, rfl, hplaced, by rw [happender]; exact hfind, hposition⟩

end Opening

end BlockShuffle
