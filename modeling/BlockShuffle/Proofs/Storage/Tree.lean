import Mathlib
import BlockShuffle.Storage.Disk
import BlockShuffle.Proofs.Path
import BlockShuffle.Proofs.Storage.SortedList

/-!
# The directory tree

What is made on a disk gets a new number and one name, so nothing has two names and nothing is above itself
(`Disk.Tree`), and a path that led somewhere leads there still (`Disk.walk_of_extends`). Both are kept by the two
things that happen to a tree while nothing is deleted or moved: something is made under a free name, and a file gets
other contents.

Files are nodes with a number, and a directory is a list of names with the numbers they lead to. That nothing
has two names is not in the type and is lost on a disk with hard links, which the model does not make; it is an
invariant of those it does (`Tree`), and it is what lets a file be changed through one path without another one
seeing it. Deleting and moving would break `Extends`, and are not considered: neither handlers nor readers do
that.
-/

set_option autoImplicit false

namespace BlockShuffle

/-- What is listed in a node. -/
def DiskNode.listed : DiskNode → List (List Char × Nat)
  | .directory _ entries _ => entries
  | .file _ => []

namespace Disk

variable {disk mid later : Disk} {here number : Nat} {name : List Char} {node : DiskNode}

/-! ## What is listed where -/

/-- What a directory lists under a name. -/
def child? (disk : Disk) (directory : Nat) (name : List Char) : Option Nat := (disk.entries directory).lookup name

def IsDir (disk : Disk) (number : Nat) : Prop :=
  ∃ above entries length, disk.nodes[number]? = some (.directory above entries length)

theorem entries_of_node (h : disk.nodes[number]? = some node) : disk.entries number = node.listed := by
  rw [entries, h]
  cases node <;> rfl

theorem entries_of_none (h : disk.nodes[number]? = none) : disk.entries number = [] := by
  rw [entries, h]

theorem isDir_of_child? (h : disk.child? here name = some number) : disk.IsDir here := by
  rw [child?, entries] at h
  split at h
  · rename_i above entries length hnode
    exact ⟨above, entries, length, hnode⟩
  · cases h

theorem IsDir.lt_size (h : disk.IsDir number) : number < disk.nodes.size := by
  obtain ⟨_, _, _, hnode⟩ := h
  exact (Array.getElem?_eq_some_iff.mp hnode).1

theorem nodes_change (disk : Disk) (node : DiskNode) (number other : Nat) :
    (disk.change number node).nodes[other]? =
      if number = other then (if number < disk.nodes.size then some node else none) else disk.nodes[other]? := by
  rw [change, Array.getElem?_setIfInBounds]

theorem size_make (disk : Disk) (directory : Nat) (name : List Char) (node : DiskNode) :
    (disk.make directory name node).nodes.size = disk.nodes.size + 1 := by
  rw [make, link, changeEntries]
  split
  · rw [change, Array.size_setIfInBounds, Array.size_push]
  · rw [Array.size_push]

theorem nodes_make {above length : Nat} {entries : List (List Char × Nat)}
    (h : disk.nodes[here]? = some (.directory above entries length)) (name : List Char) (node : DiskNode)
    (other : Nat) :
    (disk.make here name node).nodes[other]? =
      if here = other then
        some (.directory above (SortedList.insert compare name disk.nodes.size entries) length)
      else if other = disk.nodes.size then some node
      else disk.nodes[other]? := by
  have hlt := (Array.getElem?_eq_some_iff.mp h).1
  have hpushed : (disk.nodes.push node)[here]? = some (.directory above entries length) := by
    rw [Array.getElem?_push, if_neg (Nat.ne_of_lt hlt), h]
  rw [make, link, changeEntries, hpushed]
  dsimp only
  rw [nodes_change]
  split
  · rw [if_pos (by rw [Array.size_push]; omega)]
  · exact Array.getElem?_push

/-- **What is made is listed under its name**, and the rest is listed as before. -/
theorem child?_make (hdir : disk.IsDir here) (hnode : node.listed = []) (other : Nat) (name' : List Char) :
    (disk.make here name node).child? other name' =
      if here = other ∧ name' = name then some disk.nodes.size else disk.child? other name' := by
  obtain ⟨above, entries, length, h⟩ := hdir
  have hnodes := nodes_make h name node other
  by_cases hhere : here = other
  · subst hhere
    rw [if_pos rfl] at hnodes
    rw [child?, entries_of_node hnodes, child?, entries_of_node h]
    show (SortedList.insert compare name disk.nodes.size entries).lookup name' = _
    rw [SortedList.lookup_insert]
    simp [DiskNode.listed]
  · rw [if_neg hhere] at hnodes
    rw [if_neg (fun heq => hhere heq.1)]
    by_cases hsize : other = disk.nodes.size
    · rw [if_pos hsize] at hnodes
      have hnone : disk.nodes[other]? = none := by simp [hsize]
      rw [child?, entries_of_node hnodes, hnode, child?, entries_of_none hnone]
    · rw [if_neg hsize] at hnodes
      rw [child?, child?, Disk.entries, Disk.entries, hnodes]

theorem isDir_make (hdir : disk.IsDir here) {above length : Nat} {entries : List (List Char × Nat)} :
    (disk.make here name (.directory above entries length)).IsDir disk.nodes.size := by
  have hlt := hdir.lt_size
  obtain ⟨_, _, _, hnode⟩ := hdir
  refine ⟨above, entries, length, ?_⟩
  rw [nodes_make hnode, if_neg (Nat.ne_of_lt hlt), if_pos rfl]

theorem entries_change_file {contents : Contents} (h : disk.nodes[number]? = some (.file contents))
    (contents' : Contents) (other : Nat) :
    (disk.change number (.file contents')).entries other = disk.entries other := by
  have hlt := (Array.getElem?_eq_some_iff.mp h).1
  have hnodes := nodes_change disk (.file contents') number other
  by_cases hother : number = other
  · rw [if_pos hother, if_pos hlt] at hnodes
    rw [entries_of_node hnodes, ← hother, entries_of_node h]
    rfl
  · rw [if_neg hother] at hnodes
    rw [entries, entries, hnodes]

/-- A name that is not too long. -/
def Fits (name : List Char) : Prop := (String.ofList name).utf8ByteSize ≤ maxNameBytes

theorem find_of_fits (h : Fits name) (disk : Disk) (here : Nat) :
    disk.find here name = .ok (disk.child? here name) := if_neg (Nat.not_lt.mpr h)

theorem find_of_not_fits (h : ¬ Fits name) (disk : Disk) (here : Nat) :
    disk.find here name = .error .nameTooLong := if_pos (Nat.not_le.mp h)

/-! ## Trees -/

/-- Everything has one name, in a directory that is older. -/
structure Tree (disk : Disk) : Prop where
  newer : ∀ {here name number}, disk.child? here name = some number → here < number ∧ number < disk.nodes.size
  once : ∀ {here name here' name' number}, disk.child? here name = some number →
    disk.child? here' name' = some number → here = here' ∧ name = name'
  sorted : ∀ here, SortedList.Sorted compare (disk.entries here)

theorem Tree.make (h : disk.Tree) (hdir : disk.IsDir here) (name : List Char) (hnode : node.listed = []) :
    (disk.make here name node).Tree := by
  have hentry : ∀ other name', (disk.make here name node).child? other name' = _ := child?_make hdir hnode
  constructor
  · intro here' name' number' hnumber
    rw [hentry] at hnumber
    rw [size_make]
    split at hnumber
    · rename_i heq
      cases hnumber
      exact ⟨heq.1 ▸ hdir.lt_size, Nat.lt_succ_self _⟩
    · obtain ⟨hlt, hsize⟩ := h.newer hnumber
      exact ⟨hlt, Nat.lt_succ_of_lt hsize⟩
  · intro first name₁ second name₂ number' hfirst hsecond
    rw [hentry] at hfirst hsecond
    -- What is made is new, so only its own name leads there.
    split at hfirst <;> split at hsecond
    · rename_i h₁ h₂
      exact ⟨h₁.1.symm.trans h₂.1, h₁.2.trans h₂.2.symm⟩
    · cases hfirst
      exact absurd (h.newer hsecond).2 (Nat.lt_irrefl _)
    · cases hsecond
      exact absurd (h.newer hfirst).2 (Nat.lt_irrefl _)
    · exact h.once hfirst hsecond
  · intro other
    obtain ⟨above, entries, length, hhere⟩ := hdir
    have hnodes := nodes_make hhere name node other
    by_cases heq : here = other
    · rw [if_pos heq] at hnodes
      rw [entries_of_node hnodes]
      have hsorted := h.sorted here
      rw [entries_of_node hhere] at hsorted
      exact SortedList.Sorted.insert hsorted name disk.nodes.size
    · rw [if_neg heq] at hnodes
      by_cases hsize : other = disk.nodes.size
      · rw [if_pos hsize] at hnodes
        rw [entries_of_node hnodes, hnode]
        exact List.Pairwise.nil
      · rw [if_neg hsize] at hnodes
        have hsame : (disk.make here name node).entries other = disk.entries other := by
          rw [Disk.entries, Disk.entries, hnodes]
        rw [hsame]
        exact h.sorted other

theorem Tree.change_file (h : disk.Tree) {contents : Contents}
    (hfile : disk.nodes[number]? = some (.file contents)) (contents' : Contents) :
    (disk.change number (.file contents')).Tree := by
  have hentries := entries_change_file hfile contents'
  have hsize : (disk.change number (.file contents')).nodes.size = disk.nodes.size := Array.size_setIfInBounds
  constructor
  · intro here name number hnumber
    rw [child?, hentries] at hnumber
    rw [hsize]
    exact h.newer hnumber
  · intro here name here' name' number hnumber hnumber'
    rw [child?, hentries] at hnumber hnumber'
    exact h.once hnumber hnumber'
  · intro here
    rw [hentries]
    exact h.sorted here

theorem entries_empty (here : Nat) : entries {} here = if here = 0 then [([], 1)] else [] := by
  match here with
  | 0 | 1 => rfl
  | n + 2 => rfl

/-- The one thing on an empty disk that is listed is the working directory, without a name. -/
theorem eq_of_child?_empty (h : child? {} here name = some number) : here = 0 ∧ name = [] ∧ number = 1 := by
  rw [child?, entries_empty] at h
  split at h
  · rename_i hhere
    rw [List.lookup_cons] at h
    split at h
    · rename_i hname
      cases h
      exact ⟨hhere, beq_iff_eq.mp hname, rfl⟩
    · cases h
  · cases h

theorem tree_empty : Tree {} := by
  constructor
  · intro here name number h
    obtain ⟨rfl, -, rfl⟩ := eq_of_child?_empty h
    exact ⟨Nat.zero_lt_one, Nat.one_lt_two⟩
  · intro here name here' name' number h h'
    obtain ⟨hhere, hname, -⟩ := eq_of_child?_empty h
    obtain ⟨hhere', hname', -⟩ := eq_of_child?_empty h'
    exact ⟨hhere.trans hhere'.symm, hname.trans hname'.symm⟩
  · intro here
    rw [entries_empty]
    split
    · exact List.pairwise_singleton _ _
    · exact List.Pairwise.nil

/-! ## Paths that led somewhere -/

/-- Something is what it was, and lists what it listed. -/
inductive Keeps : DiskNode → DiskNode → Prop where
  | directory {above length : Nat} {entries entries' : List (List Char × Nat)}
      (h : ∀ name number, entries.lookup name = some number → entries'.lookup name = some number) :
      Keeps (.directory above entries length) (.directory above entries' length)
  | file {contents contents' : Contents} : Keeps (.file contents) (.file contents')

theorem Keeps.refl (node : DiskNode) : Keeps node node := by
  cases node with
  | directory _ _ _ => exact .directory fun _ _ => id
  | file _ => exact .file

/-- Nothing is gone from a disk. -/
def Extends (disk later : Disk) : Prop :=
  ∀ (number : Nat) (node : DiskNode), disk.nodes[number]? = some node →
    ∃ node', later.nodes[number]? = some node' ∧ Keeps node node'

theorem Extends.refl (disk : Disk) : disk.Extends disk := fun _ node h => ⟨node, h, Keeps.refl node⟩

theorem Extends.trans (h : disk.Extends mid) (h' : mid.Extends later) : disk.Extends later := by
  intro number node hnode
  obtain ⟨node', hmid, hkeeps⟩ := h number node hnode
  obtain ⟨node'', hlater, hkeeps'⟩ := h' number node' hmid
  refine ⟨node'', hlater, ?_⟩
  cases hkeeps with
  | file =>
    cases hkeeps'
    exact .file
  | directory hentries =>
    cases hkeeps' with
    | directory hentries' => exact .directory fun name number hnumber => hentries' _ _ (hentries _ _ hnumber)

theorem extends_make (hdir : disk.IsDir here) (hfree : disk.child? here name = none) (node : DiskNode) :
    disk.Extends (disk.make here name node) := by
  obtain ⟨above, entries, length, hhere⟩ := hdir
  intro number found hfound
  rw [nodes_make hhere]
  by_cases heq : here = number
  · subst heq
    rw [hhere] at hfound
    cases hfound
    rw [if_pos rfl]
    refine ⟨_, rfl, .directory fun name' number' hnumber => ?_⟩
    rw [SortedList.lookup_insert, if_neg, hnumber]
    intro hname
    rw [child?, entries_of_node hhere, ← beq_iff_eq.mp hname] at hfree
    exact absurd (hnumber.symm.trans hfree) nofun
  · rw [if_neg heq, if_neg]
    · exact ⟨found, hfound, Keeps.refl found⟩
    · intro hsize
      exact absurd (Array.getElem?_eq_some_iff.mp hfound).1 (by omega)

theorem extends_change_file {contents : Contents} (h : disk.nodes[number]? = some (.file contents))
    (contents' : Contents) : disk.Extends (disk.change number (.file contents')) := by
  have hlt := (Array.getElem?_eq_some_iff.mp h).1
  intro other node hnode
  rw [nodes_change]
  by_cases heq : number = other
  · subst heq
    rw [h] at hnode
    cases hnode
    rw [if_pos rfl, if_pos hlt]
    exact ⟨_, rfl, .file⟩
  · rw [if_neg heq]
    exact ⟨node, hnode, Keeps.refl node⟩

theorem IsDir.of_extends (h : disk.IsDir number) (hextends : disk.Extends later) : later.IsDir number := by
  obtain ⟨above, entries, length, hnode⟩ := h
  obtain ⟨node', hnode', hkeeps⟩ := hextends _ _ hnode
  cases hkeeps
  exact ⟨_, _, _, hnode'⟩

/-- What there was is a directory only if it was one. -/
theorem isDir_iff_of_extends (hextends : disk.Extends later) (hlt : number < disk.nodes.size) :
    later.IsDir number ↔ disk.IsDir number := by
  refine ⟨fun ⟨_, _, _, hlater⟩ => ?_, fun h => h.of_extends hextends⟩
  obtain ⟨node', hnode', hkeeps⟩ := hextends number _ (Array.getElem?_eq_getElem hlt)
  rw [hlater] at hnode'
  cases hnode'
  generalize hnode : disk.nodes[number] = node at hkeeps
  cases hkeeps with
  | directory _ => exact ⟨_, _, _, Array.getElem?_eq_some_iff.mpr ⟨hlt, hnode⟩⟩

theorem child?_of_extends (h : disk.child? here name = some number) (hextends : disk.Extends later) :
    later.child? here name = some number := by
  obtain ⟨above, entries, length, hnode⟩ := isDir_of_child? h
  obtain ⟨node', hnode', hkeeps⟩ := hextends _ _ hnode
  rw [child?, entries_of_node hnode] at h
  rw [child?, entries_of_node hnode']
  cases hkeeps with
  | directory hentries => exact hentries name number h

/-- **A way that was there is there still.** -/
theorem walk_of_extends (hextends : disk.Extends later) {pieces : List (List Char)} :
    ∀ {here : Nat}, disk.walk here pieces = .ok number → later.walk here pieces = .ok number := by
  -- By the pieces. A step goes by a name that is there, and what is added later takes no name away.
  induction pieces with
  | nil => exact id
  | cons piece rest ih =>
    intro here h
    rw [walk] at h ⊢
    cases hnode : disk.nodes[here]? with
    | none =>
      rw [hnode] at h
      cases h
    | some node =>
      obtain ⟨node', hnode', hkeeps⟩ := hextends _ _ hnode
      rw [hnode] at h
      rw [hnode']
      cases hkeeps with
      | file => cases h
      | directory hentries =>
        dsimp only at h ⊢
        cases hpiece : Component.ofPiece? piece with
        | none =>
          rw [hpiece] at h
          exact ih h
        | some component =>
          rw [hpiece] at h
          cases component with
          | root | current | parent => exact ih h
          | name name =>
            by_cases hfits : Fits name
            · simp only [find_of_fits hfits] at h ⊢
              cases hentry : disk.child? here name with
              | none =>
                rw [hentry] at h
                cases h
              | some found =>
                rw [hentry] at h
                rw [child?, entries_of_node hnode] at hentry
                rw [child?, entries_of_node hnode', DiskNode.listed, hentries _ _ hentry]
                exact ih h
            · simp only [find_of_not_fits hfits] at h
              cases h

end Disk

end BlockShuffle
