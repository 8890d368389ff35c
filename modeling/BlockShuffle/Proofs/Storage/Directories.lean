import Mathlib
import BlockShuffle.Proofs.Storage.Lookup

/-!
# Directories that files go in

Making the directories that a file goes in makes directories only, and where it succeeds the file's own directory is
there (`Disk.leads_of_makeDirectories`). In a directory that is there already only the one below it is ever made
(`Disk.withDir`). So of a disk that was empty everything is known once one directory is there: it is a `skeleton`, the
same whichever file it was made for, and a file that could be made on the empty disk can be made there.

The numbers of nodes are not the reader's business, but they are part of the state of a disk, and two runs that
make the same directories in another order give them other numbers. That is why the skeleton is fixed to one
directory and not described by its paths: with it, what a shuffle's directory looks like is an equation, and the
mirror between a memory and a disk is stated over it.

A directory that cannot be made is not examined further than that it fails. Files in the way, names that are too
long and paths that go up again are all covered by asking, once, whether the file could be opened on an empty
disk (`Takes`).
-/

set_option autoImplicit false

namespace BlockShuffle

namespace Disk

open BlockShuffle.Path (IsName IsNamed pieces)

variable {disk later made : Disk} {here number : Nat} {path dir : Path} {name : List Char}

/-! ## One directory -/

theorem exists_of_makeDirectory (h : disk.makeDirectory path = .ok made) :
    ∃ last name, disk.approach path = .ok last ∧ last.step = some (.name name) ∧ Fits name ∧
      disk.child? last.directory name = none ∧
      made = disk.make last.directory name (.directory last.directory [] directoryLength) := by
  rw [makeDirectory, bind_eq_ok_iff] at h
  obtain ⟨last, happroach, h⟩ := h
  split at h
  · rename_i name hstep
    rw [bind_eq_ok_iff] at h
    obtain ⟨found, hfind, h⟩ := h
    by_cases hfits : Fits name
    · rw [find_of_fits hfits] at hfind
      cases hfind
      split at h
      · cases h
      · rename_i hfree
        cases h
        exact ⟨last, name, happroach, hstep, hfits, hfree, rfl⟩
    · rw [find_of_not_fits hfits] at hfind
      cases hfind
  · cases h

theorem makeDirectory_join (hpath : path.IsNamed) (hname : IsName name) (haccepted : Accepted (path.join name))
    (hfits : Fits name) (hleads : disk.resolve path = .ok here) (hdir : disk.IsDir here) :
    disk.makeDirectory (path.join name) =
      match disk.child? here name with
      | some _ => .error .fileExists
      | none => .ok (disk.make here name (.directory here [] directoryLength)) := by
  have happroach : disk.approach (path.join name) = .ok ⟨here, some (.name name), false⟩ :=
    (approach_join_eq_ok_iff hpath hname).mpr ⟨haccepted, hleads, hdir, rfl, rfl⟩
  rw [makeDirectory, happroach]
  show (disk.find here name >>= _) = _
  rw [find_of_fits hfits]
  cases hentry : disk.child? here name <;> rfl

/-! ## Directories above one another -/

/-- What one directory after the other keeps, all of them keep. -/
theorem makeDirectories_induction {kept : Disk → Prop}
    (hmake : ∀ {disk path made}, kept disk → makeDirectory disk path = .ok made → kept made) {paths : List Path} :
    ∀ {disk : Disk}, kept disk → kept (disk.makeDirectories paths).2 := by
  induction paths with
  | nil => exact id
  | cons path above ih =>
    intro disk h
    rw [makeDirectories]
    split
    · rename_i made hmade
      exact hmake h hmade
    · have habove := ih h
      split
      · rename_i heq
        rw [heq] at habove
        exact habove
      · rename_i heq
        rw [heq] at habove
        split
        · rename_i made hmade
          exact hmake habove hmade
        · exact habove
    · exact h

/-- A tree of directories. -/
structure Bare (disk : Disk) : Prop where
  tree : disk.Tree
  fileless : ∀ {number : Nat} {contents : Contents}, disk.nodes[number]? ≠ some (.file contents)

theorem Bare.makeDirectory (h : disk.Bare) (hmade : disk.makeDirectory path = .ok made) : made.Bare := by
  obtain ⟨last, name, happroach, hstep, -, hfree, rfl⟩ := exists_of_makeDirectory hmade
  have hdir := isDir_of_approach happroach hstep
  refine ⟨h.tree.make hdir name rfl, ?_⟩
  intro number contents hfile
  obtain ⟨above, entries, length, hnode⟩ := hdir
  rw [nodes_make hnode] at hfile
  split_ifs at hfile
  · cases hfile
  · cases hfile
  · exact h.fileless hfile

theorem Bare.makeDirectories (h : disk.Bare) (paths : List Path) : (disk.makeDirectories paths).2.Bare :=
  makeDirectories_induction (fun h hmade => h.makeDirectory hmade) h

theorem bare_empty : Bare {} := by
  refine ⟨tree_empty, ?_⟩
  intro number contents h
  match number with
  | 0 | 1 => cases h
  | n + 2 => cases h

theorem extends_makeDirectory (h : disk.makeDirectory path = .ok made) : disk.Extends made := by
  obtain ⟨last, name, happroach, hstep, -, hfree, rfl⟩ := exists_of_makeDirectory h
  exact extends_make (isDir_of_approach happroach hstep) hfree _

theorem extends_makeDirectories (disk : Disk) (paths : List Path) : disk.Extends (disk.makeDirectories paths).2 :=
  @makeDirectories_induction disk.Extends (fun h hmade => h.trans (extends_makeDirectory hmade)) paths disk
    (Extends.refl disk)

/-- A path leads to a directory. -/
def Leads (disk : Disk) (path : Path) : Prop := Accepted path ∧ ∃ here, disk.resolve path = .ok here ∧ disk.IsDir here

theorem leads_of_isDirectory (h : disk.isDirectory path = true) : disk.Leads path := by
  rw [isDirectory] at h
  split at h
  · rename_i number above entries length hlookup
    obtain ⟨haccepted, hresolve, hnode⟩ := lookup_eq_ok_iff.mp hlookup
    exact ⟨haccepted, number, hresolve, _, _, _, hnode⟩
  · cases h

theorem isDirectory_of_leads (h : disk.Leads path) : disk.isDirectory path = true := by
  obtain ⟨haccepted, here, hresolve, above, entries, length, hnode⟩ := h
  rw [isDirectory, lookup_eq_ok_iff.mpr ⟨haccepted, hresolve, hnode⟩]

theorem leads_of_makeDirectory (hpath : path.IsNamed) (h : disk.makeDirectory path = .ok made) : made.Leads path := by
  obtain ⟨last, name, happroach, hstep, hfits, hfree, rfl⟩ := exists_of_makeDirectory h
  have hdir := isDir_of_approach happroach hstep
  obtain ⟨before, name', hpieces, hname⟩ := hpath
  obtain ⟨haccepted, hwalk, -, hstep', -⟩ := (approach_eq_ok_iff hpieces hname).mp happroach
  rw [hstep] at hstep'
  cases hstep'
  have hentry : (disk.make last.directory name (.directory last.directory [] directoryLength)).child?
      last.directory name = some disk.nodes.size := by
    rw [child?_make hdir rfl, if_pos ⟨rfl, rfl⟩]
  refine ⟨haccepted, disk.nodes.size, ?_, ?_⟩
  · rw [resolve, hpieces, walk_append, walk_of_extends (extends_make hdir hfree _) hwalk]
    exact (walk_name_eq_ok_iff hname).mpr ⟨hfits, hentry⟩
  · exact isDir_make hdir

/-- **Directories that were made are there.** -/
theorem leads_of_makeDirectories {above : List Path} (hpath : path.IsNamed)
    (h : disk.makeDirectories (path :: above) = (.ok (), made)) : made.Leads path := by
  -- A directory that could not be made has to be there.
  have hthere : ∀ {disk : Disk} {fault : OsFault},
      ((if isDirectory disk path then Except.ok () else .error fault), disk) = (Except.ok (), made) →
        made.Leads path := by
    intro disk fault heq
    split at heq
    · rename_i hdir
      cases heq
      exact leads_of_isDirectory hdir
    · cases heq
  rw [makeDirectories] at h
  split at h
  · rename_i hmade
    cases h
    exact leads_of_makeDirectory hpath hmade
  · split at h
    · cases h
    · split at h
      · rename_i hmade
        cases h
        exact leads_of_makeDirectory hpath hmade
      · exact hthere h
  · exact hthere h

/-! ## A directory in a directory that is there -/

/-- The disk with a directory of this name in a directory. -/
def withDir (disk : Disk) (here : Nat) (name : List Char) : Disk :=
  match disk.child? here name with
  | some _ => disk
  | none => disk.make here name (.directory here [] directoryLength)

theorem makeDirectories_join (hpath : path.IsNamed) (hname : IsName name) (haccepted : Accepted (path.join name))
    (hfits : Fits name) (hleads : disk.resolve path = .ok here) (hdir : disk.IsDir here)
    (hbelow : ∀ {number}, disk.child? here name = some number → disk.IsDir number) (above : List Path) :
    disk.makeDirectories (path.join name :: above) = (.ok (), disk.withDir here name) := by
  rw [makeDirectories, makeDirectory_join hpath hname haccepted hfits hleads hdir, withDir]
  cases hentry : disk.child? here name with
  | none => rfl
  | some number =>
    have hleads' : disk.Leads (path.join name) :=
      ⟨haccepted, number, (resolve_join_eq_ok_iff hpath hname).mpr ⟨here, hleads, hfits, hentry⟩, hbelow hentry⟩
    dsimp only
    rw [if_pos (isDirectory_of_leads hleads')]

theorem extends_withDir (hdir : disk.IsDir here) (name : List Char) : disk.Extends (disk.withDir here name) := by
  rw [withDir]
  cases hentry : disk.child? here name with
  | some number => exact Extends.refl disk
  | none => exact extends_make hdir hentry _

/-- The directory is there, and it is new and empty or was there before. -/
theorem child?_withDir (hdir : disk.IsDir here)
    (hbelow : ∀ {number}, disk.child? here name = some number → disk.IsDir number) :
    ∃ number, (disk.withDir here name).child? here name = some number ∧ (disk.withDir here name).IsDir number := by
  rw [withDir]
  cases hentry : disk.child? here name with
  | some number => exact ⟨number, hentry, hbelow hentry⟩
  | none =>
    refine ⟨disk.nodes.size, ?_, isDir_make hdir⟩
    dsimp only
    rw [child?_make hdir rfl, if_pos ⟨rfl, rfl⟩]

theorem child?_withDir_cases {directory : Nat} {name' : List Char} (hdir : disk.IsDir here)
    (h : (disk.withDir here name).child? directory name' = some number) :
    disk.child? directory name' = some number ∨
      (here = directory ∧ name' = name ∧ number = disk.nodes.size ∧ (disk.withDir here name).IsDir number) := by
  rw [withDir] at h ⊢
  cases hentry : disk.child? here name with
  | some found =>
    rw [hentry] at h
    exact Or.inl h
  | none =>
    rw [hentry] at h
    dsimp only at h ⊢
    rw [child?_make hdir rfl] at h
    split_ifs at h with heq
    · cases h
      exact Or.inr ⟨heq.1, heq.2, rfl, isDir_make hdir⟩
    · exact Or.inl h

/-! ## A file in a directory -/

theorem openFile_join (hdir : dir.IsNamed) (hname : IsName name) (haccepted : Accepted (dir.join name))
    (hfits : Fits name) (hleads : disk.resolve dir = .ok here) (hhere : disk.IsDir here) :
    disk.openFile (dir.join name) =
      match disk.child? here name with
      | none => .ok (disk.nodes.size, disk.make here name (.file .empty))
      | some number =>
        match disk.nodes[number]? with
        | some (.file _) => .ok (number, disk)
        | _ => .error .isDirectory := by
  have happroach : disk.approach (dir.join name) = .ok ⟨here, some (.name name), false⟩ :=
    (approach_join_eq_ok_iff hdir hname).mpr ⟨haccepted, hleads, hhere, rfl, rfl⟩
  rw [openFile, happroach]
  show (disk.find here name >>= _) = _
  rw [find_of_fits hfits]
  cases hentry : disk.child? here name <;> rfl

/-- A file that was opened has a path that can be looked up, and where it was made its name was free. -/
theorem of_openFile_join (hdir : dir.IsNamed) (hname : IsName name)
    (h : disk.openFile (dir.join name) = .ok (number, made)) :
    Accepted (dir.join name) ∧ Fits name ∧
      ∀ {here number}, disk.resolve dir = .ok here → disk.child? here name = some number →
        ∃ contents, disk.nodes[number]? = some (.file contents) := by
  have hopen := h
  rw [openFile, bind_eq_ok_iff] at h
  obtain ⟨last, happroach, h⟩ := h
  obtain ⟨haccepted, hleads, hhere, hstep, hslashed⟩ := (approach_join_eq_ok_iff hdir hname).mp happroach
  have hfits : Fits name := by
    by_contra hfits
    rw [hstep, hslashed] at h
    dsimp only at h
    rw [find_of_not_fits hfits] at h
    cases h
  refine ⟨haccepted, hfits, fun {here number} hresolve hentry => ?_⟩
  rw [hleads] at hresolve
  cases hresolve
  rw [openFile_join hdir hname haccepted hfits hleads hhere, hentry] at hopen
  dsimp only at hopen
  split at hopen
  · rename_i contents hfile
    exact ⟨contents, hfile⟩
  · cases hopen

/-! ## The first directory -/

/-- What a disk that was empty is like with a directory in it, and nothing else but what that is in. -/
def skeleton (dir : Path) : Disk := (makeDirectories {} (dir :: dir.ancestors)).2

theorem bare_skeleton (dir : Path) : (skeleton dir).Bare := bare_empty.makeDirectories _

/-- Nothing that a path can name is on an empty disk. -/
theorem resolve_empty (hdir : dir.IsNamed) : Disk.resolve {} dir ≠ .ok number := by
  intro h
  obtain ⟨before, name, hpieces, hname⟩ := hdir
  rw [resolve, hpieces, walk_append] at h
  cases hwalk : Disk.walk {} (start dir) before with
  | error fault =>
    rw [hwalk] at h
    cases h
  | ok mid =>
    rw [hwalk] at h
    obtain ⟨-, hentry⟩ := (walk_name_eq_ok_iff hname).mp h
    exact hname.ne_nil (eq_of_child?_empty hentry).2.1

/-- A file of this name can be made in a directory of this name in `dir`. -/
structure Takes (dir : Path) (range name : List Char) (here : Nat) : Prop where
  acceptedDir : Accepted (dir.join range)
  fitsDir : Fits range
  accepted : Accepted ((dir.join range).join name)
  fits : Fits name
  free : ∀ {number}, (skeleton dir).child? here range = some number → (skeleton dir).child? number name = none

variable {range : List Char}

theorem ancestors_join_join (hdir : dir.IsNamed) (hrange : IsName range) (hname : IsName name) :
    ((dir.join range).join name).ancestors = dir.join range :: dir :: dir.ancestors := by
  rw [(Path.isNamed_join dir hrange).ancestors_join hname, hdir.ancestors_join hrange]

/-- **The first file**: where it can be made on an empty disk, it is made in the skeleton. -/
theorem makeDirectories_empty (hdir : dir.IsNamed) (hrange : IsName range)
    (h : makeDirectories {} (dir.join range :: dir :: dir.ancestors) = (.ok (), made)) :
    ∃ here, (skeleton dir).resolve dir = .ok here ∧ (skeleton dir).IsDir here ∧ Accepted (dir.join range) ∧
      Fits range ∧ made = (skeleton dir).withDir here range := by
  obtain ⟨haccepted, number, hresolve, -⟩ := leads_of_makeDirectories (Path.isNamed_join dir hrange) h
  obtain ⟨-, -, hfits, -⟩ := (resolve_join_eq_ok_iff hdir hrange).mp hresolve
  rw [makeDirectories] at h
  split at h
  · -- What it is to go in is not there yet.
    rename_i hmade
    obtain ⟨last, name, happroach, -⟩ := exists_of_makeDirectory hmade
    exact absurd ((approach_join_eq_ok_iff hdir hrange).mp happroach).2.1 (resolve_empty hdir)
  · cases hfirst : makeDirectories {} (dir :: dir.ancestors) with
    | mk outcome bare =>
      rw [hfirst] at h
      cases outcome with
      | error fault => cases h
      | ok =>
        have hbare : bare = skeleton dir := by rw [skeleton, hfirst]
        obtain ⟨-, here, hhere, hisDir⟩ := leads_of_makeDirectories hdir hfirst
        refine ⟨here, hbare ▸ hhere, hbare ▸ hisDir, haccepted, hfits, ?_⟩
        dsimp only at h
        rw [makeDirectory_join hdir hrange haccepted hfits hhere hisDir] at h
        rw [← hbare, withDir]
        cases hentry : bare.child? here range with
        | none =>
          rw [hentry] at h
          cases h
          rfl
        | some found =>
          rw [hentry] at h
          dsimp only at h
          split at h
          · cases h
            rfl
          · cases h
  · -- Nor is it there itself.
    split at h
    · rename_i hthere
      obtain ⟨-, found, hfound, -⟩ := leads_of_isDirectory hthere
      exact absurd hfound (resolve_empty (Path.isNamed_join dir hrange))
    · cases h

theorem makeParents_eq (hdir : dir.IsNamed) (hrange : IsName range) (hname : IsName name)
    (haccepted : Accepted (dir.join range)) (hfits : Fits range) (hleads : disk.resolve dir = .ok here)
    (hhere : disk.IsDir here) (hbelow : ∀ {number}, disk.child? here range = some number → disk.IsDir number) :
    disk.makeParents ((dir.join range).join name) = (.ok (), disk.withDir here range) := by
  rw [makeParents, ancestors_join_join hdir hrange hname]
  exact makeDirectories_join hdir hrange haccepted hfits hleads hhere hbelow _

/-- In a tree of directories, everything is a directory. -/
theorem Bare.isDir_of_child? (h : disk.Bare) (hentry : disk.child? here name = some number) : disk.IsDir number := by
  have hlt := (h.tree.newer hentry).2
  cases hnode : disk.nodes[number]? with
  | none => exact absurd hlt (Nat.not_lt.mpr (Array.getElem?_eq_none_iff.mp hnode))
  | some node =>
    cases node with
    | directory above entries length => exact ⟨above, entries, length, hnode⟩
    | file contents => exact absurd hnode h.fileless

/-- **A file that can be opened on an empty disk can be made in the skeleton**, and opening it there is the same. -/
theorem takes_of_openAppend {appender : Storage.Appender} (hdir : dir.IsNamed) (hrange : IsName range)
    (hname : IsName name) (h : (openAppend ((dir.join range).join name) {}).1 = .ok appender) :
    ∃ here, (skeleton dir).resolve dir = .ok here ∧ (skeleton dir).IsDir here ∧ Takes dir range name here ∧
      openAppend ((dir.join range).join name) {} = openAppend ((dir.join range).join name) (skeleton dir) := by
  have hbelow : ∀ {here number}, (skeleton dir).child? here range = some number → (skeleton dir).IsDir number :=
    (bare_skeleton dir).isDir_of_child?
  rcases hmade : Disk.makeParents {} ((dir.join range).join name) with ⟨fault | ⟨⟩, made⟩
  · rw [openAppend, hmade] at h
    cases h
  rcases hopened : made.openFile ((dir.join range).join name) with fault | ⟨number, last⟩
  · rw [openAppend, hmade] at h
    dsimp only at h
    rw [hopened] at h
    cases h
  have hparents := hmade
  rw [makeParents, ancestors_join_join hdir hrange hname] at hmade
  have hbare : made.Bare := by
    have := bare_empty.makeDirectories (dir.join range :: dir :: dir.ancestors)
    rwa [hmade] at this
  obtain ⟨here, hleads, hhere, haccepted, hfits, rfl⟩ := makeDirectories_empty hdir hrange hmade
  obtain ⟨haccepted', hfits', hfile⟩ := of_openFile_join (Path.isNamed_join dir hrange) hname hopened
  have hextends := extends_withDir hhere range
  refine ⟨here, hleads, hhere, ⟨haccepted, hfits, haccepted', hfits', fun {number} hnumber => ?_⟩, ?_⟩
  · -- What has the name already would be a file, and there is none.
    by_contra hentry
    obtain ⟨found, hfound⟩ := Option.ne_none_iff_exists'.mp hentry
    have hresolve : ((skeleton dir).withDir here range).resolve (dir.join range) = .ok number :=
      (resolve_join_eq_ok_iff hdir hrange).mpr
        ⟨here, resolve_of_extends hleads hextends, hfits, child?_of_extends hnumber hextends⟩
    obtain ⟨contents, hcontents⟩ := hfile hresolve (child?_of_extends hfound hextends)
    exact hbare.fileless hcontents
  · rw [openAppend, openAppend, hparents, makeParents_eq hdir hrange hname haccepted hfits hleads hhere hbelow]

end Disk

end BlockShuffle
