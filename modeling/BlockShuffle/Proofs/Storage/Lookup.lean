import Mathlib
import BlockShuffle.Proofs.Results
import BlockShuffle.Proofs.Storage.Tree

/-!
# Looking paths up

A path that ends in a name is looked up by following the pieces in front of the name, and then the name. A layout
joins one name at a time, so each of its paths is the one before and one name more, for lookups and for the list of
directories that a file goes in (`Path.ancestors_join`).

A disk is asked for a path and goes from directory to directory; a memory compares components. What connects the
two is that a path which ends in a name leads where its front leads, and from there to what is listed under the
name (`resolve_join_eq_ok_iff`), so a lemma about a layout's path is one about its directory and a name. Paths
that end in a dot, in two dots or in a separator have no such front, and nothing more is said about them than
what `walk` does.

How long a path may be is kept apart. `Accepted` is the system's bound on a path as it is written, `resolve` is
where it leads regardless, and only the two together are a lookup (`lookup_eq_ok_iff`). Links are not modelled,
so there is exactly one way to follow a piece.
-/

set_option autoImplicit false

namespace BlockShuffle

namespace Path

variable {path : Path} {name : List Char}

/-! ## Paths that end in a name -/

def IsNamed (path : Path) : Prop := ∃ before name, pieces path.chars = before ++ [name] ∧ IsName name

theorem isNamed_join (base : Path) (h : IsName name) : (base.join name).IsNamed := by
  obtain ⟨before, hpieces, -⟩ := pieces_lead_append base h
  exact ⟨before, name, by rw [join_eq base h, hpieces], h⟩

theorem IsNamed.chars_ne_nil (h : path.IsNamed) : path.chars ≠ [] := by
  obtain ⟨before, name, hpieces, hname⟩ := h
  intro hnil
  rw [hnil] at hpieces
  have hlast : [] ++ [[]] = before ++ [name] := hpieces
  obtain ⟨-, hempty⟩ := List.append_inj' hlast rfl
  exact hname.ne_nil (List.singleton_injective hempty).symm

theorem IsNamed.join_eq (h : path.IsNamed) (hname : IsName name) :
    path.join name = ⟨path.chars ++ '/' :: name⟩ := by
  rw [Path.join_eq path hname]
  rcases path.lead_cases with ⟨hnil, -⟩ | ⟨front, hfront, -⟩ | ⟨-, hlead⟩
  · exact absurd hnil h.chars_ne_nil
  · -- The last piece would be empty.
    obtain ⟨before, last, hpieces, hlast⟩ := h
    rw [hfront, pieces_append] at hpieces
    have := (List.append_inj' hpieces rfl).2
    exact absurd (List.singleton_injective this).symm hlast.ne_nil
  · rw [hlead, List.append_assoc]
    rfl

theorem IsNamed.pieces_join (h : path.IsNamed) (hname : IsName name) :
    pieces (path.join name).chars = pieces path.chars ++ [name] := by
  rw [h.join_eq hname, pieces_append, pieces_of_not_mem hname.one]

theorem IsNamed.isAbsolute_join (h : path.IsNamed) (hname : IsName name) :
    (path.join name).isAbsolute = path.isAbsolute := by
  rw [h.join_eq hname, isAbsolute, isAbsolute]
  dsimp only
  rw [List.head?_append_of_ne_nil _ h.chars_ne_nil]

/-! ## The directories above -/

theorem intercalate_pieces (chars : List Char) : ['/'].intercalate (pieces chars) = chars := by
  induction chars with
  | nil => rfl
  | cons c chars ih =>
    rw [pieces]
    split
    · rename_i hc
      rw [List.intercalate_cons_of_ne_nil (pieces_ne_nil chars), ih, hc]
      rfl
    · cases h : pieces chars with
      | nil => exact absurd h (pieces_ne_nil chars)
      | cons piece others =>
        rw [h] at ih
        rw [← ih]
        cases others with
        | nil => simp
        | cons next others => simp only [List.intercalate_cons_cons, List.cons_append]

/-- The spellings of a path and of what it is in, from its pieces. -/
def spelled : List (List Char) → List Path
  | [] :: rest => spellings ['/'] rest.reverse
  | ['.'] :: rest => spellings ['.', '/'] rest.reverse
  | all => spellings [] all.reverse

theorem ancestors_eq (path : Path) : path.ancestors = (spelled (pieces path.chars)).drop 1 := rfl

theorem spellings_concat (h : IsName name) (start : List Char) (before : List (List Char)) :
    spellings start (before ++ [name]).reverse =
      ⟨start ++ ['/'].intercalate (before ++ [name])⟩ :: spellings start before.reverse := by
  rw [List.reverse_append, List.reverse_singleton, List.singleton_append, spellings, if_neg (by simp [h.component]),
    List.reverse_cons, List.reverse_reverse]

theorem spelled_concat (h : IsName name) (before : List (List Char)) :
    spelled (before ++ [name]) = ⟨['/'].intercalate (before ++ [name])⟩ :: spelled before := by
  cases before with
  | nil =>
    rw [List.nil_append, spelled.eq_3 _ (by simpa using h.ne_nil) (by simpa using h.ne_dot)]
    exact spellings_concat h [] []
  | cons first rest =>
    have hne : rest ++ [name] ≠ [] := by simp
    rw [List.cons_append, List.intercalate_cons_of_ne_nil hne]
    by_cases hempty : first = []
    · subst hempty
      exact spellings_concat h ['/'] rest
    · by_cases hdot : first = ['.']
      · subst hdot
        exact spellings_concat h ['.', '/'] rest
      · rw [spelled.eq_3 _ (by simp [hempty]) (by simp [hdot]), spelled.eq_3 _ (by simp [hempty]) (by simp [hdot]),
          ← List.cons_append, spellings_concat h, List.cons_append, List.intercalate_cons_of_ne_nil hne]
        rfl

/-- **A joined path is in the path that it was joined to**, and in all that is in. -/
theorem IsNamed.ancestors_join (h : path.IsNamed) (hname : IsName name) :
    (path.join name).ancestors = path :: path.ancestors := by
  obtain ⟨before, last, hpieces, hlast⟩ := h
  have hpath : spelled (pieces path.chars) = path :: spelled before := by
    rw [hpieces, spelled_concat hlast, ← hpieces, intercalate_pieces]
  rw [ancestors_eq, ancestors_eq, IsNamed.pieces_join ⟨before, last, hpieces, hlast⟩ hname, spelled_concat hname,
    hpath]
  rfl

end Path

namespace Disk

open BlockShuffle.Path (IsName IsNamed pieces)

variable {disk : Disk} {here number : Nat} {path : Path} {name : List Char} {node : DiskNode}

/-! ## Following pieces -/

theorem walk_append (disk : Disk) (front back : List (List Char)) : ∀ here,
    disk.walk here (front ++ back) = (disk.walk here front).bind fun mid => disk.walk mid back := by
  induction front with
  | nil => exact fun _ => rfl
  | cons piece front ih =>
    intro here
    rw [List.cons_append, walk, walk]
    split
    · rfl
    · rfl
    · split
      · exact ih _
      · split
        · rfl
        · rfl
        · exact ih _
      · exact ih _

/-- An empty piece asks for a directory. -/
theorem walk_concat_empty_eq_ok_iff {front : List (List Char)} :
    disk.walk here (front ++ [[]]) = .ok number ↔ disk.walk here front = .ok number ∧ disk.IsDir number := by
  have hempty : ∀ mid, disk.walk mid [[]] = .ok number ↔ mid = number ∧ disk.IsDir mid := by
    intro mid
    rw [walk]
    cases hnode : disk.nodes[mid]? with
    | none => simp [IsDir, hnode]
    | some node =>
      cases node with
      | file contents => simp [IsDir, hnode]
      | directory above entries length =>
        have hdir : disk.IsDir mid := ⟨_, _, _, hnode⟩
        simp [Component.ofPiece?, walk, hdir]
  rw [walk_append]
  cases disk.walk here front with
  | error fault => simp [Except.bind]
  | ok mid =>
    show disk.walk mid [[]] = _ ↔ _
    rw [hempty, Except.ok.injEq]
    exact and_congr_right fun heq => by rw [heq]

/-- A name leads to what is listed under it. -/
theorem walk_name_eq_ok_iff (h : IsName name) :
    disk.walk here [name] = .ok number ↔ Fits name ∧ disk.child? here name = some number := by
  rw [walk]
  cases hnode : disk.nodes[here]? with
  | none => simp [child?, entries_of_none hnode]
  | some node =>
    cases node with
    | file contents => simp [child?, entries_of_node hnode, DiskNode.listed]
    | directory above entries length =>
      dsimp only
      rw [h.component]
      dsimp only
      by_cases hfits : Fits name
      · rw [find_of_fits hfits]
        cases disk.child? here name with
        | none => simp
        | some found => simp [walk, hfits]
      · rw [find_of_not_fits hfits]
        simp [hfits]

/-! ## Where paths lead -/

/-- Where a path leads, however long it is. -/
def resolve (disk : Disk) (path : Path) : Except OsFault Nat := disk.walk (start path) (pieces path.chars)

/-- A path that can be looked up. -/
def Accepted (path : Path) : Prop := accepted path = .ok (pieces path.chars)

theorem accepted_eq_ok_iff {all : List (List Char)} :
    accepted path = .ok all ↔ Accepted path ∧ all = pieces path.chars := by
  rw [Accepted, accepted]
  split_ifs <;> simp [eq_comm]

theorem resolve_join_eq_ok_iff (h : path.IsNamed) (hname : IsName name) :
    disk.resolve (path.join name) = .ok number ↔
      ∃ here, disk.resolve path = .ok here ∧ Fits name ∧ disk.child? here name = some number := by
  rw [resolve, start, h.isAbsolute_join hname, h.pieces_join hname, walk_append, ← start, ← resolve]
  cases disk.resolve path with
  | error fault => simp [Except.bind]
  | ok here => simp [Except.bind, walk_name_eq_ok_iff hname]

theorem resolve_of_extends {later : Disk} (h : disk.resolve path = .ok number) (hextends : disk.Extends later) :
    later.resolve path = .ok number := walk_of_extends hextends h

theorem lookup_eq_ok_iff : disk.lookup path = .ok (number, node) ↔
    Accepted path ∧ disk.resolve path = .ok number ∧ disk.nodes[number]? = some node := by
  rw [lookup, bind_eq_ok_iff]
  simp only [accepted_eq_ok_iff, bind_eq_ok_iff]
  constructor
  · intro ⟨_, ⟨haccepted, hpieces⟩, found, hfound, hnode⟩
    subst hpieces
    split at hnode
    · cases hnode
    · rename_i hsome
      cases hnode
      exact ⟨haccepted, hfound, hsome⟩
  · intro ⟨haccepted, hresolve, hnode⟩
    exact ⟨_, ⟨haccepted, rfl⟩, number, hresolve, by rw [hnode]⟩

/-- A path that ends in a name is approached through what is in front of it. -/
theorem approach_eq_ok_iff {before : List (List Char)} (hpieces : pieces path.chars = before ++ [name])
    (hname : IsName name) {last : LastStep} :
    disk.approach path = .ok last ↔ Accepted path ∧ disk.walk (start path) before = .ok last.directory ∧
      disk.IsDir last.directory ∧ last.step = some (.name name) ∧ last.slashed = false := by
  have hstrip : (pieces path.chars).reverse.dropWhile List.isEmpty = name :: before.reverse := by
    rw [hpieces, List.reverse_append, List.reverse_singleton, List.singleton_append, List.dropWhile_cons,
      List.isEmpty_eq_false_iff.mpr hname.ne_nil]
    rfl
  have hslashed : ((pieces path.chars).getLast? == some []) = false := by
    rw [hpieces, List.getLast?_concat]
    simp [hname.ne_nil]
  -- The last piece is a name, so nothing is cut off behind it, and what is in front has to lead to a directory.
  rw [approach, bind_eq_ok_iff]
  simp only [accepted_eq_ok_iff]
  constructor
  · intro ⟨_, ⟨haccepted, hall⟩, h⟩
    subst hall
    rw [hstrip] at h
    dsimp only at h
    rw [bind_eq_ok_iff] at h
    obtain ⟨directory, hwalk, h⟩ := h
    rw [List.reverse_reverse, walk_concat_empty_eq_ok_iff] at hwalk
    cases h
    exact ⟨haccepted, hwalk.1, hwalk.2, hname.component, hslashed⟩
  · intro ⟨haccepted, hwalk, hdir, hstep, hlast⟩
    refine ⟨_, ⟨haccepted, rfl⟩, ?_⟩
    rw [hstrip]
    dsimp only
    rw [bind_eq_ok_iff, List.reverse_reverse]
    refine ⟨last.directory, walk_concat_empty_eq_ok_iff.mpr ⟨hwalk, hdir⟩, ?_⟩
    obtain ⟨directory, step, slashed⟩ := last
    dsimp only at hstep hlast
    rw [hstep, hlast, hname.component, hslashed]

/-- A step is taken from a directory. -/
theorem isDir_of_approach {last : LastStep} {step : Component} (h : disk.approach path = .ok last)
    (hstep : last.step = some step) : disk.IsDir last.directory := by
  rw [approach, bind_eq_ok_iff] at h
  obtain ⟨all, -, h⟩ := h
  split at h
  · cases h
    cases hstep
  · rw [bind_eq_ok_iff] at h
    obtain ⟨directory, hwalk, h⟩ := h
    cases h
    exact (walk_concat_empty_eq_ok_iff.mp hwalk).2

theorem approach_join_eq_ok_iff (h : path.IsNamed) (hname : IsName name) {last : LastStep} :
    disk.approach (path.join name) = .ok last ↔ Accepted (path.join name) ∧
      disk.resolve path = .ok last.directory ∧ disk.IsDir last.directory ∧ last.step = some (.name name) ∧
      last.slashed = false := by
  rw [approach_eq_ok_iff (h.pieces_join hname) hname, resolve, start, h.isAbsolute_join hname, ← start]

end Disk

end BlockShuffle
