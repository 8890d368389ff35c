import Mathlib
import BlockShuffle.Path

/-!
# What a joined path names

A layout builds its paths with `Path.join`, one name at a time, and readers take them apart again by their
characters. Both directions are here, for names that are one component (`Path.IsName`): joining adds that
component and no other (`components_join`), whatever the base looks like, and the file name of a joined
path is the name (`splitName?_join`).

Files are also found under paths that nobody joined, with separators and dots behind the name. What any
spelling of a file's path looks like is `Path.Spells`, and `splitName?` finds the name in just those.

None of the paths here is looked up. What a path leads to on a disk is a different question, with directories
that have to exist, and is answered in `Proofs/Storage/Lookup` by the same pieces. The two dots stay where they
are written.

Text is taken apart at the last mark of a kind, which is the recursion of `splitAtLast`, and put together by
`++`; each direction has a lemma, and the condition under which they undo one another is always that the last
part does not have the mark. The front part may have further ones.
-/

set_option autoImplicit false

namespace BlockShuffle

/-! ## Equal paths -/

theorem Component.compare_eq_iff {a b : Component} : compare a b = .eq ↔ a = b := by
  cases a <;> cases b <;> simp [compare, instOrdComponent.ord]
  case name.name chars others =>
    change compare chars others = .eq ↔ chars = others
    rw [Std.LawfulEqOrd.compare_eq_iff_eq]

instance : Std.LawfulEqOrd Component where
  compare_self := Component.compare_eq_iff.mpr rfl
  eq_of_compare := Component.compare_eq_iff.mp

theorem Component.compare_eq_swap {a b : Component} : compare a b = (compare b a).swap := by
  cases a <;> cases b <;> try rfl
  case name.name chars others =>
    show (compare chars others).then .eq = ((compare others chars).then .eq).swap
    rw [Ordering.then_eq, Ordering.then_eq]
    exact Std.OrientedCmp.eq_swap

theorem Component.isLE_trans {a b c : Component} (hab : (compare a b).isLE = true)
    (hbc : (compare b c).isLE = true) : (compare a c).isLE = true := by
  cases a <;> cases b <;> cases c
  case name.name.name chars mid others =>
    change ((compare chars mid).then .eq).isLE = true at hab
    change ((compare mid others).then .eq).isLE = true at hbc
    show ((compare chars others).then .eq).isLE = true
    rw [Ordering.then_eq] at hab hbc ⊢
    exact Std.TransCmp.isLE_trans hab hbc
  all_goals first
    | rfl
    | (cases hab; done)
    | cases hbc

instance : Std.TransOrd Component where
  eq_swap := Component.compare_eq_swap
  isLE_trans := Component.isLE_trans

namespace Path

instance : Std.TransCmp order where
  eq_swap := Std.OrientedOrd.eq_swap
  isLE_trans := Std.TransOrd.isLE_trans

theorem order_eq_iff {path other : Path} :
    path.order other = .eq ↔ path.components = other.components := by
  rw [order, Std.LawfulEqOrd.compare_eq_iff_eq]

theorem sameAs_iff {path other : Path} :
    path.sameAs other = true ↔ path.components = other.components := beq_iff_eq

/-! ## Pieces -/

theorem pieces_ne_nil (chars : List Char) : pieces chars ≠ [] := by
  cases chars with
  | nil => simp [pieces]
  | cons c rest =>
    rw [pieces]
    split
    · exact List.cons_ne_nil _ _
    · split <;> exact List.cons_ne_nil _ _

theorem pieces_append (front back : List Char) :
    pieces (front ++ '/' :: back) = pieces front ++ pieces back := by
  induction front with
  | nil => simp [pieces]
  | cons c front ih =>
    rw [List.cons_append, pieces, pieces, ih]
    split
    · rfl
    · cases h : pieces front with
      | nil => exact absurd h (pieces_ne_nil front)
      | cons piece others => rfl

theorem pieces_of_not_mem {chars : List Char} (h : '/' ∉ chars) : pieces chars = [chars] := by
  induction chars with
  | nil => rfl
  | cons c chars ih =>
    rw [List.mem_cons, not_or] at h
    rw [pieces, if_neg (fun heq => h.1 heq.symm), ih h.2]

theorem flatMap_pieces (chars : List Char) :
    (pieces chars).flatMap (· ++ ['/']) = chars ++ ['/'] := by
  induction chars with
  | nil => rfl
  | cons c chars ih =>
    rw [pieces]
    split
    · rename_i hc
      rw [List.flatMap_cons, ih, hc]
      rfl
    · cases h : pieces chars with
      | nil => exact absurd h (pieces_ne_nil chars)
      | cons piece others =>
        rw [h] at ih
        simp only [List.flatMap_cons, List.cons_append] at ih ⊢
        rw [ih]

/-! ## Components -/

/-- A piece that is one component: a name, and neither of the dots. -/
structure IsName (name : List Char) : Prop where
  one : '/' ∉ name
  component : Component.ofPiece? name = some (.name name)

theorem isName_of_ne {name : List Char} (h : '/' ∉ name) (hempty : name ≠ [])
    (hdot : name ≠ ['.']) (hdots : name ≠ ['.', '.']) : IsName name := by
  refine ⟨h, ?_⟩
  unfold Component.ofPiece?
  split <;> simp_all

theorem IsName.ne_nil {name : List Char} (h : IsName name) : name ≠ [] := by
  rintro rfl
  cases h.component

theorem IsName.ne_dot {name : List Char} (h : IsName name) : name ≠ ['.'] := by
  rintro rfl
  cases h.component

theorem IsName.ne_dots {name : List Char} (h : IsName name) : name ≠ ['.', '.'] := by
  rintro rfl
  have := h.component
  simp [Component.ofPiece?] at this

/-- What the first piece of several stands for. -/
def leading : List Char → List Component
  | [] => [.root]
  | ['.'] => [.current]
  | piece => (Component.ofPiece? piece).toList

theorem leading_name {name : List Char} (h : IsName name) : leading name = [.name name] := by
  unfold leading
  split
  · exact absurd rfl h.ne_nil
  · exact absurd rfl h.ne_dot
  · rw [h.component]
    rfl

theorem components_of_pieces {chars first : List Char} {rest : List (List Char)}
    (h : pieces chars = first :: rest) (hrest : first = [] → rest ≠ []) :
    (Path.mk chars).components = leading first ++ rest.filterMap Component.ofPiece? := by
  rw [components]
  dsimp only
  rw [h]
  by_cases hempty : first = []
  · have hne := hrest hempty
    subst hempty
    dsimp only
    rw [if_neg (by simpa using hne)]
    rfl
  · by_cases hdot : first = ['.']
    · subst hdot
      rfl
    · -- Any other first piece is read like the rest.
      have hleading : leading first = (Component.ofPiece? first).toList := by
        unfold leading
        split <;> simp_all
      rw [hleading]
      split
      · simp_all
      · simp_all
      · rw [List.filterMap_cons]
        cases Component.ofPiece? first <;> rfl

/-- The text in front of a name that is joined to a path. -/
def lead (base : Path) : List Char :=
  if base.chars.isEmpty || base.chars.getLast? == some '/' then base.chars else base.chars ++ ['/']

theorem join_eq (base : Path) {name : List Char} (h : IsName name) :
    base.join name = ⟨base.lead ++ name⟩ := by
  have hhead : name.head? ≠ some '/' := fun heq => h.one (List.mem_of_mem_head? heq)
  rw [join, if_neg hhead, lead]
  split <;> simp

/-- What is in front of a joined name is nothing, or ends with a separator. -/
theorem lead_cases (base : Path) :
    (base.chars = [] ∧ base.lead = []) ∨
    (∃ front, base.chars = front ++ ['/'] ∧ base.lead = front ++ ['/']) ∨
    (base.chars ≠ [] ∧ base.lead = base.chars ++ ['/']) := by
  rw [lead]
  by_cases hempty : base.chars = []
  · exact Or.inl ⟨hempty, by simp [hempty]⟩
  · by_cases hlast : base.chars.getLast? = some '/'
    · obtain ⟨front, hfront⟩ := List.getLast?_eq_some_iff.mp hlast
      exact Or.inr (Or.inl ⟨front, hfront, by simp [hfront]⟩)
    · exact Or.inr (Or.inr ⟨hempty, by simp [hempty, hlast]⟩)

theorem pieces_lead_append (base : Path) {name : List Char} (h : IsName name) :
    ∃ before, pieces (base.lead ++ name) = before ++ [name] ∧ before.flatMap (· ++ ['/']) = base.lead := by
  have hname := pieces_of_not_mem h.one
  rcases base.lead_cases with ⟨-, hstem⟩ | ⟨front, -, hstem⟩ | ⟨-, hstem⟩
  · exact ⟨[], by rw [hstem, List.nil_append, hname, List.nil_append], by rw [hstem]; rfl⟩
  · refine ⟨pieces front, ?_, by rw [hstem, flatMap_pieces]⟩
    rw [hstem, List.append_assoc, List.singleton_append, pieces_append, hname]
  · refine ⟨pieces base.chars, ?_, by rw [hstem, flatMap_pieces]⟩
    rw [hstem, List.append_assoc, List.singleton_append, pieces_append, hname]

/-- **Joining adds one component**, whatever the base is and however it ends. -/
theorem components_join (base : Path) {name : List Char} (h : IsName name) :
    (base.join name).components = base.components ++ [.name name] := by
  have hname := pieces_of_not_mem h.one
  have hlast : [name].filterMap Component.ofPiece? = [.name name] := by
    rw [List.filterMap_cons, h.component]
    rfl
  rw [join_eq base h]
  obtain ⟨chars⟩ := base
  rcases (Path.mk chars).lead_cases with ⟨hchars, hstem⟩ | ⟨front, hchars, hstem⟩ | ⟨hchars, hstem⟩
  · -- The name is the first piece.
    rw [hstem, List.nil_append, components_of_pieces hname (fun hnil => absurd hnil h.ne_nil),
      leading_name h]
    dsimp only at hchars
    subst hchars
    rfl
  · -- The base ends with an empty piece, which the name takes the place of.
    dsimp only at hchars
    subst hchars
    obtain ⟨first, rest, hfront⟩ := List.exists_cons_of_ne_nil (pieces_ne_nil front)
    have hbase : pieces (front ++ ['/']) = first :: (rest ++ [[]]) := by
      rw [pieces_append, hfront]
      rfl
    have hjoined : pieces (front ++ ['/'] ++ name) = first :: (rest ++ [name]) := by
      rw [List.append_assoc, List.singleton_append, pieces_append, hfront, hname]
      rfl
    rw [hstem, components_of_pieces hbase (fun _ => by simp),
      components_of_pieces hjoined (fun _ => by simp), List.filterMap_append, List.filterMap_append, hlast]
    simp [Component.ofPiece?]
  · dsimp only at hchars hstem
    obtain ⟨first, rest, hfront⟩ := List.exists_cons_of_ne_nil (pieces_ne_nil chars)
    have hjoined : pieces (chars ++ ['/'] ++ name) = first :: (rest ++ [name]) := by
      rw [List.append_assoc, List.singleton_append, pieces_append, hfront, hname]
      rfl
    have hrest : first = [] → rest ≠ [] := by
      rintro rfl rfl
      have hflat := flatMap_pieces chars
      rw [hfront] at hflat
      exact hchars (by simpa using hflat.symm)
    rw [hstem, components_of_pieces hfront hrest, components_of_pieces hjoined (fun _ => by simp),
      List.filterMap_append, hlast, List.append_assoc]

/-- **The file name of a joined path** is the name, and the text in front of it is what it was joined to. -/
theorem splitName?_join (base : Path) {name : List Char} (h : IsName name) :
    (base.join name).splitName? = some (base.lead, name) := by
  obtain ⟨before, hpieces, hbefore⟩ := base.pieces_lead_append h
  rw [join_eq base h, splitName?]
  dsimp only
  rw [hpieces, List.reverse_append, List.reverse_singleton, List.singleton_append,
    List.dropWhile_cons_of_neg (by simp [h.ne_nil, h.ne_dot])]
  split
  · rename_i heq
    cases heq
  · rename_i heq
    cases heq
    exact absurd rfl h.ne_dots
  · rename_i heq
    cases heq
    rw [List.reverse_reverse, hbefore]

/-! ## File names -/

theorem splitAtLast_of_not_mem {mark : Char} {chars : List Char} (h : mark ∉ chars) :
    splitAtLast mark chars = none := by
  induction chars with
  | nil => rfl
  | cons c chars ih =>
    rw [List.mem_cons, not_or] at h
    rw [splitAtLast, ih h.2, if_neg (fun heq => h.1 heq.symm)]

/-- Splitting takes back what was put together, if the mark is not in the last part. -/
theorem splitAtLast_append {mark : Char} (front : List Char) {back : List Char} (h : mark ∉ back) :
    splitAtLast mark (front ++ mark :: back) = some (front, back) := by
  induction front with
  | nil => rw [List.nil_append, splitAtLast, splitAtLast_of_not_mem h, if_pos rfl]
  | cons c front ih => rw [List.cons_append, splitAtLast, ih]

theorem splitExtension_append {stem extension : List Char} (hstem : stem ≠ []) (h : '.' ∉ extension) :
    splitExtension (stem ++ '.' :: extension) = (stem, some extension) := by
  rw [splitExtension, splitAtLast_append stem h]
  cases stem with
  | nil => exact absurd rfl hstem
  | cons c stem => rfl

theorem not_mem_of_splitAtLast {mark : Char} {chars : List Char} (h : splitAtLast mark chars = none) :
    mark ∉ chars := by
  induction chars with
  | nil => simp
  | cons c chars ih =>
    rw [splitAtLast] at h
    cases hrest : splitAtLast mark chars with
    | some split =>
      rw [hrest] at h
      cases h
    | none =>
      rw [hrest] at h
      dsimp only at h
      split at h
      · cases h
      · rename_i hc
        simp [ih hrest, Ne.symm hc]

theorem eq_of_splitAtLast {mark : Char} {chars front back : List Char}
    (h : splitAtLast mark chars = some (front, back)) : chars = front ++ mark :: back ∧ mark ∉ back := by
  induction chars generalizing front with
  | nil => cases h
  | cons c chars ih =>
    rw [splitAtLast] at h
    cases hrest : splitAtLast mark chars with
    | some split =>
      obtain ⟨before, behind⟩ := split
      rw [hrest] at h
      cases h
      obtain ⟨rfl, hback⟩ := ih hrest
      exact ⟨rfl, hback⟩
    | none =>
      rw [hrest] at h
      dsimp only at h
      split at h
      · rename_i hc
        cases h
        exact ⟨by rw [hc, List.nil_append], not_mem_of_splitAtLast hrest⟩
      · cases h

theorem eq_of_splitExtension {name stem extension : List Char}
    (h : splitExtension name = (stem, some extension)) :
    name = stem ++ '.' :: extension ∧ stem ≠ [] ∧ '.' ∉ extension := by
  rw [splitExtension] at h
  split at h
  · cases h
  · cases h
  · rename_i hempty heq
    cases h
    obtain ⟨hname, hdotless⟩ := eq_of_splitAtLast heq
    exact ⟨hname, hempty, hdotless⟩

/-! ## Spellings of a file's path -/

/-- Text between whose separators is nothing that counts. -/
def Blank (chars : List Char) : Prop := ∀ piece ∈ pieces chars, piece = [] ∨ piece = ['.']

/-- What a path may end with behind its file name. -/
def IsTail (tail : List Char) : Prop := tail = [] ∨ ∃ blank, tail = '/' :: blank ∧ Blank blank

/-- The path is written as this file name behind this text. -/
structure Spells (path : Path) (front name : List Char) : Prop where
  isName : IsName name
  lead : (Path.mk front).lead = front
  written : ∃ tail, path.chars = front ++ name ++ tail ∧ IsTail tail

theorem not_mem_of_mem_pieces {chars piece : List Char} (h : piece ∈ pieces chars) : '/' ∉ piece := by
  induction chars generalizing piece with
  | nil =>
    simp only [pieces, List.mem_singleton] at h
    simp [h]
  | cons c chars ih =>
    rw [pieces] at h
    split at h
    · rcases List.mem_cons.mp h with rfl | hrest
      · simp
      · exact ih hrest
    · rename_i hc
      obtain ⟨first, rest, hpieces⟩ := List.exists_cons_of_ne_nil (pieces_ne_nil chars)
      rw [hpieces] at h ih
      rcases List.mem_cons.mp h with rfl | hrest
      · have hfirst := ih List.mem_cons_self
        simp [hfirst, Ne.symm hc]
      · exact ih (List.mem_cons_of_mem _ hrest)

/-- Pieces are cut apart at a separator. -/
theorem exists_of_pieces_append {chars : List Char} {before rest : List (List Char)}
    (h : pieces chars = before ++ rest) (hbefore : before ≠ []) (hrest : rest ≠ []) :
    ∃ front back, chars = front ++ '/' :: back ∧ pieces front = before ∧ pieces back = rest := by
  -- By the characters: a separator ends the piece that is open, any other character makes it longer.
  induction chars generalizing before with
  | nil =>
    have hlength := congrArg List.length h
    have hb := List.length_pos_iff.mpr hbefore
    have hr := List.length_pos_iff.mpr hrest
    simp only [pieces, List.length_singleton, List.length_append] at hlength
    omega
  | cons c chars ih =>
    obtain ⟨first, before, rfl⟩ := List.exists_cons_of_ne_nil hbefore
    rw [pieces] at h
    split at h
    · rename_i hc
      rw [List.cons_append, List.cons.injEq] at h
      obtain ⟨rfl, h⟩ := h
      by_cases hmore : before = []
      · subst hmore
        exact ⟨[], chars, by simp [hc], rfl, by simpa using h⟩
      · obtain ⟨front, back, rfl, hfront, hback⟩ := ih h hmore
        refine ⟨c :: front, back, rfl, ?_, hback⟩
        rw [pieces, if_pos hc, hfront]
    · rename_i hc
      obtain ⟨piece, others, hpieces⟩ := List.exists_cons_of_ne_nil (pieces_ne_nil chars)
      rw [hpieces, List.cons_append, List.cons.injEq] at h
      obtain ⟨rfl, rfl⟩ := h
      have hwhole : pieces chars = (piece :: before) ++ rest := hpieces
      obtain ⟨front, back, rfl, hfront, hback⟩ := ih hwhole (by simp)
      refine ⟨c :: front, back, rfl, ?_, hback⟩
      rw [pieces, if_neg hc, hfront]

/-- The beginning of a text has the first pieces, and of the last of them perhaps a part. -/
theorem pieces_take (count : Nat) (chars : List Char) :
    ∃ first rest first' rest', pieces (chars.take count) = first :: rest ∧ pieces chars = first' :: rest' ∧
      first <+: first' ∧ ∀ piece ∈ rest, ∃ whole ∈ rest', piece <+: whole := by
  induction chars generalizing count with
  | nil => exact ⟨[], [], [], [], by simp [pieces], rfl, List.prefix_refl _, by simp⟩
  | cons c chars ih =>
    cases count with
    | zero =>
      obtain ⟨first', rest', hpieces⟩ := List.exists_cons_of_ne_nil (pieces_ne_nil (c :: chars))
      exact ⟨[], [], first', rest', by simp [pieces], hpieces, List.nil_prefix, by simp⟩
    | succ count =>
      obtain ⟨first, rest, first', rest', htake, hpieces, hfirst, hrest⟩ := ih count
      rw [List.take_succ_cons, pieces, pieces, htake, hpieces]
      split
      · refine ⟨_, _, _, _, rfl, rfl, List.prefix_refl _, fun piece hpiece => ?_⟩
        rcases List.mem_cons.mp hpiece with rfl | hmem
        · exact ⟨first', List.mem_cons_self, hfirst⟩
        · obtain ⟨whole, hwhole, hprefix⟩ := hrest piece hmem
          exact ⟨whole, List.mem_cons_of_mem _ hwhole, hprefix⟩
      · exact ⟨_, _, _, _, rfl, rfl, List.cons_prefix_cons.mpr ⟨rfl, hfirst⟩, hrest⟩

theorem Blank.take {chars : List Char} (h : Blank chars) (count : Nat) : Blank (chars.take count) := by
  obtain ⟨first, rest, first', rest', htake, hpieces, hfirst, hrest⟩ := pieces_take count chars
  have hpart : ∀ {piece whole : List Char}, piece <+: whole → (whole = [] ∨ whole = ['.']) →
      piece = [] ∨ piece = ['.'] := by
    rintro piece whole hprefix (rfl | rfl)
    · exact Or.inl (List.prefix_nil.mp hprefix)
    · rcases List.prefix_cons_iff.mp hprefix with hnil | ⟨rest, rfl, hrest⟩
      · exact Or.inl hnil
      · exact Or.inr (by rw [List.prefix_nil.mp hrest])
  intro piece hpiece
  rw [htake] at hpiece
  rcases List.mem_cons.mp hpiece with rfl | hmem
  · exact hpart hfirst (h first' (by rw [hpieces]; exact List.mem_cons_self))
  · obtain ⟨whole, hwhole, hprefix⟩ := hrest piece hmem
    exact hpart hprefix (h whole (by rw [hpieces]; exact List.mem_cons_of_mem _ hwhole))

theorem IsTail.take {tail : List Char} (h : IsTail tail) (count : Nat) : IsTail (tail.take count) := by
  rcases h with rfl | ⟨blank, rfl, hblank⟩
  · exact Or.inl (by simp)
  · cases count with
    | zero => exact Or.inl rfl
    | succ count => exact Or.inr ⟨blank.take count, rfl, hblank.take count⟩

/-- A file name behind some text is a name joined to the text. -/
theorem mk_append_eq_join {front name : List Char} (hfront : (Path.mk front).lead = front) (h : IsName name) :
    (Path.mk (front ++ name)) = (Path.mk front).join name := by
  rw [join_eq _ h, hfront]

theorem lead_flatMap (before : List (List Char)) :
    (Path.mk (before.flatMap (· ++ ['/']))).lead = before.flatMap (· ++ ['/']) := by
  rcases List.eq_nil_or_concat before with rfl | ⟨before, last, rfl⟩
  · rfl
  · simp [lead]

/-- The pieces behind a file name are blank, and those in front of it are the text in front. -/
theorem pieces_of_splitName? {path : Path} {front name : List Char} (h : path.splitName? = some (front, name)) :
    ∃ before blanks, pieces path.chars = before ++ [name] ++ blanks ∧ front = before.flatMap (· ++ ['/']) ∧
      (∀ piece ∈ blanks, piece = [] ∨ piece = ['.']) ∧ name ≠ [] ∧ name ≠ ['.'] ∧ name ≠ ['.', '.'] := by
  have hsplit := List.takeWhile_append_dropWhile (p := fun piece => piece == [] || piece == ['.'])
    (l := (pieces path.chars).reverse)
  have hhead := List.head?_dropWhile_not (fun piece => piece == [] || piece == ['.']) (pieces path.chars).reverse
  rw [splitName?] at h
  split at h
  · cases h
  · cases h
  · rename_i last before hdots heq
    cases h
    rw [heq] at hsplit hhead
    simp only [List.head?_cons, Bool.or_eq_false_iff, beq_eq_false_iff_ne] at hhead
    have hpieces := congrArg List.reverse hsplit
    rw [List.reverse_reverse, List.reverse_append, List.reverse_cons] at hpieces
    refine ⟨before.reverse, _, hpieces.symm, rfl, fun piece hpiece => ?_, hhead.1, hhead.2,
      fun hname => hdots hname⟩
    have hmem := List.mem_takeWhile_imp (List.mem_reverse.mp hpiece)
    simpa using hmem

theorem spells_of_splitName? {path : Path} {front name : List Char} (h : path.splitName? = some (front, name)) :
    path.Spells front name := by
  obtain ⟨before, blanks, hpieces, hfront, hblanks, hname⟩ := pieces_of_splitName? h
  have hslash : '/' ∉ name := by
    apply not_mem_of_mem_pieces
    rw [hpieces]
    simp
  -- Text with the pieces up to the name is the text in front and the name.
  have hwritten : ∀ {chars}, pieces chars = before ++ [name] → chars = front ++ name := by
    intro chars hchars
    have hflat := flatMap_pieces chars
    rw [hchars, List.flatMap_append, ← hfront, List.flatMap_singleton, ← List.append_assoc,
      List.append_cancel_right_eq] at hflat
    exact hflat.symm
  refine ⟨isName_of_ne hslash hname.1 hname.2.1 hname.2.2, hfront ▸ lead_flatMap before, ?_⟩
  by_cases hempty : blanks = []
  · rw [hempty, List.append_nil] at hpieces
    exact ⟨[], by rw [List.append_nil]; exact hwritten hpieces, Or.inl rfl⟩
  · obtain ⟨text, blank, hchars, htext, hblank⟩ := exists_of_pieces_append hpieces (by simp) hempty
    refine ⟨'/' :: blank, by rw [hchars, hwritten htext], Or.inr ⟨blank, rfl, ?_⟩⟩
    rw [Blank, hblank]
    exact hblanks

theorem splitName?_of_spells {path : Path} {front name : List Char} (h : path.Spells front name) :
    path.splitName? = some (front, name) := by
  obtain ⟨tail, hchars, htail⟩ := h.written
  have hjoined := splitName?_join ⟨front⟩ h.isName
  rw [← mk_append_eq_join h.lead h.isName, h.lead] at hjoined
  rcases htail with rfl | ⟨blank, rfl, hblank⟩
  · rw [List.append_nil] at hchars
    rw [← hjoined, ← hchars]
  · have hdrop : (pieces path.chars).reverse.dropWhile (fun piece => piece == [] || piece == ['.']) =
        (pieces (front ++ name)).reverse.dropWhile (fun piece => piece == [] || piece == ['.']) := by
      rw [hchars, pieces_append, List.reverse_append, List.dropWhile_append_of_pos]
      intro piece hpiece
      simpa using hblank piece (List.mem_reverse.mp hpiece)
    rw [splitName?] at hjoined ⊢
    rw [hdrop]
    exact hjoined

/-- What is behind the name does not count. -/
theorem components_of_spells {path : Path} {front name : List Char} (h : path.Spells front name) :
    path.components = (Path.mk front).components ++ [.name name] := by
  obtain ⟨tail, hchars, htail⟩ := h.written
  rw [← components_join ⟨front⟩ h.isName, ← mk_append_eq_join h.lead h.isName]
  obtain ⟨chars⟩ := path
  dsimp only at hchars
  rw [hchars]
  rcases htail with rfl | ⟨blank, rfl, hblank⟩
  · rw [List.append_nil]
  · obtain ⟨first, rest, hpieces⟩ := List.exists_cons_of_ne_nil (pieces_ne_nil (front ++ name))
    have hall : pieces (front ++ name ++ '/' :: blank) = first :: (rest ++ pieces blank) := by
      rw [pieces_append, hpieces, List.cons_append]
    have hblanks : (pieces blank).filterMap Component.ofPiece? = [] := by
      rw [List.filterMap_eq_nil_iff]
      intro piece hpiece
      rcases hblank piece hpiece with rfl | rfl <;> rfl
    have hrest : first = [] → rest ≠ [] := by
      rintro rfl rfl
      have hflat := flatMap_pieces (front ++ name)
      rw [hpieces, List.flatMap_singleton, List.append_cancel_right_eq] at hflat
      exact h.isName.ne_nil (List.append_eq_nil_iff.mp hflat.symm).2
    rw [components_of_pieces hall fun _ => by simp [pieces_ne_nil], components_of_pieces hpieces hrest,
      List.filterMap_append, hblanks, List.append_nil]

theorem lead_lead (base : Path) : (Path.mk base.lead).lead = base.lead := by
  rcases base.lead_cases with ⟨-, h⟩ | ⟨front, -, h⟩ | ⟨-, h⟩ <;> rw [h] <;> simp [lead]

theorem spells_join (base : Path) {name : List Char} (h : IsName name) :
    (base.join name).Spells base.lead name :=
  ⟨h, lead_lead base, [], by rw [join_eq base h, List.append_nil], Or.inl rfl⟩

end Path

end BlockShuffle
