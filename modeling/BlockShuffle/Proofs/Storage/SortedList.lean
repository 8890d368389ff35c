import Mathlib
import BlockShuffle.Storage.SortedList

/-!
# Sorted association lists

Inserting under a key keeps a list sorted, and what a key stands for is what was inserted under it last.
In a sorted list no key is there twice, so looking a key up and listing what is there are the same.

The lemmas are about any order on the keys that is a `Std.TransCmp`, and, where a key is looked up by equality,
one whose `.eq` is equality. Memory keys its files by paths, of which several spellings may be the same file, so
its order has keys that are equal without being the same: that is why `Sorted.insert` asks for less than
`lookup_insert` does. Removing a key is a filter of the list, of which the library's lemmas say all there is to
say, and changing a value in place is an insertion. Standard maps do not replace these lists: a state is
compared as a whole and listed in order, both of which are the list itself.
-/

set_option autoImplicit false

namespace BlockShuffle

namespace SortedList

variable {κ ν : Type} {order : κ → κ → Ordering} {key other : κ} {value : ν} {list : List (κ × ν)}

/-- Every key is smaller than those behind it. -/
def Sorted (order : κ → κ → Ordering) (list : List (κ × ν)) : Prop :=
  list.Pairwise fun entry other => order entry.1 other.1 = .lt

theorem key_of_mem_insert {entry : κ × ν} (h : entry ∈ insert order key value list) :
    entry.1 = key ∨ ∃ other ∈ list, other.1 = entry.1 := by
  induction list with
  | nil =>
    rw [insert, List.mem_singleton] at h
    exact Or.inl (congrArg Prod.fst h)
  | cons first rest ih =>
    obtain ⟨other, kept⟩ := first
    rw [insert] at h
    cases horder : order key other with
    | lt =>
      rw [horder] at h
      rcases List.mem_cons.mp h with rfl | h
      · exact Or.inl rfl
      · exact Or.inr ⟨entry, h, rfl⟩
    | eq =>
      rw [horder] at h
      rcases List.mem_cons.mp h with rfl | h
      · exact Or.inr ⟨_, List.mem_cons_self, rfl⟩
      · exact Or.inr ⟨entry, List.mem_cons_of_mem _ h, rfl⟩
    | gt =>
      rw [horder] at h
      rcases List.mem_cons.mp h with rfl | h
      · exact Or.inr ⟨_, List.mem_cons_self, rfl⟩
      · rcases ih h with hkey | ⟨found, hfound, heq⟩
        · exact Or.inl hkey
        · exact Or.inr ⟨found, List.mem_cons_of_mem _ hfound, heq⟩

theorem Sorted.insert [Std.TransCmp order] (h : Sorted order list) (key : κ) (value : ν) :
    Sorted order (insert order key value list) := by
  induction list with
  | nil => exact List.pairwise_singleton _ _
  | cons first rest ih =>
    obtain ⟨other, kept⟩ := first
    obtain ⟨hfirst, hrest⟩ := List.pairwise_cons.mp h
    rw [SortedList.insert]
    cases horder : order key other with
    | lt =>
      refine List.pairwise_cons.mpr ⟨fun entry hentry => ?_, h⟩
      rcases List.mem_cons.mp hentry with rfl | hentry
      · exact horder
      · exact Std.TransCmp.lt_trans horder (hfirst entry hentry)
    | eq => exact List.pairwise_cons.mpr ⟨hfirst, hrest⟩
    | gt =>
      refine List.pairwise_cons.mpr ⟨fun entry hentry => ?_, ih hrest⟩
      rcases key_of_mem_insert hentry with hkey | ⟨found, hfound, heq⟩
      · rw [hkey]
        exact Std.OrientedCmp.lt_of_gt horder
      · rw [← heq]
        exact hfirst found hfound

theorem lookup_insert [BEq κ] [LawfulBEq κ] [Std.LawfulEqCmp order] :
    (insert order key value list).lookup other = if other == key then some value else list.lookup other := by
  induction list with
  | nil =>
    rw [insert, List.lookup_cons]
    split <;> simp_all
  | cons first rest ih =>
    obtain ⟨head, kept⟩ := first
    rw [insert]
    cases horder : order key head with
    | lt =>
      dsimp only
      rw [List.lookup_cons]
      split <;> simp_all
    | eq =>
      obtain rfl := Std.LawfulEqCmp.eq_of_compare horder
      dsimp only
      rw [List.lookup_cons, List.lookup_cons]
      split <;> simp_all
    | gt =>
      have hne : (head == key) = false := by
        rw [beq_eq_false_iff_ne]
        rintro rfl
        have hself : order head head = .eq := Std.ReflCmp.compare_self
        exact absurd (hself.symm.trans horder) nofun
      dsimp only
      rw [List.lookup_cons, List.lookup_cons, ih]
      by_cases hother : other = head
      · subst hother
        simp [hne]
      · rw [beq_eq_false_iff_ne.mpr hother]

/-- In a sorted list, what a key stands for is what is listed with it. -/
theorem Sorted.lookup_eq_some_iff [BEq κ] [LawfulBEq κ] [Std.ReflCmp order] (h : Sorted order list) :
    list.lookup key = some value ↔ (key, value) ∈ list := by
  induction list with
  | nil => simp
  | cons first rest ih =>
    obtain ⟨head, kept⟩ := first
    obtain ⟨hfirst, hrest⟩ := List.pairwise_cons.mp h
    rw [List.lookup_cons, List.mem_cons, Prod.mk.injEq]
    by_cases hkey : key = head
    · subst hkey
      have habsent : (key, value) ∉ rest := by
        intro hmem
        have hself : order key key = .eq := Std.ReflCmp.compare_self
        exact absurd (hself.symm.trans (hfirst _ hmem)) nofun
      simp [habsent, eq_comm]
    · rw [beq_eq_false_iff_ne.mpr hkey]
      simp [hkey, ih hrest]

end SortedList

end BlockShuffle
