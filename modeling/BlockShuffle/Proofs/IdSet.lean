import Mathlib
import BlockShuffle.IdSet

/-!
# Membership in sets of ids

`Std.ExtTreeSet` says what is in a set through the comparison it is ordered by. Ids are compared as the
words they are, so here the same facts are said through equality, which is the form every account of a
set of ids uses.

Five facts are enough: what is in a set after a member is put in, taken out or a condition is asked, when a set
is empty, and that the list of members ascends strictly. The last is the one that is not about membership. It
makes the list of a set a function of the set, which is what an error that names the first ten missing ids
relies on. Everything else, unions and folds, is derived from these where it is used. There are no lemmas on the
number of members: the counts in a report are of sets that are known to be equal.
-/

set_option autoImplicit false

namespace BlockShuffle.IdSet

variable {ids : IdSet} {raw id : UInt64}

theorem mem_insert_iff : id ∈ ids.insert raw ↔ id = raw ∨ id ∈ ids := by
  rw [Std.ExtTreeSet.mem_insert, Std.LawfulEqOrd.compare_eq_iff_eq, eq_comm]

theorem mem_filter_iff {keep : UInt64 → Bool} : id ∈ ids.filter keep ↔ id ∈ ids ∧ keep id := by
  rw [Std.ExtTreeSet.mem_filter]
  constructor
  · rintro ⟨h, hk⟩
    rw [Std.ExtTreeSet.get_eq] at hk
    exact ⟨h, hk⟩
  · rintro ⟨h, hk⟩
    exact ⟨h, by rw [Std.ExtTreeSet.get_eq]; exact hk⟩

theorem mem_erase_iff : id ∈ ids.erase raw ↔ id ∈ ids ∧ raw ≠ id := by
  rw [Std.ExtTreeSet.mem_erase, Ne, Std.LawfulEqOrd.compare_eq_iff_eq, and_comm]

/-- A set with no member is empty, by the test that programs make. -/
theorem isEmpty_iff_forall_not_mem : ids.isEmpty = true ↔ ∀ id, id ∉ ids := by
  rw [Std.ExtTreeSet.isEmpty_iff, Std.ExtTreeSet.eq_empty_iff_forall_not_mem]

/-- Members come out in ascending order. -/
theorem pairwise_toList (ids : IdSet) : ids.toList.Pairwise (· < ·) :=
  Std.ExtTreeSet.ordered_toList.imp Std.compare_eq_lt.mp

end BlockShuffle.IdSet
