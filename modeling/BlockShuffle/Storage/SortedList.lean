/-!
# Sorted association lists

Both storages keep what they hold in a list sorted by key, because listings are sorted and small
states are easiest to compare as lists. Inserting under a key that is there replaces the value and
keeps the key as it was first written; that matters where two spellings are one key.

There is one operation, and what it is good for is proved beside the storages that use it, in
`Proofs/Storage/SortedList`. Looking up and removing are the library's `find?`, `lookup` and
`filter` on the list as it is. The order is an argument and not an instance, since paths have two:
the one their components give, by which files are kept, and equality of the text, by which a reader
is shown what it asked for. The recursion stops at the first larger key, which is right in a sorted
list only; on another list the function is total, and no storage holds one.
-/

set_option autoImplicit false

namespace BlockShuffle.SortedList

variable {κ ν : Type}

/-- Put a value at its key's place, in front of the first key that is larger. -/
def insert (order : κ → κ → Ordering) (key : κ) (value : ν) : List (κ × ν) → List (κ × ν)
  | [] => [(key, value)]
  | (other, kept) :: rest =>
    match order key other with
    | .lt => (key, value) :: (other, kept) :: rest
    | .eq => (other, value) :: rest
    | .gt => (other, kept) :: insert order key value rest

end BlockShuffle.SortedList
