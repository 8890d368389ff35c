import Std.Data.ExtTreeSet

/-!
# Sets of ids

Sets of 64-bit numbers: block ids and task attempts. They are equal when they have the same members,
and their members come out in ascending order.

Extensionality is what the choice is about. Two attempts may file the same ids in another order, and
two readers may deliver them in another order; with a tree that is equal to another when the members
agree, "the same set" is an equation and no statement has to speak of the order in which a set was
filled. Ids are compared as the words they are. What an id says of itself (a partition, an attempt,
a sequence number) plays no part here: sets that are kept for each partition are in
`PartitionedIds`, and telling apart whose block an id is belongs to the reader and the attempt that
file it.
-/

set_option autoImplicit false

namespace BlockShuffle

/-- A set of block ids or task attempts. -/
abbrev IdSet := Std.ExtTreeSet UInt64

end BlockShuffle
