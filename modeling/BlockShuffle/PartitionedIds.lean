import Std.Data.ExtTreeMap
import BlockShuffle.IdSet

/-!
# Ids by partition

Sets of block ids, each of them under a partition. Whoever reads a partition is told one of these
sets and never the others, so it matters what an id is filed under, and not only that it is
somewhere.

A partition has a set from the first id on that is filed under it, and keeps it when the last one is
removed again; a partition without a set has no ids. So an empty set and no set say the same, and
`merge` leaves the empty ones out.

Nothing here looks into an id. The partition is given with every call, and an id may be filed under
any partition, under several of them, and removed from one where it is not. That the sets of a task
attempt have each id under the partition which the id itself names is a fact about task attempts,
and is proved of them; it is not built in here.
-/

set_option autoImplicit false

namespace BlockShuffle

/-- Sets of ids by partition. -/
abbrev PartitionedIds := Std.ExtTreeMap UInt32 IdSet

namespace PartitionedIds

/-- The ids of a partition. -/
def under (sets : PartitionedIds) (partition : UInt32) : IdSet := sets.getD partition ∅

/-- Put an id under a partition. -/
def file (sets : PartitionedIds) (partition : UInt32) (raw : UInt64) : PartitionedIds :=
  sets.insert partition ((sets.under partition).insert raw)

/-- Take an id from a partition, if it has a set. -/
def remove (sets : PartitionedIds) (partition : UInt32) (raw : UInt64) : PartitionedIds :=
  sets.modify partition (·.erase raw)

/-- Put all ids of a set under a partition. -/
def fileAll (sets : PartitionedIds) (partition : UInt32) (ids : IdSet) : PartitionedIds :=
  sets.insert partition (sets.under partition ∪ ids)

/-- Put more ids under their partitions, set by set. -/
def merge (sets more : PartitionedIds) : PartitionedIds :=
  more.foldl (fun sets partition ids => if ids.isEmpty then sets else sets.fileAll partition ids) sets

/-- How many ids there are, an id under two partitions counting twice. -/
def count (sets : PartitionedIds) : Nat := (sets.toList.map fun (_, ids) => ids.size).foldr (· + ·) 0

end PartitionedIds

end BlockShuffle
