import BlockShuffle.Path

/-!
# Where the files of a shuffle are

Writers and readers have to derive the same paths from the same inputs, so every path is built here:

```
{base}/{app}/{shuffle}/{first}-{last}/{shard}_{n}.data
                                      {shard}_{n}.index
```

One directory holds a range of partitions. A reader finds shards by the names of their index files,
which is why a shard's name may not hold a dot: `w_3.index` is pair 3 of shard `w`, and a copy such
as `w_3.cp.index` is nobody's.

Every function here is total and none touches a storage. A directory's name is the range's first and
last partition, so two settings of how many partitions share a directory make layouts that do not
meet, apart from ranges they have in common; a reader has to be told the one the writers used. The
last partition is computed in 32 bits and wraps near their end, where a range would have a name that
sorts before its first partition; that ranges tile the partitions has a condition for it.

`ofIndex?` is more liberal than `shardFiles`: it takes zeros and a plus in front of the number. It
returns the pair with the paths it was found under and not the paths that a writer would have used,
so a file is read from where it is. What exactly is recognised, and that what writers write is
recognised as what it is, is proved in `Proofs/ShardNames`.
-/

set_option autoImplicit false

namespace BlockShuffle

/-! ## Partition ranges -/

/-- The partitions that share a directory, first and last included. -/
structure PartitionRange where
  first : UInt32
  last : UInt32
deriving DecidableEq, Repr

namespace PartitionRange

/-- The range of a partition when `perRange` of them share a directory (zero acts as one). -/
def forPartition (partition perRange : UInt32) : PartitionRange :=
  let width := if perRange = 0 then 1 else perRange
  let first := partition / width * width
  ⟨first, first + width - 1⟩

/-- Whether a partition is in the range. -/
def contains (range : PartitionRange) (partition : UInt32) : Bool :=
  range.first ≤ partition && partition ≤ range.last

/-- The ranges that cover the first `count` partitions, in order. -/
def all (count perRange : UInt32) : List PartitionRange :=
  let width := max perRange.toNat 1
  (List.range ((count.toNat + width - 1) / width)).map fun i =>
    forPartition (UInt32.ofNat (i * width)) perRange

/-- The name of the range's directory. -/
def text (range : PartitionRange) : String := s!"{range.first}-{range.last}"

end PartitionRange

/-! ## Shard files -/

/-- The data and index files of one pair of a shard. -/
structure ShardFiles where
  shard : String
  number : UInt32
  data : Path
  index : Path
deriving DecidableEq, Repr

namespace ShardFiles

def dataExtension : List Char := "data".toList

def indexExtension : List Char := "index".toList

/-- Whether two pairs are of one shard and number and name the same files. -/
def sameAs (files other : ShardFiles) : Bool :=
  files.shard == other.shard && files.number == other.number &&
    files.data.sameAs other.data && files.index.sameAs other.index

/-- The value of decimal digits. -/
def digitsValue (digits : List Char) : Nat :=
  digits.foldl (fun value digit => 10 * value + (digit.toNat - '0'.toNat)) 0

/-- A pair's number: at least one digit behind an optional plus, no larger than 32 bits. -/
def number? (chars : List Char) : Option UInt32 :=
  let digits := if chars.head? = some '+' then chars.tail else chars
  if digits.isEmpty || !digits.all Char.isDigit then none
  else if digitsValue digits < UInt32.size then some (UInt32.ofNat (digitsValue digits))
  else none

/-- The shard and number that an index file's stem says: they are split at the last underscore, the
shard is not empty and no dot is left anywhere. -/
def stem? (stem : List Char) : Option (List Char × UInt32) := do
  if '.' ∈ stem then failure
  let (shard, digits) ← Path.splitAtLast '_' stem
  if shard.isEmpty then failure
  let number ← number? digits
  return (shard, number)

/-- Recognise a pair by the path of its index file. -/
def ofIndex? (path : Path) : Option ShardFiles := do
  let (_, name) ← path.splitName?
  let (stem, extension) := Path.splitExtension name
  if extension ≠ some indexExtension then failure
  let (shard, number) ← stem? stem
  return {
    shard := String.ofList shard
    number
    data := path.withExtension dataExtension
    index := path }

end ShardFiles

/-! ## Layouts -/

/-- One shuffle of one application under one storage root. -/
structure Layout where
  base : Path
  app : String
  shuffle : UInt32
deriving DecidableEq, Repr

namespace Layout

/-- The directory of the shuffle. -/
def shuffleDir (layout : Layout) : Path :=
  (layout.base.join layout.app.toList).join (toString layout.shuffle).toList

/-- The directory of a partition range. -/
def partitionDir (layout : Layout) (range : PartitionRange) : Path :=
  layout.shuffleDir.join range.text.toList

/-- One pair of a shard. -/
def shardFiles (layout : Layout) (range : PartitionRange) (shard : String) (number : UInt32) :
    ShardFiles :=
  let dir := layout.partitionDir range
  let stem := shard.toList ++ '_' :: (toString number).toList
  { shard
    number
    data := dir.join (stem ++ '.' :: ShardFiles.dataExtension)
    index := dir.join (stem ++ '.' :: ShardFiles.indexExtension) }

end Layout

end BlockShuffle
