/-!
# Block ids

A block is named by three numbers: which block of its task attempt it is, which attempt produced it,
and which partition it belongs to. They are packed into one 64-bit word, sequence first, so that the
order of the words is the lexicographic order of the triples:

```
  63   62 ........ 45   44 ............. 24   23 ............ 0
 ┌───┬───────────────┬─────────────────────┬────────────────────┐
 │ 0 │ sequence (18) │ task attempt (21)   │ partition (24)     │
 └───┴───────────────┴─────────────────────┴────────────────────┘
```

Writers and readers of one job have to agree on the widths and cannot detect that they do not, so
the widths are constants here and not configuration. The last sequence number is reserved: no
attempt hands it out, and an id that carries it names a block that cannot exist.

Nothing about an id is checked when it is read. Bytes of an index may be anything, and an id with
the reserved number or with its top bit set is an id like another, only that nobody made it; a
reader compares words. Values are checked when an id is packed, in the order of the fields, so that
of two that are too wide the first is reported.

That an id names one block is not a matter of the word. It takes that attempts have different
numbers, that one attempt uses no sequence number twice, and that partitions are below their width;
the first is up to whoever starts attempts, the others are what an attempt sees to (`TaskAttempt`).
-/

set_option autoImplicit false

namespace BlockShuffle

/-- The three fields of a block id. -/
inductive IdField where
  | sequence
  | taskAttempt
  | partition
deriving DecidableEq, Repr

namespace IdField

/-- How many bits of the word a field takes. -/
def bits : IdField → Nat
  | .sequence => 18
  | .taskAttempt => 21
  | .partition => 24

/-- The name a field goes by in messages. -/
def name : IdField → String
  | .sequence => "sequence"
  | .taskAttempt => "task_attempt_id"
  | .partition => "partition_id"

/-- The largest value a field holds: ones in all of its bits. -/
def max (field : IdField) : UInt64 := UInt64.ofNat (1 <<< field.bits - 1)

end IdField

/-- A value that does not fit the field of a block id it was meant for. -/
structure FieldOverflow where
  field : IdField
  value : UInt64
deriving DecidableEq, Repr

/-- What is wrong, in the words of an error message. -/
def FieldOverflow.message (overflow : FieldOverflow) : String :=
  s!"Block id field {overflow.field.name} value {overflow.value} exceeds {overflow.field.bits} bits"

/-- A packed block id. Any word can be read back from storage, so any word is one; only those that
`BlockId.pack` makes have the top bit clear. -/
structure BlockId where
  raw : UInt64
deriving DecidableEq, Repr, Inhabited

namespace BlockId

/-- The sequence number that is never handed out. -/
def reservedSequence : UInt64 := IdField.max .sequence

/-- A value checked against the width of its field. -/
def fit (field : IdField) (value : UInt64) : Except FieldOverflow UInt64 :=
  if value ≤ field.max then .ok value else .error ⟨field, value⟩

/-- Pack the three fields; the first one that is too wide, in this order, is the error. -/
def pack (sequence task partition : UInt64) : Except FieldOverflow BlockId := do
  let sequence ← fit .sequence sequence
  let task ← fit .taskAttempt task
  let partition ← fit .partition partition
  return ⟨(sequence <<< 45) ||| (task <<< 24) ||| partition⟩

/-- The id of a block that no attempt can produce. -/
def impossible (task partition : UInt64) : Except FieldOverflow BlockId :=
  pack reservedSequence task partition

/-- Which block of its attempt this is. -/
def sequence (id : BlockId) : UInt64 := (id.raw >>> 45) &&& IdField.max .sequence

/-- The attempt that the id says produced the block. -/
def task (id : BlockId) : UInt64 := (id.raw >>> 24) &&& IdField.max .taskAttempt

/-- The partition the block belongs to. -/
def partition (id : BlockId) : UInt64 := id.raw &&& IdField.max .partition

/-- The id as messages show it: the word, then its fields. -/
def render (id : BlockId) : String :=
  s!"{id.raw}[seq={id.sequence}, task={id.task}, partition={id.partition}]"

end BlockId

end BlockShuffle
