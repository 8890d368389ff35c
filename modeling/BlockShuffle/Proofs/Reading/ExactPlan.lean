import Mathlib
import BlockShuffle.Proofs.Reading.Plan
import BlockShuffle.Proofs.Delivery.Settling

/-!
# What a plan is, said without how it is made

`Reading.Plan` says that a plan regroups the entries. This is where the pieces end. `CutAt` is the one
notion needed: a list is cut behind the first element at which something is reached, and there is only one
way to do that (`CutAt.unique`). Groups are cut at a number of entries and batches, inside a group, at a
payload, and `Covers` says what the read of a batch is. Together they leave a planner no choice, so
`ofEntries_exact` is an equivalence: these reads, or for an index out of order the first fault in it.

`Sound` is what follows for whoever gets a read back in full: every block is in the buffer, and no sum that
went into the plan is past what 64 bits can say.

A characterisation is wanted, and not only soundness, because a plan decides what is read at once and a caller
can observe it: how many reads a shard takes, and where each ends. `Batched` says it in two steps that do not
mention a running state, and both of its conventions are in it. A batch takes in the entry that reaches the
limit, and it never goes on past the end of a group, counted from the front of the index.

A limit of zero makes groups and batches of one entry. Settings with such a limit are refused before anything is
planned, but the planner itself is total, and the characterisation has no condition on either of them.
-/

set_option autoImplicit false

namespace BlockShuffle

namespace ReadPlan

/-! ## Cutting -/

section Cutting

variable {α σ : Type} {closes : List α → Prop}

/-- The list cut behind each element at which the piece closes. The last piece may be cut short. -/
structure CutAt (closes : List α → Prop) (xs : List α) (pieces : List (List α)) : Prop where
  flatten : pieces.flatten = xs
  nonempty : ∀ piece ∈ pieces, piece ≠ []
  /-- A piece does not close in front of its end, -/
  first : ∀ piece ∈ pieces, ∀ front, front <+: piece → front ≠ [] → front ≠ piece → ¬ closes front
  /-- but there. -/
  closed : ∀ piece ∈ pieces.dropLast, closes piece

theorem cutAt_nil : CutAt closes [] [] :=
  ⟨rfl, fun _ h => absurd h List.not_mem_nil, fun _ h => absurd h List.not_mem_nil,
    fun _ h => absurd h List.not_mem_nil⟩

theorem CutAt.cons {piece xs : List α} {pieces : List (List α)} (h : CutAt closes xs pieces)
    (hnonempty : piece ≠ []) (hfirst : ∀ front, front <+: piece → front ≠ [] → front ≠ piece → ¬ closes front)
    (hclosed : pieces ≠ [] → closes piece) : CutAt closes (piece ++ xs) (piece :: pieces) := by
  refine ⟨by rw [List.flatten_cons, h.flatten], ?_, ?_, ?_⟩
  · exact List.forall_mem_cons.mpr ⟨hnonempty, h.nonempty⟩
  · exact List.forall_mem_cons.mpr ⟨hfirst, h.first⟩
  · cases pieces with
    | nil => exact fun _ h => absurd h List.not_mem_nil
    | cons other pieces =>
      rw [List.dropLast_cons_of_ne_nil (List.cons_ne_nil _ _)]
      exact List.forall_mem_cons.mpr ⟨hclosed (List.cons_ne_nil _ _), h.closed⟩

theorem CutAt.tail {piece xs : List α} {pieces : List (List α)} (h : CutAt closes xs (piece :: pieces)) :
    CutAt closes pieces.flatten pieces := by
  refine ⟨rfl, (List.forall_mem_cons.mp h.nonempty).2, (List.forall_mem_cons.mp h.first).2, fun other ho => ?_⟩
  have hne : pieces ≠ [] := fun hnil => by
    rw [hnil] at ho
    exact absurd ho List.not_mem_nil
  apply h.closed
  rw [List.dropLast_cons_of_ne_nil hne]
  exact List.mem_cons_of_mem _ ho

/-- Of two ways to cut a list, neither has the shorter first piece. -/
theorem CutAt.length_le {piece other xs : List α} {pieces others : List (List α)}
    (h : CutAt closes xs (piece :: pieces)) (h' : CutAt closes xs (other :: others)) :
    other.length ≤ piece.length := by
  by_contra hlt
  have hpiece : piece <+: xs := ⟨pieces.flatten, by rw [← List.flatten_cons, h.flatten]⟩
  have hother : other <+: xs := ⟨others.flatten, by rw [← List.flatten_cons, h'.flatten]⟩
  have hfront : piece <+: other := List.prefix_of_prefix_length_le hpiece hother (by omega)
  -- The first closes, since more of the list follows; but it is a front of the second.
  have hmore : pieces ≠ [] := by
    rintro rfl
    have hlength := congrArg List.length h.flatten
    rw [List.flatten_cons, List.flatten_nil, List.append_nil] at hlength
    have := hother.length_le
    omega
  refine h'.first other List.mem_cons_self piece hfront (h.nonempty piece List.mem_cons_self) ?_ (h.closed piece ?_)
  · rintro rfl
    exact hlt le_rfl
  · rw [List.dropLast_cons_of_ne_nil hmore]
    exact List.mem_cons_self

/-- **There is one way to cut a list.** -/
theorem CutAt.unique {pieces : List (List α)} : ∀ {others : List (List α)} {xs : List α},
    CutAt closes xs pieces → CutAt closes xs others → pieces = others := by
  have hempty {piece : List α} {pieces : List (List α)} (h : CutAt closes [] (piece :: pieces)) : False :=
    h.nonempty piece List.mem_cons_self (List.append_eq_nil_iff.mp h.flatten).1
  induction pieces with
  | nil =>
    intro others xs h h'
    cases h.flatten
    cases others with
    | nil => rfl
    | cons other others => exact (hempty h').elim
  | cons piece pieces ih =>
    intro others xs h h'
    cases others with
    | nil =>
      cases h'.flatten
      exact (hempty h).elim
    | cons other others =>
      have hboth : piece ++ pieces.flatten = other ++ others.flatten := h.flatten.trans h'.flatten.symm
      obtain ⟨rfl, hrest⟩ := List.append_inj hboth (le_antisymm (h'.length_le h) (h.length_le h'))
      rw [ih h.tail (hrest ▸ h'.tail)]

variable {step : σ → α → Option σ} [DecidablePred closes]

/-- A cut from inside a piece: `front` is what the piece has so far. -/
theorem cutAt_cut_from {state : List α → σ} (hstep : ∀ front x,
      step (state front) x = if closes (front ++ [x]) then none else some (state (front ++ [x])))
    (xs : List α) : ∀ front : List α, (∀ other, other <+: front → other ≠ [] → ¬ closes other) → xs ≠ [] →
      ∃ y ys pieces, cut step (state []) (state front) xs = (y, ys) :: pieces ∧
        CutAt closes (front ++ xs) ((front ++ y :: ys) :: pieces.map fun piece => piece.1 :: piece.2) := by
  induction xs with
  | nil => exact fun _ _ h => absurd rfl h
  | cons x xs ih =>
    intro front hopen _
    have hproper (other : List α) (hother : other <+: front ++ [x]) (hne : other ≠ [])
        (hproper : other ≠ front ++ [x]) : ¬ closes other := by
      refine hopen other ?_ hne
      rw [List.prefix_concat_iff] at hother
      exact hother.resolve_left hproper
    rw [cut, hstep, List.append_cons front x xs]
    by_cases hcloses : closes (front ++ [x])
    · rw [if_pos hcloses]
      refine ⟨x, [], _, rfl, CutAt.cons ?_ (by simp) hproper fun _ => hcloses⟩
      cases xs with
      | nil => exact cutAt_nil
      | cons other xs =>
        obtain ⟨y, ys, pieces, hcut, hpieces⟩ := ih [] (fun other h hne => absurd (List.prefix_nil.mp h) hne)
          (List.cons_ne_nil _ _)
        rw [hcut]
        exact hpieces
    · rw [if_neg hcloses]
      cases xs with
      | nil => exact ⟨x, [], [], rfl, cutAt_nil.cons (by simp) hproper fun h => absurd rfl h⟩
      | cons other xs =>
        obtain ⟨y, ys, pieces, hcut, hpieces⟩ := ih (front ++ [x]) (fun other h hne => by
          by_cases heq : other = front ++ [x]
          · rwa [heq]
          · exact hproper other h hne heq) (List.cons_ne_nil _ _)
        dsimp only
        rw [hcut]
        refine ⟨x, y :: ys, pieces, rfl, ?_⟩
        rwa [← List.append_cons front x (y :: ys)] at hpieces

/-- **`cut` cuts where its state runs out**, for a state that tells what the piece has so far. -/
theorem cutAt_cut (state : List α → σ) (hstep : ∀ front x,
      step (state front) x = if closes (front ++ [x]) then none else some (state (front ++ [x])))
    (xs : List α) :
    CutAt closes xs ((cut step (state []) (state []) xs).map fun piece => piece.1 :: piece.2) := by
  cases xs with
  | nil => exact cutAt_nil
  | cons x xs =>
    obtain ⟨y, ys, pieces, hcut, hpieces⟩ := cutAt_cut_from hstep (x :: xs) []
      (fun other h hne => absurd (List.prefix_nil.mp h) hne) (List.cons_ne_nil _ _)
    rw [hcut]
    exact hpieces

end Cutting

/-! ## Groups and batches -/

/-- The payload bytes of some entries, together. -/
def payloadLength (entries : List IndexEntry) : Nat := (entries.map fun entry => entry.length.toNat).sum

/-- Batches, group by group: a group has `entryLimit` entries (zero acts as one) unless it is the last, and
inside it a batch ends where its payload has reached `byteLimit`, or with the group. -/
structure Batched (byteLimit entryLimit : Nat) (entries : List IndexEntry)
    (groups : List (List (List IndexEntry))) : Prop where
  grouped : CutAt (fun front => max entryLimit 1 ≤ front.length) entries (groups.map List.flatten)
  batched : ∀ group ∈ groups, CutAt (fun front => byteLimit ≤ payloadLength front) group.flatten group

theorem cutAt_groups {α : Type} (limit : Nat) (xs : List α) :
    CutAt (fun front => max limit 1 ≤ front.length) xs
      ((groups limit xs).map fun piece => piece.1 :: piece.2) := by
  have hstep (front : List α) (x : α) : (if max limit 1 - 1 - front.length = 0 then none
      else some (max limit 1 - 1 - front.length - 1)) =
        if max limit 1 ≤ (front ++ [x]).length then none
        else some (max limit 1 - 1 - (front ++ [x]).length) := by
    rw [List.length_append, List.length_singleton]
    by_cases h : max limit 1 ≤ front.length + 1
    · rw [if_pos h, if_pos (by omega)]
    · rw [if_neg h, if_neg (by omega), Nat.sub_sub _ front.length]
  exact cutAt_cut (fun front => max limit 1 - 1 - front.length) hstep xs

theorem payloadLength_concat (front : List IndexEntry) (entry : IndexEntry) :
    payloadLength (front ++ [entry]) = payloadLength front + entry.length.toNat := by
  rw [payloadLength, List.map_append, List.sum_append]
  rfl

theorem cutAt_batches (byteLimit : Nat) (entries : List IndexEntry) :
    CutAt (fun front => byteLimit ≤ payloadLength front) entries
      ((batches byteLimit entries).map fun piece => piece.1 :: piece.2) := by
  refine cutAt_cut payloadLength (fun front entry => ?_) entries
  dsimp only
  rw [payloadLength_concat]

/-- The batches that planning makes, group by group. -/
def batching (byteLimit entryLimit : Nat) (entries : List IndexEntry) : List (List (List IndexEntry)) :=
  (groups entryLimit entries).map fun group =>
    (batches byteLimit (group.1 :: group.2)).map fun piece => piece.1 :: piece.2

theorem flatten_batching (byteLimit entryLimit : Nat) (entries : List IndexEntry) :
    (batching byteLimit entryLimit entries).flatten =
      (pieces byteLimit entryLimit entries).map fun piece => piece.1 :: piece.2 := by
  rw [batching, pieces, List.map_flatMap, List.flatMap_def]

theorem map_flatten_batching (byteLimit entryLimit : Nat) (entries : List IndexEntry) :
    (batching byteLimit entryLimit entries).map List.flatten =
      (groups entryLimit entries).map fun group => group.1 :: group.2 := by
  rw [batching, List.map_map]
  exact List.map_congr_left fun group _ => (cutAt_batches byteLimit (group.1 :: group.2)).flatten

theorem batched_batching (byteLimit entryLimit : Nat) (entries : List IndexEntry) :
    Batched byteLimit entryLimit entries (batching byteLimit entryLimit entries) := by
  constructor
  · rw [map_flatten_batching]
    exact cutAt_groups entryLimit entries
  · intro group hgroup
    obtain ⟨piece, -, rfl⟩ := List.mem_map.mp hgroup
    have := cutAt_batches byteLimit (piece.1 :: piece.2)
    rwa [this.flatten]

/-- There is one way to batch entries. -/
theorem Batched.eq_batching {byteLimit entryLimit : Nat} {entries : List IndexEntry}
    {groups : List (List (List IndexEntry))} (h : Batched byteLimit entryLimit entries groups) :
    groups = batching byteLimit entryLimit entries := by
  have heach : ∀ group ∈ groups,
      group = (batches byteLimit group.flatten).map fun piece => piece.1 :: piece.2 :=
    fun group hgroup => (h.batched group hgroup).unique (cutAt_batches byteLimit group.flatten)
  have hgroups := h.grouped.unique (cutAt_groups entryLimit entries)
  calc groups
      = groups.map fun group => (batches byteLimit group.flatten).map fun piece => piece.1 :: piece.2 := by
        conv_lhs => rw [← List.map_id groups]
        exact List.map_congr_left heach
    _ = (groups.map List.flatten).map
          fun entries => (batches byteLimit entries).map fun piece => piece.1 :: piece.2 := by
        rw [List.map_map]
        rfl
    _ = batching byteLimit entryLimit entries := by
        rw [hgroups, List.map_map]
        rfl

/-! ## Order -/

/-- Every entry ends at an offset that 64 bits can say, and starts at or behind the end of the one in front
of it. -/
structure InOrder (entries : List IndexEntry) : Prop where
  inRange : ∀ entry ∈ entries, entry.stop < UInt64.size
  ascending : entries.IsChain Before

theorem Before.trans {entry mid later : IndexEntry} (h : Before entry mid) (h' : Before mid later) :
    Before entry later :=
  Nat.le_trans h (Nat.le_trans (Nat.le_add_right _ _) h')

instance : IsTrans IndexEntry Before := ⟨fun _ _ _ => Before.trans⟩

theorem checkOrdered_eq_ok_iff_inOrder {entries : List IndexEntry} :
    checkOrdered 0 entries = .ok () ↔ InOrder entries := by
  rw [checkOrdered_eq_ok_iff, ← List.isChain_iff_pairwise]
  exact ⟨fun h => ⟨h.1, h.2.2⟩, fun h => ⟨h.inRange, fun _ _ => Nat.zero_le _, h.ascending⟩⟩

/-- Where some entries end: where the last of them does. -/
def stopAfter (previousEnd : Nat) (entries : List IndexEntry) : Nat :=
  (entries.getLast?.map IndexEntry.stop).getD previousEnd

theorem stopAfter_cons (previousEnd : Nat) (entry : IndexEntry) (entries : List IndexEntry) :
    stopAfter previousEnd (entry :: entries) = stopAfter entry.stop entries := by
  cases entries with
  | nil => rfl
  | cons other entries => rw [stopAfter, stopAfter, List.getLast?_cons_cons, List.getLast?_cons]; rfl

/-- What is wrong with an entry behind others that end at `previousEnd`: it ends at no offset that 64 bits
can say, or else it starts too early. -/
def FaultOf (previousEnd : Nat) (entry : IndexEntry) (fault : IndexFault) : Prop :=
  (UInt64.size ≤ entry.stop ∧ fault = .pastLargestOffset entry) ∨
  (entry.stop < UInt64.size ∧ entry.offset.toNat < previousEnd ∧ fault = .overlap entry previousEnd)

theorem passes_or_exists_faultOf (previousEnd : Nat) (entry : IndexEntry) :
    (entry.stop < UInt64.size ∧ previousEnd ≤ entry.offset.toNat) ∨ ∃ fault, FaultOf previousEnd entry fault := by
  by_cases hfar : UInt64.size ≤ entry.stop
  · exact Or.inr ⟨_, Or.inl ⟨hfar, rfl⟩⟩
  · by_cases hover : entry.offset.toNat < previousEnd
    · exact Or.inr ⟨_, Or.inr ⟨Nat.not_le.mp hfar, hover, rfl⟩⟩
    · exact Or.inl ⟨Nat.not_le.mp hfar, Nat.not_lt.mp hover⟩

theorem checkOrdered_cons_of_faultOf {previousEnd : Nat} {entry : IndexEntry} {fault : IndexFault}
    (h : FaultOf previousEnd entry fault) (rest : List IndexEntry) :
    checkOrdered previousEnd (entry :: rest) = .error fault := by
  rcases h with ⟨hfar, rfl⟩ | ⟨hnear, hover, rfl⟩
  · rw [checkOrdered, if_pos hfar]
  · rw [checkOrdered, if_neg (Nat.not_le.mpr hnear), if_pos hover]

theorem checkOrdered_eq_error_iff {fault : IndexFault} {entries : List IndexEntry} : ∀ {previousEnd : Nat},
    checkOrdered previousEnd entries = .error fault ↔
      ∃ front entry rest, entries = front ++ entry :: rest ∧ checkOrdered previousEnd front = .ok () ∧
        FaultOf (stopAfter previousEnd front) entry fault := by
  induction entries with
  | nil =>
    intro previousEnd
    refine ⟨nofun, ?_⟩
    rintro ⟨front, entry, rest, h, -, -⟩
    exact absurd h.symm (List.append_ne_nil_of_right_ne_nil _ (List.cons_ne_nil _ _))
  | cons entry entries ih =>
    intro previousEnd
    rcases passes_or_exists_faultOf previousEnd entry with ⟨hstop, hstart⟩ | ⟨found, hfound⟩
    · have hcons := checkOrdered_cons_of_passes hstop hstart
      rw [hcons, ih]
      constructor
      · rintro ⟨front, other, rest, rfl, hfront, hfault⟩
        exact ⟨entry :: front, other, rest, rfl, by rwa [hcons], by rwa [stopAfter_cons]⟩
      · rintro ⟨front, other, rest, hsplit, hfront, hfault⟩
        cases front with
        | nil =>
          cases hsplit
          rcases hfault with ⟨hfar, -⟩ | ⟨-, hover, -⟩
          · exact absurd hstop (Nat.not_lt.mpr hfar)
          · exact absurd hstart (Nat.not_le.mpr hover)
        | cons first front =>
          cases hsplit
          exact ⟨front, other, rest, rfl, by rwa [hcons] at hfront, by rwa [stopAfter_cons] at hfault⟩
    · rw [checkOrdered_cons_of_faultOf hfound]
      constructor
      · rintro ⟨⟩
        exact ⟨[], entry, entries, rfl, rfl, hfound⟩
      · rintro ⟨front, other, rest, hsplit, hfront, hfault⟩
        cases front with
        | nil =>
          cases hsplit
          exact (checkOrdered_cons_of_faultOf hfound []).symm.trans (checkOrdered_cons_of_faultOf hfault [])
        | cons first front =>
          cases hsplit
          rw [checkOrdered_cons_of_faultOf hfound] at hfront
          cases hfront

/-- The first entry that is out of order, and what is wrong with it. -/
def FirstFault (entries : List IndexEntry) (fault : IndexFault) : Prop :=
  ∃ front entry rest, entries = front ++ entry :: rest ∧ InOrder front ∧ FaultOf (stopAfter 0 front) entry fault

theorem ofEntries_eq_error_iff {entries : List IndexEntry} {byteLimit entryLimit : Nat} {fault : IndexFault} :
    ofEntries entries byteLimit entryLimit = .error fault ↔ FirstFault entries fault := by
  have hcheck : ofEntries entries byteLimit entryLimit = .error fault ↔
      checkOrdered 0 entries = .error fault := by
    rw [ofEntries]
    cases checkOrdered 0 entries with
    | error other => exact ⟨fun h => congrArg Except.error (Except.error.inj h),
        fun h => congrArg Except.error (Except.error.inj h)⟩
    | ok _ => constructor <;> rintro ⟨⟩
  simp only [hcheck, checkOrdered_eq_error_iff, checkOrdered_eq_ok_iff_inOrder, FirstFault]

end ReadPlan

/-! ## Reads -/

/-- A relation that leaves one choice on the left of each element relates a list to one list only. -/
theorem forall₂_iff_eq_map {α β : Type} {R : α → β → Prop} {f : β → α} {ys : List β} :
    (∀ y ∈ ys, ∀ x, R x y ↔ x = f y) → ∀ {xs : List α}, List.Forall₂ R xs ys ↔ xs = ys.map f := by
  induction ys with
  | nil => exact fun _ _ => List.forall₂_nil_right_iff
  | cons y ys ih =>
    intro h xs
    obtain ⟨hy, hys⟩ := List.forall_mem_cons.mp h
    rw [List.forall₂_cons_right_iff, List.map_cons]
    constructor
    · rintro ⟨x, xs, hx, hxs, rfl⟩
      rw [(hy x).mp hx, (ih hys).mp hxs]
    · rintro rfl
      exact ⟨_, _, (hy _).mpr rfl, (ih hys).mpr rfl, rfl⟩

/-- A slice of a read that starts at `start` says what an entry says, and lies where the entry does. -/
structure BlockSlice.Places (start : Nat) (slice : BlockSlice) (entry : IndexEntry) : Prop where
  offset : start + slice.offset = entry.offset.toNat
  length : slice.length = entry.length.toNat
  id : slice.id = entry.id
  task : slice.task = entry.task
  crc : slice.crc = entry.crc
  uncompressedLength : slice.uncompressedLength = entry.uncompressedLength

namespace RangedRead

/-- A read goes from the start of a batch's first entry to the end of its last, and lists its entries. -/
structure Covers (read : RangedRead) (batch : List IndexEntry) : Prop where
  start : batch.head?.map (fun entry => entry.offset.toNat) = some read.offset
  stop : batch.getLast?.map IndexEntry.stop = some (read.offset + read.length)
  slices : List.Forall₂ (BlockSlice.Places read.offset) read.slices batch

theorem places_iff {start : Nat} {slice : BlockSlice} {entry : IndexEntry} (h : start ≤ entry.offset.toNat) :
    slice.Places start entry ↔ slice = BlockSlice.ofEntry start entry := by
  constructor
  · rintro ⟨hoffset, hlength, hid, htask, hcrc, huncompressed⟩
    obtain ⟨offset, length, id, task, crc, uncompressedLength⟩ := slice
    dsimp only at *
    subst hlength hid htask hcrc huncompressed
    rw [BlockSlice.ofEntry, ← hoffset, Nat.add_sub_cancel_left]
  · rintro rfl
    exact ⟨Nat.add_sub_cancel' h, rfl, rfl, rfl, rfl, rfl⟩

variable {first : IndexEntry} {rest : List IndexEntry}

/-- In order, the read that covers a batch is the one that is planned for it. -/
theorem covers_iff (h : (first :: rest).Pairwise ReadPlan.Before) {read : RangedRead} :
    read.Covers (first :: rest) ↔ read = ofBatch first rest := by
  have hlast : (first :: rest).getLast?.map IndexEntry.stop =
      some ((first :: rest).getLast (List.cons_ne_nil first rest)).stop := by
    rw [List.getLast?_eq_some_getLast (List.cons_ne_nil first rest), Option.map_some]
  have hslices {slices : List BlockSlice} :
      List.Forall₂ (BlockSlice.Places first.offset.toNat) slices (first :: rest) ↔
        slices = (first :: rest).map (BlockSlice.ofEntry first.offset.toNat) :=
    forall₂_iff_eq_map (f := BlockSlice.ofEntry first.offset.toNat) fun _ he _ => places_iff (bounds_ofBatch h he).1
  have hspan := (bounds_ofBatch h List.mem_cons_self).2
  have hgrow : first.offset.toNat ≤ first.stop := Nat.le_add_right _ _
  constructor
  · rintro ⟨hstart, hstop, hlisted⟩
    have hoffset : first.offset.toNat = read.offset := Option.some.inj hstart
    rw [hlast, Option.some.injEq, ← hoffset] at hstop
    rw [← hoffset, hslices] at hlisted
    obtain ⟨offset, length, slices⟩ := read
    dsimp only at hoffset hstop hlisted
    rw [ofBatch, ← hlisted, hstop, Nat.add_sub_cancel_left, hoffset]
  · rintro rfl
    refine ⟨rfl, ?_, hslices.mpr rfl⟩
    rw [hlast]
    dsimp only [ofBatch]
    rw [Nat.add_sub_cancel' (by omega)]

/-- What whoever gets a read back in full can rely on. -/
structure Sound (read : RangedRead) : Prop where
  nonempty : read.slices ≠ []
  inside : ∀ slice ∈ read.slices, slice.offset + slice.length ≤ read.length
  /-- The payloads together are no longer than the read, which ends at an offset that 64 bits can say. -/
  payload : (read.slices.map BlockSlice.length).sum ≤ read.length
  inRange : read.offset + read.length < UInt64.size
  /-- Every block is cut out of the buffer whole, -/
  whole : ∀ buffer : Bytes, buffer.length = read.length → ∀ slice ∈ read.slices,
    (Batch.payload ⟨buffer, read.slices⟩ slice).length = slice.length ∧
      (Packed.ofBytes buffer).slice? slice.offset slice.length =
        some (Batch.payload ⟨buffer, read.slices⟩ slice)
  /-- and a reconciler, whatever its state, does not find it outside the buffer. -/
  found : ∀ buffer : Bytes, buffer.length = read.length → ∀ slice ∈ read.slices,
    ∀ (state : Reconciler) (id : BlockId) (start stop size : Nat),
      state.judge (Packed.ofBytes buffer) slice ≠ .fail (.dataLoss (.outsideBuffer id start stop size))

/-- A block that is in the buffer is not found outside it. -/
theorem judge_ne_outsideBuffer {buffer : Packed} {slice : BlockSlice} {payload : Bytes}
    (h : buffer.slice? slice.offset slice.length = some payload) (state : Reconciler) (id : BlockId)
    (start stop size : Nat) :
    state.judge buffer slice ≠ .fail (.dataLoss (.outsideBuffer id start stop size)) := by
  rw [Reconciler.judge, Reconciler.verify, h]
  dsimp only
  split_ifs <;> exact nofun

/-- Payloads that do not overlap are together no longer than the span they lie in. -/
theorem payloadLength_le {stop : Nat} {entries : List IndexEntry} : ∀ {start : Nat},
    entries.Pairwise ReadPlan.Before → (∀ entry ∈ entries, start ≤ entry.offset.toNat) →
      (∀ entry ∈ entries, entry.stop ≤ stop) → ReadPlan.payloadLength entries ≤ stop - start := by
  induction entries with
  | nil => exact fun _ _ _ => Nat.zero_le _
  | cons entry entries ih =>
    intro start hpair hstart hstop
    obtain ⟨hbefore, hpair⟩ := List.pairwise_cons.mp hpair
    obtain ⟨hentry, -⟩ := List.forall_mem_cons.mp hstart
    obtain ⟨hend, hstop⟩ := List.forall_mem_cons.mp hstop
    have hrest := ih hpair hbefore hstop
    have hsum : ReadPlan.payloadLength (entry :: entries) =
        entry.length.toNat + ReadPlan.payloadLength entries := rfl
    have hspan : entry.stop = entry.offset.toNat + entry.length.toNat := rfl
    omega

theorem sound_ofBatch (h : (first :: rest).Pairwise ReadPlan.Before)
    (hrange : ∀ entry ∈ first :: rest, entry.stop < UInt64.size) : (ofBatch first rest).Sound := by
  have hspan := (bounds_ofBatch h List.mem_cons_self).2
  have hgrow : first.offset.toNat ≤ first.stop := Nat.le_add_right _ _
  have hinside : ∀ slice ∈ (ofBatch first rest).slices,
      slice.offset + slice.length ≤ (ofBatch first rest).length := by
    intro slice hs
    obtain ⟨entry, he, rfl⟩ := List.mem_map.mp hs
    obtain ⟨hstart, hstop⟩ := bounds_ofBatch h he
    simp only [BlockSlice.ofEntry, ofBatch, IndexEntry.stop] at *
    omega
  have hslice {buffer : Bytes} (hlength : buffer.length = (ofBatch first rest).length) {slice : BlockSlice}
      (hs : slice ∈ (ofBatch first rest).slices) :
      (Packed.ofBytes buffer).slice? slice.offset slice.length =
        some (Batch.payload ⟨buffer, (ofBatch first rest).slices⟩ slice) := by
    have hwhole : slice.offset + slice.length ≤ (Batch.mk buffer (ofBatch first rest).slices).buffer.length :=
      (hinside slice hs).trans_eq hlength.symm
    exact Reconciler.slice?_eq_some_iff.mpr ⟨hwhole, rfl⟩
  refine
    { nonempty := List.cons_ne_nil _ _
      inside := hinside
      payload := ?_
      inRange := ?_
      whole := fun buffer hlength slice hs => ⟨?_, hslice hlength hs⟩
      found := fun buffer hlength slice hs => judge_ne_outsideBuffer (hslice hlength hs) }
  · have hpayload := payloadLength_le h (fun entry he => (bounds_ofBatch h he).1)
      fun entry he => (bounds_ofBatch h he).2
    rw [ofBatch, List.map_map]
    exact hpayload
  · have hlast := hrange _ (List.getLast_mem (List.cons_ne_nil first rest))
    dsimp only [ofBatch]
    omega
  · have := hinside slice hs
    rw [Batch.payload, List.length_take, List.length_drop]
    dsimp only
    omega

end RangedRead

/-! ## The plan -/

namespace ReadPlan

/-- A piece of a plan is a stretch of the entries. -/
theorem sublist_of_mem_pieces {byteLimit entryLimit : Nat} {entries : List IndexEntry}
    {piece : IndexEntry × List IndexEntry} (h : piece ∈ pieces byteLimit entryLimit entries) :
    (piece.1 :: piece.2).Sublist entries := by
  conv_rhs => rw [← flatMap_pieces byteLimit entryLimit entries, List.flatMap_def]
  exact List.sublist_flatten_of_mem (List.mem_map_of_mem h)

theorem InOrder.pairwise {entries : List IndexEntry} (h : InOrder entries) : entries.Pairwise Before :=
  List.isChain_iff_pairwise.mp h.ascending

/-- In order, the reads that cover the batches are the planned ones. -/
theorem forall₂_covers_iff {entries : List IndexEntry} (h : InOrder entries) (byteLimit entryLimit : Nat)
    {reads : List RangedRead} :
    List.Forall₂ RangedRead.Covers reads (batching byteLimit entryLimit entries).flatten ↔
      reads = (pieces byteLimit entryLimit entries).map fun piece => RangedRead.ofBatch piece.1 piece.2 := by
  rw [flatten_batching, List.forall₂_map_right_iff]
  exact forall₂_iff_eq_map fun piece hp _ => RangedRead.covers_iff (h.pairwise.sublist (sublist_of_mem_pieces hp))

/-- The slices of the reads are the entries, batch by batch and so all together. -/
theorem forall₂_places_of_covers {reads : List RangedRead} {batches : List (List IndexEntry)}
    (h : List.Forall₂ RangedRead.Covers reads batches) :
    List.Forall₂ (fun placed entry => BlockSlice.Places placed.1 placed.2 entry)
      (reads.flatMap fun read => read.slices.map (read.offset, ·)) batches.flatten := by
  induction h with
  | nil => exact List.Forall₂.nil
  | cons hread _ ih =>
    rw [List.flatMap_cons, List.flatten_cons]
    refine List.rel_append ?_ ih
    exact List.forall₂_map_left_iff.mpr hread.slices

/-- **A plan is exact.** Entries can be planned when they are in order, and the fault is the first one
otherwise. The reads are those of the batches that the two limits cut, each sound, and their slices behind
one another are the entries. -/
theorem ofEntries_exact (entries : List IndexEntry) (byteLimit entryLimit : Nat) :
    ((∃ reads, ofEntries entries byteLimit entryLimit = .ok reads) ↔ InOrder entries) ∧
    (∀ fault, ofEntries entries byteLimit entryLimit = .error fault ↔ FirstFault entries fault) ∧
    (∀ reads, ofEntries entries byteLimit entryLimit = .ok reads ↔
      InOrder entries ∧ ∃ groups, Batched byteLimit entryLimit entries groups ∧
        List.Forall₂ RangedRead.Covers reads groups.flatten) ∧
    (∀ reads, ofEntries entries byteLimit entryLimit = .ok reads →
      (∀ read ∈ reads, read.Sound) ∧
      List.Forall₂ (fun placed entry => BlockSlice.Places placed.1 placed.2 entry)
        (reads.flatMap fun read => read.slices.map (read.offset, ·)) entries) := by
  have hplan (reads : List RangedRead) : ofEntries entries byteLimit entryLimit = .ok reads ↔
      InOrder entries ∧ reads = (pieces byteLimit entryLimit entries).map fun piece =>
        RangedRead.ofBatch piece.1 piece.2 := by
    rw [ofEntries_eq_ok_iff, checkOrdered_eq_ok_iff_inOrder]
  refine ⟨⟨fun ⟨reads, h⟩ => ((hplan reads).mp h).1, fun h => ⟨_, (hplan _).mpr ⟨h, rfl⟩⟩⟩,
    fun fault => ofEntries_eq_error_iff, fun reads => ?_, fun reads h => ?_⟩
  · rw [hplan]
    refine and_congr_right fun horder => ?_
    rw [← forall₂_covers_iff horder]
    constructor
    · exact fun h => ⟨_, batched_batching byteLimit entryLimit entries, h⟩
    · rintro ⟨groups, hbatched, h⟩
      rwa [← hbatched.eq_batching]
  · obtain ⟨horder, hreads⟩ := (hplan reads).mp h
    constructor
    · intro read hr
      rw [hreads, List.mem_map] at hr
      obtain ⟨piece, hp, rfl⟩ := hr
      have hsub := sublist_of_mem_pieces hp
      exact RangedRead.sound_ofBatch (horder.pairwise.sublist hsub) fun entry he =>
        horder.inRange entry (hsub.subset he)
    · have hplaces := forall₂_places_of_covers ((forall₂_covers_iff horder byteLimit entryLimit).mpr hreads)
      rwa [List.flatten_flatten, (batched_batching byteLimit entryLimit entries).grouped.flatten] at hplaces

end ReadPlan

end BlockShuffle
