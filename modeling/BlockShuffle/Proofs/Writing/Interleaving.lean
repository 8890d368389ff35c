import Mathlib
import BlockShuffle.Proofs.Storage.Footprint
import BlockShuffle.Proofs.Writing.Session

/-!
# Writers of different shards do not interfere

Many writers work on one memory, and it is left open who makes the next storage call. A writer asks for the files
of its own pairs and for no others (`confined_handle`), and files of different shards are told apart by their paths
whatever the shards are called. So each of them can be followed on a memory of its own, on which nobody else works:
the two memories agree on its files all the time (`Company.Alone`), and what it is answered in company it is
answered alone.

The statement is about single storage calls because it would be weak about requests: that two requests, each
done as a whole, do not get into each other's way says nothing about a batch that is half written when another
writer creates a file. A writer in company is the rest of its program (`Company`), any of them may make the next
call, and a move is one call or a further request.

What makes it go through is that a writer does not list directories. It asks for files by their paths and is
answered by those files alone, so agreement on its own files is enough for equal answers. Failures of storage
are left out, since an unreliable storage counts its calls, and calls of others would move its failures about.
Writers of the same shard are excluded, by their places being different.
-/

set_option autoImplicit false

namespace BlockShuffle

open Storage Program

/-! ## What a writer asks for -/

section Confined

variable {own : Path → Prop}

namespace OpenPair

/-- Both files of a pair are of these. -/
structure Within (own : Path → Prop) (pair : OpenPair) : Prop where
  data : own pair.data.path
  index : own pair.index.path

theorem confined_release {pair : OpenPair} (h : pair.Within own) : pair.release.Confined own fun _ => True :=
  (Program.confined_release h.data).bind fun _ _ => Program.confined_release h.index

theorem confined_finish {pair : OpenPair} (h : pair.Within own) : pair.finish.Confined own fun _ => True := by
  refine (confined_sync h.data).bind ?_
  rintro ⟨error | ⟨⟩, data⟩ hdata
  · have hwithin : Within own { pair with data } := ⟨hdata, h.index⟩
    exact (confined_release hwithin).bind fun _ _ => confined_done trivial
  · refine (confined_sync h.index).bind fun result hindex => ?_
    have hwithin : Within own { pair with data, index := result.2 } := ⟨hdata, hindex⟩
    exact (confined_release hwithin).bind fun _ _ => confined_done trivial

theorem confined_push {appender : Appender} (strategy : SyncStrategy) (h : own appender.path) :
    (push strategy appender).Confined own fun result => own result.2.path := by
  cases strategy with
  | everyBatch => exact confined_sync h
  | osBuffered => exact confined_flush h

theorem confined_appendPayloads {data : Appender} (h : own data.path) (done : List IndexEntry)
    (blocks : List Block) :
    (appendPayloads data done blocks).Confined own fun result => own result.2.path := by
  induction blocks generalizing data done with
  | nil => exact h
  | cons block blocks ih =>
    refine (confined_append h block.payload).bind ?_
    rintro ⟨error | ⟨⟩, data⟩ hdata
    · exact hdata
    · exact ih hdata _

theorem confined_appendEntries {index : Appender} (strategy : SyncStrategy) (h : own index.path)
    (entries : List IndexEntry) :
    (appendEntries strategy index entries).Confined own fun result => own result.2.path := by
  refine (confined_append h _).bind ?_
  rintro ⟨error | ⟨⟩, index⟩ hindex
  · exact hindex
  · exact confined_push strategy hindex

theorem confined_writeBatch {pair : OpenPair} (strategy : SyncStrategy) (h : pair.Within own)
    (blocks : List Block) :
    (pair.writeBatch strategy blocks).Confined own fun result => result.2.Within own := by
  refine (confined_appendPayloads h.data [] blocks).bind ?_
  rintro ⟨error | entries, data⟩ hdata
  · exact ⟨hdata, h.index⟩
  refine (confined_push strategy hdata).bind ?_
  rintro ⟨error | ⟨⟩, data⟩ hdata
  · exact ⟨hdata, h.index⟩
  · exact (confined_appendEntries strategy h.index entries).bind fun _ hindex => ⟨hdata, hindex⟩

end OpenPair

namespace ShardWriter

/-- The files of a writer's pairs, and of the pair that it has open, are of these. -/
structure Owns (own : Path → Prop) (writer : ShardWriter) : Prop where
  data : ∀ n, own (writer.filesOf n).data
  index : ∀ n, own (writer.filesOf n).index
  pair : ∀ pair, writer.pair = some pair → pair.Within own

variable {writer : ShardWriter}

theorem Owns.without (h : writer.Owns own) (number : UInt32) :
    Owns own { writer with pair := none, number } := ⟨h.data, h.index, nofun⟩

theorem confined_openPairFrom (h : writer.Owns own) (left : Nat) (number : UInt32) :
    (writer.openPairFrom left number).Confined own
      fun result => ∀ pair, result.1 = .ok pair → pair.Within own := by
  induction left using Nat.strong_induction_on generalizing number with
  | _ left ih =>
    rw [openPairFrom.eq_def]
    refine Confined.bind (confined_call (h.index number)) ?_
    rintro (error | index) hindex
    · apply confined_done
      rintro _ ⟨⟩
    have howned : own index.path := hindex index rfl ▸ h.index number
    dsimp only
    split
    · refine Confined.bind (confined_call (h.data number)) ?_
      rintro (error | data) hdata
      · refine Confined.bind (confined_call howned) fun _ _ => confined_done ?_
        rintro _ ⟨⟩
      · apply confined_done
        rintro pair ⟨⟩
        exact ⟨hdata data rfl ▸ h.data number, howned⟩
    · refine Confined.bind (confined_call howned) fun _ _ => ?_
      cases left with
      | zero =>
        apply confined_done
        rintro _ ⟨⟩
      | succ left => exact ih left (Nat.lt_succ_self left) _

theorem confined_openPair (h : writer.Owns own) :
    writer.openPair.Confined own fun result => ∀ pair, result.1 = .ok pair → pair.Within own := by
  rw [openPair.eq_def]
  split
  · rename_i pair hpair
    apply confined_done
    rintro other ⟨⟩
    exact h.pair pair hpair
  · exact confined_openPairFrom h _ _

theorem confined_write (h : writer.Owns own) (blocks : List Block) :
    (writer.write blocks).Confined own fun result => result.2.Owns own := by
  rw [write]
  split
  · exact h
  have hchecked : (writer.writeChecked blocks).Confined own fun result => result.2.Owns own := by
    refine (confined_openPair h).bind ?_
    rintro ⟨error | pair, number⟩ hpair
    · exact h.without _
    refine (OpenPair.confined_writeBatch _ (hpair pair rfl) blocks).bind ?_
    rintro ⟨error | ⟨⟩, pair⟩ hwithin
    · exact (OpenPair.confined_release hwithin).bind fun _ _ => h.without _
    · refine ⟨h.data, h.index, ?_⟩
      rintro other ⟨⟩
      exact hwithin
  exact hchecked.bind fun _ howns => howns

theorem confined_rollOver (h : writer.Owns own) :
    writer.rollOver.Confined own fun result => result.2.Owns own := by
  rw [rollOver.eq_def]
  split
  · rename_i hnone
    exact ⟨h.data, h.index, fun pair hpair => by rw [hnone] at hpair; cases hpair⟩
  · rename_i pair hpair
    refine (OpenPair.confined_finish (h.pair pair hpair)).bind ?_
    rintro (error | ⟨⟩) - <;> exact h.without _

theorem confined_close (h : writer.Owns own) : writer.close.Confined own fun _ => True := by
  rw [close.eq_def]
  split
  · exact trivial
  · rename_i pair hpair
    exact (OpenPair.confined_finish (h.pair pair hpair)).bind fun _ _ => trivial

theorem confined_drop (h : writer.Owns own) : writer.release.Confined own fun _ => True := by
  rw [release.eq_def]
  split
  · exact trivial
  · rename_i pair hpair
    exact OpenPair.confined_release (h.pair pair hpair)

/-- **A writer asks for its own files**, and goes on to do so. -/
theorem confined_handle (h : writer.Owns own) (request : Request) :
    (writer.handle request).Confined own fun result => result.2.Owns own := by
  cases request with
  | write blocks => exact confined_write h blocks
  | rollOver => exact confined_rollOver h
  | close strategy => exact (confined_close h).bind fun _ _ => ⟨h.data, h.index, nofun⟩
  | drop strategy => exact (confined_drop h).bind fun _ _ => ⟨h.data, h.index, nofun⟩

/-- A file of one of the writer's pairs. -/
def HasFile (writer : ShardWriter) (path : Path) : Prop :=
  ∃ n, path = (writer.filesOf n).data ∨ path = (writer.filesOf n).index

theorem owns_hasFile (h : writer.pair = none) : writer.Owns writer.HasFile := by
  refine ⟨fun n => ⟨n, Or.inl rfl⟩, fun n => ⟨n, Or.inr rfl⟩, fun pair hpair => ?_⟩
  rw [h] at hpair
  cases hpair

end ShardWriter

end Confined

/-! ## In company -/

namespace ShardWriter

/-- One request behind others. -/
def andThen (request : Request) (before : Program (List (Except Error Unit) × ShardWriter)) :
    Program (List (Except Error Unit) × ShardWriter) := do
  let (answers, writer) ← before
  let (answer, writer) ← writer.handle request
  return (answers ++ [answer], writer)

theorem serve_concat (requests : List Request) (request : Request) (writer : ShardWriter) :
    serve (requests ++ [request]) writer = andThen request (serve requests writer) := by
  induction requests generalizing writer with
  | nil => rfl
  | cons first rest ih =>
    rw [List.cons_append, serve, serve, andThen, bind_assoc]
    refine congrArg _ (funext fun ⟨answer, mid⟩ => ?_)
    dsimp only
    rw [ih, andThen, bind_assoc, bind_assoc]
    refine congrArg _ (funext fun ⟨answers, last⟩ => ?_)
    dsimp only
    rw [bind_assoc]
    rfl

end ShardWriter

open ShardWriter (Request serve)

/-- Writers over one memory. -/
structure Company (κ : Type) where
  /-- What each of them has still to do, and at its end its answers and the writer. -/
  rest : κ → Program (List (Except Error Unit) × ShardWriter)
  memory : Memory

namespace Company

variable {κ : Type} [DecidableEq κ]

inductive Move (κ : Type) where
  /-- A writer is asked for one thing more. -/
  | ask (writer : κ) (request : Request)
  /-- A writer makes its next storage calls, or as many as it has left. -/
  | turn (writer : κ) (calls : Nat)

def move (company : Company κ) : Move κ → Company κ
  | .ask k request => { company with
      rest := Function.update company.rest k (ShardWriter.andThen request (company.rest k)) }
  | .turn k calls =>
    let (rest, memory) := (company.rest k).steps Memory.handler calls company.memory
    ⟨Function.update company.rest k rest, memory⟩

/-- Writers that were not asked for anything yet. -/
def start (writer : κ → ShardWriter) (memory : Memory) : Company κ := ⟨fun k => .done ([], writer k), memory⟩

/-- What one writer is asked for, in order. -/
def asked (k : κ) (moves : List (Move κ)) : List Request :=
  moves.filterMap fun
    | .ask other request => if other = k then some request else none
    | .turn _ _ => none

variable {company : Company κ} {own : κ → Path → Prop} {writer : κ → ShardWriter} {memory : Memory}
  {requests : List Request}

/-- There is a memory for this writer on which it was asked for the same alone and has got as far. -/
structure Alone (own : κ → Path → Prop) (writer : κ → ShardWriter) (memory : Memory) (k : κ)
    (requests : List Request) (company : Company κ) : Prop where
  confined : (company.rest k).Confined (own k) fun result => result.2.Owns (own k)
  follows : ∃ mine, Memory.Agree (own k) company.memory mine ∧
    (company.rest k).run Memory.handler mine = (serve requests (writer k)).run Memory.handler memory

omit [DecidableEq κ] in
theorem alone_start {k : κ} (h : (writer k).Owns (own k)) : Alone own writer memory k [] (start writer memory) :=
  ⟨confined_done h, memory, Memory.Agree.refl memory, rfl⟩

theorem Alone.ask {k : κ} (h : Alone own writer memory k requests company) (request : Request) :
    Alone own writer memory k (requests ++ [request]) (company.move (.ask k request)) := by
  obtain ⟨hconfined, mine, hagree, hrun⟩ := h
  have hrest : (company.move (.ask k request)).rest k = ShardWriter.andThen request (company.rest k) :=
    Function.update_self ..
  refine ⟨?_, mine, hagree, ?_⟩
  · rw [hrest]
    refine hconfined.bind fun result howns => ?_
    exact (ShardWriter.confined_handle howns request).bind fun _ howns => confined_done howns
  · rw [hrest, ShardWriter.serve_concat]
    exact run_bind_congr hrun _

theorem Alone.turn {k : κ} (h : Alone own writer memory k requests company) (calls : Nat) :
    Alone own writer memory k requests (company.move (.turn k calls)) := by
  obtain ⟨hconfined, mine, hagree, hrun⟩ := h
  obtain ⟨hrest, hafter⟩ := Memory.agree_steps hconfined hagree calls
  have hmoved : (company.move (.turn k calls)).rest k =
      ((company.rest k).steps Memory.handler calls company.memory).1 := Function.update_self ..
  refine ⟨?_, ((company.rest k).steps Memory.handler calls mine).2, hafter, ?_⟩
  · rw [hmoved]
    exact Memory.Confined.steps hconfined calls company.memory
  · rw [hmoved, hrest, run_steps]
    exact hrun

theorem Alone.of_ask {k other : κ} (h : Alone own writer memory k requests company) (hne : k ≠ other)
    (request : Request) : Alone own writer memory k requests (company.move (.ask other request)) := by
  have hrest : (company.move (.ask other request)).rest k = company.rest k := Function.update_of_ne hne ..
  obtain ⟨hconfined, mine, hagree, hrun⟩ := h
  exact ⟨hrest ▸ hconfined, mine, hagree, hrest ▸ hrun⟩

/-- What another writer does is not noticed. -/
theorem Alone.of_turn {k other : κ} (h : Alone own writer memory k requests company)
    (hother : (company.rest other).Confined (own other) fun result => result.2.Owns (own other))
    (hne : k ≠ other)
    (hapart : ∀ path theirs, own k path → own other theirs → theirs.components ≠ path.components)
    (calls : Nat) : Alone own writer memory k requests (company.move (.turn other calls)) := by
  obtain ⟨hconfined, mine, hagree, hrun⟩ := h
  have hrest : (company.move (.turn other calls)).rest k = company.rest k := Function.update_of_ne hne ..
  refine ⟨hrest ▸ hconfined, mine, fun path hpath => ?_, hrest ▸ hrun⟩
  refine Eq.trans ?_ (hagree path hpath)
  exact Memory.find?_steps_of_ne hother (fun theirs => hapart path theirs hpath) calls company.memory

/-- **Each writer gets on as if it were alone, and nobody touches the files of nobody.** -/
theorem alone_of_moves (howns : ∀ k, (writer k).Owns (own k))
    (hapart : ∀ k other, k ≠ other → ∀ path theirs, own k path → own other theirs →
      theirs.components ≠ path.components) (memory : Memory) (moves : List (Move κ)) :
    (∀ k, Alone own writer memory k (asked k moves) (moves.foldl move (start writer memory))) ∧
    ∀ path, (∀ k mine, own k mine → mine.components ≠ path.components) →
      (moves.foldl move (start writer memory)).memory.find? path = memory.find? path := by
  -- By the moves, with the last one taken off: it is made by one member, and concerns no file of another.
  induction moves using List.reverseRecOn with
  | nil => exact ⟨fun k => alone_start (howns k), fun path _ => rfl⟩
  | append_singleton moves last ih =>
    obtain ⟨halone, hothers⟩ := ih
    rw [List.foldl_append, List.foldl_cons, List.foldl_nil]
    cases last with
    | ask asker request =>
      refine ⟨fun k => ?_, hothers⟩
      by_cases hk : asker = k
      · subst hk
        have hasked : asked asker (moves ++ [.ask asker request]) = asked asker moves ++ [request] := by
          simp [asked]
        rw [hasked]
        exact (halone asker).ask request
      · have hasked : asked k (moves ++ [.ask asker request]) = asked k moves := by simp [asked, hk]
        rw [hasked]
        exact (halone k).of_ask (Ne.symm hk) request
    | turn mover calls =>
      have hasked : ∀ k, asked k (moves ++ [.turn mover calls]) = asked k moves := fun k => by simp [asked]
      constructor
      · intro k
        rw [hasked]
        by_cases hk : k = mover
        · subst hk
          exact (halone k).turn calls
        · exact (halone k).of_turn (halone mover).confined hk (hapart k mover hk) calls
      · intro path hpath
        refine Eq.trans ?_ (hothers path hpath)
        exact Memory.find?_steps_of_ne (halone mover).confined (hpath mover) calls _

/-! ## Writers of different shards -/

variable {config : WriteConfig} {strategy : κ → SyncStrategy} {place : κ → PartitionRange × String}

omit [DecidableEq κ] in
/-- Writers of different shards have no file in common. -/
theorem apart_of_place (hplace : Function.Injective place)
    (hcreate : ∀ k, ShardWriter.create { config with sync := strategy k } (place k).1 (place k).2 = .ok (writer k))
    {k other : κ} (hne : k ≠ other) {path theirs : Path} (hpath : (writer k).HasFile path)
    (htheirs : (writer other).HasFile theirs) : theirs.components ≠ path.components := by
  have hname : ∀ k, ShardWriter.isShardName (place k).2 = true :=
    fun k => (ShardWriter.create_eq_ok_iff.mp (hcreate k)).1
  have hfile : ∀ {k path}, (writer k).HasFile path → ∃ n extension, IsExtension extension ∧
      path = config.layout.file (place k).1 (place k).2 n extension := by
    intro k path hfile
    rw [(ShardWriter.create_eq_ok_iff.mp (hcreate k)).2] at hfile
    obtain ⟨n, rfl | rfl⟩ := hfile
    · exact ⟨n, _, isExtension_data, rfl⟩
    · exact ⟨n, _, isExtension_index, rfl⟩
  obtain ⟨n, extension, he, rfl⟩ := hfile hpath
  obtain ⟨n', extension', he', rfl⟩ := hfile htheirs
  intro heq
  obtain ⟨hrange, hshard, -⟩ := Layout.file_inj_of_layout (hname other) (hname k) he' he heq
  exact hne (hplace (Prod.ext hrange hshard)).symm

/-- **Writers of different shards do not interfere.** Take writers under one storage root, of one shuffle, no two
of the same range and shard, with whatever names they accept and each with a strategy of its own, and any memory.
Let them be asked for anything at any time, and make their storage calls in any order. When what a writer has left
to do is done from there, all its answers, the writer itself, and the files of all its pairs are what they are when
it is asked for the same alone on the same memory; where it has nothing left to do, that is the memory as it is.
And files that are in nobody's pairs are as they were. -/
theorem interleaved_eq_alone (hplace : Function.Injective place)
    (hcreate : ∀ k, ShardWriter.create { config with sync := strategy k } (place k).1 (place k).2 = .ok (writer k))
    (memory : Memory) (moves : List (Move κ)) :
    let company := moves.foldl move (start writer memory)
    (∀ k, let together := (company.rest k).run Memory.handler company.memory
      let alone := (serve (asked k moves) (writer k)).run Memory.handler memory
      together.1 = alone.1 ∧
      ∀ n, together.2.find? ((writer k).filesOf n).data = alone.2.find? ((writer k).filesOf n).data ∧
        together.2.find? ((writer k).filesOf n).index = alone.2.find? ((writer k).filesOf n).index) ∧
    ∀ path, (∀ k n, ((writer k).filesOf n).data.components ≠ path.components ∧
        ((writer k).filesOf n).index.components ≠ path.components) →
      company.memory.find? path = memory.find? path := by
  intro company
  have howns : ∀ k, (writer k).Owns (writer k).HasFile :=
    fun k => ShardWriter.owns_hasFile (ShardWriter.create_eq_ok (hcreate k)).2
  obtain ⟨halone, hothers⟩ := alone_of_moves howns
    (fun k other hne path theirs => apart_of_place hplace hcreate hne) memory moves
  constructor
  · intro k together alone
    obtain ⟨hconfined, mine, hagree, hrun⟩ := halone k
    obtain ⟨hanswers, hafter⟩ := Memory.agree_run hconfined hagree
    rw [hrun] at hanswers hafter
    exact ⟨hanswers, fun n => ⟨hafter _ ⟨n, Or.inl rfl⟩, hafter _ ⟨n, Or.inr rfl⟩⟩⟩
  · intro path hpath
    apply hothers
    rintro k mine ⟨n, rfl | rfl⟩
    · exact (hpath k n).1
    · exact (hpath k n).2

/-- Two shards of which one is called like the first part of a file name of the other. -/
def similar : Bool → PartitionRange × String
  | false => (⟨0, 0⟩, "a")
  | true => (⟨0, 0⟩, "a_1")

def similarConfig : WriteConfig := { base := .ofText "r", app := "app" }

def similarWriter (k : Bool) : ShardWriter where
  layout := similarConfig.layout
  range := (similar k).1
  shard := (similar k).2
  strategy := if k then .osBuffered else .everyBatch

/-- Each writes a block to its first pair and one to its second, and they take turns call by call. -/
def takingTurns : List (Move Bool) :=
  [.ask false (.write [ShardWriter.oneByte 1]), .ask true (.write [ShardWriter.oneByte 2]), .turn false 3,
    .turn true 5, .ask false .rollOver, .turn false 4, .ask false (.write [ShardWriter.oneByte 3]),
    .turn true 9, .turn false 3, .ask true .rollOver, .ask true (.write [ShardWriter.oneByte 4]), .turn true 7,
    .turn false 9, .turn true 9]

/-- The second pair of `a` and the first pair of `a_1` have what their writers wrote to them. -/
theorem interleaved_eq_alone_similarNames :
    let company := takingTurns.foldl move (start similarWriter {})
    let alone := fun k => (serve (asked k takingTurns) (similarWriter k)).run Memory.handler {}
    (∀ k, (alone k).1.1.map Except.isOk = [true, true, true]) ∧
    (∀ k, ((company.rest k).run Memory.handler company.memory).1.1 = (alone k).1.1) ∧
    ((alone false).2.bytes? ((similarWriter false).filesOf 1).data = some [3] ∧
      (alone true).2.bytes? ((similarWriter true).filesOf 0).data = some [2]) := by
  intro company alone
  have hplace : Function.Injective similar := by
    intro k other
    revert k other
    decide +kernel
  have hcreate : ∀ k, ShardWriter.create { similarConfig with sync := (similarWriter k).strategy }
      (similar k).1 (similar k).2 = .ok (similarWriter k) := by
    intro k
    cases k <;> rfl
  obtain ⟨htogether, -⟩ := interleaved_eq_alone hplace hcreate {} takingTurns
  exact ⟨by decide +kernel, fun k => congrArg Prod.fst (htogether k).1, by decide +kernel⟩

end Company

end BlockShuffle
