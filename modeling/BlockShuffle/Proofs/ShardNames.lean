import Mathlib
import BlockShuffle.Proofs.Layout
import BlockShuffle.Proofs.Writing.Session

/-!
# Which file names are index files of a shard

A reader finds shards in a listing, by names alone. Names of shards may have underscores, digits and pluses of
their own, and readers accept numerals that no writer writes, with zeros or a plus in front. What a writer
writes is nevertheless read back as what it meant (`shard_names_exact`): a name is taken apart in one way only,
and no two files of the writers of one shuffle have the same (`sameAs_file_iff`).

The converse is not claimed. A directory may hold files that no writer made, and one of them can be taken for a
pair of a shard: `a_+01.index` is pair 1 of `a`, and so is `a_1.index`. Both are then shards of their own to a
reader, with the data files that their names say, and whether they can be read has nothing to do with names.
What is excluded is that a file is taken for two pairs, that two files a writer makes are taken for one, or that
a data file is taken for an index.

The work is in `Proofs/Path` and `Proofs/Numerals`: this module puts together that a path spells a file name,
that a stem is split at its last underscore, and that what follows is a numeral.
-/

set_option autoImplicit false

namespace BlockShuffle

open BlockShuffle.Path

/-- A name that a writer can be made for. -/
def ShardWriter.Accepts (shard : String) : Prop :=
  ∃ config range writer, create config range shard = .ok writer

theorem ShardWriter.Accepts.isShardName {shard : String} (h : Accepts shard) : isShardName shard = true := by
  obtain ⟨_, _, _, h⟩ := h
  exact (create_eq_ok_iff.mp h).1

/-- **Files of one shuffle with one path are one file**, and the other way round. -/
theorem Layout.sameAs_file_iff {layout : Layout} {range range' : PartitionRange} {shard shard' : String}
    {number number' : UInt32} {extension extension' : List Char} (hshard : ShardWriter.Accepts shard)
    (hshard' : ShardWriter.Accepts shard') (he : IsExtension extension) (he' : IsExtension extension') :
    (layout.file range shard number extension).sameAs (layout.file range' shard' number' extension') = true ↔
      (range = range' ∧ shard = shard' ∧ number = number') ∧ extension = extension' := by
  rw [sameAs_iff]
  constructor
  · intro h
    obtain ⟨hrange, hname, hnumber, hextension⟩ :=
      file_inj_of_layout hshard.isShardName hshard'.isShardName he he' h
    exact ⟨⟨hrange, hname, hnumber⟩, hextension⟩
  · rintro ⟨⟨rfl, rfl, rfl⟩, rfl⟩
    rfl

/-- **Shards are recognised exactly, and nothing is lost.** A file name is taken for the index of a pair if it
is a shard, an underscore, a numeral and the extension, and then says which pair it is. The index file of
each pair that a writer may write is recognised as that pair, and in one shuffle no two files of theirs meet. -/
theorem ShardFiles.shard_names_exact :
    (∀ (dir : Path) (name : List Char), IsName name → ∀ pair : ShardFiles,
      ofIndex? (dir.join name) = some pair ↔ ∃ stem shard number, name = stem ++ '.' :: indexExtension ∧
        IsStemOf stem shard number ∧
        pair = ⟨String.ofList shard, number, dir.join (stem ++ '.' :: dataExtension), dir.join name⟩) ∧
    ∀ (layout : Layout) (range : PartitionRange) (shard : String) (number : UInt32), ShardWriter.Accepts shard →
      let files := layout.shardFiles range shard number
      ofIndex? files.index = some files ∧
      ∀ (range' : PartitionRange) (shard' : String) (number' : UInt32), ShardWriter.Accepts shard' →
        let files' := layout.shardFiles range' shard' number'
        (files.index.sameAs files'.index = true ↔ range = range' ∧ shard = shard' ∧ number = number') ∧
        (files.data.sameAs files'.data = true ↔ range = range' ∧ shard = shard' ∧ number = number') ∧
        files.data.sameAs files'.index = false := by
  refine ⟨fun dir name hname pair => ofIndex?_join_iff hname, ?_⟩
  intro layout range shard number hshard files
  refine ⟨Layout.ofIndex?_index hshard.isShardName, ?_⟩
  intro range' shard' number' hshard' files'
  refine ⟨?_, ?_, ?_⟩
  · exact (Layout.sameAs_file_iff hshard hshard' isExtension_index isExtension_index).trans (and_iff_left rfl)
  · exact (Layout.sameAs_file_iff hshard hshard' isExtension_data isExtension_data).trans (and_iff_left rfl)
  · rw [← Bool.not_eq_true]
    intro hsame
    have hextension := ((Layout.sameAs_file_iff hshard hshard' isExtension_data isExtension_index).mp hsame).2
    exact absurd hextension (by decide)

/-- A shard with an underscore of its own, and a number written with a plus and a zero; two pairs of the shard. -/
theorem ShardFiles.shard_names_exact_plus :
    let dir : Path := ⟨"out".toList⟩
    let files := Layout.shardFiles ⟨dir, "app", 0⟩ ⟨0, 9⟩ "a_b"
    IsName "a_b_+07.index".toList ∧ ShardWriter.Accepts "a_b" ∧
      ofIndex? (dir.join "a_b_+07.index".toList) =
        some ⟨"a_b", 7, dir.join "a_b_+07.data".toList, dir.join "a_b_+07.index".toList⟩ ∧
      ofIndex? (files 7).index = some (files 7) ∧ (files 7).index.sameAs (files 8).index = false := by
  intro dir files
  have hname : IsName "a_b_+07.index".toList := ⟨by decide, by decide⟩
  have hdecimal : IsDecimal "07".toList 7 := ⟨by decide, List.all_eq_true.mp rfl, rfl⟩
  have haccepts : ShardWriter.Accepts "a_b" := ⟨{}, ⟨0, 9⟩, _, ShardWriter.create_eq_ok_iff.mpr ⟨by decide, rfl⟩⟩
  obtain ⟨hrecognised, hwritten⟩ := shard_names_exact
  obtain ⟨hpair, hapart⟩ := hwritten ⟨dir, "app", 0⟩ ⟨0, 9⟩ "a_b" 7 haccepts
  refine ⟨hname, haccepts, ?_, hpair, ?_⟩
  · refine (hrecognised dir _ hname _).mpr ⟨"a_b_+07".toList, "a_b".toList, 7, by decide, ?_, by decide⟩
    exact ⟨by decide, by decide, "+07".toList, by decide, Or.inr ⟨_, by decide, hdecimal⟩⟩
  · rw [← Bool.not_eq_true]
    intro hsame
    exact absurd ((hapart ⟨0, 9⟩ "a_b" 8 haccepts).1.mp hsame).2.2 (by decide)

end BlockShuffle
