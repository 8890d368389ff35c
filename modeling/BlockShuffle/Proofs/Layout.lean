import Mathlib
import BlockShuffle.ShardWriter
import BlockShuffle.Proofs.Numerals
import BlockShuffle.Proofs.Path

/-!
# The files of a shuffle are told apart by their paths

Writers never meet: two files of a shuffle have the same path only if they are the same file of the same
pair of the same shard (`file_inj`). Readers find what writers wrote: a path is taken for an index file by its
name alone, `S_N.index` with a shard `S` that has no dot and a numeral `N`, however it is spelled
(`ofIndex?_of_spells_iff`). So the path of an index file is recognised as the pair it is of, data file included
(`ofIndex?_index`), and a data file is nobody's index (`ofIndex?_data`). All of it is taking names apart at a
mark that the last part does not have: a dot, an underscore, a dash, none of which is a digit.

Components are compared and not texts, so a root may be written with separators and dots as one likes, and a
shuffle under a relative root is another one than under an absolute root. The name of the application is a part
of the path and is not restricted: two applications may be called so that one of them lies inside the other, and
two files of one and the same shuffle are told apart even then. For files of two shuffles nothing is claimed.

A shard's name has to be one that a writer accepts. It may look like the front of another shard's file names,
which is why a stem is taken apart from its end.
-/

set_option autoImplicit false

namespace BlockShuffle

open BlockShuffle.Path

/-! ## Names of directories -/

theorem toList_text (range : PartitionRange) :
    range.text.toList = digits range.first ++ '-' :: digits range.last := by
  simp only [PartitionRange.text, digits, String.toList_append, List.append_assoc]
  rfl

theorem text_inj {range other : PartitionRange} (h : range.text.toList = other.text.toList) :
    range = other := by
  have hsplit := congrArg (splitAtLast '-') h
  rw [toList_text, toList_text, splitAtLast_append _ (not_mem_digits (by decide)),
    splitAtLast_append _ (not_mem_digits (by decide)), Option.some.injEq, Prod.mk.injEq] at hsplit
  obtain ⟨hfirst, hlast⟩ := hsplit
  cases range
  cases other
  rw [PartitionRange.mk.injEq]
  exact ⟨digits_inj hfirst, digits_inj hlast⟩

theorem isName_text (range : PartitionRange) : IsName range.text.toList := by
  have hslash : '/' ∉ range.text.toList := by
    rw [toList_text, List.mem_append, List.mem_cons]
    rintro (h | h | h)
    · exact not_mem_digits (by decide) h
    · cases h
    · exact not_mem_digits (by decide) h
  have hdash : '-' ∈ range.text.toList := by
    rw [toList_text]
    simp
  refine isName_of_ne hslash ?_ ?_ ?_ <;> intro h <;> rw [h] at hdash <;> simp at hdash

theorem isName_digits (number : UInt32) : IsName (digits number) := by
  have hdot : '.' ∉ digits number := not_mem_digits (by decide)
  refine isName_of_ne (not_mem_digits (by decide)) (digits_ne_nil number) ?_ ?_ <;> intro h <;>
    rw [h] at hdot <;> simp at hdot

/-! ## Names of files -/

/-- A file name in front of its extension. -/
structure IsStem (stem : List Char) : Prop where
  nonempty : stem ≠ []
  one : '/' ∉ stem
  dotless : '.' ∉ stem

theorem IsStem.isName {stem extension : List Char} (h : IsStem stem) (hone : '/' ∉ extension) :
    IsName (stem ++ '.' :: extension) := by
  obtain ⟨hnonempty, hslash, hdot⟩ := h
  have hone' : '/' ∉ stem ++ '.' :: extension := by
    rw [List.mem_append, List.mem_cons]
    rintro (h | h | h)
    · exact hslash h
    · cases h
    · exact hone h
  cases stem with
  | nil => exact absurd rfl hnonempty
  | cons c stem =>
    have hc : c ≠ '.' := fun heq => hdot (by rw [heq]; exact List.mem_cons_self)
    refine isName_of_ne hone' ?_ ?_ ?_ <;> simp [hc]

/-- A file name in front of its extension, in the files of a shard. -/
def stemOf (shard : String) (number : UInt32) : List Char := shard.toList ++ '_' :: digits number

theorem not_mem_of_isShardName {shard : String} (h : ShardWriter.isShardName shard = true) :
    shard.toList ≠ [] ∧ '.' ∉ shard.toList ∧ '/' ∉ shard.toList := by
  simp only [ShardWriter.isShardName, Bool.and_eq_true, List.all_eq_true, bne_iff_ne, Bool.not_eq_true',
    String.isEmpty_eq_false_iff] at h
  obtain ⟨hempty, hall⟩ := h
  refine ⟨?_, fun hc => (hall _ hc).1.1 rfl, fun hc => (hall _ hc).1.2 rfl⟩
  intro hnil
  exact hempty (String.toList_eq_nil_iff.mp hnil)

namespace ShardFiles

/-- A file name in front of its extension that is a shard, an underscore and a numeral. -/
structure IsStemOf (stem shard : List Char) (number : UInt32) : Prop where
  nonempty : shard ≠ []
  dotless : '.' ∉ shard
  written : ∃ text, stem = shard ++ '_' :: text ∧ IsNumeral text number

theorem IsStemOf.isStem {stem shard : List Char} {number : UInt32} (h : IsStemOf stem shard number)
    (hone : '/' ∉ stem) : IsStem stem := by
  obtain ⟨-, hdotless, text, rfl, hnumeral⟩ := h
  refine ⟨List.append_ne_nil_of_right_ne_nil _ (List.cons_ne_nil _ _), hone, ?_⟩
  rw [List.mem_append, List.mem_cons]
  rintro (h | h | h)
  · exact hdotless h
  · cases h
  · exact hnumeral.not_mem rfl (by decide) h

/-- **A stem is taken apart at its last underscore**, and in no other way. -/
theorem stem?_eq_some_iff {stem shard : List Char} {number : UInt32} :
    stem? stem = some (shard, number) ↔ '.' ∉ stem ∧ IsStemOf stem shard number := by
  rw [stem?]
  constructor
  · intro h
    split at h
    · cases h
    rename_i hdotless
    simp only [Option.bind_eq_bind, Option.bind_eq_some_iff] at h
    obtain ⟨⟨front, text⟩, hsplit, h⟩ := h
    obtain ⟨rfl, -⟩ := eq_of_splitAtLast hsplit
    split at h
    · cases h
    rename_i hempty
    obtain ⟨found, hfound, h⟩ := Option.bind_eq_some_iff.mp h
    cases h
    exact ⟨hdotless, fun hnil => hempty (List.isEmpty_iff.mpr hnil),
      fun hmem => hdotless (List.mem_append_left _ hmem), text, rfl, number?_eq_some_iff.mp hfound⟩
  · rintro ⟨hdotless, hnonempty, -, text, rfl, hnumeral⟩
    rw [if_neg hdotless, splitAtLast_append shard (hnumeral.not_mem rfl (by decide))]
    simp [hnonempty, number?_eq_some_iff.mpr hnumeral]

end ShardFiles

theorem isStemOf_stemOf {shard : String} (h : ShardWriter.isShardName shard = true) (number : UInt32) :
    ShardFiles.IsStemOf (stemOf shard number) shard.toList number := by
  obtain ⟨hnonempty, hdotless, -⟩ := not_mem_of_isShardName h
  exact ⟨hnonempty, hdotless, digits number, rfl, isNumeral_digits number⟩

theorem isStem_stemOf {shard : String} (h : ShardWriter.isShardName shard = true) (number : UInt32) :
    IsStem (stemOf shard number) := by
  apply (isStemOf_stemOf h number).isStem
  rw [stemOf, List.mem_append, List.mem_cons]
  rintro (hmem | hmem | hmem)
  · exact (not_mem_of_isShardName h).2.2 hmem
  · cases hmem
  · exact not_mem_digits (by decide) hmem

theorem stemOf_inj {shard other : String} {number number' : UInt32}
    (h : stemOf shard number = stemOf other number') : shard = other ∧ number = number' := by
  have hsplit := congrArg (splitAtLast '_') h
  rw [stemOf, stemOf, splitAtLast_append _ (not_mem_digits (by decide)),
    splitAtLast_append _ (not_mem_digits (by decide)), Option.some.injEq, Prod.mk.injEq] at hsplit
  exact ⟨String.toList_inj.mp hsplit.1, digits_inj hsplit.2⟩

/-! ## Paths of files -/

/-- What files of a shard end with. -/
structure IsExtension (extension : List Char) : Prop where
  one : '/' ∉ extension
  dotless : '.' ∉ extension

theorem isExtension_data : IsExtension ShardFiles.dataExtension := ⟨by decide, by decide⟩

theorem isExtension_index : IsExtension ShardFiles.indexExtension := ⟨by decide, by decide⟩

/-- A file name that is cut short at its end is one with the same stem, if it is only as much as the extension. -/
theorem spells_cut {path : Path} {front stem extension : List Char}
    (h : path.Spells front (stem ++ '.' :: extension)) (hstem : IsStem stem) (he : IsExtension extension) :
    ∃ cut, '.' ∉ cut ∧
      (Path.mk (path.chars.take (path.chars.length - extension.length))).Spells front (stem ++ '.' :: cut) := by
  obtain ⟨tail, hchars, htail⟩ := h.written
  by_cases hlong : extension.length ≤ tail.length
  · refine ⟨extension, he.dotless, h.isName, h.lead, tail.take (tail.length - extension.length), ?_, htail.take _⟩
    dsimp only
    rw [hchars, List.length_append, Nat.add_sub_assoc hlong, List.take_length_add_append]
  · have hslash : '/' ∉ extension.take tail.length := fun hmem => he.one (List.mem_of_mem_take hmem)
    refine ⟨extension.take tail.length, fun hmem => he.dotless (List.mem_of_mem_take hmem),
      hstem.isName hslash, h.lead, [], ?_, Or.inl rfl⟩
    have hlength : path.chars.length - extension.length = (front ++ stem ++ ['.']).length + tail.length := by
      simp only [hchars, List.length_append, List.length_cons, List.length_nil]
      omega
    have hsplit : path.chars = (front ++ stem ++ ['.']) ++ (extension ++ tail) := by
      rw [hchars]
      simp
    dsimp only
    rw [hlength, hsplit, List.take_length_add_append, List.take_append_of_le_length (by omega)]
    simp

/-- **Another extension is another file beside it**, however the path is spelled. -/
theorem withExtension_of_spells {path : Path} {front stem extension other : List Char}
    (h : path.Spells front (stem ++ '.' :: extension)) (hstem : IsStem stem) (he : IsExtension extension)
    (ho : IsExtension other) : path.withExtension other = (Path.mk front).join (stem ++ '.' :: other) := by
  obtain ⟨cut, hdotless, hcut⟩ := spells_cut h hstem he
  have hcutExtension : path.cutExtension =
      Path.mk (path.chars.take (path.chars.length - extension.length)) := by
    rw [cutExtension, extension?, splitName?_of_spells h]
    simp only [Option.bind_eq_bind, Option.bind_some, splitExtension_append hstem.nonempty he.dotless]
  rw [withExtension, hcutExtension, splitName?_of_spells hcut]
  dsimp only
  rw [splitExtension_append hstem.nonempty hdotless, ← mk_append_eq_join h.lead (hstem.isName ho.one),
    List.append_assoc]

namespace ShardFiles

/-- **A pair is recognised by the name of its index file alone**, however the path is spelled. -/
theorem ofIndex?_of_spells_iff {path : Path} {front name : List Char} (h : path.Spells front name)
    {pair : ShardFiles} :
    ofIndex? path = some pair ↔ ∃ stem shard number, name = stem ++ '.' :: indexExtension ∧
      IsStemOf stem shard number ∧
      pair = ⟨String.ofList shard, number, (Path.mk front).join (stem ++ '.' :: dataExtension), path⟩ := by
  rw [ofIndex?, splitName?_of_spells h]
  simp only [Option.bind_eq_bind, Option.bind_some]
  constructor
  · intro hpair
    split at hpair
    · cases hpair
    rename_i hextension
    rw [Option.bind_eq_some_iff] at hpair
    obtain ⟨⟨shard, number⟩, hfound, hpair⟩ := hpair
    obtain ⟨stem, hsplit⟩ : ∃ stem, splitExtension name = (stem, some indexExtension) :=
      ⟨_, Prod.ext rfl (Classical.not_not.mp hextension)⟩
    obtain ⟨rfl, -, -⟩ := eq_of_splitExtension hsplit
    rw [hsplit] at hfound
    have hstem := (stem?_eq_some_iff.mp hfound).2
    have hisStem := hstem.isStem fun hmem => h.isName.one (List.mem_append_left _ hmem)
    refine ⟨stem, shard, number, rfl, hstem, ?_⟩
    cases hpair
    rw [withExtension_of_spells h hisStem isExtension_index isExtension_data]
  · rintro ⟨stem, shard, number, rfl, hstem, rfl⟩
    have hisStem := hstem.isStem fun hmem => h.isName.one (List.mem_append_left _ hmem)
    rw [splitExtension_append hisStem.nonempty isExtension_index.dotless]
    dsimp only
    rw [if_neg (not_not_intro rfl), stem?_eq_some_iff.mpr ⟨hisStem.dotless, hstem⟩,
      withExtension_of_spells h hisStem isExtension_index isExtension_data]
    rfl

theorem ofIndex?_join_iff {dir : Path} {name : List Char} (hname : IsName name) {pair : ShardFiles} :
    ofIndex? (dir.join name) = some pair ↔ ∃ stem shard number, name = stem ++ '.' :: indexExtension ∧
      IsStemOf stem shard number ∧
      pair = ⟨String.ofList shard, number, dir.join (stem ++ '.' :: dataExtension), dir.join name⟩ := by
  refine (ofIndex?_of_spells_iff (spells_join dir hname)).trans ?_
  refine exists_congr fun stem => exists_congr fun shard => exists_congr fun number => ?_
  refine and_congr_right fun heq => and_congr_right fun hstem => ?_
  have hone : '/' ∉ stem := fun hmem => hname.one (heq ▸ List.mem_append_left _ hmem)
  have hdata := (hstem.isStem hone).isName isExtension_data.one
  rw [join_eq _ hdata, join_eq dir hdata, lead_lead]

/-- **A pair is two files beside one another**, however its index file is spelled. -/
theorem exists_of_ofIndex? {path : Path} {pair : ShardFiles} (h : ofIndex? path = some pair) :
    ∃ (dir : Path) (stem : List Char), IsStem stem ∧
      path.components = dir.components ++ [.name (stem ++ '.' :: indexExtension)] ∧
      pair.data.components = dir.components ++ [.name (stem ++ '.' :: dataExtension)] := by
  obtain ⟨⟨front, name⟩, hsplit, -⟩ := Option.bind_eq_some_iff.mp h
  have hspells := spells_of_splitName? hsplit
  obtain ⟨stem, shard, number, rfl, hstem, rfl⟩ := (ofIndex?_of_spells_iff hspells).mp h
  have hisStem := hstem.isStem fun hmem => hspells.isName.one (List.mem_append_left _ hmem)
  refine ⟨⟨front⟩, stem, hisStem, components_of_spells hspells, ?_⟩
  exact components_join _ (hisStem.isName isExtension_data.one)

end ShardFiles

/-- **A data file is no index**, however it is spelled. -/
theorem ShardFiles.ofIndex?_eq_none_of_data {path index : Path} {pair : ShardFiles} (h : ofIndex? index = some pair)
    (hsame : path.sameAs pair.data = true) : ofIndex? path = none := by
  rw [Option.eq_none_iff_forall_ne_some]
  intro other hother
  obtain ⟨dir, stem, -, -, hdata⟩ := exists_of_ofIndex? h
  obtain ⟨dir', stem', -, hpath, -⟩ := exists_of_ofIndex? hother
  rw [Path.sameAs_iff.mp hsame, hdata] at hpath
  have hname := Component.name.inj (List.singleton_inj.mp (List.append_inj' hpath rfl).2)
  have hsplit := congrArg (splitAtLast '.') hname
  rw [splitAtLast_append _ isExtension_data.dotless, splitAtLast_append _ isExtension_index.dotless] at hsplit
  cases hsplit

namespace Layout

/-- A file of a shard, by what it ends with. -/
def file (layout : Layout) (range : PartitionRange) (shard : String) (number : UInt32)
    (extension : List Char) : BlockShuffle.Path :=
  (layout.partitionDir range).join (stemOf shard number ++ '.' :: extension)

variable {layout other : Layout} {range range' : PartitionRange} {shard shard' : String}
  {number number' : UInt32} {extension extension' : List Char}

theorem shardFiles_eq (layout : Layout) (range : PartitionRange) (shard : String) (number : UInt32) :
    layout.shardFiles range shard number =
      ⟨shard, number, layout.file range shard number ShardFiles.dataExtension,
        layout.file range shard number ShardFiles.indexExtension⟩ := rfl

theorem components_partitionDir (happ : IsName layout.app.toList) (range : PartitionRange) :
    (layout.partitionDir range).components = layout.base.components ++
      [.name layout.app.toList, .name (digits layout.shuffle), .name range.text.toList] := by
  have hshuffle : (toString layout.shuffle).toList = digits layout.shuffle := rfl
  rw [partitionDir, components_join _ (isName_text range), shuffleDir, hshuffle,
    components_join _ (isName_digits layout.shuffle), components_join _ happ]
  simp

theorem components_file (hshard : ShardWriter.isShardName shard = true) (he : IsExtension extension) :
    (layout.file range shard number extension).components =
      (layout.partitionDir range).components ++ [.name (stemOf shard number ++ '.' :: extension)] :=
  components_join _ ((isStem_stemOf hshard number).isName he.one)

theorem fileName_inj (he : IsExtension extension) (he' : IsExtension extension')
    (h : stemOf shard number ++ '.' :: extension = stemOf shard' number' ++ '.' :: extension') :
    shard = shard' ∧ number = number' ∧ extension = extension' := by
  have hsplit := congrArg (splitAtLast '.') h
  rw [splitAtLast_append _ he.dotless, splitAtLast_append _ he'.dotless, Option.some.injEq,
    Prod.mk.injEq] at hsplit
  obtain ⟨hstem, hextension⟩ := hsplit
  obtain ⟨hs, hn⟩ := stemOf_inj hstem
  exact ⟨hs, hn, hextension⟩

/-- Files of one shuffle are told apart whatever the shuffle is called. -/
theorem file_inj_of_layout (hshard : ShardWriter.isShardName shard = true)
    (hshard' : ShardWriter.isShardName shard' = true) (he : IsExtension extension) (he' : IsExtension extension')
    (h : (layout.file range shard number extension).components =
      (layout.file range' shard' number' extension').components) :
    range = range' ∧ shard = shard' ∧ number = number' ∧ extension = extension' := by
  rw [components_file hshard he, components_file hshard' he', partitionDir, partitionDir,
    components_join _ (isName_text range), components_join _ (isName_text range'), List.append_assoc,
    List.append_assoc, List.append_cancel_left_eq] at h
  simp only [List.cons_append, List.nil_append, List.cons.injEq, Component.name.injEq, and_true] at h
  exact ⟨text_inj h.1, fileName_inj he he' h.2⟩

theorem file_inj_of_shard (hshard : ShardWriter.isShardName shard = true) (he : IsExtension extension)
    (he' : IsExtension extension')
    (h : (layout.file range shard number extension).components =
      (layout.file range shard number' extension').components) :
    number = number' ∧ extension = extension' :=
  (file_inj_of_layout hshard hshard he he' h).2.2

/-- **Files of a shuffle with one path are one file.** -/
theorem file_inj (happ : IsName layout.app.toList) (hother : other.app = layout.app)
    (hshard : ShardWriter.isShardName shard = true) (hshard' : ShardWriter.isShardName shard' = true)
    (he : IsExtension extension) (he' : IsExtension extension')
    (h : (layout.file range shard number extension).components =
      (other.file range' shard' number' extension').components) :
    layout.base.components = other.base.components ∧ range = range' ∧ shard = shard' ∧
      number = number' ∧ extension = extension' := by
  rw [components_file hshard he, components_file hshard' he', components_partitionDir happ,
    components_partitionDir (hother ▸ happ), List.append_assoc, List.append_assoc] at h
  obtain ⟨hbase, htail⟩ := List.append_inj' h (by simp)
  simp only [List.cons_append, List.nil_append, List.cons.injEq, Component.name.injEq, and_true] at htail
  obtain ⟨-, -, hrange, hname⟩ := htail
  exact ⟨hbase, text_inj hrange, fileName_inj he he' hname⟩

/-- **An index file is recognised as the pair it is of.** -/
theorem ofIndex?_index (hshard : ShardWriter.isShardName shard = true) :
    ShardFiles.ofIndex? (layout.file range shard number ShardFiles.indexExtension) =
      some (layout.shardFiles range shard number) := by
  have hname := (isStem_stemOf hshard number).isName isExtension_index.one
  refine (ShardFiles.ofIndex?_join_iff hname).mpr ⟨_, _, _, rfl, isStemOf_stemOf hshard number, ?_⟩
  rw [String.ofList_toList]
  rfl

/-- A data file is nobody's index. -/
theorem ofIndex?_data (hshard : ShardWriter.isShardName shard = true) :
    ShardFiles.ofIndex? (layout.file range shard number ShardFiles.dataExtension) = none := by
  have hstem := isStem_stemOf hshard number
  rw [ShardFiles.ofIndex?, file, splitName?_join _ (hstem.isName isExtension_data.one)]
  simp only [Option.bind_eq_bind, Option.bind_some,
    splitExtension_append hstem.nonempty isExtension_data.dotless]
  rfl

end Layout

end BlockShuffle
