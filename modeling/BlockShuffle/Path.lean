/-!
# Paths

A path is the text it was given, and that text is what messages and listings show. What the path
*names* is its list of components: repeated and trailing separators say nothing, and neither does a
`.` behind the first place. Two spellings with the same components name the same file, so storage
looks files up by components and shows the spelling it was told.

Components are ordered root, `.`, `..`, names, and names by their characters; listings are sorted in
that order, component by component, which is why `a/b` comes before `a-b`.

No path is resolved here. `..` is a component like others, since what it leads to depends on what is
on a disk, and a relative path stays relative. There are no prefixes, drives or other separators,
and characters are Unicode scalars, so a name that is no text is left out. `join` follows the rule
that an absolute path replaces what it is joined to; the library joins names and numbers, for which
that does not come up.

File names are split at the last dot and at the last underscore by characters, behind the last
component that is a name. What the operations do to components is proved in `Proofs/Path`, and which
paths there are for a shuffle in `Layout`.
-/

set_option autoImplicit false

namespace BlockShuffle

/-- A path, as it is written. -/
structure Path where
  chars : List Char
deriving DecidableEq, Repr, Inhabited

/-- One step of what a path names. -/
inductive Component where
  /-- The separator that an absolute path starts with. -/
  | root
  /-- A `.` at the start of a relative path. -/
  | current
  | parent
  | name (chars : List Char)
deriving DecidableEq, Repr, Ord

/-- The component that a piece between separators stands for, behind the first place. -/
def Component.ofPiece? : List Char → Option Component
  | [] => none
  | ['.'] => none
  | ['.', '.'] => some .parent
  | piece => some (.name piece)

namespace Path

/-- The path that is written so. -/
def ofText (text : String) : Path := ⟨text.toList⟩

/-- How the path is written. -/
def text (path : Path) : String := String.ofList path.chars

/-! ## Components -/

/-- The pieces between separators, empty ones included, so that there is always at least one. -/
def pieces : List Char → List (List Char)
  | [] => [[]]
  | c :: rest =>
    if c = '/' then [] :: pieces rest
    else
      match pieces rest with
      | [] => [[c]]
      | piece :: others => (c :: piece) :: others

/-- What the path names, step by step. -/
def components (path : Path) : List Component :=
  match pieces path.chars with
  | [] :: rest => if rest.isEmpty then [] else .root :: rest.filterMap Component.ofPiece?
  | ['.'] :: rest => .current :: rest.filterMap Component.ofPiece?
  | all => all.filterMap Component.ofPiece?

/-- Whether the path starts at the root. -/
def isAbsolute (path : Path) : Bool := path.chars.head? == some '/'

/-- Whether two spellings name the same file. -/
def sameAs (path other : Path) : Bool := path.components == other.components

/-- Whether a path names `dir` or something below it. -/
def isWithin (path dir : Path) : Bool := dir.components.isPrefixOf path.components

/-- Whether a path names something directly inside `dir`. The root is inside nothing. -/
def isDirectlyIn (path dir : Path) : Bool :=
  match path.components.reverse with
  | [] => false
  | .root :: _ => false
  | _ :: above => above.reverse == dir.components

/-- The order of listings. -/
def order (path other : Path) : Ordering := compare path.components other.components

/-- The spellings of a path and of every directory above it, nearest first, from the text in front of the
pieces and the pieces from the last to the first. -/
def spellings (start : List Char) : List (List Char) → List Path
  | [] => if start.isEmpty then [] else [⟨start⟩]
  | piece :: before =>
    if (Component.ofPiece? piece).isNone then spellings start before
    else ⟨start ++ ['/'].intercalate (piece :: before).reverse⟩ :: spellings start before

/-- The directories that a path is in, nearest first, each spelled as it is in the path. A relative path
is in the working directory too, which has no spelling there. -/
def ancestors (path : Path) : List Path :=
  let all :=
    match pieces path.chars with
    | [] :: rest => spellings ['/'] rest.reverse
    | ['.'] :: rest => spellings ['.', '/'] rest.reverse
    | all => spellings [] all.reverse
  all.drop 1

/-! ## Building paths -/

/-- A path below another. An absolute path stays as it is, and a separator is added only where the
base does not end with one. -/
def join (base : Path) (below : List Char) : Path :=
  if below.head? = some '/' then ⟨below⟩
  else if base.chars.isEmpty || base.chars.getLast? == some '/' then ⟨base.chars ++ below⟩
  else ⟨base.chars ++ '/' :: below⟩

/-! ## File names -/

/-- Split at the last occurrence of a mark, leaving the mark out. -/
def splitAtLast (mark : Char) : List Char → Option (List Char × List Char)
  | [] => none
  | c :: rest =>
    match splitAtLast mark rest with
    | some (before, behind) => some (c :: before, behind)
    | none => if c = mark then some ([], rest) else none

/-- The text in front of the file name, and the file name: the last component, if that is a name.
Separators and `.` behind it are left out. -/
def splitName? (path : Path) : Option (List Char × List Char) :=
  match (pieces path.chars).reverse.dropWhile (fun piece => piece == [] || piece == ['.']) with
  | [] => none
  | ['.', '.'] :: _ => none
  | name :: before => some (before.reverse.flatMap (· ++ ['/']), name)

/-- A file name without its extension, and the extension: what follows the last dot. A dot in the
first place starts no extension. -/
def splitExtension (name : List Char) : List Char × Option (List Char) :=
  match splitAtLast '.' name with
  | none => (name, none)
  | some ([], _) => (name, none)
  | some (stem, extension) => (stem, some extension)

/-- The path's extension, if it has one. -/
def extension? (path : Path) : Option (List Char) := do
  let (_, name) ← path.splitName?
  (splitExtension name).2

/-- The path with as many characters less at its end as its extension has. The dot stays. -/
def cutExtension (path : Path) : Path :=
  match path.extension? with
  | none => path
  | some extension => ⟨path.chars.take (path.chars.length - extension.length)⟩

/-- The path with another extension in place of its own. The old one is cut off first, and if that leaves no
file name, nothing is put in its place: `..index` becomes `..`. -/
def withExtension (path : Path) (extension : List Char) : Path :=
  let path := path.cutExtension
  match path.splitName? with
  | none => path
  | some (before, name) => ⟨before ++ (splitExtension name).1 ++ '.' :: extension⟩

end Path

end BlockShuffle
