/-
  Records that feeds are read as.

  * `Echo`, `Labelled` and `Sample` are records of one or two fields;
  * `Song`, with its `Composer`, has optional fields, and `Song.brokenRules` says which rules a song
    breaks;
  * `Records.lengthIfIdentified` is an interpretation that is no record: the length of a text that
    mentions an identifier.
-/
import ObjectFeed.Interpretation

namespace ObjectFeed

open Json (Shape)

namespace Records

/-- The greatest number of 32 bits. -/
def greatest32 : Nat := UInt32.size - 1

/-- The greatest number of 64 bits. -/
def greatest64 : Nat := UInt64.size - 1

/-- A number. -/
structure Echo where
  a : Nat
  deriving DecidableEq, Repr

/-- An echo from its field. -/
def Echo.shape : Shape Echo :=
  Shape.record (none : Option Nat)
    [.of "a" (Shape.natUpTo greatest32) id (fun _ a => some a)]
    (fun a => a.map Echo.mk)

/-- A label. -/
structure Labelled where
  x : String
  deriving DecidableEq, Repr

/-- A label from its field. -/
def Labelled.shape : Shape Labelled :=
  Shape.record (none : Option String)
    [.of "x" Shape.string id (fun _ x => some x)]
    (fun x => x.map Labelled.mk)

/-- A numbered value. -/
structure Sample where
  id : Nat
  value : String
  deriving DecidableEq, Repr

/-- A sample from its two fields. -/
def Sample.shape : Shape Sample :=
  Shape.record ((none, none) : Option Nat × Option String)
    [.of "id" (Shape.natUpTo greatest64) Prod.fst (fun s id => (some id, s.2)),
     .of "value" Shape.string Prod.snd (fun s value => (s.1, some value))]
    (fun (id, value) => do pure ⟨← id, ← value⟩)

/-- A composer, by name. -/
structure Composer where
  givenName : String
  familyName : Option String
  deriving DecidableEq, Repr

/-- A composer whose family name may be missing. -/
def Composer.shape : Shape Composer :=
  Shape.record ((none, none) : Option String × Option (Option String))
    [.of "given_name" Shape.string Prod.fst (fun s name => (some name, s.2)),
     .of "family_name" Shape.string.optional Prod.snd (fun s name => (s.1, some name))]
    (fun (given, family) => given.map fun given => ⟨given, family.getD none⟩)

/-- A song.  Only its title is needed. -/
structure Song where
  composer : Option Composer
  title : String
  lyrics : Option String
  year : Option Nat
  deriving DecidableEq, Repr

/-- The fields of a song that have been read. -/
structure Song.Partial where
  composer : Option (Option Composer) := none
  title : Option String := none
  lyrics : Option (Option String) := none
  year : Option (Option Nat) := none

/-- A song of which all but the title may be missing. -/
def Song.shape : Shape Song :=
  Shape.record ({} : Song.Partial)
    [.of "composer" Composer.shape.optional Partial.composer (fun s c => { s with composer := some c }),
     .of "title" Shape.string Partial.title (fun s t => { s with title := some t }),
     .of "lyrics" Shape.string.optional Partial.lyrics (fun s l => { s with lyrics := some l }),
     .of "year" (Shape.natUpTo greatest32).optional Partial.year (fun s y => { s with year := some y })]
    (fun s => s.title.map fun title =>
      ⟨s.composer.getD none, title, s.lyrics.getD none, s.year.getD none⟩)

/-- A title is not empty, and no year lies after 2100. -/
def Song.brokenRules (s : Song) : List (String × List String) :=
  (if s.title.isEmpty then [("title", ["length"])] else []) ++
    (match s.year with
     | some year => if 2100 < year then [("year", ["range"])] else []
     | none => [])

/-- Whether a text has a part. -/
def hasPart (part : List Char) : List Char → Bool
  | [] => part.isEmpty
  | c :: rest => part.isPrefixOf (c :: rest) || hasPart part rest

/-- The size in octets of a text that mentions an identifier by its quoted key. -/
def lengthIfIdentified : Interpretation Nat := fun text =>
  if hasPart "\"id\"".toList text.toList then .ok text.utf8ByteSize
  else .error (.custom "missing id")

end Records

end ObjectFeed
