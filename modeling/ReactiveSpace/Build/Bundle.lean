import ReactiveSpace.Document.Library

/-!
# Compiled files

A bundle holds the files that a compiler emitted for one unit. Taking a file moves it out, so that
every file is loaded at most once; a name that was taken is remembered, and a file that is put under
it again can be taken again. Loading the library of a unit takes it and opens its image.
-/

namespace ReactiveSpace

/-- Why a unit could not be loaded. -/
inductive LoadError where
  | notFound (name : String)
  /-- The file was taken before. -/
  | alreadyTaken (name : String)
  /-- The file is no shared object. -/
  | notLoadable (name : String)
  | missingSymbol (symbol : String)
  /-- The table of the unit has another version. -/
  | versionMismatch (expected found : Nat)
deriving DecidableEq

/-- The error in words. -/
def LoadError.message : LoadError → String
  | .notFound name => s!"artifact '{name}' not found"
  | .alreadyTaken name => s!"artifact '{name}' was already loaded"
  | .notLoadable name => s!"dlopen failed: '{name}' is not a shared object"
  | .missingSymbol symbol => s!"symbol '{symbol}' not found"
  | .versionMismatch expected found =>
    "unit ABI version " ++ Decimal.digitText found ++ " does not match host version " ++
      Decimal.digitText expected

/-- What a compiled file holds. A bundle only moves files about, so the bytes of a shared object are
not kept: their number stands for them, with the table that opening them gives. -/
inductive Image (σ : Type) where
  /-- Data that can not be loaded. -/
  | data (text : String)
  /-- A shared object of the given size, with the table it exports under the entry symbol. -/
  | object (size : Nat) (table : Option (Library σ))

namespace Image

variable {σ : Type}

/-- The number of bytes of a file. -/
def size : Image σ → Nat
  | .data text => text.utf8ByteSize
  | .object size _ => size

/-- The library that a file holds, if it exports a table of the expected version. -/
def library (name : String) : Image σ → Except LoadError (Library σ)
  | .data _ => .error (.notLoadable name)
  | .object _ none => .error (.missingSymbol Target.entrySymbol)
  | .object _ (some l) =>
    if l.version = Target.abiVersion then .ok l
    else .error (.versionMismatch Target.abiVersion l.version)

end Image

/-- The compiled files of one unit. -/
structure Bundle (σ : Type) where
  unitName : String
  /-- The files that can be taken. -/
  files : List (String × Image σ) := []
  /-- The names of files that were taken and not put back. -/
  taken : List String := []

namespace Bundle

variable {σ : Type}

/-- The file name of the library of a unit. -/
def libraryFileName (unitName : String) : String :=
  s!"lib{unitName}.so"

/-- The file name of the unit's library. -/
def libraryName (b : Bundle σ) : String :=
  libraryFileName b.unitName

/-- Puts a file under a name. It can be taken, whether or not one of this name was taken before. -/
def insert (b : Bundle σ) (name : String) (image : Image σ) : Bundle σ :=
  { b with
    files := Keyed.insert name image b.files
    taken := b.taken.filter fun n => n != name }

/-- The names of the files that can be taken. -/
def names (b : Bundle σ) : List String :=
  Keyed.names b.files

/-- Whether a file can be taken. -/
def contains (b : Bundle σ) (name : String) : Bool :=
  (Keyed.get? name b.files).isSome

/-- The number of files that can be taken. -/
def size (b : Bundle σ) : Nat :=
  b.files.length

/-- The number of bytes of the files that can be taken. -/
def residentBytes (b : Bundle σ) : Nat :=
  b.files.foldr (fun f bytes => f.2.size + bytes) 0

/-- Takes a file. A failure changes nothing. -/
def take (b : Bundle σ) (name : String) : Except LoadError (Image σ) × Bundle σ :=
  match Keyed.get? name b.files with
  | some image =>
    (.ok image,
      { b with
        files := b.files.filter fun f => f.1 != name
        taken := name :: b.taken })
  | none =>
    (.error (if b.taken.contains name then .alreadyTaken name else .notFound name), b)

/-- Takes the unit's library and opens it. -/
def loadLibrary (b : Bundle σ) : Except LoadError (Library σ) × Bundle σ :=
  let (image, rest) := b.take b.libraryName
  (image.bind (Image.library b.libraryName), rest)

end Bundle

end ReactiveSpace
