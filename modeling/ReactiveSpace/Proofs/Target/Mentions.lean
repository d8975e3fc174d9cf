import Mathlib.Data.List.Basic
import ReactiveSpace.Target.Spelling

/-!
# The type names in the spelling of a shape

A spelling is cut into `Piece`s, the names of generated types and the text between them:
`spell_runtimePieces`, `spell_nativePieces`, `spell_constructionPieces` and `spell_deltaPieces` put
the pieces together again. `Shape.Mentions` is the relation between a shape and the names in one of
its spellings. The native type has them all, except for the deltas of its records
(`Shape.Mentions.mem_typeNames`).
-/

namespace ReactiveSpace

/-- The name of a generated type, by the structure it belongs to. -/
inductive TypeName where
  | record (name : String)
  /-- The delta of a record. -/
  | delta (name : String)
  | message (name : String)
  /-- What is written for a name that leads to no type. -/
  | missing (name : String)
deriving DecidableEq

def TypeName.text : TypeName → String
  | .record name | .missing name => recordType name
  | .delta name => recordType name ++ "Delta"
  | .message name => messageType name

/-- A part of a spelling. -/
inductive Piece where
  | text (text : String)
  | type (name : TypeName)

namespace Piece

/-- The text that pieces stand for. -/
def spell : List Piece → String
  | [] => ""
  | .text s :: ps => s ++ spell ps
  | .type name :: ps => name.text ++ spell ps

/-- The type names among pieces. -/
def types : List Piece → List TypeName
  | [] => []
  | .text _ :: ps => types ps
  | .type name :: ps => name :: types ps

/-- Pieces are spelled one after the other. -/
theorem spell_append (ps qs : List Piece) : spell (ps ++ qs) = spell ps ++ spell qs := by
  fun_induction spell ps with
  | case1 => simp
  | case2 s ps ih => simp [spell, ih, String.append_assoc]
  | case3 name ps ih => simp [spell, ih, String.append_assoc]

theorem types_append (ps qs : List Piece) : types (ps ++ qs) = types ps ++ types qs := by
  fun_induction types ps with
  | case1 => simp
  | case2 s ps ih => simp [types, ih]
  | case3 name ps ih => simp [types, ih]

end Piece

namespace Shape

/-! ### Spellings in pieces -/

/-- The pieces of the type of the plain value. -/
def nativePieces : Shape → List Piece
  | .scalar s => [.text s.nativeType]
  | .text => [.text "String"]
  | .replication _ _ => [.text "String"]
  | .list element => .text "NtList<" :: nativePieces element ++ [.text ">"]
  | .map domain range =>
    .text "NtMap<" :: nativePieces domain ++ .text ", " :: nativePieces range ++ [.text ">"]
  | .maybe inner => .text "NtMaybe<" :: nativePieces inner ++ [.text ">"]
  | .table row => [.text "NtTable<", .type (.record row), .text ">"]
  | .holder held => [.type (.message held)]
  | .projection _ (some (row, domain)) =>
    [.text "NtMap<", .text domain.nativeType, .text ", NtList<RecordRef<", .type (.record row),
      .text ">>>"]
  | .projection _ none => [.text "NtMap<(), ()>"]
  | .lazy computed _ _ => nativePieces computed
  | .record name => [.text "RecordRef<", .type (.record name), .text ">"]
  | .message name => [.type (.message name)]
  | .unresolved name => [.text "RecordRef<", .type (.missing name), .text ">"]

/-- The pieces of the type of the reactive storage. -/
def runtimePieces : Shape → List Piece
  | .scalar s => [.text s.cellType]
  | .text => [.text "RxText"]
  | .replication _ _ => [.text "RxReplicationStatus"]
  | .list element => .text "RxList<" :: runtimePieces element ++ [.text ">"]
  | .map domain range =>
    .text "RxMap<" :: nativePieces domain ++ .text ", " :: runtimePieces range ++ [.text ">"]
  | .maybe inner => .text "RxMaybe<" :: runtimePieces inner ++ [.text ">"]
  | .table row => [.text "RxTable<", .type (.record row), .text ">"]
  | .holder held => [.text "RxHolder<", .type (.message held), .text ">"]
  | .projection _ (some (row, domain)) =>
    [.text "RxProjectionMap<", .text domain.nativeType, .text ", ", .type (.record row), .text ">"]
  | .projection _ none => [.text "RxProjectionMap<(), ()>"]
  | .lazy computed _ cached =>
    .text (lazyCell cached) :: .text "<" :: nativePieces computed ++ [.text ">"]
  | .record name => [.type (.record name)]
  | .message name => [.type (.message name)]
  | .unresolved name => [.type (.missing name)]

/-- The pieces of the expression that builds the storage under `link`. -/
def constructionPieces (link : String) : Shape → List Piece
  | .scalar s => [.text (s.cellType ++ "::with_value(" ++ link ++ ", " ++ s.defaultValue ++ ")")]
  | .text => [.text ("RxText::link(" ++ link ++ ")")]
  | .replication service method =>
    [.text ("RxReplicationStatus::link(" ++ link ++ ", " ++ Text.quote service ++ ", " ++
      Text.quote method ++ ")")]
  | .list element =>
    .text ("RxList::link(" ++ link ++ ", |__link| ") :: constructionPieces "__link" element ++
      [.text ")"]
  | .map _ range =>
    .text ("RxMap::link(" ++ link ++ ", |__link| ") :: constructionPieces "__link" range ++
      [.text ")"]
  | .maybe inner =>
    .text ("RxMaybe::link(" ++ link ++ ", |__link| ") :: constructionPieces "__link" inner ++
      [.text ")"]
  | .table row =>
    [.text ("RxTable::link(" ++ link ++ ", "), .type (.record row), .text "::new)"]
  | .holder held =>
    [.text ("RxHolder::with_value(" ++ link ++ ", "), .type (.message held), .text "::default())"]
  | .projection field (some (row, _)) =>
    [.text ("RxProjectionMap::link(" ++ link ++ ", |__row: &"), .type (.record row),
      .text ("| __row." ++ field ++ ".get())")]
  | .projection _ none => [.text ("RxProjectionMap::link(" ++ link ++ ", |_| ())")]
  | .lazy computed formula cached =>
    .text (lazyCell cached ++ "::link(" ++ link ++ ", |__this: &Self| -> ") ::
      nativePieces computed ++ [.text (" \x7b " ++ Text.trim formula ++ " \x7d)")]
  | .record name => [.type (.record name), .text ("::new(Owner::record(" ++ link ++ "))")]
  | .message name => [.type (.message name), .text "::default()"]
  | .unresolved name => [.type (.missing name), .text ("::new(Owner::record(" ++ link ++ "))")]

/-- The pieces of the type of the delta. -/
def deltaPieces : Shape → List Piece
  | .scalar s => [.text s.deltaType]
  | .text => [.text "DText"]
  | .replication _ _ => [.text "DString"]
  | .list element => .text "DList<" :: deltaPieces element ++ [.text ">"]
  | .map domain range =>
    .text "DMap<" :: nativePieces domain ++ .text ", " :: deltaPieces range ++ [.text ">"]
  | .maybe inner => .text "DMaybe<" :: deltaPieces inner ++ [.text ">"]
  | .table _ => [.text opaqueDelta]
  | .holder held => [.text "DHolder<", .type (.message held), .text ">"]
  | .projection _ (some (row, domain)) =>
    [.text "DProjection<", .text domain.nativeType, .text ", ", .type (.delta row), .text ">"]
  | .projection _ none => [.text opaqueDelta]
  | .lazy computed _ _ => .text "DLazy<" :: deltaPieces computed ++ [.text ">"]
  | .record name => [.type (.delta name)]
  | .message _ => [.text opaqueDelta]
  | .unresolved _ => [.text opaqueDelta]

/-- The pieces of a native type give its text. -/
theorem spell_nativePieces (s : Shape) : Piece.spell s.nativePieces = s.nativeType := by
  induction s with
  | projection field source =>
    rcases source with _ | ⟨row, domain⟩
    · unfold nativePieces nativeType
      simp [Piece.spell]
    · unfold nativePieces nativeType
      simp [Piece.spell, TypeName.text, String.append_assoc]
  | _ =>
    unfold nativePieces nativeType
    simp_all [Piece.spell, Piece.spell_append, TypeName.text, String.append_assoc]

theorem spell_runtimePieces (s : Shape) : Piece.spell s.runtimePieces = s.runtimeType := by
  induction s with
  | projection field source =>
    rcases source with _ | ⟨row, domain⟩
    · unfold runtimePieces runtimeType
      simp [Piece.spell]
    · unfold runtimePieces runtimeType
      simp [Piece.spell, TypeName.text, String.append_assoc]
  | _ =>
    unfold runtimePieces runtimeType
    simp_all [Piece.spell, Piece.spell_append, TypeName.text, String.append_assoc,
      spell_nativePieces]

theorem spell_constructionPieces (link : String) (s : Shape) :
    Piece.spell (s.constructionPieces link) = s.construction link := by
  induction s generalizing link with
  | projection field source =>
    rcases source with _ | ⟨row, domain⟩
    · unfold constructionPieces construction
      simp [Piece.spell]
    · unfold constructionPieces construction
      simp [Piece.spell, TypeName.text, String.append_assoc]
  | _ =>
    unfold constructionPieces construction
    simp_all [Piece.spell, Piece.spell_append, TypeName.text, String.append_assoc,
      spell_nativePieces]

theorem spell_deltaPieces (s : Shape) : Piece.spell s.deltaPieces = s.deltaType := by
  induction s with
  | projection field source =>
    rcases source with _ | ⟨row, domain⟩
    · unfold deltaPieces deltaType
      simp [Piece.spell]
    · unfold deltaPieces deltaType
      simp [Piece.spell, TypeName.text, String.append_assoc]
  | _ =>
    unfold deltaPieces deltaType
    simp_all [Piece.spell, Piece.spell_append, TypeName.text, String.append_assoc,
      spell_nativePieces]

/-! ### Mentions -/

/-- The names of the structures that a shape consists of. -/
def typeNames (s : Shape) : List TypeName :=
  Piece.types s.nativePieces

/-- A name is in one of the spellings of a shape. -/
def Mentions (s : Shape) (name : TypeName) : Prop :=
  name ∈ Piece.types s.runtimePieces ∨ name ∈ Piece.types s.nativePieces ∨
    (∃ link, name ∈ Piece.types (s.constructionPieces link)) ∨ name ∈ Piece.types s.deltaPieces

/-- A runtime type and the native type name the same structures. -/
theorem types_runtimePieces (s : Shape) : Piece.types s.runtimePieces = s.typeNames := by
  unfold typeNames
  fun_induction runtimePieces s <;> simp_all [nativePieces, Piece.types, Piece.types_append]

/-- The expression that builds the storage names the structures of its shape. Only the domain of a
map is left out. -/
theorem types_constructionPieces_subset (link : String) (s : Shape) :
    Piece.types (s.constructionPieces link) ⊆ s.typeNames := by
  unfold typeNames
  fun_induction constructionPieces link s <;>
    simp_all [nativePieces, Piece.types, Piece.types_append]

/-- A delta names the structures of its shape, or the deltas of its records. -/
theorem mem_types_deltaPieces {s : Shape} {name : TypeName} (h : name ∈ Piece.types s.deltaPieces) :
    name ∈ s.typeNames ∨ ∃ record, name = .delta record ∧ .record record ∈ s.typeNames := by
  unfold typeNames
  induction s with
  | projection field source =>
    rcases source with _ | ⟨row, domain⟩ <;>
      simp_all [deltaPieces, nativePieces, Piece.types]
  | map domain range _ ih =>
    -- The domain is spelled as a plain value in both.
    simp only [deltaPieces, nativePieces, Piece.types, Piece.types_append, List.mem_append,
      List.append_nil] at h ih ⊢
    rcases h with h | h
    · exact Or.inl (Or.inl h)
    · rcases ih h with hname | ⟨record, hdelta, hrecord⟩
      · exact Or.inl (Or.inr hname)
      · exact Or.inr ⟨record, hdelta, Or.inr hrecord⟩
  | _ => simp_all [deltaPieces, nativePieces, Piece.types, Piece.types_append]

/-- The names in the spellings of a shape are those of its structures, and some of their deltas. -/
theorem Mentions.mem_typeNames {s : Shape} {name : TypeName} (h : s.Mentions name) :
    name ∈ s.typeNames ∨ ∃ record, name = .delta record ∧ .record record ∈ s.typeNames := by
  rcases h with h | h | ⟨link, h⟩ | h
  · exact Or.inl (types_runtimePieces s ▸ h)
  · exact Or.inl h
  · exact Or.inl (types_constructionPieces_subset link s h)
  · exact mem_types_deltaPieces h

theorem mentions_of_mem_typeNames {s : Shape} {name : TypeName} (h : name ∈ s.typeNames) :
    s.Mentions name :=
  Or.inr (Or.inl h)

end Shape

end ReactiveSpace
