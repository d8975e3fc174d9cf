import ReactiveSpace.Proofs.Reflection
import ReactiveSpace.Proofs.Target.Definitions
import ReactiveSpace.Proofs.Target.Source

/-!
# When the output of a space is closed

The source of a unit spells the types of the fields, parameters and results of its structures, and
the reflection of a space names the structures of its types. Both look structures up by name, while
what they define comes from the entries of the table: an inline structure, or a record that stands
in the table under a name other than its own, is mentioned and not defined. For a deployable space
`Declarations.output_closed_iff` says of each type of a unit when all that it mentions is defined,
and when all names of a reflection are names of its types.
-/

namespace ReactiveSpace

theorem Table.Uses.exists_typeName {t : Table} {scope : Option (Structure Node)} {n : Node}
    {kind : Kind Node} (h : t.Uses scope n kind) : ∃ name, kind.typeName? = some name := by
  induction h with
  | @self _ n _ hs => cases hk : n.kind <;> simp_all [Node.structure?, Kind.typeName?]
  | table | projection => exact ⟨_, rfl⟩
  | holder => exact ⟨_, rfl⟩
  | part _ _ ih | ref _ _ _ ih => exact ih

namespace Target

variable {t : Table}

/-- What the spellings of a shape mention is defined exactly when the structures of the shape are:
the delta of a record is defined beside it. -/
theorem mentions_subset_definitions_iff {s : Shape} :
    (∀ name, s.Mentions name → name ∈ definitions t) ↔
      ∀ name ∈ s.typeNames, name ∈ definitions t := by
  constructor
  · intro h name hname
    exact h name (Shape.mentions_of_mem_typeNames hname)
  · intro h name hname
    rcases hname.mem_typeNames with hmem | ⟨record, rfl, hmem⟩
    · exact h name hmem
    · exact delta_mem_definitions_iff.2 (h _ hmem)

/-- In a well-formed table, what a type of the unit mentions is defined exactly when the type comes
to an end and the structures it uses are defined. -/
theorem mentions_defined_iff (ht : t.WellFormed) {s : Structure Node} (hs : s ∈ emitted t)
    {n : Node} (hn : n ∈ s.types) :
    (∀ name, (shapeIn t s n).Mentions name → name ∈ definitions t) ↔
      t.Ends n ∧ ∀ kind, t.Uses (some s) n kind → t.Defines kind := by
  have hoccurs : t.Occurs (.type (some s) n) := .member (occurs_of_mem_emitted hs) hn
  rw [mentions_subset_definitions_iff]
  unfold shapeIn siteOf
  rw [ht.typeNames_shape_iff hoccurs fun _ => missing_notMem_definitions]
  -- Whatever a type uses is a structure, so there is a name to look for.
  refine and_congr_right' (forall_congr' fun kind => ?_)
  constructor
  · intro h huses
    obtain ⟨name, hname⟩ := huses.exists_typeName
    exact (Table.defines_iff hname).2 (h name huses hname)
  · intro h name huses hname
    exact (Table.defines_iff hname).1 (h huses)

end Target

namespace Declarations

/-- **When the output is closed.** A deployable space has a source, and the structures that it
defines are those of its messages and records, the document and the exports. Types are spelled in
pieces, some of which are the names of such structures. All that a field, parameter or result
mentions is defined exactly when its type comes to an end and all structures behind it are defined.
All names in the reflection are names of its types exactly when those of the inline structures, rows
and held messages that it describes are. -/
theorem output_closed_iff {d : Declarations} {unitName : String} (h : d.check.isDeployable = true)
    (hname : Name.isUnitName unitName = true) :
    Target.unitSource d.check d.surface unitName =
        .ok (Code.source (Target.unitCode d.check.table d.surface unitName)) ∧
      (Target.unitCode d.check.table d.surface unitName).filterMap Code.structName? =
        (Target.definitions d.check.table).map TypeName.text ++
          [Structure.rootName, Structure.rootName ++ "Delta"] ++
          (Target.exports unitName d.surface).filterMap Code.structName? ∧
      (∀ shape : Shape, Piece.spell shape.runtimePieces = shape.runtimeType ∧
        Piece.spell shape.nativePieces = shape.nativeType ∧
        (∀ link, Piece.spell (shape.constructionPieces link) = shape.construction link) ∧
        Piece.spell shape.deltaPieces = shape.deltaType) ∧
      (∀ s ∈ Target.emitted d.check.table, ∀ n ∈ s.types,
        (∀ name, (Target.shapeIn d.check.table s n).Mentions name →
            name ∈ Target.definitions d.check.table) ↔
          d.check.table.Ends n ∧
            ∀ kind, d.check.table.Uses (some s) n kind → d.check.table.Defines kind) ∧
      ∃ types, (Reflection.ofTable d.check.table).get? "types" = some (.object types) ∧
        ((∀ name ∈ Reflection.mentioned (Reflection.ofTable d.check.table),
            name ∈ Keyed.names types) ↔
          ∀ n ∈ Reflection.described d.check.table, ∀ name,
            d.check.table.Describes n name → name ∈ d.check.table.names) := by
  have ht := wellFormed_of_isDeployable h
  refine ⟨?_, Target.structNames_unitCode _ _ _, fun shape => ?_, fun s hs n hn => ?_, _, rfl, ?_⟩
  · simp [Target.unitSource, h, hname]
  · exact ⟨shape.spell_runtimePieces, shape.spell_nativePieces,
      fun link => shape.spell_constructionPieces link, shape.spell_deltaPieces⟩
  · exact Target.mentions_defined_iff ht hs hn
  · rw [← Reflection.mentioned_subset_iff ht, Table.names, Keyed.names, Keyed.names, List.map_map]
    rfl

/-- The record `B`. -/
def inlineRecord : Node :=
  .ofRecord { name := "B", fields := [{ name := "id", type := .ofScalar .int }] }

/-- The document, with the record `B` inline. -/
def inlineDocument : Structure Node where
  name := Structure.rootName
  role := .root
  fields := [{ name := "b", type := inlineRecord }]

/-- A record that stands inline in the document is deployable. It is mentioned in the source, where
it is not defined, and in the reflection, where it is not a type. -/
theorem inline_record_undefined :
    let d : Declarations := { space := "s", root := inlineDocument }
    d.check.isDeployable = true ∧ Name.isUnitName d.unitName = true ∧
      (∃ name, (Target.shapeIn d.check.table inlineDocument inlineRecord).Mentions name ∧
        name ∉ Target.definitions d.check.table) ∧
      ∃ types, (Reflection.ofTable d.check.table).get? "types" = some (.object types) ∧
        ∃ name ∈ Reflection.mentioned (Reflection.ofTable d.check.table),
          name ∉ Keyed.names types := by
  intro d
  have hd : d.check.isDeployable = true :=
    isDeployable_of_isEmpty (by decide) (by decide +kernel +zetaReduce) (by cbv)
  have hunit : Name.isUnitName d.unitName = true := d.isUnitName_unitName
  have htable : d.check.table = d.table (by decide) := table_draft _
  have hentries : d.check.table.entries = [] := by
    rw [htable]
    rfl
  have hroot : d.check.table.root = inlineDocument := by
    rw [htable]
    rfl
  obtain ⟨-, -, -, hsource, types, htypes, hreflection⟩ := output_closed_iff hd hunit
  have hmem : inlineRecord ∈ inlineDocument.types := List.mem_singleton.2 rfl
  refine ⟨hd, hunit, Classical.not_not.1 fun hnone => ?_, types, htypes,
    Classical.not_not.1 fun hnone => ?_⟩
  · have hemitted : inlineDocument ∈ Target.emitted d.check.table :=
      List.mem_append_right _ (List.mem_singleton.2 hroot.symm)
    have hclosed : ∀ name,
        (Target.shapeIn d.check.table inlineDocument inlineRecord).Mentions name →
          name ∈ Target.definitions d.check.table :=
      fun name hname => Classical.not_not.1 fun hnot => hnone ⟨name, hname, hnot⟩
    obtain ⟨-, hdefines⟩ := (hsource _ hemitted _ hmem).1 hclosed
    -- Nothing is defined for a record unless a record is an entry.
    obtain ⟨_, _, _, _, _, b, hb, _⟩ := hdefines _ (.self rfl)
    simp [Table.records, hentries] at hb
  · have hdescribed : inlineRecord ∈ Reflection.described d.check.table := by
      rw [Reflection.described, hroot]
      exact List.mem_append_right _ (List.mem_singleton.2 rfl)
    have hclosed : ∀ name ∈ Reflection.mentioned (Reflection.ofTable d.check.table),
        name ∈ Keyed.names types :=
      fun name hname => Classical.not_not.1 fun hnot => hnone ⟨name, hname, hnot⟩
    have hname := hreflection.1 hclosed _ hdescribed _ (.self rfl)
    simp [Table.names, Keyed.names, hentries] at hname

end Declarations

end ReactiveSpace
