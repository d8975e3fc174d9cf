import ReactiveSpace.Check.Graph
import ReactiveSpace.Check.Resolve

/-!
# Dependencies between records

A field leads to at most one record: through references and their aliases, through a list, a maybe,
a formula or the range of a map, or as the rows of a table. A field that leads there through
references alone *embeds* the record, so that one record cannot be built without the other. The
dependencies of all records form a graph, and so do the embeddings.
-/

namespace ReactiveSpace

/-- The record that a field leads to, and whether it embeds the record. -/
structure Link where
  record : String
  embeds : Bool
deriving DecidableEq

namespace Table

/-- A name that stands for a node is declared. -/
theorem mem_names_of_followName? {t : Table} {name : String} {node : Node}
    (h : t.followName? name = some node) : name ∈ t.names := by
  simp only [followName?, resolve] at h
  rw [resolveFrom] at h
  split at h
  · rename_i r hr
    split at hr
    · simp at hr
    · split at hr
      · simp at hr
      · rename_i node' hg
        exact mem_names_of_get? hg
  · simp at h

/-- The record that a type leads to, after references to the aliases in `seen`. A reference to an
alias that was already passed leads nowhere. -/
def link? (t : Table) (seen : List String) (direct : Bool) (n : Node) : Option Link :=
  match n with
  | ⟨_, _, .ref name⟩ =>
    match _h : t.followName? name with
    | none => none
    | some target =>
      match target.kind with
      | .record s => some ⟨s.name, direct⟩
      | .message _ => none
      | _ => if _hs : name ∈ seen then none else t.link? (name :: seen) direct target
  | ⟨_, _, .record s⟩ => some ⟨s.name, direct⟩
  | ⟨_, _, .table record⟩ => (t.followRecord? record).map fun s => ⟨s.name, false⟩
  | ⟨_, _, .list element⟩ => t.link? seen false element
  | ⟨_, _, .map _ range⟩ => t.link? seen false range
  | ⟨_, _, .maybe inner⟩ => t.link? seen false inner
  | ⟨_, _, .lazy computed _ _⟩ => t.link? seen false computed
  | _ => none
termination_by ((remaining t.names seen).length, sizeOf n)
decreasing_by
  · exact Prod.Lex.left _ _ (length_remaining_cons_lt _hs (mem_names_of_followName? _h))
  all_goals exact Prod.Lex.right _ (by simp; omega)

/-- The records that the fields of a structure lead to. -/
def links (t : Table) (s : Structure Node) : List Link :=
  s.fields.filterMap fun f => t.link? [] true f.type

end Table

/-- The names of a list, each at its first place. -/
def firstPlaces (names : List String) : List String :=
  names.foldl (fun kept n => if kept.contains n then kept else kept ++ [n]) []

/-- The dependencies of the records of a table. Of two records with one name the later counts. -/
def Table.dependencies (t : Table) : Graph where
  edges := Keyed.ofPairs (t.records.map fun s =>
    (s.name, firstPlaces ((t.links s).map Link.record)))

/-- The embeddings among the records of a table. -/
def Table.embeddings (t : Table) : Graph where
  edges := Keyed.ofPairs (t.records.map fun s =>
    (s.name, firstPlaces (((t.links s).filter Link.embeds).map Link.record)))

end ReactiveSpace
