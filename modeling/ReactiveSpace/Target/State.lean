import ReactiveSpace.Target.Members

/-!
# Committing, reverting and comparing state

Three functions of a generated structure walk over the fields with state of their own: one writes
the changes of each field forward and backward, one discards them, and one compares two structures
field by field. A fourth orders structures by one of the fields that can be ordered.
-/

namespace ReactiveSpace.Target

/-! ### Commit and revert -/

/-- The statement that commits a field. -/
def commitStatement (f : Field Node) : String :=
  "self." ++ f.name ++ ".__commit(\"" ++ f.name ++ "\", __forward, __reverse);"

/-- The statement that reverts a field. -/
def revertStatement (f : Field Node) : String :=
  "self." ++ f.name ++ ".__revert();"

/-- The function that writes the forward and the reverse patch. -/
def commit (t : Table) (s : Structure Node) : Code :=
  .nest ("pub fn __commit(&mut self, __name: &str, " ++
      "__forward: &mut JsonStreamWriter, __reverse: &mut JsonStreamWriter)")
    [.nest "if self.__owner.is_dirty()"
      ([.line "__forward.write_object_field_intro(__name);",
        .line "__forward.begin_object();",
        .line "__reverse.write_object_field_intro(__name);",
        .line "__reverse.begin_object();"] ++
        (storedFields t s).map (fun f => .line (commitStatement f)) ++
        [.line "__forward.end_object();",
        .line "__reverse.end_object();",
        .line "self.__owner.lower_dirty();"])]

/-- The function that discards what is not committed. -/
def revert (t : Table) (s : Structure Node) : Code :=
  .nest "pub fn __revert(&mut self)"
    [.nest "if self.__owner.is_dirty()"
      ((storedFields t s).map (fun f => .line (revertStatement f)) ++
        [.line "self.__owner.lower_dirty();"])]

/-! ### Comparison -/

/-- The condition that a field has the same value in two structures. -/
def equalityTerm (t : Table) (f : Field Node) : String :=
  match (f.type.concrete t).access with
  | .cell => "self." ++ f.name ++ ".get() == __other." ++ f.name ++ ".get()"
  | _ => "self." ++ f.name ++ ".__structurally_equals(&__other." ++ f.name ++ ")"

/-- The function that compares two structures. -/
def equality (t : Table) (s : Structure Node) : Code :=
  let terms := (storedFields t s).map (equalityTerm t)
  shortFunction "pub fn __structurally_equals(&self, __other: &Self) -> bool"
    (if terms.isEmpty then "true" else "\n        && ".intercalate terms)

/-- The expression that orders two structures by a field, if it can be ordered. -/
def orderExpression? (t : Table) (f : Field Node) : Option String :=
  (f.type.concrete t).scalar?.bind
    (Scalar.compare? ("__a." ++ f.name ++ ".get()") ("__b." ++ f.name ++ ".get()"))

/-- The function that finds the order of a field by its name. -/
def comparator (t : Table) (s : Structure Node) : Code :=
  .nest "pub fn __comparator(__field: &str) -> Option<fn(&Self, &Self) -> std::cmp::Ordering>"
    [.nest "match __field"
      ((s.fields.filterMap fun f => (orderExpression? t f).map fun e =>
          .line ("\"" ++ f.name ++ "\" => Some(|__a: &Self, __b: &Self| " ++ e ++ "),")) ++
        [.line "_ => None,"])]

/-- The functions on the state of a structure, with empty lines between them. -/
def stateFunctions (t : Table) (s : Structure Node) : List Code :=
  [commit t s, .blank, revert t s, .blank, equality t s, .blank, comparator t s]

end ReactiveSpace.Target
