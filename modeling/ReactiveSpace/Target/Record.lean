import ReactiveSpace.Decimal.Style
import ReactiveSpace.Target.Delta
import ReactiveSpace.Target.State

/-!
# Records in the target source

A record becomes a structure with its owner, the storage of its fields and one invalidator for each
index, followed by its delta. Since the same type serves bare records and rows of tables, an index
is wired at run time, and only when the owner is an indexed table.
-/

namespace ReactiveSpace.Target

/-- One column of a record's index. -/
structure IndexColumn where
  /-- The place of the index among the indices of the record. -/
  number : Nat
  field : String
  /-- The type of the plain values. -/
  native : String
  /-- The expression that turns `__value` into its key. -/
  key : String
deriving DecidableEq

/-- The column of an index, if its field comes down to a scalar that can be indexed. -/
def indexColumn? (t : Table) (s : Structure Node) (number : Nat) (index : Index) :
    Option IndexColumn := do
  let field ← s.field? index.field
  let scalar ← (field.type.concrete t).scalar?
  let key ← scalar.indexKey? "__value"
  return ⟨number, field.name, scalar.nativeType, key⟩

/-- The columns of a record's indices. -/
def indexColumns (t : Table) (s : Structure Node) : List IndexColumn :=
  s.indices.zipIdx.filterMap fun (index, number) => indexColumn? t s number index

/-- The place of the field that identifies a record. -/
def idSlot (s : Structure Node) : Nat :=
  (s.fields.findIdx? fun f => f.name == "id").getD 0

/-- The member that holds the invalidator of a column. -/
def indexMember (c : IndexColumn) : String :=
  "__index_" ++ c.field

/-- The statement that wires a column when the owner is an indexed table. -/
def wireColumn (c : IndexColumn) : Code :=
  .block ("let " ++ indexMember c ++ " = match __owner.as_indexed_table()")
    [.nest "Some(__table) =>"
        [.line ("let __invalidate = IndexInvalidate::new(__table, " ++ Decimal.digitText c.number ++
            ", |__value: &" ++ c.native ++ "| " ++ c.key ++ ");"),
          .line (c.field ++ ".__subscribe(__invalidate.clone());"),
          .line "Some(__invalidate)"],
      .line "None => None,"] ";"

/-- The function that builds a record. -/
def recordConstructor (t : Table) (s : Structure Node) (columns : List IndexColumn) : Code :=
  .nest "pub fn new(__owner: Owner) -> Self"
    (.line "let __link = __owner.link();" ::
      construction t s ++
      columns.map wireColumn ++
      [.block "let mut __self = Self"
        (.line "__owner," ::
          s.fields.map (fun f => .line (f.name ++ ",")) ++
          columns.map (fun c => .line (indexMember c ++ ","))) ";"] ++
      bindings s ++
      [.line "__self"])

/-- A function that calls `call` on the invalidator of each column. -/
def eachIndex (name call : String) (columns : List IndexColumn) : Code :=
  .nest ("pub fn " ++ name ++ "(&mut self)")
    (columns.map fun c =>
      .nest ("if let Some(__index) = &self." ++ indexMember c)
        [.line ("__index." ++ call ++ "();")])

/-- The functions that keep indices up to date. -/
def indexHooks (columns : List IndexColumn) : List Code :=
  [eachIndex "deindex" "deindex" columns,
    .blank,
    eachIndex "reindex" "reindex" columns,
    .blank,
    .nest "pub fn invalidate_index(&self, __pubsub: &TablePubSub)"
      (.line "__pubsub.primary(self.__id());" ::
        columns.map fun c =>
          .nest ""
            [.line ("let __value = &self." ++ c.field ++ ".get();"),
              .line ("__pubsub.index(" ++ Decimal.digitText c.number ++ ", " ++ c.key ++ ");")]),
    .blank,
    .nest "pub fn pump_index_events(&self, __pubsub: &TablePubSub)"
      (columns.flatMap fun c =>
        [.line "let __watch = __pubsub.clone();",
          .block ("self." ++ c.field ++ ".__subscribe(move |__value: &" ++ c.native ++ "|")
            [.line ("__watch.index(" ++ Decimal.digitText c.number ++ ", " ++ c.key ++ ");"),
              .line "true"] ");"])]

/-- The functions that read and set the identity of a record. -/
def identityFunctions : List Code :=
  [shortFunction "pub fn __id(&self) -> i32" "self.id.get()",
    .blank,
    .nest "pub fn __set_id(&mut self, value: i32, force: bool)"
      [.branch "if force" [.line "self.id.force_set(value);"] [.line "self.id.set(value);"]]]

/-- The function that deletes a record. -/
def kill (t : Table) (s : Structure Node) : Code :=
  .nest "pub fn __kill(&mut self)"
    ((s.fields.filterMap fun f => ((f.type.concrete t).killCall? f.name).map .line) ++
      [.line "self.deindex();",
        .line "self.__owner.kill();"])

/-- The source of a record. -/
def record (t : Table) (s : Structure Node) : List Code :=
  let type := recordType s.name
  let columns := indexColumns t s
  [.nest ("pub struct " ++ type)
      (.line "__owner: Owner," ::
        storage t s ++
        columns.map fun c => .line (indexMember c ++ ": Option<IndexInvalidate<" ++ type ++ ">>,")),
    .blank,
    .nest ("impl " ++ type)
      ([.line ("pub const __ID_FIELD: usize = " ++ Decimal.digitText (idSlot s) ++ ";"),
        .line ("pub const __INDEX_COLUMNS: usize = " ++ Decimal.digitText columns.length ++ ";"),
        .blank,
        recordConstructor t s columns,
        .blank] ++
        indexHooks columns ++ [.blank] ++
        identityFunctions ++ [.blank] ++
        accessors t s ++ methods t s ++ rules s ++
        stateFunctions t s ++ [.blank] ++
        [settle t s, .blank, kill t s]),
    .blank] ++
    delta t type s

end ReactiveSpace.Target
