import ReactiveSpace.Proofs.Target.Call
import ReactiveSpace.Target.Source

/-!
# Emitters

The code of a unit is a tree, in which every block is closed where it ends. Here the same source is
emitted by calls on a writer, by one emitter for each part of it. Blocks are opened and closed by
calls of their own, with loops over fields, indices, methods, rules and tests in between, and a
condition closes its block with a text that opens another one, which a plain line closes.

All that an emitter asks a view is a `Wording`: the root, and how the types of a structure are
worded. `Table.wording` is the wording that the source of a unit is written with.
-/

namespace ReactiveSpace

open Writer (Call)
open Target

/-! ### Wording -/

/-- What an emitter asks a view: its root, and how types are worded. -/
structure Wording where
  root : Structure Node
  /-- What a type comes down to. -/
  concrete : Node → Node
  nativeType : Node → String
  runtimeType : Node → String
  /-- The expression that builds the storage of a type under the link of its structure. -/
  construction : Node → String
  deltaType? : Node → Option String

/-- The wording of a table for the fields of a structure. -/
def Table.wording (t : Table) (s : Structure Node) : Wording where
  root := t.root
  concrete := Node.concrete t
  nativeType n := (shapeIn t s n).nativeType
  runtimeType n := (shapeIn t s n).runtimeType
  construction n := (shapeIn t s n).construction "__link.clone()"
  deltaType? n := n.deltaType? t (siteOf s)

namespace Wording

def isStored (v : Wording) (f : Field Node) : Bool :=
  match (v.concrete f.type).kind with
  | .lazy _ _ _ | .projection _ _ => false
  | _ => true

def storedFields (v : Wording) (s : Structure Node) : List (Field Node) :=
  s.fields.filter v.isStored

def methodHeader (v : Wording) (m : Method Node) : String :=
  let receiver := if m.readonly then "&self" else "&mut self"
  let parameters := m.parameters.map fun p => p.name ++ ": " ++ v.nativeType p.type
  let result := match m.returns with
    | some type => " -> " ++ v.nativeType type
    | none => ""
  "pub fn " ++ m.name ++ "(" ++ ", ".intercalate (receiver :: parameters) ++ ")" ++ result

def equalityTerm (v : Wording) (f : Field Node) : String :=
  match (v.concrete f.type).access with
  | .cell => "self." ++ f.name ++ ".get() == __other." ++ f.name ++ ".get()"
  | _ => "self." ++ f.name ++ ".__structurally_equals(&__other." ++ f.name ++ ")"

/-- The line of a field that can be ordered. -/
def orderLine? (v : Wording) (f : Field Node) : Option String :=
  ((v.concrete f.type).scalar?.bind
    (Scalar.compare? ("__a." ++ f.name ++ ".get()") ("__b." ++ f.name ++ ".get()"))).map
    fun e => "\"" ++ f.name ++ "\" => Some(|__a: &Self, __b: &Self| " ++ e ++ "),"

def syncedFields (v : Wording) (s : Structure Node) : List SyncedField :=
  (s.fields.filter fun f => f.effectivePrivacy != .nobody).filterMap fun f =>
    (v.deltaType? f.type).map fun d => ⟨f, d⟩

def showStatement (v : Wording) (f : Field Node) : String :=
  let value := match (v.concrete f.type).access with
    | .cell | .computed => "&__item." ++ f.name ++ ".get()"
    | .object | .plain => "&__item." ++ f.name
  "self." ++ f.name ++ ".show(" ++ value ++ ", __obj.plan_field(\"" ++ f.name ++ "\"));"

def indexColumn? (v : Wording) (s : Structure Node) (number : Nat) (index : Index) :
    Option IndexColumn := do
  let field ← s.field? index.field
  let scalar ← (v.concrete field.type).scalar?
  let key ← scalar.indexKey? "__value"
  return ⟨number, field.name, scalar.nativeType, key⟩

def indexColumns (v : Wording) (s : Structure Node) : List IndexColumn :=
  s.indices.zipIdx.filterMap fun (index, number) => v.indexColumn? s number index

end Wording

/-! ### Emitters -/

namespace Emit

/-- A function with one line in its body. -/
def short (header body : String) : List Call :=
  [.openBlock header, .line body, .closeBlock]

/-- A condition with one line on each side. The block of the first side is closed with the text that
opens the other one, whose line and closing brace are plain lines. -/
def choice (header yes no : String) : List Call :=
  [.openBlock header,
    .line yes,
    .closeWith " else \x7b",
    .line (Writer.indent ++ no),
    .line "\x7d"]

def storage (v : Wording) (s : Structure Node) : List Call :=
  s.fields.map fun f => .line (f.name ++ ": " ++ v.runtimeType f.type ++ ",")

def construction (v : Wording) (s : Structure Node) : List Call :=
  s.fields.map fun f =>
    .line (match f.initial with
      | some initial =>
        "let " ++ f.name ++ " = " ++ v.construction f.type ++ ".initialized(" ++
          Text.trim initial ++ ");"
      | none => "let " ++ f.name ++ " = " ++ v.construction f.type ++ ";")

def bindings (s : Structure Node) : List Call :=
  s.fields.filterMap fun f => (f.type.bindCall? f.name).map .line

/-- The accessors of one field. -/
def accessor (v : Wording) (f : Field Node) : List Call :=
  let target := v.concrete f.type
  let getter (result : String) : List Call :=
    short ("pub fn " ++ f.name ++ "(&self) -> " ++ result) (readExpression "self" f.name target)
  (match target.access with
    | .cell =>
      getter (v.nativeType f.type) ++
        if f.readonly then []
        else
          [.blank] ++
            short ("pub fn set_" ++ f.name ++ "(&mut self, value: " ++ v.nativeType f.type ++ ")")
              ("self." ++ f.name ++ ".set(value);")
    | .object =>
      getter ("&" ++ v.runtimeType f.type) ++
        if f.readonly || target.isProjection then []
        else
          [.blank] ++
            short ("pub fn " ++ f.name ++ "_mut(&mut self) -> &mut " ++ v.runtimeType f.type)
              ("&mut self." ++ f.name)
    | .computed => getter (v.nativeType f.type)
    | .plain => getter ("&" ++ v.nativeType f.type)) ++
    [.blank]

def accessors (v : Wording) (s : Structure Node) : List Call :=
  s.fields.flatMap (accessor v)

def methods (v : Wording) (s : Structure Node) : List Call :=
  s.methods.flatMap fun m =>
    [.openBlock (v.methodHeader m), .snippet m.body, .closeBlock, .blank]

def rules (s : Structure Node) : List Call :=
  s.rules.flatMap fun r =>
    [.openBlock ("pub fn __policy_" ++ r.name ++ "(&self, __who: &NtPrincipal) -> bool"),
      .snippet r.body,
      .closeBlock,
      .blank]

def settle (v : Wording) (s : Structure Node) : List Call :=
  List.flatten [
    [.openBlock "pub fn __settle(&mut self)"],
    s.fields.filterMap fun f => ((v.concrete f.type).settleCall? f.name).map .line,
    [.closeBlock]]

def commitRevert (v : Wording) (s : Structure Node) : List Call :=
  List.flatten [
    [.openBlock ("pub fn __commit(&mut self, __name: &str, " ++
        "__forward: &mut JsonStreamWriter, __reverse: &mut JsonStreamWriter)"),
      .openBlock "if self.__owner.is_dirty()",
      .line "__forward.write_object_field_intro(__name);",
      .line "__forward.begin_object();",
      .line "__reverse.write_object_field_intro(__name);",
      .line "__reverse.begin_object();"],
    (v.storedFields s).map fun f => .line (commitStatement f),
    [.line "__forward.end_object();",
      .line "__reverse.end_object();",
      .line "self.__owner.lower_dirty();",
      .closeBlock,
      .closeBlock,
      .blank,
      .openBlock "pub fn __revert(&mut self)",
      .openBlock "if self.__owner.is_dirty()"],
    (v.storedFields s).map fun f => .line (revertStatement f),
    [.line "self.__owner.lower_dirty();",
      .closeBlock,
      .closeBlock]]

def compare (v : Wording) (s : Structure Node) : List Call :=
  let terms := (v.storedFields s).map v.equalityTerm
  List.flatten [
    short "pub fn __structurally_equals(&self, __other: &Self) -> bool"
      (if terms.isEmpty then "true" else "\n        && ".intercalate terms),
    [.blank,
      .openBlock
        "pub fn __comparator(__field: &str) -> Option<fn(&Self, &Self) -> std::cmp::Ordering>",
      .openBlock "match __field"],
    s.fields.filterMap fun f => (v.orderLine? f).map .line,
    [.line "_ => None,",
      .closeBlock,
      .closeBlock]]

/-- What shows a field to the viewers that its privacy admits. -/
def showField (v : Wording) (f : Field Node) : List Call :=
  let gated (condition : String) : List Call :=
    choice ("if " ++ condition) (v.showStatement f) (hideStatement f)
  match f.effectivePrivacy with
  | .everyone => [.line (v.showStatement f)]
  | .viewerIs viewer => gated ("__item." ++ viewer ++ ".get() == __viewer")
  | .useCustom rule => gated ("__item.__policy_" ++ rule ++ "(&__viewer)")
  | .nobody => []

def delta (v : Wording) (type : String) (s : Structure Node) : List Call :=
  let synced := v.syncedFields s
  List.flatten [
    [.line "#[derive(Default)]",
      .openBlock ("pub struct " ++ type ++ "Delta"),
      .line "__emitted: bool,"],
    synced.map fun x => .line (x.field.name ++ ": " ++ x.deltaType ++ ","),
    [.closeBlock,
      .blank,
      .openBlock ("impl " ++ type ++ "Delta")],
    short "pub fn new() -> Self" "Self::default()",
    [.blank,
      .openBlock ("pub fn show(&mut self, __item: &" ++ type ++
        ", __writer: &mut PrivateLazyDeltaWriter)"),
      .line "let __viewer = __writer.viewer().clone();",
      .line "let mut __obj = __writer.plan_object();"],
    synced.flatMap fun x => showField v x.field,
    [.line "__obj.end();",
      .line "self.__emitted = true;",
      .closeBlock,
      .blank,
      .openBlock "pub fn hide(&mut self, __writer: &mut PrivateLazyDeltaWriter)",
      .openBlock "if self.__emitted",
      .line "self.__emitted = false;",
      .line "__writer.write_null();",
      .closeBlock,
      .closeBlock,
      .closeBlock]]

/-! ### Messages and records -/

def message (v : Wording) (s : Structure Node) : List Call :=
  List.flatten [
    [.line "#[derive(Debug, Clone, Default, PartialEq)]",
      .openBlock ("pub struct " ++ messageType s.name)],
    s.fields.map fun f => .line ("pub " ++ f.name ++ ": " ++ v.nativeType f.type ++ ","),
    [.closeBlock,
      .blank,
      .openBlock ("impl NtMessage for " ++ messageType s.name),
      .openBlock "fn write(&self, __writer: &mut JsonStreamWriter)",
      .line "__writer.begin_object();"],
    s.fields.map fun f => .line (writeStatement f),
    [.line "__writer.end_object();",
      .closeBlock,
      .blank,
      .openBlock "fn read(__reader: &mut JsonStreamReader) -> Self",
      .line "let mut __msg = Self::default();",
      .openBlock "while let Some(__key) = __reader.next_field()",
      .openBlock "match __key.as_str()"],
    s.fields.map fun f => .line (readBranch f),
    [.line "_ => __reader.skip_value(),",
      .closeBlock,
      .closeBlock,
      .line "__msg",
      .closeBlock,
      .closeBlock]]

def wireColumn (c : IndexColumn) : List Call :=
  [.openBlock ("let " ++ indexMember c ++ " = match __owner.as_indexed_table()"),
    .openBlock "Some(__table) =>",
    .line ("let __invalidate = IndexInvalidate::new(__table, " ++ Decimal.digitText c.number ++
      ", |__value: &" ++ c.native ++ "| " ++ c.key ++ ");"),
    .line (c.field ++ ".__subscribe(__invalidate.clone());"),
    .line "Some(__invalidate)",
    .closeBlock,
    .line "None => None,",
    .closeWith ";"]

/-- The function that builds a record. -/
def recordConstructor (v : Wording) (s : Structure Node) (columns : List IndexColumn) :
    List Call :=
  List.flatten [
    [.openBlock "pub fn new(__owner: Owner) -> Self",
      .line "let __link = __owner.link();"],
    construction v s,
    columns.flatMap wireColumn,
    [.openBlock "let mut __self = Self",
      .line "__owner,"],
    s.fields.map fun f => .line (f.name ++ ","),
    columns.map fun c => .line (indexMember c ++ ","),
    [.closeWith ";"],
    bindings s,
    [.line "__self",
      .closeBlock]]

/-- A function that calls `call` on the invalidator of each column. -/
def eachIndex (name call : String) (columns : List IndexColumn) : List Call :=
  List.flatten [
    [.openBlock ("pub fn " ++ name ++ "(&mut self)")],
    columns.flatMap fun c =>
      short ("if let Some(__index) = &self." ++ indexMember c) ("__index." ++ call ++ "();"),
    [.closeBlock]]

def indexHooks (columns : List IndexColumn) : List Call :=
  List.flatten [
    eachIndex "deindex" "deindex" columns,
    [.blank],
    eachIndex "reindex" "reindex" columns,
    [.blank,
      .openBlock "pub fn invalidate_index(&self, __pubsub: &TablePubSub)",
      .line "__pubsub.primary(self.__id());"],
    columns.flatMap fun c =>
      [.openBlock "",
        .line ("let __value = &self." ++ c.field ++ ".get();"),
        .line ("__pubsub.index(" ++ Decimal.digitText c.number ++ ", " ++ c.key ++ ");"),
        .closeBlock],
    [.closeBlock,
      .blank,
      .openBlock "pub fn pump_index_events(&self, __pubsub: &TablePubSub)"],
    columns.flatMap fun c =>
      [.line "let __watch = __pubsub.clone();",
        .openBlock ("self." ++ c.field ++ ".__subscribe(move |__value: &" ++ c.native ++ "|"),
        .line ("__watch.index(" ++ Decimal.digitText c.number ++ ", " ++ c.key ++ ");"),
        .line "true",
        .closeWith ");"],
    [.closeBlock]]

/-- The functions that read and set the identity of a record. -/
def identityFunctions : List Call :=
  List.flatten [
    short "pub fn __id(&self) -> i32" "self.id.get()",
    [.blank,
      .openBlock "pub fn __set_id(&mut self, value: i32, force: bool)"],
    choice "if force" "self.id.force_set(value);" "self.id.set(value);",
    [.closeBlock]]

/-- The function that deletes a record. -/
def kill (v : Wording) (s : Structure Node) : List Call :=
  List.flatten [
    [.openBlock "pub fn __kill(&mut self)"],
    s.fields.filterMap fun f => ((v.concrete f.type).killCall? f.name).map .line,
    [.line "self.deindex();",
      .line "self.__owner.kill();",
      .closeBlock]]

/-- The members that a structure has whatever it is generated as: accessors, methods and rules, and
the functions on its state. -/
def members (v : Wording) (s : Structure Node) : List Call :=
  List.flatten [
    accessors v s,
    methods v s,
    rules s,
    commitRevert v s,
    [.blank],
    compare v s,
    [.blank],
    settle v s]

def record (v : Wording) (s : Structure Node) : List Call :=
  let type := recordType s.name
  let columns := v.indexColumns s
  List.flatten [
    [.openBlock ("pub struct " ++ type),
      .line "__owner: Owner,"],
    storage v s,
    columns.map fun c => .line (indexMember c ++ ": Option<IndexInvalidate<" ++ type ++ ">>,"),
    [.closeBlock,
      .blank,
      .openBlock ("impl " ++ type),
      .line ("pub const __ID_FIELD: usize = " ++ Decimal.digitText (idSlot s) ++ ";"),
      .line ("pub const __INDEX_COLUMNS: usize = " ++ Decimal.digitText columns.length ++ ";"),
      .blank],
    recordConstructor v s columns,
    [.blank],
    indexHooks columns,
    [.blank],
    identityFunctions,
    [.blank],
    members v s,
    [.blank],
    kill v s,
    [.closeBlock,
      .blank],
    delta v type s]

/-! ### The document and the unit -/

def predicate (name : String) (body : Option String) : List Call :=
  List.flatten [
    [.openBlock ("pub fn " ++ name ++ "(__context: &RequestContext) -> bool")],
    match body with
      | some text => [.snippet text]
      | none => [.line "let _ = __context;", .line "false"],
    [.closeBlock,
      .blank]]

def staticJson (name : String) (value : Json) : List Call :=
  short ("pub fn " ++ name ++ "() -> &'static str") (Text.quote value.compact) ++ [.blank]

/-- The function that builds a document. -/
def documentConstructor (v : Wording) : List Call :=
  List.flatten [
    [.openBlock "pub fn new(__monitor: MonitorSink) -> Self",
      .line "let __owner = Owner::root(__monitor);",
      .line "let __link = __owner.link();"],
    construction v v.root,
    [.openBlock "let mut __self = Self",
      .line "__owner,",
      .line "__space: String::new(),",
      .line "__key: String::new(),"],
    v.root.fields.map fun f => .line (f.name ++ ","),
    [.closeWith ";"],
    bindings v.root,
    [.line "__self",
      .closeBlock]]

/-- The construct transaction, with the body of the user in a block of its own. -/
def constructTransaction (body : Option String) : List Call :=
  List.flatten [
    [.openBlock
      "pub fn __transact_construct(&mut self, __who: &NtPrincipal, __arg: &str) -> String"],
    match body with
      | some text => [.openBlock "", .snippet text, .closeBlock]
      | none => [.line "let _ = (__who, __arg);"],
    [.line "self.__settle();",
      .line "let mut __forward = JsonStreamWriter::new();",
      .line "let mut __reverse = JsonStreamWriter::new();",
      .line "__forward.begin_object();",
      .line "__reverse.begin_object();",
      .line "self.__commit(\"data\", &mut __forward, &mut __reverse);",
      .line "__forward.end_object();",
      .line "__reverse.end_object();",
      .line "self.__owner.notify(&__forward);",
      .line "__forward.into_string()",
      .closeBlock]]

/-- The function that attaches the space and key of a document. -/
def lateBinding : List Call :=
  [.openBlock "pub fn __late_bind(&mut self, __space: &str, __key: &str)",
    .line "self.__space = __space.to_string();",
    .line "self.__key = __key.to_string();",
    .closeBlock]

def tests (surface : Surface) : List Call :=
  List.flatten [
    short "pub fn __get_tests() -> &'static [&'static str]"
      ("&[" ++ ", ".intercalate (surface.tests.map fun x => Text.quote x.name) ++ "]"),
    [.blank],
    surface.tests.flatMap fun x =>
      [.openBlock ("fn __test_" ++ x.name ++ "(&mut self, __report: &mut TestReport)"),
        .snippet x.body,
        .closeBlock,
        .blank],
    [.openBlock "pub fn __run_test(&mut self, __report: &mut TestReport, __name: &str) -> bool",
      .openBlock "match __name"],
    surface.tests.flatMap fun x =>
      [.openBlock (Text.quote x.name ++ " =>"),
        .line ("self.__test_" ++ x.name ++ "(__report);"),
        .line "true",
        .closeBlock],
    [.line "_ => false,",
      .closeBlock,
      .closeBlock,
      .blank]]

def document (v : Wording) (surface : Surface) : List Call :=
  let type := Structure.rootName
  List.flatten [
    [.openBlock ("pub struct " ++ type),
      .line "__owner: Owner,",
      .line "__space: String,",
      .line "__key: String,"],
    storage v v.root,
    [.closeBlock,
      .blank,
      .openBlock ("impl " ++ type)],
    documentConstructor v,
    [.blank],
    predicate "__can_create" surface.predicates.canCreate,
    predicate "__can_invent" surface.predicates.canInvent,
    predicate "__can_send_while_disconnected" surface.predicates.canSendWhileDisconnected,
    staticJson "__config" surface.configJson,
    staticJson "__services" surface.servicesJson,
    staticJson "__generic_clients" surface.clientsJson,
    constructTransaction surface.constructor,
    [.blank],
    lateBinding,
    [.blank],
    tests surface,
    members v v.root,
    [.closeBlock,
      .blank],
    delta v type v.root]

/-- The calls for a unit, up to its exports. -/
def unit (t : Table) (surface : Surface) (unitName : String) : List Call :=
  List.flatten [
    [.line ("// Generated by livedoc for unit '" ++ unitName ++ "'. Do not edit."),
      .line "#![allow(unused, non_snake_case, non_camel_case_types, clippy::all)]",
      .blank,
      .line "use livedoc_runtime::prelude::*;",
      .blank],
    t.messages.flatMap fun s => message (t.wording s) s ++ [.blank],
    (orderedRecords t).flatMap fun s => record (t.wording s) s ++ [.blank],
    document (t.wording t.root) surface,
    [.blank]]

end Emit

end ReactiveSpace
