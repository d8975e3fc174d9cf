import ReactiveSpace.Space.Surface
import ReactiveSpace.Target.Delta
import ReactiveSpace.Target.State

/-!
# The document in the target source

The root becomes the structure of the document. Besides its fields it carries the surface of the
document: the static predicates, configuration, services and clients, the construct transaction,
late binding and the tests.
-/

namespace ReactiveSpace.Target

/-- A static predicate. One without a body denies. -/
def predicate (name : String) (body : Option String) : List Code :=
  [.nest ("pub fn " ++ name ++ "(__context: &RequestContext) -> bool")
      (match body with
        | some text => [.snippet text]
        | none => [.line "let _ = __context;", .line "false"]),
    .blank]

/-- A static function that answers a value as text. -/
def staticJson (name : String) (value : Json) : List Code :=
  [shortFunction ("pub fn " ++ name ++ "() -> &'static str") (Text.quote value.compact), .blank]

/-- The function that builds a document. -/
def documentConstructor (t : Table) : Code :=
  .nest "pub fn new(__monitor: MonitorSink) -> Self"
    ([.line "let __owner = Owner::root(__monitor);",
      .line "let __link = __owner.link();"] ++
      construction t t.root ++
      [.block "let mut __self = Self"
        ([.line "__owner,",
          .line "__space: String::new(),",
          .line "__key: String::new(),"] ++
          t.root.fields.map fun f => .line (f.name ++ ",")) ";"] ++
      bindings t.root ++
      [.line "__self"])

/-- The construct transaction: the body of the user, then settle, commit and notify. -/
def constructTransaction (body : Option String) : Code :=
  .nest "pub fn __transact_construct(&mut self, __who: &NtPrincipal, __arg: &str) -> String"
    ((match body with
      | some text => [.nest "" [.snippet text]]
      | none => [.line "let _ = (__who, __arg);"]) ++
      [.line "self.__settle();",
        .line "let mut __forward = JsonStreamWriter::new();",
        .line "let mut __reverse = JsonStreamWriter::new();",
        .line "__forward.begin_object();",
        .line "__reverse.begin_object();",
        .line "self.__commit(\"data\", &mut __forward, &mut __reverse);",
        .line "__forward.end_object();",
        .line "__reverse.end_object();",
        .line "self.__owner.notify(&__forward);",
        .line "__forward.into_string()"])

/-- The function that attaches the space and key of a document. -/
def lateBinding : Code :=
  .nest "pub fn __late_bind(&mut self, __space: &str, __key: &str)"
    [.line "self.__space = __space.to_string();",
      .line "self.__key = __key.to_string();"]

/-- The tests: their names, a function for each, and the function that runs one by its name. -/
def tests (s : Surface) : List Code :=
  [shortFunction "pub fn __get_tests() -> &'static [&'static str]"
      ("&[" ++ ", ".intercalate (s.tests.map fun x => Text.quote x.name) ++ "]"),
    .blank] ++
    s.tests.flatMap (fun x =>
      [.nest ("fn __test_" ++ x.name ++ "(&mut self, __report: &mut TestReport)")
        [.snippet x.body], .blank]) ++
    [.nest "pub fn __run_test(&mut self, __report: &mut TestReport, __name: &str) -> bool"
      [.nest "match __name"
        (s.tests.map (fun x =>
            .nest (Text.quote x.name ++ " =>")
              [.line ("self.__test_" ++ x.name ++ "(__report);"), .line "true"]) ++
          [.line "_ => false,"])],
    .blank]

/-- The source of the document. -/
def document (t : Table) (surface : Surface) : List Code :=
  let type := Structure.rootName
  [.nest ("pub struct " ++ type)
      ([.line "__owner: Owner,",
        .line "__space: String,",
        .line "__key: String,"] ++
        storage t t.root),
    .blank,
    .nest ("impl " ++ type)
      ([documentConstructor t, .blank] ++
        predicate "__can_create" surface.predicates.canCreate ++
        predicate "__can_invent" surface.predicates.canInvent ++
        predicate "__can_send_while_disconnected" surface.predicates.canSendWhileDisconnected ++
        staticJson "__config" surface.configJson ++
        staticJson "__services" surface.servicesJson ++
        staticJson "__generic_clients" surface.clientsJson ++
        [constructTransaction surface.constructor, .blank, lateBinding, .blank] ++
        tests surface ++
        accessors t t.root ++ methods t t.root ++ rules t.root ++
        stateFunctions t t.root ++ [.blank] ++
        [settle t t.root]),
    .blank] ++
    delta t type t.root

end ReactiveSpace.Target
