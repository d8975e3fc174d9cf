import ReactiveSpace.Target.Members

/-!
# Deltas

A structure has a companion that holds the delta of every field that some viewer may observe. Its
function `show` writes what one viewer may observe, field by field: a field for everyone always, and
any other only to the viewers its privacy admits, for all others it is retracted. A field for nobody
is never written.
-/

namespace ReactiveSpace.Target

/-- A field that reaches viewers, with the type of its delta. -/
structure SyncedField where
  field : Field Node
  deltaType : String

/-- The fields that reach viewers. -/
def syncedFields (t : Table) (s : Structure Node) : List SyncedField :=
  (s.fields.filter fun f => f.effectivePrivacy != .nobody).filterMap fun f =>
    (f.type.deltaType? t (siteOf s)).map fun d => ⟨f, d⟩

/-- The expression for the value of a field that is shown. -/
def shownValue (t : Table) (f : Field Node) : String :=
  match (f.type.concrete t).access with
  | .cell | .computed => "&__item." ++ f.name ++ ".get()"
  | .object | .plain => "&__item." ++ f.name

/-- The statement that shows a field. -/
def showStatement (t : Table) (f : Field Node) : String :=
  "self." ++ f.name ++ ".show(" ++ shownValue t f ++ ", __obj.plan_field(\"" ++ f.name ++ "\"));"

/-- The statement that retracts a field. -/
def hideStatement (f : Field Node) : String :=
  "self." ++ f.name ++ ".hide(__obj.plan_field(\"" ++ f.name ++ "\"));"

/-- The code that shows a field to the viewers its privacy admits. -/
def showField (t : Table) (f : Field Node) : List Code :=
  let gated (condition : String) : List Code :=
    [.branch ("if " ++ condition) [.line (showStatement t f)] [.line (hideStatement f)]]
  match f.effectivePrivacy with
  | .everyone => [.line (showStatement t f)]
  | .viewerIs viewer => gated ("__item." ++ viewer ++ ".get() == __viewer")
  | .useCustom rule => gated ("__item.__policy_" ++ rule ++ "(&__viewer)")
  | .nobody => []

/-- The delta of the generated type `type`, which shows the fields `synced`. -/
def deltaOf (t : Table) (type : String) (synced : List SyncedField) : List Code :=
  [.line "#[derive(Default)]",
    .nest ("pub struct " ++ type ++ "Delta")
      (.line "__emitted: bool," ::
        synced.map fun x => .line (x.field.name ++ ": " ++ x.deltaType ++ ",")),
    .blank,
    .nest ("impl " ++ type ++ "Delta")
      [shortFunction "pub fn new() -> Self" "Self::default()",
        .blank,
        .nest ("pub fn show(&mut self, __item: &" ++ type ++
            ", __writer: &mut PrivateLazyDeltaWriter)")
          ([.line "let __viewer = __writer.viewer().clone();",
            .line "let mut __obj = __writer.plan_object();"] ++
            synced.flatMap (fun x => showField t x.field) ++
            [.line "__obj.end();",
            .line "self.__emitted = true;"]),
        .blank,
        .nest "pub fn hide(&mut self, __writer: &mut PrivateLazyDeltaWriter)"
          [.nest "if self.__emitted"
            [.line "self.__emitted = false;",
              .line "__writer.write_null();"]]]]

/-- The delta of a structure whose generated type is `type`. -/
def delta (t : Table) (type : String) (s : Structure Node) : List Code :=
  deltaOf t type (syncedFields t s)

end ReactiveSpace.Target
