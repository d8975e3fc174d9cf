import ReactiveSpace.Schema.Capability
import ReactiveSpace.Target.Scalar
import ReactiveSpace.Target.Shape
import ReactiveSpace.Text.Quoted
import ReactiveSpace.Text.Blank

/-!
# Types in the target source

A shape is spelled in five ways: as the type of its reactive storage, as the type of its plain
value, as the default of that value, as the expression that builds the storage under a link, and as
the type of its delta. All five recurse on the shape.
-/

namespace ReactiveSpace

/-- The generated type of a record. -/
def recordType (name : String) : String :=
  "RTx" ++ name

/-- The generated type of a message. -/
def messageType (name : String) : String :=
  "Msg" ++ name

namespace Shape

/-- The cell of a formula. -/
def lazyCell (cached : Bool) : String :=
  if cached then "RxCachedLazy" else "RxLazy"

/-- The type of the plain value. -/
def nativeType : Shape → String
  | .scalar s => s.nativeType
  | .text => "String"
  | .replication _ _ => "String"
  | .list element => "NtList<" ++ element.nativeType ++ ">"
  | .map domain range => "NtMap<" ++ domain.nativeType ++ ", " ++ range.nativeType ++ ">"
  | .maybe inner => "NtMaybe<" ++ inner.nativeType ++ ">"
  | .table row => "NtTable<" ++ recordType row ++ ">"
  | .holder held => messageType held
  | .projection _ (some (row, domain)) =>
    "NtMap<" ++ domain.nativeType ++ ", NtList<RecordRef<" ++ recordType row ++ ">>>"
  | .projection _ none => "NtMap<(), ()>"
  | .lazy computed _ _ => computed.nativeType
  | .record name => "RecordRef<" ++ recordType name ++ ">"
  | .message name => messageType name
  | .unresolved name => "RecordRef<" ++ recordType name ++ ">"

/-- The type of the reactive storage. -/
def runtimeType : Shape → String
  | .scalar s => s.cellType
  | .text => "RxText"
  | .replication _ _ => "RxReplicationStatus"
  | .list element => "RxList<" ++ element.runtimeType ++ ">"
  | .map domain range => "RxMap<" ++ domain.nativeType ++ ", " ++ range.runtimeType ++ ">"
  | .maybe inner => "RxMaybe<" ++ inner.runtimeType ++ ">"
  | .table row => "RxTable<" ++ recordType row ++ ">"
  | .holder held => "RxHolder<" ++ messageType held ++ ">"
  | .projection _ (some (row, domain)) =>
    "RxProjectionMap<" ++ domain.nativeType ++ ", " ++ recordType row ++ ">"
  | .projection _ none => "RxProjectionMap<(), ()>"
  | .lazy computed _ cached => lazyCell cached ++ "<" ++ computed.nativeType ++ ">"
  | .record name => recordType name
  | .message name => messageType name
  | .unresolved name => recordType name

/-- The default of the plain value. -/
def defaultValue : Shape → String
  | .scalar s => s.defaultValue
  | .text => "String::new()"
  | .replication _ _ => "String::new()"
  | .list _ => "NtList::new()"
  | .map _ _ => "NtMap::new()"
  | .maybe _ => "NtMaybe::none()"
  | .table _ => "NtTable::new()"
  | .holder held => messageType held ++ "::default()"
  | .projection _ _ => "NtMap::new()"
  | .lazy computed _ _ => computed.defaultValue
  | .record _ => "RecordRef::detached()"
  | .message name => messageType name ++ "::default()"
  | .unresolved _ => "RecordRef::detached()"

/-- The expression that builds the storage under `link`. -/
def construction (link : String) : Shape → String
  | .scalar s => s.cellType ++ "::with_value(" ++ link ++ ", " ++ s.defaultValue ++ ")"
  | .text => "RxText::link(" ++ link ++ ")"
  | .replication service method =>
    "RxReplicationStatus::link(" ++ link ++ ", " ++ Text.quote service ++ ", " ++
      Text.quote method ++ ")"
  | .list element =>
    "RxList::link(" ++ link ++ ", |__link| " ++ element.construction "__link" ++ ")"
  | .map _ range => "RxMap::link(" ++ link ++ ", |__link| " ++ range.construction "__link" ++ ")"
  | .maybe inner => "RxMaybe::link(" ++ link ++ ", |__link| " ++ inner.construction "__link" ++ ")"
  | .table row => "RxTable::link(" ++ link ++ ", " ++ recordType row ++ "::new)"
  | .holder held =>
    "RxHolder::with_value(" ++ link ++ ", " ++ messageType held ++ "::default())"
  | .projection field (some (row, _)) =>
    "RxProjectionMap::link(" ++ link ++ ", |__row: &" ++ recordType row ++ "| __row." ++ field ++
      ".get())"
  | .projection _ none => "RxProjectionMap::link(" ++ link ++ ", |_| ())"
  | .lazy computed formula cached =>
    lazyCell cached ++ "::link(" ++ link ++ ", |__this: &Self| -> " ++ computed.nativeType ++
      " \x7b " ++ Text.trim formula ++ " \x7d)"
  | .record name => recordType name ++ "::new(Owner::record(" ++ link ++ "))"
  | .message name => messageType name ++ "::default()"
  | .unresolved name => recordType name ++ "::new(Owner::record(" ++ link ++ "))"

/-- The delta of a type that takes no part in synchronization. -/
def opaqueDelta : String := "DOpaque"

/-- The type of the delta. -/
def deltaType : Shape → String
  | .scalar s => s.deltaType
  | .text => "DText"
  | .replication _ _ => "DString"
  | .list element => "DList<" ++ element.deltaType ++ ">"
  | .map domain range => "DMap<" ++ domain.nativeType ++ ", " ++ range.deltaType ++ ">"
  | .maybe inner => "DMaybe<" ++ inner.deltaType ++ ">"
  | .table _ => opaqueDelta
  | .holder held => "DHolder<" ++ messageType held ++ ">"
  | .projection _ (some (row, domain)) =>
    "DProjection<" ++ domain.nativeType ++ ", " ++ recordType row ++ "Delta>"
  | .projection _ none => opaqueDelta
  | .lazy computed _ _ => "DLazy<" ++ computed.deltaType ++ ">"
  | .record name => recordType name ++ "Delta"
  | .message _ => opaqueDelta
  | .unresolved _ => opaqueDelta

end Shape

namespace Node

/-- The type of a field's delta. A field written as a table or a message has none. -/
def deltaType? (t : Table) (site : Site) (n : Node) : Option String :=
  match n.kind with
  | .table _ | .message _ => none
  | _ => some (n.shape t site).deltaType

/-- What a type comes down to, or the type itself when it comes down to nothing. -/
def concrete (t : Table) (n : Node) : Node :=
  (t.follow? n).getD n

/-- The statement that settles the field `name` of this type, if its values settle. -/
def settleCall? (name : String) (n : Node) : Option String :=
  if n.needsSettle then some s!"self.{name}.__settle();" else none

/-- The statement that deletes the field `name` of this type, if its values can be deleted. -/
def killCall? (name : String) (n : Node) : Option String :=
  match n.kind with
  | .maybe _ => some s!"self.{name}.delete();"
  | .record _ => some s!"self.{name}.__kill();"
  | _ => none

/-- The statement that makes the projection `name` watch its table. -/
def bindCall? (name : String) (n : Node) : Option String :=
  match n.kind with
  | .projection table _ => some s!"__self.{name}.watch(&__self.{table});"
  | _ => none

end Node

end ReactiveSpace
