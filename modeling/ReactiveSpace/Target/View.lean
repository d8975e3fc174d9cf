import ReactiveSpace.Check.Recording
import ReactiveSpace.Target.Spelling

/-!
# Reading recorded resolutions

Who writes source or a reflection of a checked space looks a resolution up by the identity of the
node that is written, whatever the way to this node was. Where nothing fitting was recorded there is
something to fall back on: the name as it is written, or a placeholder.
-/

namespace ReactiveSpace

/-- A checked table with what was recorded about its nodes. -/
structure View where
  table : Table
  resolutions : Resolutions

/-- The view of a checked space whose nodes have the given identities. -/
def Checked.view (c : Checked) (ids : c.table.Identities) : View where
  table := c.table
  resolutions := c.table.resolutions ids

namespace View

/-- What was recorded for a node. -/
def resolution? (v : View) (id : Nat) : Option Resolution :=
  v.resolutions.lookup id

/-- The record of a table of the rows `written`. -/
def recordName (v : View) (id : Nat) (written : String) : String :=
  match v.resolution? id with
  | some (.record name) => name
  | _ => written

/-- The message of a holder of `written`. -/
def messageName (v : View) (id : Nat) (written : String) : String :=
  match v.resolution? id with
  | some (.message name) => name
  | _ => written

/-- The record and the type of the keys of a projection. -/
def source? (v : View) (id : Nat) : Option (String × Scalar) :=
  match v.resolution? id with
  | some (.projection _ record domain) => some (record, domain)
  | _ => none

/-- What a reference to `written` stands for. -/
def target? (v : View) (id : Nat) (written : String) : Option Node :=
  match v.resolution? id with
  | some (.record name) | some (.message name) | some (.aliased name) => v.table.get? name
  | _ => v.table.followName? written

/-- The type of the keys of a map with the given domain at its site. -/
def keyType (v : View) (site : Site) (domain : Node) : String :=
  match v.table.domainOf? domain with
  | some key => key.nativeType
  | none => (domain.shape v.table site).nativeType

end View

end ReactiveSpace
