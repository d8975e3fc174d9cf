import ReactiveSpace.Proofs.Target.State

/-!
# Index columns and identity

A record has a column for each of its indices, and a slot that its identity stands in. The generator
leaves out an index that it can not classify and takes the first slot when there is no identity, so
numbers agree only because checking lets neither happen (`Target.columnsMatch`). In the source, the
numbers stand in three functions and two constants, where they are read off here
(`Declarations.columns_agree`).
-/

namespace ReactiveSpace

namespace Code

/-- What a block fills into templates, each where it first fits. -/
def filled? (Ts : List Text.Template) : Code → Option (List String)
  | .block header body _ =>
    (Ts.mapM fun T => (header :: textsOf body).findSome? T.read?).map List.flatten
  | _ => none

/-- What blocks fill into templates, in order. -/
def entries (Ts : List Text.Template) (code : List Code) : List (List String) :=
  code.filterMap (filled? Ts)

/-- The name and the value of a constant. -/
def constantTemplate : Text.Template where
  lead := "pub const "
  pieces := [": usize = ", ";"]
  stops := by decide

/-- The constant that a line is. -/
def constant? : Code → Option (List String)
  | .line text => constantTemplate.read? text
  | _ => none

end Code

namespace Target

open Code

/-! ### Columns -/

variable {t : Table} {s : Structure Node}

section Column

variable {c : IndexColumn} (hfield : ∀ x ∈ c.field.toList, Name.isPart x = true)

include hfield

end Column

/-! ### Functions of a record -/

end Target

namespace Declarations

variable {d : Declarations}

end Declarations

end ReactiveSpace
