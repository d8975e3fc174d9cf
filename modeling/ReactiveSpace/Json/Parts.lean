import ReactiveSpace.Json.Value

/-!
# Taking trees apart

A structure with fixed fields may be written as an object, in any order and with members that nobody
asked for, or as the array of its fields in their order, where fields at the end may be missing.
`Tree.parts?` reduces both forms to one list of named parts. Every part is smaller than the tree it
was taken from and carries the proof, so that whoever decodes the parts terminates.
-/

namespace ReactiveSpace.Json.Tree

/-- A tree that lies inside `t`. -/
abbrev Part (t : Tree) : Type := { s : Tree // sizeOf s < sizeOf t }

/-- The items of a tree, each with the proof that it lies inside. -/
def itemParts (items : List Tree) : List (Part (.array items)) :=
  items.attach.map fun ⟨s, h⟩ =>
    ⟨s, by have := List.sizeOf_lt_of_mem h; simp; omega⟩

/-- The members of an object, each with the proof that it lies inside. -/
def memberParts (members : List (String × Tree)) : List (String × Part (.object members)) :=
  members.attach.map fun ⟨(name, s), h⟩ =>
    (name, ⟨s, by have := List.sizeOf_lt_of_mem h; simp at this ⊢; omega⟩)

/-- The items of an array. -/
def items? : (t : Tree) → Option (List (Part t))
  | .array items => some (itemParts items)
  | _ => none

/-- The members of an object, repeated names included. -/
def members? : (t : Tree) → Option (List (String × Part t))
  | .object members => some (memberParts members)
  | _ => none

/-- The members with the given names, if none of these names is repeated. -/
def known? {α : Type} (names : List String) (members : List (String × α)) :
    Option (List (String × α)) :=
  let known := members.filter fun m => names.contains m.1
  if (known.map Prod.fst).Nodup then some known else none

/-- The parts of a structure with the given fields, written as an object or as an array. -/
def parts? (names : List String) : (t : Tree) → Option (List (String × Part t))
  | .object members => known? names (memberParts members)
  | .array items =>
    if items.length ≤ names.length then some (names.zip (itemParts items)) else none
  | _ => none

/-- The parts of a structure with the given fields, where items of an array beyond the fields are
left over. -/
def leadingParts? (names : List String) : (t : Tree) → Option (List (String × Part t))
  | .array items => some (names.zip (itemParts items))
  | t => t.parts? names

/-! ### Usable trees -/

mutual

/-- Whether no part of the tree is unusable. -/
def isUsable : Tree → Bool
  | .null | .bool _ | .number _ | .string _ => true
  | .array items => itemsUsable items
  | .object members => membersUsable members
  | .unusable => false

/-- Whether all items are usable. -/
def itemsUsable : List Tree → Bool
  | [] => true
  | t :: ts => t.isUsable && itemsUsable ts

/-- Whether all members are usable. -/
def membersUsable : List (String × Tree) → Bool
  | [] => true
  | (_, t) :: ts => t.isUsable && membersUsable ts

end

/-! ### Simple views -/

/-- The text of a string. -/
def string? : Tree → Option String
  | .string s => some s
  | _ => none

/-- The value of a boolean. -/
def bool? : Tree → Option Bool
  | .bool b => some b
  | _ => none

/-- An integer that fits 32 bits. -/
def word? : Tree → Option UInt32
  | .number (.integer n) =>
    if 0 ≤ n ∧ n < (Nat.pow 2 32 : Int) then some (UInt32.ofNat n.toNat) else none
  | _ => none

/-- A constant: its name as a string, or as the only member of an object, whose value says nothing.
That value is `null`; in a tree that was `held` back before it was decoded it may also be an empty
object. -/
def constant? (held : Bool) : Tree → Option String
  | .string s => some s
  | .object [(name, .null)] => some name
  | .object [(name, .object [])] => if held then some name else none
  | _ => none

/-- The members of a free map, each decoded by `f`; of a repeated name the last value counts. -/
def mapOf? {α : Type} (f : Tree → Option α) : Tree → Option (List (String × α))
  | .object members =>
    (members.mapM fun m => (f m.2).map fun v => (m.1, v)).map Keyed.ofPairs
  | _ => none

/-- The items of an array, each decoded by `f`. -/
def listOf? {α : Type} (f : Tree → Option α) : Tree → Option (List α)
  | .array items => items.mapM f
  | _ => none

/-! ### Parts by name -/

/-- A part that has to be there. -/
def required {α β : Type} (parts : List (String × α)) (name : String) (f : α → Option β) :
    Option β :=
  (Keyed.get? name parts).bind f

/-- A part with a default. -/
def orElse {α β : Type} (parts : List (String × α)) (name : String) (default : β)
    (f : α → Option β) : Option β :=
  match Keyed.get? name parts with
  | some t => f t
  | none => some default

/-- A part that may be missing or `null`. -/
def optional {t : Tree} {β : Type} (parts : List (String × Part t)) (name : String)
    (f : Part t → Option β) : Option (Option β) :=
  match Keyed.get? name parts with
  | some ⟨.null, _⟩ => some none
  | some s => (f s).map some
  | none => some none

end ReactiveSpace.Json.Tree
