import Mathlib.Logic.Relation
import ReactiveSpace.Proofs.Json.Slots
import ReactiveSpace.Space.Declarations

/-!
# Spellings of declarations

What a tree is read as is its `Form`. A form with slots is written as an object, in any order and
with members of other names beside the slots, and every form but that of a type also as the array of
its first slots. A slot with a default may be left out or hold its default. One such change,
somewhere in a tree, is a step (`Form.Respells`), and two texts are `Declarations.Respelled` if
steps back and forth lead from the tree of one to the tree of the other.

Everything in a type but its position and notes is held back until the kind of the type is known, so
the steps say for what is added whether it is held back.
-/

namespace ReactiveSpace

open Json (Tree Slot)

/-- What a tree is read as. -/
inductive Form where
  /-- Something with a single spelling. -/
  | leaf
  | position
  | note
  | index
  | rule
  | parameter
  | field
  | method
  | storage
  | node
  | predicates
  | test
  | surface
  | declarations
  | list (item : Form)
  /-- Entries with names of their own, whose order counts. -/
  | map (value : Form)

namespace Form

/-! ### Slots -/

/-- A slot that has to be filled. -/
def filled (name : String) (form : Form) : Slot Form :=
  { name, form }

/-- A slot that holds a default unless it is filled. -/
def defaulted (name : String) (form : Form) (default : Tree) : Slot Form :=
  { name, form, default := some default }

/-- A slot that holds a `null` unless it is filled. -/
def vacant (name : String) (form : Form) : Slot Form :=
  defaulted name form .null

/-- A slot that holds a list, an empty one unless it is filled. -/
def listed (name : String) (item : Form) : Slot Form :=
  defaulted name (.list item) (.array [])

/-- A slot for a position, which is all zeros unless it is filled. -/
def placed (name : String) : Slot Form :=
  defaulted name .position
    (.object [("line", .number (.integer 0)), ("column", .number (.integer 0))])

/-- A slot for a truth value, which is false unless it is filled. -/
def flag (name : String) : Slot Form :=
  defaulted name .leaf (.bool false)

/-- The slots of a structure. -/
def storageSlots : List (Slot Form) :=
  [filled "name" .leaf, defaulted "specialization" .leaf (.string "record"), listed "fields" .field,
    listed "indices" .index, listed "methods" .method, listed "policies" .rule, placed "span"]

/-- The slots that every type has. -/
def nodeSlots : List (Slot Form) :=
  [placed "position", listed "annotations" .note, filled "kind" .leaf]

/-- The slots that belong to a kind of types. -/
def kindSlots (kind : String) : List (Slot Form) :=
  match kind with
  | "scalar" => [filled "scalar" .leaf]
  | "replication_status" => [filled "service" .leaf, filled "method" .leaf]
  | "list" => [filled "element" .node]
  | "map" => [filled "domain" .node, filled "range" .node]
  | "maybe" => [filled "inner" .node]
  | "table" => [filled "record" .leaf]
  | "holder" => [filled "message" .leaf]
  | "projection" => [filled "table" .leaf, filled "field" .leaf]
  | "lazy" => [filled "computed" .node, flag "cached", filled "formula" .leaf]
  | "record" => storageSlots
  | "message" => storageSlots
  | "ref" => [filled "name" .leaf]
  | _ => []

/-- The slots of a form that always has the same ones, in order. -/
def fixedSlots? : Form → Option (List (Slot Form))
  | .position => some [filled "line" .leaf, filled "column" .leaf,
      defaulted "end_line" .leaf (.number (.integer 0)),
      defaulted "end_column" .leaf (.number (.integer 0))]
  | .note => some [filled "name" .leaf, vacant "value" .leaf]
  | .index => some [filled "field" .leaf, placed "span"]
  | .rule => some [filled "name" .leaf, filled "body" .leaf, placed "span"]
  | .parameter => some [filled "name" .leaf, filled "type" .node]
  | .field => some [filled "name" .leaf, filled "type" .node, vacant "policy" .leaf,
      flag "readonly", vacant "default_value" .leaf, placed "span"]
  | .method => some [filled "name" .leaf, listed "params" .parameter, vacant "returns" .node,
      flag "readonly", filled "body" .leaf, placed "span"]
  | .storage => some storageSlots
  | .predicates => some [vacant "can_create" .leaf, vacant "can_invent" .leaf,
      vacant "can_send_while_disconnected" .leaf]
  | .test => some [filled "name" .leaf, filled "body" .leaf]
  | .surface => some [defaulted "policies" .predicates (.object []),
      defaulted "config" .leaf (.object []), defaulted "services" .leaf (.object []),
      vacant "constructor" .leaf, listed "tests" .test]
  | .declarations => some [filled "space" .leaf, listed "records" .storage,
      listed "messages" .storage, defaulted "aliases" (.map .node) (.object []),
      defaulted "root" .storage (.object [("name", .string Structure.rootName),
        ("specialization", .string Role.root.name)]),
      defaulted "document" .surface (.object [])]
  | .leaf | .node | .list _ | .map _ => none

/-- The slots of an object with the given members. Those of a type depend on its kind. -/
def slots? (f : Form) (ms : List (String × Tree)) : Option (List (Slot Form)) :=
  match f with
  | .node => some (nodeSlots ++
      (((Keyed.get? "kind" ms).bind Kind.nameOfTree?).map kindSlots).getD [])
  | f => f.fixedSlots?

/-- Whether what stands under a name is held back before it is read. -/
def holds (f : Form) (held : Bool) (name : String) : Bool :=
  match f with
  | .node => held || !(name == "position" || name == "annotations")
  | _ => held

/-! ### Steps -/

/-- What can be added: anything that is skipped, and what is of use if it is held back. -/
def Addable (held : Bool) (v : Tree) : Prop :=
  held = true → v.isUsable = true

/-- One change of the spelling, somewhere in a tree that is read as the given form. A member that is
added beside the slots holds something `added`, which depends on whether it is held back. -/
inductive Respells (added : Bool → Tree → Prop) : Bool → Form → Tree → Tree → Prop
  /-- Members come in another order. -/
  | order {held : Bool} {f : Form} {slots : List (Slot Form)} {ms ms' : List (String × Tree)} :
    f.slots? ms = some slots → ms.Perm ms' → Respells added held f (.object ms) (.object ms')
  /-- A member is added under a text that is the name of no slot. -/
  | extra {held : Bool} {f : Form} {slots : List (Slot Form)} {ms : List (String × Tree)}
    {name : String} {v : Tree} :
    f.slots? ms = some slots → name ∉ slots.map Slot.name → added (f.holds held name) v →
      Respells added held f (.object ms) (.object ((name, v) :: ms))
  /-- A slot that was left out is filled with its default. -/
  | default {held : Bool} {f : Form} {slots : List (Slot Form)} {ms : List (String × Tree)}
    {s : Slot Form} {d : Tree} :
    f.slots? ms = some slots → s ∈ slots → s.default = some d → s.name ∉ ms.map Prod.fst →
      Respells added held f (.object ms) (.object ((s.name, d) :: ms))
  /-- The first slots, in order, are written as an array. -/
  | positional {held : Bool} {f : Form} {slots : List (Slot Form)} {items : List Tree} :
    f.fixedSlots? = some slots → items.length ≤ slots.length →
      Respells added held f (.object ((slots.map Slot.name).zip items)) (.array items)
  /-- What stands in a slot is changed. -/
  | member {held : Bool} {f : Form} {slots : List (Slot Form)} {s : Slot Form}
    {before after : List (String × Tree)} {v v' : Tree} :
    f.slots? (before ++ (s.name, v) :: after) = some slots → s ∈ slots →
      Respells added (f.holds held s.name) s.form v v' →
      Respells added held f (.object (before ++ (s.name, v) :: after))
        (.object (before ++ (s.name, v') :: after))
  /-- An item of a list is changed. -/
  | item {held : Bool} {f : Form} {before after : List Tree} {v v' : Tree} :
    Respells added held f v v' →
      Respells added held (.list f) (.array (before ++ v :: after)) (.array (before ++ v' :: after))
  /-- The value of an entry of a map is changed. -/
  | entry {held : Bool} {f : Form} {before after : List (String × Tree)} {name : String}
    {v v' : Tree} :
    Respells added held f v v' →
      Respells added held (.map f) (.object (before ++ (name, v) :: after))
        (.object (before ++ (name, v') :: after))

end Form

/-- Two texts write declarations that differ in their spelling alone. -/
def Declarations.Respelled (added : Bool → Tree → Prop) (a b : String) : Prop :=
  ∃ t t', Tree.ofText? a = some t ∧ Tree.ofText? b = some t' ∧
    Relation.EqvGen (Form.Respells added false .declarations) t t'

namespace Form

/-! ### Laws of slots -/

/-- The slots of a kind are those that its reader knows. -/
theorem map_name_kindSlots (kind : String) :
    (kindSlots kind).map Slot.name = Kind.memberNames kind := by
  unfold kindSlots Kind.memberNames
  split
  iterate 12 rfl
  simp [*]

theorem nodup_kindSlots (kind : String) : ((nodeSlots ++ kindSlots kind).map Slot.name).Nodup := by
  unfold kindSlots
  split <;> decide

theorem nodup_fixedSlots {f : Form} {slots : List (Slot Form)} (h : f.fixedSlots? = some slots) :
    (slots.map Slot.name).Nodup := by
  cases f <;> cases h <;> decide

theorem nodup_slots {f : Form} {ms : List (String × Tree)} {slots : List (Slot Form)}
    (h : f.slots? ms = some slots) : (slots.map Slot.name).Nodup := by
  unfold slots? at h
  split at h
  · obtain rfl := Option.some.inj h
    cases (Keyed.get? "kind" ms).bind Kind.nameOfTree? with
    | none => decide
    | some kind => exact nodup_kindSlots kind
  · exact nodup_fixedSlots h

theorem eq_of_name_eq {slots : List (Slot Form)} (hnodup : (slots.map Slot.name).Nodup)
    {s s' : Slot Form} (hs : s ∈ slots) (hs' : s' ∈ slots) (hname : s.name = s'.name) : s = s' :=
  List.inj_on_of_nodup_map hnodup hs hs' hname

/-- A default can be read. -/
def hasUsableDefault (s : Slot Form) : Bool :=
  s.default.all Tree.isUsable

theorem all_hasUsableDefault_kindSlots (kind : String) :
    (nodeSlots ++ kindSlots kind).all hasUsableDefault = true := by
  unfold kindSlots
  split <;> decide

/-- All defaults can be read. -/
theorem isUsable_default {f : Form} {ms : List (String × Tree)} {slots : List (Slot Form)}
    (h : f.slots? ms = some slots) {s : Slot Form} (hs : s ∈ slots) {d : Tree}
    (hd : s.default = some d) : d.isUsable = true := by
  have hall : slots.all hasUsableDefault = true := by
    unfold slots? at h
    split at h
    · obtain rfl := Option.some.inj h
      cases (Keyed.get? "kind" ms).bind Kind.nameOfTree? with
      | none => decide
      | some kind => exact all_hasUsableDefault_kindSlots kind
    · cases f <;> cases h <;> decide
  have husable := List.all_eq_true.1 hall s hs
  rwa [hasUsableDefault, hd] at husable

end Form

end ReactiveSpace
