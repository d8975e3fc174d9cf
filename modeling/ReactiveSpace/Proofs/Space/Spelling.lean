import ReactiveSpace.Proofs.Json.Depth
import ReactiveSpace.Proofs.Space.Form

/-!
# All spellings of declarations are read alike

A step in the spelling of a tree leaves it to be read as before (`Form.Respells.respelt`): the slots
of what changed agree, and whoever reads something with slots depends on these alone. For each form
there is one such lemma about its reader. A type is read in two goes, since its slots depend on its
kind, and looks at all that it holds back as well, so what is added there has to be usable. The
names of members are texts throughout: a tree has no object with any other name.
-/

namespace ReactiveSpace

open Json (Tree Slot)
open Json.Tree (required orElse optional partAt? valuesAt known? known?_agree memberParts Agree
  AgreeAll PartsAgree)

namespace Form

/-! ### Trees that are read alike -/

/-- Two trees of a form are read alike. -/
def ReadAlike (held : Bool) : Form → Tree → Tree → Prop
  | .leaf, t, t' => t = t'
  | .position, t, t' => Position.ofTree? t = Position.ofTree? t'
  | .note, t, t' => Note.ofTree? t = Note.ofTree? t'
  | .index, t, t' => Index.ofTree? t = Index.ofTree? t'
  | .rule, t, t' => Rule.ofTree? t = Rule.ofTree? t'
  | .parameter, t, t' => Parameter.ofTree? t = Parameter.ofTree? t'
  | .field, t, t' => Field.ofTree? held t = Field.ofTree? held t'
  | .method, t, t' => Method.ofTree? t = Method.ofTree? t'
  | .storage, t, t' =>
    (t.parts? Structure.fieldNames).bind (Structure.ofParts? t held) =
      (t'.parts? Structure.fieldNames).bind (Structure.ofParts? t' held)
  | .node, t, t' => Node.ofTree? t = Node.ofTree? t'
  | .predicates, t, t' => Predicates.ofTree? t = Predicates.ofTree? t'
  | .test, t, t' => Test.ofTree? t = Test.ofTree? t'
  | .surface, t, t' => Surface.ofTree? t = Surface.ofTree? t'
  | .declarations, t, t' => held = false → Declarations.ofTree? t = Declarations.ofTree? t'
  | .list f, t, t' => t = t' ∨ ∃ items items', t = .array items ∧ t' = .array items' ∧
      List.Forall₂ (fun v v' => ReadAlike held f v v') items items'
  | .map f, t, t' => t = t' ∨ ∃ ms ms', t = .object ms ∧ t' = .object ms' ∧
      List.Forall₂ (fun m m' => m.1 = m'.1 ∧ ReadAlike held f m.2 m'.2) ms ms'

theorem ReadAlike.refl (held : Bool) (f : Form) (t : Tree) : f.ReadAlike held t t := by
  cases f with
  | list | map => exact Or.inl rfl
  | declarations => exact fun _ => rfl
  | _ => rfl

/-- Two trees are read alike, and held back alike. Neither is a `null`. -/
structure Respelt (held : Bool) (f : Form) (t t' : Tree) : Prop where
  read : f.ReadAlike held t t'
  usable : held = true → t.isUsable = t'.isUsable
  left : t ≠ .null
  right : t' ≠ .null

/-- What stands in a slot agrees. -/
def SlotAgrees {t t' : Tree} (held : Bool) (parts : List (String × t.Part))
    (parts' : List (String × t'.Part)) (s : Slot Form) : Prop :=
  Agree (s.form.Respelt held) s.default (partAt? parts s.name) (partAt? parts' s.name)

variable {α β : Type} {held : Bool} {f : Form} {t t' : Tree}

/-! ### Lists and maps -/

/-- Two readers that agree on related elements read related lists alike. -/
theorem mapM_eq_of_forall₂ {R : α → α → Prop} {g : α → Option β} {l l' : List α}
    (h : List.Forall₂ R l l') (hg : ∀ a a', R a a' → g a = g a') : l.mapM g = l'.mapM g := by
  induction h with
  | nil => rfl
  | cons ha _ ih => rw [List.mapM_cons, List.mapM_cons, hg _ _ ha, ih]

theorem ReadAlike.listOf?_eq (h : (list f).ReadAlike held t t') {g : Tree → Option β}
    (hg : ∀ v v', f.ReadAlike held v v' → g v = g v') : t.listOf? g = t'.listOf? g := by
  obtain rfl | ⟨items, items', rfl, rfl, hitems⟩ := h
  · rfl
  · exact mapM_eq_of_forall₂ hitems hg

/-- Maps are read alike that have the same names, with values that are read alike. -/
theorem ReadAlike.mapOf?_eq (h : (map f).ReadAlike held t t') {g : Tree → Option β}
    (hg : ∀ v v', f.ReadAlike held v v' → g v = g v') : t.mapOf? g = t'.mapOf? g := by
  obtain rfl | ⟨ms, ms', rfl, rfl, hms⟩ := h
  · rfl
  · rw [Tree.mapOf?, Tree.mapOf?, mapM_eq_of_forall₂ hms]
    rintro ⟨name, v⟩ ⟨name', v'⟩ ⟨rfl, hv⟩
    exact congrArg (Option.map (Prod.mk name)) (hg v v' hv)

/-- To take the items of a list and read each is to read the list. -/
theorem bind_items?_eq (g : Tree → Option β) (v : Tree) :
    (v.items?.bind fun items => items.mapM fun p => g p.1) = v.listOf? g := by
  cases v with
  | array items =>
    show (Tree.itemParts items).mapM (fun p => g p.1) = items.mapM g
    conv_rhs => rw [← Tree.map_val_itemParts items, List.mapM_map]
    rfl
  | _ => rfl

/-! ### Slots -/

namespace SlotAgrees

variable {parts : List (String × t.Part)} {parts' : List (String × t'.Part)} {name : String}

/-- A slot that has to be filled gives the same value when its fillings agree. -/
theorem required_leaf (h : SlotAgrees held parts parts' (filled name .leaf)) (g : Tree → Option β) :
    required parts name (g ·.1) = required parts' name (g ·.1) :=
  h.required_eq g (fun _ _ hv => congrArg g hv.read) (fun _ => rfl) fun _ => rfl

/-- A slot for a type gives the same type when its fillings are read alike. -/
theorem required_node (h : SlotAgrees held parts parts' (filled name .node)) :
    required parts name (Node.ofTree? ·.1) = required parts' name (Node.ofTree? ·.1) :=
  h.required_eq Node.ofTree? (fun _ _ hv => hv.read) (fun _ => rfl) fun _ => rfl

/-- A slot with a default gives the same value, also where one side writes the default and the other
leaves it out. -/
theorem orElse_eq {d : Tree} (h : SlotAgrees held parts parts' (defaulted name f d)) {b : β}
    (g : Tree → Option β) (hg : ∀ v v', f.ReadAlike held v v' → g v = g v') (hd : g d = some b) :
    orElse parts name b (g ·.1) = orElse parts' name b (g ·.1) :=
  Agree.orElse_eq h g (fun v v' hv => hg v v' hv.read) hd (fun _ => rfl) fun _ => rfl

theorem orElse_leaf {d : Tree} (h : SlotAgrees held parts parts' (defaulted name .leaf d)) {b : β}
    (g : Tree → Option β) (hd : g d = some b) :
    orElse parts name b (g ·.1) = orElse parts' name b (g ·.1) :=
  h.orElse_eq g (fun _ _ => congrArg g) hd

theorem orElse_flag (h : SlotAgrees held parts parts' (flag name)) :
    orElse parts name false (·.1.bool?) = orElse parts' name false (·.1.bool?) :=
  h.orElse_leaf Tree.bool? rfl

theorem orElse_placed (h : SlotAgrees held parts parts' (placed name)) :
    orElse parts name {} (Position.ofTree? ·.1) = orElse parts' name {} (Position.ofTree? ·.1) :=
  h.orElse_eq Position.ofTree? (fun _ _ => id) rfl

theorem orElse_listed (h : SlotAgrees held parts parts' (listed name f)) {g : Tree → Option β}
    (hg : ∀ v v', f.ReadAlike held v v' → g v = g v') :
    orElse parts name [] (·.1.listOf? g) = orElse parts' name [] (·.1.listOf? g) :=
  h.orElse_eq (Tree.listOf? g) (fun _ _ hv => hv.listOf?_eq hg) rfl

theorem optional_leaf (h : SlotAgrees held parts parts' (vacant name .leaf)) (g : Tree → Option β) :
    optional parts name (g ·.1) = optional parts' name (g ·.1) :=
  h.optional_eq g (fun _ _ hv => ⟨iff_of_false hv.left hv.right, congrArg g hv.read⟩) (fun _ => rfl)
    fun _ => rfl

/-- A vacant slot for a type may be left out or filled with null. -/
theorem optional_node (h : SlotAgrees held parts parts' (vacant name .node)) :
    optional parts name (Node.ofTree? ·.1) = optional parts' name (Node.ofTree? ·.1) :=
  h.optional_eq Node.ofTree? (fun _ _ hv => ⟨iff_of_false hv.left hv.right, hv.read⟩) (fun _ => rfl)
    fun _ => rfl

end SlotAgrees

/-! ### Readers of fixed slots -/

/-- Two structures can not be taken apart, or their slots agree. -/
def Taken (held : Bool) (slots : List (Slot Form)) (t t' : Tree) : Prop :=
  PartsAgree (fun s => s.form.Respelt held) slots (t.parts? (slots.map Slot.name))
    (t'.parts? (slots.map Slot.name))

/-- What is read from agreeing slots, with everything that depends on it, is the same. -/
theorem Taken.bind_eq {slots : List (Slot Form)} (h : Taken held slots t t')
    {g : List (String × t.Part) → Option β} {g' : List (String × t'.Part) → Option β}
    (hg : ∀ parts parts', (∀ s ∈ slots, SlotAgrees held parts parts' s) → g parts = g' parts') :
    (t.parts? (slots.map Slot.name)).bind g = (t'.parts? (slots.map Slot.name)).bind g' :=
  PartsAgree.bind_eq h fun parts parts' _ => hg parts parts'

section Readers

variable {slots : List (Slot Form)}

theorem position_eq (hslots : position.fixedSlots? = some slots) (h : Taken held slots t t') :
    Position.ofTree? t = Position.ofTree? t' := by
  obtain rfl := Option.some.inj hslots
  refine h.bind_eq fun parts parts' hs => ?_
  simp only [List.forall_mem_cons] at hs
  obtain ⟨hline, hcolumn, hendLine, hendColumn, -⟩ := hs
  have hendLine := hendLine.orElse_leaf (b := (0 : UInt32)) Tree.word? rfl
  have hendColumn := hendColumn.orElse_leaf (b := (0 : UInt32)) Tree.word? rfl
  simp only [hline.required_leaf, hcolumn.required_leaf, hendLine, hendColumn]

theorem note_eq (hslots : note.fixedSlots? = some slots) (h : Taken held slots t t') :
    Note.ofTree? t = Note.ofTree? t' := by
  obtain rfl := Option.some.inj hslots
  refine h.bind_eq fun parts parts' hs => ?_
  simp only [List.forall_mem_cons] at hs
  obtain ⟨hname, hvalue, -⟩ := hs
  simp only [hname.required_leaf, hvalue.optional_leaf Tree.string?]

theorem index_eq (hslots : index.fixedSlots? = some slots) (h : Taken held slots t t') :
    Index.ofTree? t = Index.ofTree? t' := by
  obtain rfl := Option.some.inj hslots
  refine h.bind_eq fun parts parts' hs => ?_
  simp only [List.forall_mem_cons] at hs
  obtain ⟨hfield, hposition, -⟩ := hs
  simp only [hfield.required_leaf, hposition.orElse_placed]

theorem rule_eq (hslots : rule.fixedSlots? = some slots) (h : Taken held slots t t') :
    Rule.ofTree? t = Rule.ofTree? t' := by
  obtain rfl := Option.some.inj hslots
  refine h.bind_eq fun parts parts' hs => ?_
  simp only [List.forall_mem_cons] at hs
  obtain ⟨hname, hbody, hposition, -⟩ := hs
  simp only [hname.required_leaf, hbody.required_leaf, hposition.orElse_placed]

theorem parameter_eq (hslots : parameter.fixedSlots? = some slots) (h : Taken held slots t t') :
    Parameter.ofTree? t = Parameter.ofTree? t' := by
  obtain rfl := Option.some.inj hslots
  rw [Parameter.ofTree?, Parameter.ofTree?]
  refine h.bind_eq fun parts parts' hs => ?_
  simp only [List.forall_mem_cons] at hs
  obtain ⟨hname, htype, -⟩ := hs
  simp only [hname.required_leaf, htype.required_node]

/-- A field is read from its slots, and what is held back with it goes for its policy too. -/
theorem field_eq (hslots : field.fixedSlots? = some slots) (h : Taken held slots t t') :
    Field.ofTree? held t = Field.ofTree? held t' := by
  obtain rfl := Option.some.inj hslots
  rw [Field.ofTree?, Field.ofTree?]
  refine h.bind_eq fun parts parts' hs => ?_
  simp only [List.forall_mem_cons] at hs
  obtain ⟨hname, htype, hprivacy, hreadonly, hinitial, hposition, -⟩ := hs
  have hprivacy := hprivacy.optional_leaf (Privacy.ofTree? held)
  simp only [hname.required_leaf, htype.required_node, hprivacy, hreadonly.orElse_flag,
    hinitial.optional_leaf Tree.string?, hposition.orElse_placed]

theorem method_eq (hslots : method.fixedSlots? = some slots) (h : Taken held slots t t') :
    Method.ofTree? t = Method.ofTree? t' := by
  obtain rfl := Option.some.inj hslots
  rw [Method.ofTree?, Method.ofTree?]
  refine h.bind_eq fun parts parts' hs => ?_
  simp only [List.forall_mem_cons] at hs
  obtain ⟨hname, hparameters, hreturns, hreadonly, hbody, hposition, -⟩ := hs
  have hparameters := hparameters.orElse_listed (g := Parameter.ofTree?) fun _ _ => id
  simp only [bind_items?_eq Parameter.ofTree?, hname.required_leaf, hparameters,
    hreturns.optional_node, hreadonly.orElse_flag, hbody.required_leaf, hposition.orElse_placed]

/-- The slots of a structure, of its own or of a type, are read alike. -/
theorem ofParts?_eq {parts : List (String × t.Part)} {parts' : List (String × t'.Part)}
    (hs : ∀ s ∈ storageSlots, SlotAgrees held parts parts' s) :
    Structure.ofParts? t held parts = Structure.ofParts? t' held parts' := by
  rw [Structure.ofParts?, Structure.ofParts?]
  simp only [storageSlots, List.forall_mem_cons] at hs
  obtain ⟨hname, hrole, hfields, hindices, hmethods, hrules, hposition, -⟩ := hs
  have hrole := hrole.orElse_leaf (b := Role.record) (Role.ofTree? held) (by cases held <;> rfl)
  have hfields := hfields.orElse_listed (g := Field.ofTree? held) fun _ _ => id
  have hindices := hindices.orElse_listed (g := Index.ofTree?) fun _ _ => id
  have hmethods := hmethods.orElse_listed (g := Method.ofTree?) fun _ _ => id
  have hrules := hrules.orElse_listed (g := Rule.ofTree?) fun _ _ => id
  simp only [bind_items?_eq (Field.ofTree? held), bind_items?_eq Method.ofTree?,
    hname.required_leaf, hrole, hfields, hindices, hmethods, hrules, hposition.orElse_placed]

/-- The predicates of a structure are read from their slots alone. -/
theorem predicates_eq (hslots : predicates.fixedSlots? = some slots) (h : Taken held slots t t') :
    Predicates.ofTree? t = Predicates.ofTree? t' := by
  obtain rfl := Option.some.inj hslots
  refine h.bind_eq fun parts parts' hs => ?_
  simp only [List.forall_mem_cons] at hs
  obtain ⟨hcreate, hinvent, hsend, -⟩ := hs
  simp only [hcreate.optional_leaf Tree.string?, hinvent.optional_leaf Tree.string?,
    hsend.optional_leaf Tree.string?]

theorem test_eq (hslots : test.fixedSlots? = some slots) (h : Taken held slots t t') :
    Test.ofTree? t = Test.ofTree? t' := by
  obtain rfl := Option.some.inj hslots
  refine h.bind_eq fun parts parts' hs => ?_
  simp only [List.forall_mem_cons] at hs
  obtain ⟨hname, hbody, -⟩ := hs
  simp only [hname.required_leaf, hbody.required_leaf]

theorem surface_eq (hslots : surface.fixedSlots? = some slots) (h : Taken held slots t t') :
    Surface.ofTree? t = Surface.ofTree? t' := by
  obtain rfl := Option.some.inj hslots
  refine h.bind_eq fun parts parts' hs => ?_
  simp only [List.forall_mem_cons] at hs
  obtain ⟨hpredicates, hconfig, hservices, hconstructor, htests, -⟩ := hs
  have hpredicates := hpredicates.orElse_eq (b := ({} : Predicates)) Predicates.ofTree?
    (fun _ _ => id) rfl
  have hconfig := hconfig.orElse_leaf (b := []) (Tree.mapOf? Json.ofTree?) rfl
  have hservices := hservices.orElse_leaf (b := []) (Tree.mapOf? (Tree.mapOf? Tree.string?)) rfl
  have htests := htests.orElse_listed (g := Test.ofTree?) fun _ _ => id
  simp only [hpredicates, hconfig, hservices, hconstructor.optional_leaf Tree.string?, htests]

/-- The default of the root is read as the root without members. -/
theorem ofTree?_emptyRoot :
    Structure.ofTree? (.object [("name", .string Structure.rootName),
      ("specialization", .string Role.root.name)]) = some Structure.emptyRoot := by
  show Structure.ofParts? _ false [("name", ⟨.string Structure.rootName, _⟩),
    ("specialization", ⟨.string Role.root.name, _⟩)] = _
  rw [Structure.ofParts?]
  rfl

/-- Declarations are read from their slots alone, and none of these is held back. -/
theorem declarations_eq (hslots : declarations.fixedSlots? = some slots)
    (h : Taken false slots t t') : Declarations.ofTree? t = Declarations.ofTree? t' := by
  obtain rfl := Option.some.inj hslots
  refine h.bind_eq fun parts parts' hs => ?_
  simp only [List.forall_mem_cons] at hs
  obtain ⟨hspace, hrecords, hmessages, haliases, hroot, hsurface, -⟩ := hs
  have hrecords := hrecords.orElse_listed (g := Structure.ofTree?) fun _ _ => id
  have hmessages := hmessages.orElse_listed (g := Structure.ofTree?) fun _ _ => id
  have haliases := haliases.orElse_eq (b := []) (Tree.mapOf? Node.ofTree?)
    (fun _ _ hv => hv.mapOf?_eq fun _ _ => id) rfl
  have hroot := hroot.orElse_eq Structure.ofTree? (fun _ _ => id) ofTree?_emptyRoot
  have hsurface := hsurface.orElse_eq (b := ({} : Surface)) Surface.ofTree? (fun _ _ => id) rfl
  simp only [hspace.required_leaf, hrecords, hmessages, haliases, hroot, hsurface]

/-- What is read of slots that agree is the same. -/
theorem readAlike_of_taken (hslots : f.fixedSlots? = some slots) (h : Taken held slots t t') :
    f.ReadAlike held t t' := by
  cases f with
  | position => exact position_eq hslots h
  | note => exact note_eq hslots h
  | index => exact index_eq hslots h
  | rule => exact rule_eq hslots h
  | parameter => exact parameter_eq hslots h
  | field => exact field_eq hslots h
  | method => exact method_eq hslots h
  | storage =>
    obtain rfl := Option.some.inj hslots
    exact h.bind_eq fun parts parts' => ofParts?_eq
  | predicates => exact predicates_eq hslots h
  | test => exact test_eq hslots h
  | surface => exact surface_eq hslots h
  | declarations =>
    rintro rfl
    exact declarations_eq hslots h
  | leaf | node | list | map => cases hslots

end Readers

/-! ### Types -/

/-- **A name is that of a kind, or of none.** Proofs by the kinds take this for their cases, since a
split of what is defined by a match on names would number them. -/
theorem kindName_cases {motive : String → Prop} (scalar : motive "scalar") (text : motive "text")
    (replication : motive "replication_status") (list : motive "list") (map : motive "map")
    (maybe : motive "maybe") (table : motive "table") (holder : motive "holder")
    (projection : motive "projection") (lazy : motive "lazy") (record : motive "record")
    (message : motive "message") (ref : motive "ref")
    (none : ∀ kind, kind ∉ Kind.names → motive kind) (kind : String) : motive kind := by
  by_cases hkind : kind ∈ Kind.names
  · simp only [Kind.names, List.mem_cons, List.not_mem_nil, or_false] at hkind
    rcases hkind with
      rfl | rfl | rfl | rfl | rfl | rfl | rfl | rfl | rfl | rfl | rfl | rfl | rfl <;> assumption
  · exact none kind hkind

/-- Nothing is read under a name that is not that of a kind. -/
theorem kind_ofParts?_of_not_mem {kind : String} (h : kind ∉ Kind.names)
    (parts : List (String × t.Part)) : Kind.ofParts? t kind parts = none := by
  rw [Kind.ofParts?] <;> rintro rfl <;> exact h (by decide)

/-- What belongs to a kind is read alike if its slots agree. -/
theorem kind_ofParts?_eq {kind : String} {parts : List (String × t.Part)}
    {parts' : List (String × t'.Part)} (hs : ∀ s ∈ kindSlots kind, SlotAgrees true parts parts' s) :
    Kind.ofParts? t kind parts = Kind.ofParts? t' kind parts' := by
  -- Which slots there are depends on the kind, so each kind takes its own from the list.
  induction kind using kindName_cases with
  | none kind hkind => rw [kind_ofParts?_of_not_mem hkind, kind_ofParts?_of_not_mem hkind]
  | text => rw [Kind.ofParts?, Kind.ofParts?]
  | record | message => rw [Kind.ofParts?, Kind.ofParts?, ofParts?_eq hs]
  | scalar =>
    obtain ⟨hscalar, -⟩ := List.forall_mem_cons.1 hs
    rw [Kind.ofParts?, Kind.ofParts?, hscalar.required_leaf (Scalar.ofTree? true)]
  | list =>
    obtain ⟨helement, -⟩ := List.forall_mem_cons.1 hs
    rw [Kind.ofParts?, Kind.ofParts?, helement.required_node]
  | maybe =>
    obtain ⟨hinner, -⟩ := List.forall_mem_cons.1 hs
    rw [Kind.ofParts?, Kind.ofParts?, hinner.required_node]
  | map =>
    obtain ⟨hdomain, hs⟩ := List.forall_mem_cons.1 hs
    obtain ⟨hrange, -⟩ := List.forall_mem_cons.1 hs
    rw [Kind.ofParts?, Kind.ofParts?, hdomain.required_node, hrange.required_node]
  | table | holder | ref =>
    obtain ⟨hname, -⟩ := List.forall_mem_cons.1 hs
    rw [Kind.ofParts?, Kind.ofParts?, hname.required_leaf Tree.string?]
  | replication | projection =>
    obtain ⟨hfirst, hs⟩ := List.forall_mem_cons.1 hs
    obtain ⟨hsecond, -⟩ := List.forall_mem_cons.1 hs
    rw [Kind.ofParts?, Kind.ofParts?, hfirst.required_leaf Tree.string?,
      hsecond.required_leaf Tree.string?]
  | lazy =>
    obtain ⟨hcomputed, hs⟩ := List.forall_mem_cons.1 hs
    obtain ⟨hcached, hs⟩ := List.forall_mem_cons.1 hs
    obtain ⟨hformula, -⟩ := List.forall_mem_cons.1 hs
    rw [Kind.ofParts?, Kind.ofParts?, hcomputed.required_node, hcached.orElse_flag,
      hformula.required_leaf Tree.string?]

/-- What belongs to a kind is held back. -/
theorem holds_of_mem_kindSlots {kind : String} {s : Slot Form} (hs : s ∈ kindSlots kind) :
    node.holds held s.name = true := by
  have hall : (kindSlots kind).all (fun s => node.holds false s.name) = true := by
    unfold kindSlots
    split <;> decide
  have hs := List.all_eq_true.1 hall s hs
  simp_all [holds]

/-- Types whose slots agree are read alike, if what they hold back is of use both times or not. -/
theorem node_ofTree?_eq {ms ms' : List (String × Tree)} {slots : List (Slot Form)}
    (hslots : node.slots? ms = some slots)
    (hs : ∀ s ∈ slots, AgreeAll (s.form.Respelt (node.holds held s.name)) s.default
      (valuesAt s.name ms) (valuesAt s.name ms'))
    (hheld : Node.heldUsable (memberParts ms) = Node.heldUsable (memberParts ms')) :
    Node.ofTree? (.object ms) = Node.ofTree? (.object ms') := by
  obtain rfl := Option.some.inj hslots
  rw [Node.ofTree?, Node.ofTree?]
  simp only [Tree.members?, Option.bind_eq_bind, Option.bind_some, hheld]
  split
  · have hown : PartsAgree (fun s => s.form.Respelt (node.holds held s.name)) nodeSlots
        (known? ["position", "annotations", "kind"] (memberParts ms))
        (known? ["position", "annotations", "kind"] (memberParts ms')) :=
      known?_agree fun s hmem => hs s (List.mem_append_left _ hmem)
    refine hown.bind_eq fun own own' hparts hagree => ?_
    simp only [nodeSlots, List.forall_mem_cons] at hagree
    obtain ⟨hposition, hnotes, hkind, -⟩ := hagree
    have hposition := SlotAgrees.orElse_placed hposition
    have hnotes := SlotAgrees.orElse_listed hnotes (g := Note.ofTree?) fun _ _ => id
    have hkind := SlotAgrees.required_leaf hkind Kind.nameOfTree?
    simp only [hposition, hnotes, hkind]
    refine Option.bind_congr fun position _ => Option.bind_congr fun notes _ =>
      Option.bind_congr fun kind hname => ?_
    -- The kind that is read is the one that the slots belong to.
    rw [← hkind, Tree.required_eq_bind own "kind" fun _ => rfl,
      Tree.partAt?_of_known? hparts (by decide)] at hname
    rw [hname] at hs
    have hmembers : PartsAgree (fun s => s.form.Respelt (node.holds held s.name)) (kindSlots kind)
        (known? ((kindSlots kind).map Slot.name) (memberParts ms))
        (known? ((kindSlots kind).map Slot.name) (memberParts ms')) :=
      known?_agree fun s hmem => hs s (List.mem_append_right _ hmem)
    rw [map_name_kindSlots] at hmembers
    refine hmembers.bind_eq fun parts parts' _ hagree => ?_
    rw [kind_ofParts?_eq fun s hmem => ?_]
    have hagree := hagree s hmem
    rwa [holds_of_mem_kindSlots hmem] at hagree
  · rfl

/-! ### Steps -/

/-- Whether the members that count are of use. -/
def usableAt (counts : String → Bool) (ms : List (String × Tree)) : Bool :=
  ms.all fun m => !counts m.1 || m.2.isUsable

theorem isUsable_object (ms : List (String × Tree)) :
    (Tree.object ms).isUsable = usableAt (fun _ => true) ms := by
  rw [Tree.isUsable, Json.Tree.membersUsable_eq_all]
  rfl

/-- Among the members of a type only those count that it holds back. -/
theorem heldUsable_eq (ms : List (String × Tree)) :
    Node.heldUsable (memberParts ms) = usableAt (node.holds false) ms := by
  conv_rhs => rw [← Tree.map_val_memberParts ms, usableAt, List.all_map]
  rw [Node.heldUsable]
  congr 1
  funext m
  simp [holds]

theorem usableAt_cons (counts : String → Bool) (name : String) (v : Tree)
    (ms : List (String × Tree)) :
    usableAt counts ((name, v) :: ms) = ((!counts name || v.isUsable) && usableAt counts ms) :=
  List.all_cons

theorem usableAt_append (counts : String → Bool) (ms ms' : List (String × Tree)) :
    usableAt counts (ms ++ ms') = (usableAt counts ms && usableAt counts ms') :=
  List.all_append

theorem holds_of_fixedSlots? {slots : List (Slot Form)} (h : f.fixedSlots? = some slots)
    (held : Bool) (name : String) : f.holds held name = held := by
  cases f <;> first | rfl | cases h

theorem holds_true (f : Form) (name : String) : f.holds true name = true := by
  cases f <;> rfl

/-- Objects with slots that agree are respelt, if what is held back in them is of use both times or
not. -/
theorem respelt_object {ms ms' : List (String × Tree)} {slots : List (Slot Form)}
    (hslots : f.slots? ms = some slots)
    (hs : ∀ s ∈ slots, AgreeAll (s.form.Respelt (f.holds held s.name)) s.default
      (valuesAt s.name ms) (valuesAt s.name ms'))
    (hcounts : ∀ counts : String → Bool, (∀ name, counts name = true → f.holds held name = true) →
      usableAt counts ms = usableAt counts ms') :
    f.Respelt held (.object ms) (.object ms') := by
  refine ⟨?_, ?_, Tree.noConfusion, Tree.noConfusion⟩
  · -- The slots of a type depend on its kind, so it has a reader of its own.
    by_cases hnode : f = .node
    · subst hnode
      refine node_ofTree?_eq hslots hs ?_
      rw [heldUsable_eq, heldUsable_eq]
      refine hcounts _ fun name hname => ?_
      rw [holds, Bool.false_or] at hname
      rw [holds, hname, Bool.or_true]
    · have hfixed : f.fixedSlots? = some slots := by
        unfold slots? at hslots
        split at hslots
        · exact absurd rfl hnode
        · exact hslots
      refine readAlike_of_taken hfixed (known?_agree fun s hmem => ?_)
      have hagree := hs s hmem
      rwa [holds_of_fixedSlots? hfixed] at hagree
  · rintro rfl
    rw [isUsable_object, isUsable_object]
    exact hcounts _ fun name _ => holds_true f name

/-- **A step leaves a tree to be read as before.** -/
theorem Respells.respelt (h : Respells Addable held f t t') : f.Respelt held t t' := by
  induction h with
  -- A slot with several values is refused, so it does not matter which comes first.
  | @order held f slots ms ms' hslots hperm =>
    exact respelt_object hslots (fun _ _ => Tree.agreeAll_of_perm hperm) fun _ _ => hperm.all_eq
  -- The new member has no slot; it has to be usable only where the whole is held back.
  | @extra held f slots ms name v hslots hname hv =>
    refine respelt_object hslots (fun s hs => ?_) fun counts hcounts => ?_
    · have hne : name ≠ s.name := by
        rintro rfl
        exact hname (List.mem_map_of_mem hs)
      rw [Tree.valuesAt_cons_of_ne hne]
      exact .same _
    · have husable : (!counts name || v.isUsable) = true := by
        cases hname : counts name with
        | false => rfl
        | true => exact hv (hcounts name hname)
      rw [usableAt_cons, husable, Bool.true_and]
  -- One slot now writes its default, and the others have the values they had.
  | @default held f slots ms s d hslots hs hd hname =>
    refine respelt_object hslots (fun s' hs' => ?_) fun counts _ => ?_
    · by_cases heq : s.name = s'.name
      · obtain rfl := eq_of_name_eq (nodup_slots hslots) hs hs' heq
        rw [Tree.valuesAt_cons_self, Tree.valuesAt_eq_nil hname]
        exact .written hd
      · rw [Tree.valuesAt_cons_of_ne heq]
        exact .same _
    · rw [usableAt_cons, isUsable_default hslots hs hd, Bool.or_true, Bool.true_and]
  -- An array is an object with the names of the slots put back.
  | @positional held f slots items hslots hlength =>
    have htaken : Taken held slots (.object ((slots.map Slot.name).zip items)) (.array items) :=
      Tree.parts?_zip (nodup_fixedSlots hslots) hlength
    refine ⟨readAlike_of_taken hslots htaken, fun _ => ?_, Tree.noConfusion, Tree.noConfusion⟩
    have hitems : ((slots.map Slot.name).zip items).map Prod.snd = items :=
      List.map_snd_zip (by rwa [List.length_map])
    conv_rhs => rw [Tree.isUsable, Json.Tree.itemsUsable_eq_all, ← hitems, List.all_map]
    exact isUsable_object _
  -- The slot that the member fills agrees by the step below it.
  | @member held f slots s before after v v' hslots hs _ ih =>
    refine respelt_object hslots (fun s' hs' => ?_) fun counts hcounts => ?_
    · by_cases heq : s.name = s'.name
      · obtain rfl := eq_of_name_eq (nodup_slots hslots) hs hs' heq
        exact Tree.agreeAll_of_related ih
      · rw [Tree.valuesAt_replace heq]
        exact .same _
    · have husable : (!counts s.name || v.isUsable) = (!counts s.name || v'.isUsable) := by
        cases hname : counts s.name with
        | false => rfl
        | true => rw [ih.usable (hcounts s.name hname)]
      rw [usableAt_append, usableAt_append, usableAt_cons, usableAt_cons, husable]
  -- An array of items has no slots; it is read as a list, item by item.
  | @item held f before after v v' _ ih =>
    refine ⟨Or.inr ⟨_, _, rfl, rfl, ?_⟩, fun hheld => ?_, Tree.noConfusion, Tree.noConfusion⟩
    · have hsame : ∀ l : List Tree, List.Forall₂ (fun v v' => f.ReadAlike held v v') l l :=
        fun l => List.forall₂_same.2 fun v _ => ReadAlike.refl held f v
      exact List.rel_append (hsame before) (.cons ih.read (hsame after))
    · rw [Tree.isUsable, Tree.isUsable, Json.Tree.itemsUsable_eq_all, Json.Tree.itemsUsable_eq_all,
        List.all_append, List.all_append, List.all_cons, List.all_cons, ih.usable hheld]
  -- Likewise a map, entry by entry.
  | @entry held f before after name v v' _ ih =>
    refine ⟨Or.inr ⟨_, _, rfl, rfl, ?_⟩, fun hheld => ?_, Tree.noConfusion, Tree.noConfusion⟩
    · have hsame : ∀ l : List (String × Tree),
          List.Forall₂ (fun m m' => m.1 = m'.1 ∧ f.ReadAlike held m.2 m'.2) l l :=
        fun l => List.forall₂_same.2 fun m _ => ⟨rfl, ReadAlike.refl held f m.2⟩
      exact List.rel_append (hsame before) (.cons ⟨rfl, ih.read⟩ (hsame after))
    · rw [isUsable_object, isUsable_object, usableAt_append, usableAt_append, usableAt_cons,
        usableAt_cons, ih.usable hheld]

end Form

namespace Declarations

open Form (Respells Addable)

/-- A whole chain of steps, in either direction, leaves declarations to be read as before. -/
theorem ofTree?_respelled {t t' : Tree}
    (h : Relation.EqvGen (Respells Addable false .declarations) t t') :
    ofTree? t = ofTree? t' := by
  induction h with
  | rel _ _ hstep => exact hstep.respelt.read rfl
  | refl => rfl
  | symm _ _ _ ih => exact ih.symm
  | trans _ _ _ _ _ ih ih' => exact ih.trans ih'

/-- **All spellings of declarations are read alike.** Two texts that differ in the order of members
other than the entries of maps, in members that nobody asked for, in defaults that are left out or
written and in structures that are written as objects or as arrays are both no declarations, or they
are the same ones. Two things are asked of what is added. Its name is a text, in every structure: a
name is decoded before it turns out that nobody asks for it, so one with half of a surrogate pair
fails what it stands in. And what is added to a type holds no number beyond the doubles, no half of
a surrogate pair and nothing that lies too deep. -/
theorem ofText?_respelled {a b : String} (h : Respelled Addable a b) : ofText? a = ofText? b := by
  obtain ⟨t, t', ht, ht', hsteps⟩ := h
  rw [ofText?, ofText?, ht, ht', Option.bind_some, Option.bind_some]
  exact ofTree?_respelled hsteps

/-- Nobody asks for the second member, and yet its name is decoded and found to be no text. -/
example : ofText? "\x7b\"space\":\"attic\",\"\\ud800\":1\x7d" = none := by
  rfl

/-! ### An alias in several spellings -/

/-- The declarations of a space with one alias, written with the given members of a type. -/
def atticTree (ms : List (String × Tree)) : Tree :=
  .object [("space", .string "attic"), ("aliases", .object [("Box", .object ms)])]

/-- A space with one alias. -/
def attic : String :=
  "\x7b\"space\":\"attic\",\"aliases\":\x7b\"Box\":\x7b\"kind\":\"text\"\x7d\x7d\x7d"

/-- The same as an array, with a size that nobody asked for beside the kind of the alias. -/
def labelledAttic : String :=
  "[\"attic\",[],[],\x7b\"Box\":\x7b\"size\":42,\"kind\":\"text\"\x7d\x7d]"

/-- The same space with a size that no double comes near. -/
def overfullAttic : String :=
  "\x7b\"space\":\"attic\",\"aliases\":\x7b\"Box\":\x7b\"size\":1e999,\"kind\":\"text\"\x7d\x7d\x7d"

theorem ofText?_attic :
    Tree.ofText? attic = some (atticTree [("kind", .string "text")]) := by
  rfl

/-- The positional spelling is an array; its alias has a size, which no slot takes. -/
theorem ofText?_labelledAttic :
    Tree.ofText? labelledAttic = some (.array [.string "attic", .array [], .array [],
      .object [("Box", .object [("size", .number (.integer 42)), ("kind", .string "text")])]]) := by
  rfl

/-- A number that is beyond every double has a place in the tree and no value. -/
theorem ofText?_overfullAttic :
    Tree.ofText? overfullAttic =
      some (atticTree [("size", .unusable), ("kind", .string "text")]) := by
  have htokens : Json.Token.scan? overfullAttic = some [.openBrace, .string "space", .colon,
      .string "attic", .comma, .string "aliases", .colon, .openBrace, .string "Box", .colon,
      .openBrace, .string "size", .colon, .hugeNumber, .comma, .string "kind", .colon,
      .string "text", .closeBrace, .closeBrace, .closeBrace] := by
    decide +kernel
  rw [Tree.ofText?, htokens]
  rfl

/-- A member beside the kind of the alias is a step. -/
theorem respells_attic {added : Bool → Tree → Prop} {v : Tree} (hv : added true v) :
    Respells added false .declarations (atticTree [("kind", .string "text")])
      (atticTree [("size", v), ("kind", .string "text")]) := by
  have htype : Respells added false .node (.object [("kind", .string "text")])
      (.object [("size", v), ("kind", .string "text")]) :=
    .extra rfl (by decide) hv
  have hentry : Respells added false (.map .node)
      (.object [("Box", .object [("kind", .string "text")])])
      (.object [("Box", .object [("size", v), ("kind", .string "text")])]) :=
    @Respells.entry added false .node [] [] "Box" _ _ htype
  exact @Respells.member added false .declarations _
    (Form.defaulted "aliases" (.map .node) (.object [])) [("space", .string "attic")] [] _ _ rfl
    (List.mem_of_getElem? (i := 3) rfl) hentry

/-- An alias is read if its type is. -/
theorem ofTree?_atticTree (ms : List (String × Tree)) :
    ofTree? (atticTree ms) = (Node.ofTree? (.object ms)).map fun n =>
      { space := "attic", aliases := [("Box", n)] } := by
  have haliases : Tree.mapOf? Node.ofTree? (.object [("Box", .object ms)]) =
      (Node.ofTree? (.object ms)).map fun n => [("Box", n)] := by
    rw [Tree.mapOf?, List.mapM_cons, List.mapM_nil]
    cases Node.ofTree? (.object ms) <;> rfl
  rw [ofTree?]
  show (Tree.mapOf? Node.ofTree? (.object [("Box", .object ms)])).bind (fun aliases =>
    some ({ space := "attic", aliases := aliases } : Declarations)) = _
  rw [haliases]
  cases Node.ofTree? (.object ms) <;> rfl

/-- The array with the size is read as the object without it. -/
theorem ofText?_labelled :
    Respelled Addable attic labelledAttic ∧
      ofText? attic = ofText? labelledAttic := by
  have hspelled : Respelled Addable attic labelledAttic := by
    refine ⟨_, _, ofText?_attic, ofText?_labelledAttic,
      .trans _ _ _ (.rel _ _ (respells_attic (v := .number (.integer 42)) fun _ => rfl)) ?_⟩
    -- The lists that were left out are written, and all slots in order.
    refine .trans _ _ _ (.rel _ _ (.default (s := Form.listed "messages" .storage) (d := .array [])
      rfl (List.mem_of_getElem? (i := 2) rfl) rfl (by decide))) ?_
    refine .trans _ _ _ (.rel _ _ (.default (s := Form.listed "records" .storage) (d := .array [])
      rfl (List.mem_of_getElem? (i := 1) rfl) rfl (by decide))) ?_
    refine .trans _ _ _ (.rel _ _ (.order rfl (.trans (.cons _ (.swap _ _ _)) (.swap _ _ _)))) ?_
    exact .rel _ _ (@Respells.positional _ false .declarations _ [.string "attic", .array [],
      .array [], .object [("Box", .object [("size", .number (.integer 42)),
        ("kind", .string "text")])]] rfl (by decide))
  exact ⟨hspelled, ofText?_respelled hspelled⟩

/-- What is added to a type has to be of use: with the number that no double comes near nothing is
read at all. -/
theorem ofText?_overfull :
    Respelled (fun _ _ => True) attic overfullAttic ∧
      (Json.Token.scan? attic).map Json.Token.depth = some 3 ∧
      (Json.Token.scan? overfullAttic).map Json.Token.depth = some 3 ∧ 3 ≤ Tree.levels ∧
      (ofText? attic).isSome = true ∧ ofText? overfullAttic = none := by
  refine ⟨⟨_, _, ofText?_attic, ofText?_overfullAttic, .rel _ _ (respells_attic trivial)⟩,
    by decide +kernel, by decide +kernel, by decide, ?_, ?_⟩
  · have htype : Node.ofTree? (.object [("kind", .string "text")]) = some (.ofKind .text) := by
      rw [Node.ofTree?]
      show (Kind.ofParts? _ "text" _).bind _ = _
      rw [Kind.ofParts?]
      rfl
    rw [ofText?, ofText?_attic, Option.bind_some, ofTree?_atticTree, htype]
    rfl
  · rw [ofText?, ofText?_overfullAttic, Option.bind_some, ofTree?_atticTree, Node.ofTree?]
    rfl

end Declarations

end ReactiveSpace
