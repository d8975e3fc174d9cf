import ReactiveSpace.Proofs.Json.Parts
import ReactiveSpace.Proofs.Space.Occurrence

/-!
# Types and structures are read as they were written

What is read from the value of a type is this type (`Node.ofTree?_toTree`), with its position and
notes and everything in it. The members of a record or message node stand beside those of the node
itself; none of them has a name that the node uses (`Kind.nodup_names`), so both are found.

The parts of a structure other than its types are read on their own. A structure is read if the
types of its fields, parameters and results are (`Structure.ofParts?_members`), and a type if the
types it is made of are; these are smaller, which is what the induction for types is on.
-/

namespace ReactiveSpace

open Json (Tree)
open Json.Tree (required orElse optional exists_parts exists_known listOf?_eq_some
  bind_items?_mapM)

/-! ### Parts without types -/

/-- A word of 32 bits is written as a number and read as the same word. -/
theorem word?_ofNat (n : UInt32) : (Json.ofNat n.toNat).toTree.word? = some n := by
  have hn := n.toNat_lt
  have hfits : (0 : Int) ≤ n.toNat ∧ (n.toNat : Int) < (Nat.pow 2 32 : Int) := by
    simp only [Nat.pow_eq]
    omega
  show (if (0 : Int) ≤ n.toNat ∧ (n.toNat : Int) < (Nat.pow 2 32 : Int) then
    some (UInt32.ofNat (n.toNat : Int).toNat) else none) = some n
  rw [if_pos hfits, Int.toNat_natCast, UInt32.ofNat_toNat]

/-- A position is read as it was written. Its four numbers stand under names of their own. -/
theorem Position.ofTree?_toTree (p : Position) : ofTree? p.toJson.toTree = some p := by
  obtain ⟨parts, hparts, hc⟩ := exists_parts p.toJson fieldNames rfl (.refl _) (by decide)
  have hline : required parts "line" (·.1.word?) = some p.line :=
    hc.required_eq (v := .ofNat p.line.toNat) (by decide) (by simp)
      fun _ => word?_ofNat p.line
  have hcolumn : required parts "column" (·.1.word?) = some p.column :=
    hc.required_eq (v := .ofNat p.column.toNat) (by decide) (by simp)
      fun _ => word?_ofNat p.column
  have hendLine : orElse parts "end_line" 0 (·.1.word?) = some p.endLine :=
    hc.orElse_eq (v := .ofNat p.endLine.toNat) (by decide) (by simp)
      fun _ => word?_ofNat p.endLine
  have hendColumn : orElse parts "end_column" 0 (·.1.word?) = some p.endColumn :=
    hc.orElse_eq (v := .ofNat p.endColumn.toNat) (by decide) (by simp)
      fun _ => word?_ofNat p.endColumn
  rw [ofTree?, hparts]
  simp [hline, hcolumn, hendLine, hendColumn]

/-- A position behind a name is found and read, whatever default there is for it. -/
theorem Json.Tree.Carries.orElse_position {t : Tree} {parts : List (String × t.Part)}
    {names : List String} {ms : List (String × Json)} (hc : Tree.Carries parts names ms)
    {name : String} (hname : name ∈ names) {p default : Position}
    (hv : Keyed.get? name ms = some p.toJson) :
    orElse parts name default (Position.ofTree? ·.1) = some p :=
  hc.orElse_eq hname hv fun _ => p.ofTree?_toTree

/-- A note is read as it was written, with its value or without. -/
theorem Note.ofTree?_toTree (n : Note) : ofTree? n.toJson.toTree = some n := by
  obtain ⟨parts, hparts, hc⟩ := exists_parts n.toJson ["name", "value"] rfl
    ((Json.names_optionalMember _ _).cons_cons _) (by decide)
  have hname : required parts "name" (·.1.string?) = some n.name :=
    hc.required_string (by decide) (by simp)
  have hvalue : optional parts "value" (·.1.string?) = some n.value :=
    hc.optional_string (by decide) (by simp)
  rw [ofTree?, hparts]
  simp [hname, hvalue]

theorem Role.ofTree?_name (held : Bool) (r : Role) :
    ofTree? held (Json.string r.name).toTree = some r := by
  cases r <;> rfl

theorem Scalar.ofTree?_name (held : Bool) (s : Scalar) :
    ofTree? held (Json.string s.name).toTree = some s :=
  ofName?_name s

/-- A policy is a word, or an object with one word as its only name. -/
theorem Privacy.ofTree?_toTree (held : Bool) (p : Privacy) :
    ofTree? held p.toJson.toTree = some p := by
  cases p <;> rfl

/-- An index is read as it was written. -/
theorem Index.ofTree?_toTree (i : Index) : ofTree? i.toJson.toTree = some i := by
  obtain ⟨parts, hparts, hc⟩ := exists_parts i.toJson ["field", "span"] rfl (.refl _) (by decide)
  have hfield : required parts "field" (·.1.string?) = some i.field :=
    hc.required_string (by decide) (by simp)
  have hposition : orElse parts "span" {} (Position.ofTree? ·.1) = some i.position :=
    hc.orElse_position (by decide) (by simp)
  rw [ofTree?, hparts]
  simp [hfield, hposition]

/-- A rule is read as it was written. -/
theorem Rule.ofTree?_toTree (r : Rule) : ofTree? r.toJson.toTree = some r := by
  obtain ⟨parts, hparts, hc⟩ := exists_parts r.toJson ["name", "body", "span"] rfl (.refl _)
    (by decide)
  have hname : required parts "name" (·.1.string?) = some r.name :=
    hc.required_string (by decide) (by simp)
  have hbody : required parts "body" (·.1.string?) = some r.body :=
    hc.required_string (by decide) (by simp)
  have hposition : orElse parts "span" {} (Position.ofTree? ·.1) = some r.position :=
    hc.orElse_position (by decide) (by simp)
  rw [ofTree?, hparts]
  simp [hname, hbody, hposition]

/-! ### Parts of structures -/

/-- A parameter as a value. -/
def Parameter.toJson (p : Parameter Node) : Json :=
  .object [("name", .string p.name), ("type", p.type.toJson)]

/-- A field as a value. -/
def Field.toJson (f : Field Node) : Json :=
  .object ([("name", .string f.name), ("type", f.type.toJson)] ++
    Json.optionalMember "policy" (f.privacy.map Privacy.toJson) ++
    [("readonly", .bool f.readonly)] ++
    Json.optionalMember "default_value" (f.initial.map .string) ++
    [("span", f.position.toJson)])

/-- A method as a value. -/
def Method.toJson (m : Method Node) : Json :=
  .object ([("name", .string m.name), ("params", .array (m.parameters.map Parameter.toJson))] ++
    Json.optionalMember "returns" (m.returns.map Node.toJson) ++
    [("readonly", .bool m.readonly), ("body", .string m.body), ("span", m.position.toJson)])

/-- The recursion that writes parameters is a map, and so are those that write fields and methods.
-/
theorem Parameter.listToJson_eq_map (ps : List (Parameter Node)) :
    listToJson ps = ps.map toJson := by
  induction ps with
  | nil => rw [listToJson, List.map_nil]
  | cons p ps ih => rw [listToJson, List.map_cons, ih, toJson]

theorem Field.listToJson_eq_map (fs : List (Field Node)) : listToJson fs = fs.map toJson := by
  induction fs with
  | nil => rw [listToJson, List.map_nil]
  | cons f fs ih => rw [listToJson, List.map_cons, ih, toJson]

theorem Method.resultMember_eq (result : Option Node) :
    resultMember result = Json.optionalMember "returns" (result.map Node.toJson) := by
  cases result <;> rw [resultMember] <;> rfl

theorem Method.listToJson_eq_map (ms : List (Method Node)) : listToJson ms = ms.map toJson := by
  induction ms with
  | nil => rw [listToJson, List.map_nil]
  | cons m ms ih =>
    rw [listToJson, List.map_cons, ih, toJson, Parameter.listToJson_eq_map, resultMember_eq]

theorem Structure.members_eq (s : Structure Node) :
    members s = [("name", .string s.name), ("specialization", .string s.role.name),
      ("fields", .array (s.fields.map Field.toJson))] ++
      Json.listMember "indices" (s.indices.map Index.toJson) ++
      Json.listMember "methods" (s.methods.map Method.toJson) ++
      Json.listMember "policies" (s.rules.map Rule.toJson) ++ [("span", s.position.toJson)] := by
  rw [members, Field.listToJson_eq_map, Method.listToJson_eq_map]

/-- A type is never written as `null`, which would be read as no type at all. -/
theorem Node.toTree_toJson_ne_null (n : Node) : n.toJson.toTree ≠ .null := by
  obtain ⟨position, notes, kind⟩ := n
  rw [toJson, Json.toTree]
  exact Tree.noConfusion

theorem Privacy.toTree_toJson_ne_null (p : Privacy) : p.toJson.toTree ≠ .null := by
  cases p <;> exact Tree.noConfusion

/-- A parameter is read if its type is. -/
theorem Parameter.ofTree?_toTree {p : Parameter Node}
    (htype : Node.ofTree? p.type.toJson.toTree = some p.type) :
    ofTree? p.toJson.toTree = some p := by
  -- Its parts carry what was written, each under its name.
  obtain ⟨parts, hparts, hc⟩ := exists_parts p.toJson ["name", "type"] rfl (.refl _) (by decide)
  have hname : required parts "name" (·.1.string?) = some p.name :=
    hc.required_string (by decide) (by simp)
  have htype : required parts "type" (Node.ofTree? ·.1) = some p.type :=
    hc.required_eq (v := p.type.toJson) (by decide) (by simp) fun _ => htype
  rw [ofTree?, hparts]
  simp [hname, htype]

/-- A field is read if its type is. What it leaves out when it is written has a default. -/
theorem Field.ofTree?_toTree (held : Bool) {f : Field Node}
    (htype : Node.ofTree? f.type.toJson.toTree = some f.type) :
    ofTree? held f.toJson.toTree = some f := by
  obtain ⟨parts, hparts, hc⟩ := exists_parts f.toJson
    ["name", "type", "policy", "readonly", "default_value", "span"] rfl
    (Keyed.names_append (Keyed.names_append (Keyed.names_append (Keyed.names_append (.refl _)
      (Json.names_optionalMember _ _)) (.refl _)) (Json.names_optionalMember _ _)) (.refl _))
    (by decide)
  -- Each slot gives the component that was written into it, or the default that was left out.
  have hname : required parts "name" (·.1.string?) = some f.name :=
    hc.required_string (by decide) (by simp)
  have htype : required parts "type" (Node.ofTree? ·.1) = some f.type :=
    hc.required_eq (v := f.type.toJson) (by decide) (by simp) fun _ => htype
  have hprivacy : optional parts "policy" (Privacy.ofTree? held ·.1) = some f.privacy :=
    hc.optional_eq (by decide) (by simp)
      Privacy.toTree_toJson_ne_null fun p _ _ => p.ofTree?_toTree held
  have hreadonly : orElse parts "readonly" false (·.1.bool?) = some f.readonly :=
    hc.orElse_bool (by decide) (by simp)
  have hinitial : optional parts "default_value" (·.1.string?) = some f.initial :=
    hc.optional_string (by decide) (by simp)
  have hposition : orElse parts "span" {} (Position.ofTree? ·.1) = some f.position :=
    hc.orElse_position (by decide) (by simp)
  rw [ofTree?, hparts]
  simp [hname, htype, hprivacy, hreadonly, hinitial, hposition]

/-- A method is read if the types of its parameters and of its result are. -/
theorem Method.ofTree?_toTree {m : Method Node}
    (hparameters : ∀ p ∈ m.parameters, Node.ofTree? p.type.toJson.toTree = some p.type)
    (hreturns : ∀ n ∈ m.returns, Node.ofTree? n.toJson.toTree = some n) :
    ofTree? m.toJson.toTree = some m := by
  obtain ⟨parts, hparts, hc⟩ := exists_parts m.toJson
    ["name", "params", "returns", "readonly", "body", "span"] rfl
    (Keyed.names_append (Keyed.names_append (.refl _) (Json.names_optionalMember _ _)) (.refl _))
    (by decide)
  have hname : required parts "name" (·.1.string?) = some m.name :=
    hc.required_string (by decide) (by simp)
  have hparameters : orElse parts "params" [] (·.1.items?.bind fun items =>
      items.mapM (Parameter.ofTree? ·.1)) = some m.parameters :=
    hc.orElse_eq (v := .array (m.parameters.map Parameter.toJson)) (by decide) (by simp) fun _ =>
        bind_items?_mapM fun p hp _ => Parameter.ofTree?_toTree (hparameters p hp)
  -- A result that is not there is read as none.
  have hreturns : optional parts "returns" (Node.ofTree? ·.1) = some m.returns :=
    hc.optional_eq (by decide) (by simp)
      Node.toTree_toJson_ne_null fun n hn _ => hreturns n hn
  have hreadonly : orElse parts "readonly" false (·.1.bool?) = some m.readonly :=
    hc.orElse_bool (by decide) (by simp)
  have hbody : required parts "body" (·.1.string?) = some m.body :=
    hc.required_string (by decide) (by simp)
  have hposition : orElse parts "span" {} (Position.ofTree? ·.1) = some m.position :=
    hc.orElse_position (by decide) (by simp)
  rw [ofTree?, hparts]
  simp only [hname, hparameters, hreturns, hreadonly, hbody, hposition, Option.bind_eq_bind,
    Option.bind_some, Option.pure_def]

/-! ### Structures -/

/-- A structure has no members but those that are looked for. -/
theorem Structure.names_members (s : Structure Node) :
    (Keyed.names (members s)).Sublist fieldNames := by
  rw [members_eq]
  exact Keyed.names_append (Keyed.names_append (Keyed.names_append (Keyed.names_append (.refl _)
    (Json.names_listMember _ _)) (Json.names_listMember _ _)) (Json.names_listMember _ _)) (.refl _)

/-- A structure is read if the types of its fields, parameters and results are. -/
theorem Structure.ofParts?_members {t : Tree} (held : Bool) {parts : List (String × t.Part)}
    {s : Structure Node} (hc : Tree.Carries parts fieldNames (members s))
    (htypes : ∀ n ∈ s.types, Node.ofTree? n.toJson.toTree = some n) :
    ofParts? t held parts = some s := by
  rw [members_eq] at hc
  have hfield : ∀ f ∈ s.fields, Node.ofTree? f.type.toJson.toTree = some f.type :=
    fun f hf => htypes f.type (List.mem_append_left _ (List.mem_map_of_mem hf))
  have hmethod : ∀ m ∈ s.methods, ∀ n ∈ m.parameters.map Parameter.type ++ m.returns.toList,
      Node.ofTree? n.toJson.toTree = some n :=
    fun m hm n hn => htypes n (List.mem_append_right _ (List.mem_flatMap.2 ⟨m, hm, hn⟩))
  have hname : required parts "name" (·.1.string?) = some s.name :=
    hc.required_string (by decide) (by simp)
  have hrole : orElse parts "specialization" .record (Role.ofTree? held ·.1) = some s.role :=
    hc.orElse_eq (v := .string s.role.name) (by decide) (by simp)
      fun _ => s.role.ofTree?_name held
  -- Fields and methods hold types, which are read by assumption.
  have hfields : orElse parts "fields" [] (·.1.items?.bind fun items =>
      items.mapM (Field.ofTree? held ·.1)) = some s.fields :=
    hc.orElse_eq (v := .array (s.fields.map Field.toJson)) (by decide) (by simp)
      fun _ => bind_items?_mapM fun f hf _ => Field.ofTree?_toTree held (hfield f hf)
  have hindices : orElse parts "indices" [] (·.1.listOf? Index.ofTree?) = some s.indices :=
    hc.orElse_eq_list (by decide) (by simp)
      fun _ => listOf?_eq_some fun i _ => i.ofTree?_toTree
  have hread : ∀ m ∈ s.methods, Method.ofTree? m.toJson.toTree = some m := fun m hm =>
    Method.ofTree?_toTree (fun p hp => hmethod m hm p.type (by simp; exact Or.inl ⟨p, hp, rfl⟩))
      fun n hn => hmethod m hm n (by simpa using Or.inr hn)
  have hmethods : orElse parts "methods" [] (·.1.items?.bind fun items =>
      items.mapM (Method.ofTree? ·.1)) = some s.methods :=
    hc.orElse_eq_list (by decide)
      (show _ = Keyed.get? _ (Json.listMember _ (s.methods.map Method.toJson)) by simp)
      fun _ => bind_items?_mapM fun m hm _ => hread m hm
  have hrules : orElse parts "policies" [] (·.1.listOf? Rule.ofTree?) = some s.rules :=
    hc.orElse_eq_list (by decide) (by simp)
      fun _ => listOf?_eq_some fun r _ => r.ofTree?_toTree
  have hposition : orElse parts "span" {} (Position.ofTree? ·.1) = some s.position :=
    hc.orElse_position (by decide) (by simp)
  rw [ofParts?]
  simp only [hname, hrole, hfields, hindices, hmethods, hrules, hposition, Option.bind_eq_bind,
    Option.bind_some, Option.pure_def]

/-- A structure is read as well where its members stand behind the name of a kind. -/
theorem Structure.ofParts?_inline {t : Tree} {parts : List (String × t.Part)} {kind : Json}
    {s : Structure Node} (hc : Tree.Carries parts fieldNames (("kind", kind) :: members s))
    (htypes : ∀ n ∈ s.types, Node.ofTree? n.toJson.toTree = some n) :
    ofParts? t true parts = some s := by
  refine ofParts?_members true (hc.congr fun name hname => ?_) htypes
  have hkind : "kind" ≠ name := by
    rintro rfl
    exact absurd hname (by decide)
  rw [Keyed.get?_cons, if_neg hkind]

/-! ### Types -/

/-- The name of a kind. -/
def Kind.tag : Kind Node → String
  | .scalar _ => "scalar"
  | .text => "text"
  | .replication _ _ => "replication_status"
  | .list _ => "list"
  | .map _ _ => "map"
  | .maybe _ => "maybe"
  | .table _ => "table"
  | .holder _ => "holder"
  | .projection _ _ => "projection"
  | .lazy _ _ _ => "lazy"
  | .record _ => "record"
  | .message _ => "message"
  | .ref _ => "ref"

/-- The name of a kind is written as a text and read as a name of a kind. -/
theorem Kind.nameOfTree?_tag (k : Kind Node) :
    nameOfTree? (Json.string k.tag).toTree = some k.tag := by
  cases k <;> rfl

theorem Kind.get?_members_kind (k : Kind Node) :
    Keyed.get? "kind" k.members = some (.string k.tag) := by
  cases k <;> simp [members, tag]

/-- A kind has no members but its name and those that belong to it. -/
theorem Kind.names_members (k : Kind Node) :
    (Keyed.names k.members).Sublist ("kind" :: memberNames k.tag) := by
  cases k with
  | record s | message s =>
    rw [members]
    exact s.names_members.cons_cons "kind"
  | _ =>
    rw [members]
    exact .refl _

theorem Kind.nodup_names (k : Kind Node) :
    ("position" :: "annotations" :: "kind" :: memberNames k.tag).Nodup := by
  cases k <;> simp [memberNames, tag, Structure.fieldNames]

theorem Kind.get?_members_eq_none {k : Kind Node} {name : String}
    (h : name ∉ "kind" :: memberNames k.tag) : Keyed.get? name k.members = none :=
  (Keyed.get?_eq_none_iff name k.members).2 fun hname => h (k.names_members.subset hname)

/-- A kind is read if the types and the structure in it are. -/
theorem Kind.ofParts?_members {t : Tree} {parts : List (String × t.Part)} {k : Kind Node}
    (hc : Tree.Carries parts (memberNames k.tag) k.members)
    (hparts : ∀ m ∈ (Node.ofKind k).parts, Node.ofTree? m.toJson.toTree = some m)
    (htypes : ∀ s, (Node.ofKind k).structure? = some s →
      ∀ m ∈ s.types, Node.ofTree? m.toJson.toTree = some m) :
    ofParts? t k.tag parts = some k := by
  -- The types in a kind are read as one argument, whatever they are called.
  have hnode : ∀ m ∈ (Node.ofKind k).parts, ∀ name ∈ memberNames k.tag,
      Keyed.get? name k.members = some m.toJson →
      required parts name (Node.ofTree? ·.1) = some m :=
    fun m hm name hname hv => hc.required_eq hname hv fun _ => hparts m hm
  cases k with
  | scalar s =>
    rw [tag, members] at hc
    have hscalar : required parts "scalar" (Scalar.ofTree? true ·.1) = some s :=
      hc.required_eq (v := .string s.name) (by decide) (by simp) fun _ => s.ofTree?_name true
    rw [tag, ofParts?]
    simp [hscalar]
  | text =>
    rw [tag, ofParts?]
    rfl
  | replication service method =>
    rw [tag, members] at hc
    have hservice : required parts "service" (·.1.string?) = some service :=
      hc.required_string (by decide) (by simp)
    have hmethod : required parts "method" (·.1.string?) = some method :=
      hc.required_string (by decide) (by simp)
    rw [tag, ofParts?]
    simp [hservice, hmethod]
  | list element =>
    rw [tag, members] at hnode
    have helement := hnode element (.head _) "element" (by decide) (by simp)
    rw [tag, ofParts?]
    simp [helement]
  | map domain range =>
    rw [tag, members] at hnode
    have hdomain := hnode domain (.head _) "domain" (by decide) (by simp)
    have hrange := hnode range (.tail _ (.head _)) "range" (by decide) (by simp)
    rw [tag, ofParts?]
    simp [hdomain, hrange]
  | maybe inner =>
    rw [tag, members] at hnode
    have hinner := hnode inner (.head _) "inner" (by decide) (by simp)
    rw [tag, ofParts?]
    simp [hinner]
  | table record =>
    rw [tag, members] at hc
    have hrecord : required parts "record" (·.1.string?) = some record :=
      hc.required_string (by decide) (by simp)
    rw [tag, ofParts?]
    simp [hrecord]
  | holder message =>
    rw [tag, members] at hc
    have hmessage : required parts "message" (·.1.string?) = some message :=
      hc.required_string (by decide) (by simp)
    rw [tag, ofParts?]
    simp [hmessage]
  | projection table field =>
    rw [tag, members] at hc
    have htable : required parts "table" (·.1.string?) = some table :=
      hc.required_string (by decide) (by simp)
    have hfield : required parts "field" (·.1.string?) = some field :=
      hc.required_string (by decide) (by simp)
    rw [tag, ofParts?]
    simp [htable, hfield]
  | lazy computed formula cached =>
    rw [tag, members] at hc hnode
    have hcomputed := hnode computed (.head _) "computed" (by decide) (by simp)
    have hcached : orElse parts "cached" false (·.1.bool?) = some cached :=
      hc.orElse_bool (by decide) (by simp)
    have hformula : required parts "formula" (·.1.string?) = some formula :=
      hc.required_string (by decide) (by simp)
    rw [tag, ofParts?]
    simp [hcomputed, hcached, hformula]
  | record s =>
    rw [tag, members] at hc
    -- The members of the structure stand beside the name of the kind.
    have hs := Structure.ofParts?_inline hc (htypes s rfl)
    rw [tag, ofParts?]
    simp [hs]
  | message s =>
    rw [tag, members] at hc
    have hs := Structure.ofParts?_inline hc (htypes s rfl)
    rw [tag, ofParts?]
    simp [hs]
  | ref name =>
    rw [tag, members] at hc
    have hname : required parts "name" (·.1.string?) = some name :=
      hc.required_string (by decide) (by simp)
    rw [tag, ofParts?]
    simp [hname]

/-- What was written is of use, so nothing that is held back fails. -/
theorem Node.heldUsable_memberParts (ms : List (String × Json)) :
    heldUsable (Tree.memberParts (Json.memberTrees ms)) = true := by
  rw [heldUsable, List.all_eq_true]
  intro m hm
  have hval := List.mem_map_of_mem (f := fun m => (m.1, m.2.1)) hm
  have htrees := (Tree.map_val_memberParts (Json.memberTrees ms)).trans (Json.memberTrees_eq_map ms)
  rw [htrees, List.mem_map] at hval
  obtain ⟨m', -, hm'⟩ := hval
  have husable : m.2.1.isUsable = true := by
    rw [← (Prod.mk.inj hm').2]
    exact m'.2.isUsable_toTree
  rw [husable, Bool.or_true]

/-- A node as a value: its own members come before those of its kind. -/
def Node.members (n : Node) : List (String × Json) :=
  ("position", n.position.toJson) ::
    (Json.listMember "annotations" (n.notes.map Note.toJson) ++ n.kind.members)

theorem Node.toJson_eq (n : Node) : n.toJson = .object n.members := by
  obtain ⟨position, notes, kind⟩ := n
  rw [toJson, members]

theorem Node.nodup_names (n : Node) : (Keyed.names n.members).Nodup :=
  ((Keyed.names_append (Json.names_listMember _ _) n.kind.names_members).cons_cons
    "position").nodup n.kind.nodup_names

/-- A name of the kind leads past the members that all nodes have. -/
theorem Node.get?_members_of_kind (n : Node) {name : String}
    (hname : name ∈ Kind.memberNames n.kind.tag) :
    Keyed.get? name n.members = Keyed.get? name n.kind.members := by
  have hnodup := n.kind.nodup_names
  have hposition : "position" ≠ name := by
    rintro rfl
    simp [hname] at hnodup
  have hnotes : "annotations" ≠ name := by
    rintro rfl
    simp [hname] at hnodup
  simp [members, hposition, hnotes]

/-- A node is read if its kind is. -/
theorem Node.ofTree?_of_kind {n : Node}
    (hkind : ∀ parts : List (String × n.toJson.toTree.Part),
      Tree.Carries parts (Kind.memberNames n.kind.tag) n.kind.members →
      Kind.ofParts? n.toJson.toTree n.kind.tag parts = some n.kind) :
    ofTree? n.toJson.toTree = some n := by
  rw [toJson_eq] at hkind ⊢
  obtain ⟨own, hown, hc⟩ := exists_known n.nodup_names ["position", "annotations", "kind"]
  obtain ⟨parts, hparts, hparts'⟩ := exists_known n.nodup_names (Kind.memberNames n.kind.tag)
  have hposition : orElse own "position" {} (Position.ofTree? ·.1) = some n.position :=
    hc.orElse_position (by decide) (by simp [members])
  have hnotes : orElse own "annotations" [] (·.1.listOf? Note.ofTree?) = some n.notes := by
    have hnone : Keyed.get? "annotations" n.kind.members = none :=
      Kind.get?_members_eq_none fun h => by simpa [h] using n.kind.nodup_names
    exact hc.orElse_eq_list (by decide) (by simp [members, hnone])
      fun _ => listOf?_eq_some fun r _ => r.ofTree?_toTree
  -- The tag is read first and says which slots there are.
  have htag : required own "kind" (Kind.nameOfTree? ·.1) = some n.kind.tag :=
    hc.required_eq (v := .string n.kind.tag) (by decide)
      (by simp [members, n.kind.get?_members_kind]) fun _ => n.kind.nameOfTree?_tag
  have hkind : Kind.ofParts? (.object (Json.memberTrees n.members)) n.kind.tag parts =
      some n.kind :=
    hkind parts (hparts'.congr fun name hname => n.get?_members_of_kind hname)
  rw [ofTree?, Json.toTree, Tree.members?]
  simp only [heldUsable_memberParts, hown, hposition, hnotes, htag, hparts, hkind,
    Option.bind_eq_bind, Option.bind_some, if_true, Option.pure_def]
  cases n
  rfl

/-- **Types** are read as they were written. -/
theorem Node.ofTree?_toTree (n : Node) : ofTree? n.toJson.toTree = some n := by
  induction n using Node.induction with
  | h n hparts htypes =>
    exact ofTree?_of_kind fun parts hc => Kind.ofParts?_members hc hparts htypes

/-- **Structures** are read as they were written. -/
theorem Structure.ofTree?_toTree (s : Structure Node) : ofTree? s.toJson.toTree = some s := by
  obtain ⟨parts, hparts, hc⟩ := exists_parts s.toJson fieldNames rfl s.names_members (by decide)
  rw [ofTree?, hparts]
  exact ofParts?_members false hc fun n _ => n.ofTree?_toTree

/-! ### Text

The only numbers in what is written are those of positions, which the scanner finds again. -/

theorem Json.legible_ofNat (n : UInt32) : (Json.ofNat n.toNat).Legible := by
  have hn := n.toNat_lt
  exact .number (Number.readsBack_integer (by omega) (by omega))

@[simp] theorem Position.legible (p : Position) : p.toJson.Legible := by
  simp [toJson, Json.legible_ofNat]

@[simp] theorem Note.legible (n : Note) : n.toJson.Legible := by
  simp [toJson]

@[simp] theorem Privacy.legible (p : Privacy) : p.toJson.Legible := by
  cases p <;> simp [toJson]

@[simp] theorem Index.legible (i : Index) : i.toJson.Legible := by
  simp [toJson]

@[simp] theorem Rule.legible (r : Rule) : r.toJson.Legible := by
  simp [toJson]

theorem Field.legible {f : Field Node} (h : f.type.toJson.Legible) : f.toJson.Legible := by
  simp [toJson, h]

theorem Method.legible {m : Method Node}
    (h : ∀ n ∈ m.parameters.map Parameter.type ++ m.returns.toList, n.toJson.Legible) :
    m.toJson.Legible := by
  have hparameter : ∀ p ∈ m.parameters, p.toJson.Legible := by
    intro p hp
    have htype := h p.type (List.mem_append_left _ (List.mem_map_of_mem hp))
    simp [Parameter.toJson, htype]
  have hreturns : ∀ n ∈ m.returns, n.toJson.Legible :=
    fun n hn => h n (List.mem_append_right _ (Option.mem_toList.2 hn))
  simpa [toJson] using ⟨hparameter, hreturns⟩

theorem Structure.allLegible {s : Structure Node} (h : ∀ n ∈ s.types, n.toJson.Legible) :
    Json.AllLegible (members s) := by
  have hfields : ∀ f ∈ s.fields, f.toJson.Legible :=
    fun f hf => f.legible (h f.type (List.mem_append_left _ (List.mem_map_of_mem hf)))
  have hmethods : ∀ m ∈ s.methods, m.toJson.Legible := fun m hm => Method.legible fun n hn =>
    h n (List.mem_append_right _ (List.mem_flatMap.2 ⟨m, hm, hn⟩))
  rw [members_eq]
  simpa using ⟨hfields, hmethods⟩

theorem Node.legible (n : Node) : n.toJson.Legible := by
  induction n using Node.induction with
  | h n hparts htypes =>
    have hkind : Json.AllLegible n.kind.members := by
      obtain ⟨position, notes, kind⟩ := n
      cases kind with
      | record s | message s =>
        simpa [Kind.members] using Structure.allLegible (htypes s rfl)
      | list | map | maybe | lazy => simpa [Kind.members, Node.parts] using hparts
      | _ => simp [Kind.members]
    simp [toJson_eq, Node.members, hkind]

theorem Structure.legible (s : Structure Node) : s.toJson.Legible :=
  Json.legible_object_iff.2 (allLegible fun n _ => n.legible)

end ReactiveSpace
