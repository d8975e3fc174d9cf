import ReactiveSpace.Proofs.Space.Checking
import ReactiveSpace.Reflection

/-!
# The names in a reflection

A reflection mentions structures by name, under `ref`, `record_name` and `message_name`
(`Reflection.mentioned`). A reference is mentioned under the name it is written with, which is
always that of a type of the reflection. A structure that is written inline, and the rows of a table
and the message of a holder, are mentioned under the name of their structure (`Table.Describes`), so
in a well-formed table all names that are mentioned are names of types exactly when these are
(`Reflection.mentioned_subset_iff`).
-/

namespace ReactiveSpace

namespace Json

mutual

/-- The texts that stand under one of the `keys`, at any depth. -/
def textsUnder (keys : List String) : Json → List String
  | .array items => itemTexts keys items
  | .object members => memberTexts keys members
  | _ => []

/-- The texts in the items of an array. -/
def itemTexts (keys : List String) : List Json → List String
  | [] => []
  | j :: js => textsUnder keys j ++ itemTexts keys js

/-- The texts in the members of an object. -/
def memberTexts (keys : List String) : List (String × Json) → List String
  | [] => []
  | (key, value) :: members =>
    (if key ∈ keys then value.string?.toList else []) ++ textsUnder keys value ++
      memberTexts keys members

end

/-- Members are searched one after the other. -/
theorem memberTexts_append (keys : List String) (ms ns : List (String × Json)) :
    memberTexts keys (ms ++ ns) = memberTexts keys ms ++ memberTexts keys ns := by
  induction ms with
  | nil => simp [memberTexts]
  | cons m ms ih =>
    obtain ⟨key, value⟩ := m
    simp [memberTexts, ih]

theorem itemTexts_eq_flatMap (keys : List String) (js : List Json) :
    itemTexts keys js = js.flatMap (textsUnder keys) := by
  induction js with
  | nil => simp [itemTexts]
  | cons j js ih => simp [itemTexts, ih]

end Json

/-- The name of a structure stands in the description of a type. -/
inductive Table.Describes (t : Table) : Node → String → Prop
  | self {n : Node} {s : Structure Node} : n.structure? = some s → Describes t n s.name
  | table {n : Node} {record : String} {s : Structure Node} :
    n.kind = .table record → t.NamesKind record (.record s) → Describes t n s.name
  | holder {n : Node} {message : String} {s : Structure Node} :
    n.kind = .holder message → t.NamesKind message (.message s) → Describes t n s.name
  | part {n m : Node} {name : String} : m ∈ n.parts → Describes t m name → Describes t n name

namespace Reflection

/-- The names of structures that a reflection mentions. -/
def mentioned (j : Json) : List String :=
  j.textsUnder ["ref", "record_name", "message_name"]

/-- The types that the definition of a type describes: those of its fields, or itself. -/
def describedIn (n : Node) : List Node :=
  match n.structure? with
  | some s => s.fields.map Field.type
  | none => [n]

/-- The types that the reflection of a table describes. -/
def described (t : Table) : List Node :=
  t.entries.flatMap (fun e => describedIn e.2) ++ t.root.fields.map Field.type

variable {t : Table} {scope : Option (Structure Node)} {n : Node} {name : String}

theorem mentioned_nil : mentioned (.object []) = [] := rfl

theorem mentioned_string (text : String) : mentioned (.string text) = [] := rfl

/-- A member mentions a name by its text, or through what its value mentions. -/
theorem mentioned_cons (key : String) (value : Json) (members : List (String × Json)) :
    mentioned (.object ((key, value) :: members)) =
      (if key ∈ ["ref", "record_name", "message_name"] then value.string?.toList else []) ++
        mentioned value ++ mentioned (.object members) := by
  simp only [mentioned, Json.textsUnder, Json.memberTexts]

/-- Members of an object mention names independently of each other. -/
theorem mentioned_append (ms ns : List (String × Json)) :
    mentioned (.object (ms ++ ns)) = mentioned (.object ms) ++ mentioned (.object ns) := by
  simp only [mentioned, Json.textsUnder, Json.memberTexts_append]

theorem mentioned_array (items : List Json) :
    mentioned (.array items) = items.flatMap mentioned := by
  unfold mentioned
  rw [Json.textsUnder, Json.itemTexts_eq_flatMap]

/-- Neither the nature of a type nor its notes mention a structure. -/
theorem mentioned_header : mentioned (.object (header n)) = [] := by
  have hnote : ∀ note : Note, mentioned note.toJson = [] := by
    rintro ⟨name, value⟩
    cases value <;>
      simp [Note.toJson, Json.optionalMember, mentioned_cons, mentioned_string, mentioned_nil]
  unfold header
  cases n.notes with
  | nil => simp [Json.listMember, mentioned_cons, mentioned_string, mentioned_nil]
  | cons note notes =>
    simp [Json.listMember, mentioned_cons, mentioned_string, mentioned_nil, mentioned_array, hnote]

/-- A container mentions what its parts mention. -/
theorem mentioned_mention_of_parts (site : Site) (h : n.parts ≠ []) :
    mentioned (mention t site n) = n.parts.flatMap fun m => mentioned (mention t site m) := by
  obtain ⟨position, notes, kind⟩ := n
  cases kind <;> simp [Node.parts] at h
  all_goals
    conv_lhs => unfold mention
    simp [mentioned_append, mentioned_header, mentioned_cons, mentioned_nil, Node.parts]

/-- A reference mentions the name it is written with, whatever that leads to. -/
theorem mentioned_mention_of_ref (site : Site) (h : n.reference? = some name) :
    mentioned (mention t site n) = [name] := by
  obtain ⟨position, notes, kind⟩ := n
  obtain rfl : kind = .ref name := Node.reference?_eq_some_iff.1 h
  unfold mention
  simp [mentioned_append, mentioned_header, mentioned_cons, mentioned_nil, mentioned_string,
    Json.string?]

/-- A table mentions its rows by their own name, not by the alias they were found with. -/
theorem mentioned_mention_of_table {record : String} {s : Structure Node}
    (hn : n.kind = .table record) (hs : t.NamesKind record (.record s)) :
    mentioned (mention t (.declared scope) n) = [s.name] := by
  have hresolution : n.resolution? t (.declared scope) = some (.record s.name) :=
    Table.resolution?_of_table hn hs
  obtain ⟨position, notes, kind⟩ := n
  obtain rfl : kind = .table record := hn
  unfold mention
  simp [mentioned_append, mentioned_header, mentioned_cons, mentioned_nil, mentioned_string,
    Json.string?, resolvedName, hresolution]

/-- A holder mentions its message by its own name too. -/
theorem mentioned_mention_of_holder {message : String} {s : Structure Node}
    (hn : n.kind = .holder message) (hs : t.NamesKind message (.message s)) :
    mentioned (mention t (.declared scope) n) = [s.name] := by
  have hresolution : n.resolution? t (.declared scope) = some (.message s.name) :=
    Table.resolution?_of_holder hn hs
  obtain ⟨position, notes, kind⟩ := n
  obtain rfl : kind = .holder message := hn
  unfold mention
  simp [mentioned_append, mentioned_header, mentioned_cons, mentioned_nil, mentioned_string,
    Json.string?, resolvedName, hresolution]

/-- A projection names its table and its field, and no structure. -/
theorem mentioned_mention_of_projection (site : Site) {table field : String}
    (hn : n.kind = .projection table field) : mentioned (mention t site n) = [] := by
  obtain ⟨position, notes, kind⟩ := n
  obtain rfl : kind = .projection table field := hn
  have hdomain :
      mentioned (projectionDomain t site ⟨position, notes, .projection table field⟩) = [] := by
    unfold projectionDomain
    split
    · simp [mentioned_cons, mentioned_nil, mentioned_string]
    · rfl
  unfold mention
  simp [mentioned_append, mentioned_header, mentioned_cons, mentioned_nil, mentioned_string,
    hdomain]

/-- A type that is neither a container nor a reference is described with one name at most. -/
theorem exists_described (ht : t.WellFormed) (hn : t.Occurs (.type scope n)) (hparts : n.parts = [])
    (href : n.reference? = none) :
    ∃ used : Option String, (∀ name, t.Describes n name ↔ used = some name) ∧
      mentioned (mention t (.declared scope) n) = used.toList := by
  cases hk : n.kind with
  | scalar | text | replication =>
    refine ⟨none, fun name => ⟨fun h => ?_, by simp⟩, ?_⟩
    · cases h <;> simp_all [Node.structure?]
    · obtain ⟨position, notes, kind⟩ := n
      obtain rfl := hk
      unfold mention
      simp [mentioned_append, mentioned_header, mentioned_cons, mentioned_nil, mentioned_string]
  | projection table field =>
    refine ⟨none, fun name => ⟨fun h => ?_, by simp⟩, mentioned_mention_of_projection _ hk⟩
    cases h <;> simp_all [Node.structure?]
  | list | map | maybe | lazy => simp [Node.parts, hk] at hparts
  -- A reference was excluded: it mentions a name without describing anything.
  | ref name => simp [Node.reference?, hk] at href
  | table record =>
    obtain ⟨s, hs⟩ := ht.exists_rows hn hk
    refine ⟨some s.name, fun name => ⟨fun h => ?_, ?_⟩, mentioned_mention_of_table hk hs⟩
    · cases h with
      | table hk' hs' =>
        obtain rfl := Kind.table.inj (hk.symm.trans hk')
        rw [Kind.record.inj (hs.unique hs')]
      | _ => simp_all [Node.structure?]
    · rintro ⟨⟩
      exact .table hk hs
  | holder message =>
    obtain ⟨s, hs⟩ := ht.exists_held hn hk
    refine ⟨some s.name, fun name => ⟨fun h => ?_, ?_⟩, mentioned_mention_of_holder hk hs⟩
    · cases h with
      | holder hk' hs' =>
        obtain rfl := Kind.holder.inj (hk.symm.trans hk')
        rw [Kind.message.inj (hs.unique hs')]
      | _ => simp_all [Node.structure?]
    · rintro ⟨⟩
      exact .holder hk hs
  -- A structure in the place of a type is only named.
  | record s | message s =>
    have hs : n.structure? = some s := by simp [Node.structure?, hk]
    refine ⟨some s.name, fun name => ⟨fun h => ?_, ?_⟩, ?_⟩
    · cases h <;> simp_all
    · rintro ⟨⟩
      exact .self hs
    · obtain ⟨position, notes, kind⟩ := n
      obtain rfl := hk
      rfl

/-- A container is described with the names of its parts. -/
theorem describes_iff_of_parts (h : n.parts ≠ []) :
    t.Describes n name ↔ ∃ m ∈ n.parts, t.Describes m name := by
  constructor
  · intro hn
    cases hn with
    | part hm hname => exact ⟨_, hm, hname⟩
    | self hs =>
      cases hk : n.kind <;> simp_all [Node.structure?, Node.parts]
    | table hk | holder hk => simp [Node.parts, hk] at h
  · rintro ⟨m, hm, hname⟩
    exact .part hm hname

/-- A reference does not describe a structure; it is a name already. -/
theorem not_describes_of_ref {ref : String} (h : n.reference? = some ref) :
    ¬ t.Describes n name := by
  have hk := Node.reference?_eq_some_iff.1 h
  intro hn
  cases hn <;> simp_all [Node.structure?, Node.parts]

/-- If a set has the names of all types, it has all names in the reflection of a type exactly when
it has those of the structures that are described. -/
theorem forall_mentioned_mention_iff (ht : t.WellFormed) (hn : t.Occurs (.type scope n))
    {p : String → Prop} (hp : ∀ name ∈ t.names, p name) :
    (∀ name ∈ mentioned (mention t (.declared scope) n), p name) ↔
      ∀ name, t.Describes n name → p name := by
  -- The induction is on the size, for a container is described by its parts.
  induction hsize : sizeOf n using Nat.strong_induction_on generalizing n with
  | _ size ih =>
    by_cases hparts : n.parts = []
    · cases href : n.reference? with
      | none =>
        obtain ⟨used, hused, heq⟩ := exists_described ht hn hparts href
        simp only [heq, hused, Option.mem_toList]
      | some ref =>
        -- A reference is written with the name of an entry, which need not be its target's own.
        rw [mentioned_mention_of_ref _ href, List.forall_mem_singleton]
        obtain ⟨target, hnames⟩ := ht.exists_names hn href
        obtain ⟨node, hget, -⟩ := hnames
        refine iff_of_true (hp ref (Table.mem_names_of_get? hget)) fun name h => ?_
        exact absurd h (not_describes_of_ref href)
    · have hpart : ∀ m ∈ n.parts, (∀ name ∈ mentioned (mention t (.declared scope) m), p name) ↔
          ∀ name, t.Describes m name → p name :=
        fun m hm => ih _ (hsize ▸ Node.sizeOf_lt_of_mem_parts hm) (.part hn hm) rfl
      rw [mentioned_mention_of_parts _ hparts, List.forall_mem_flatMap]
      simp only [describes_iff_of_parts hparts]
      constructor
      · rintro h name ⟨m, hm, hname⟩
        exact (hpart m hm).1 (h m hm) name hname
      · intro h m hm
        exact (hpart m hm).2 fun name hname => h name ⟨m, hm, hname⟩

/-! ### All of a table -/

theorem string?_mention (site : Site) : (mention t site n).string? = none := by
  obtain ⟨position, notes, kind⟩ := n
  cases kind <;> rfl

/-- A type that is defined is never a bare text. -/
theorem string?_definition (site : Site) : (definition t site n).string? = none := by
  unfold definition
  split
  · rfl
  · exact string?_mention site

/-- Members that are no texts mention what their values mention, whatever their keys. -/
theorem mentioned_members {α : Type} (items : List α) (key : α → String) (value : α → Json)
    (h : ∀ a, (value a).string? = none) :
    mentioned (.object (items.map fun a => (key a, value a))) =
      items.flatMap fun a => mentioned (value a) := by
  induction items with
  | nil => rfl
  | cons a items ih => simp [mentioned_cons, h, ih]

/-- The fields of a structure mention what their types mention. -/
theorem mentioned_fields {s : Structure Node} (hd : (s.fields.map Field.name).Nodup) :
    mentioned (fields t (.declared none) s) =
      s.fields.flatMap fun f => mentioned (mention t (.declared (some s)) f.type) := by
  -- Of two fields with one name only the later would be described.
  unfold fields
  rw [Keyed.ofPairs_eq_self, mentioned_members _ _ _ fun f => rfl]
  · simp only [mentioned_cons, mentioned_nil, mentioned_string, string?_mention]
    simp [Site.inside]
  · rw [Keyed.names, List.map_map]
    exact hd

/-- A reflection mentions what its types and its root mention. -/
theorem mentioned_ofTable :
    mentioned (ofTable t) =
      (t.entries.flatMap fun e => mentioned (definition t (.declared none) e.2)) ++
        mentioned (fields t (.declared none) t.root) := by
  unfold ofTable
  rw [mentioned_cons, mentioned_members _ _ _ fun e => string?_definition _]
  simp [mentioned_cons, mentioned_nil, mentioned_string]

variable {p : String → Prop}

/-- What the fields of a structure mention is what they describe, and names of types. -/
theorem forall_mentioned_fields_iff (ht : t.WellFormed) {s : Structure Node}
    (hs : t.Occurs (.body s)) (hp : ∀ name ∈ t.names, p name) :
    (∀ name ∈ mentioned (fields t (.declared none) s), p name) ↔
      ∀ n ∈ s.fields.map Field.type, ∀ name, t.Describes n name → p name := by
  rw [mentioned_fields (ht.structures s hs).fields_nodup, List.forall_mem_flatMap,
    List.forall_mem_map]
  refine forall₂_congr fun f hf => ?_
  refine forall_mentioned_mention_iff ht (.member hs ?_) hp
  exact List.mem_append_left _ (List.mem_map_of_mem hf)

/-- What a definition mentions is what it describes, and names of types. -/
theorem forall_mentioned_definition_iff (ht : t.WellFormed) (hn : t.Occurs (.type none n))
    (hp : ∀ name ∈ t.names, p name) :
    (∀ name ∈ mentioned (definition t (.declared none) n), p name) ↔
      ∀ m ∈ describedIn n, ∀ name, t.Describes m name → p name := by
  unfold definition describedIn
  cases hs : n.structure? with
  | some s =>
    dsimp only
    rw [← forall_mentioned_fields_iff ht (.body hn hs) hp]
    simp [mentioned_append, mentioned_header, mentioned_cons, mentioned_nil, mentioned_string]
  | none =>
    dsimp only
    rw [List.forall_mem_singleton]
    exact forall_mentioned_mention_iff ht hn hp

/-- The names in the reflection of a well-formed table are all names of types exactly when those of
the structures that it describes are. -/
theorem mentioned_subset_iff (ht : t.WellFormed) :
    (∀ name ∈ mentioned (ofTable t), name ∈ t.names) ↔
      ∀ n ∈ described t, ∀ name, t.Describes n name → name ∈ t.names := by
  rw [mentioned_ofTable, described, List.forall_mem_append, List.forall_mem_append,
    List.forall_mem_flatMap, List.forall_mem_flatMap,
    forall_mentioned_fields_iff ht .root fun _ h => h]
  refine and_congr_left' (forall₂_congr fun e he => ?_)
  exact forall_mentioned_definition_iff ht (.entry he) fun _ h => h

end Reflection

end ReactiveSpace
