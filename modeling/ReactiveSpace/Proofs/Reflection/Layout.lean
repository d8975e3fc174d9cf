import ReactiveSpace.Proofs.Json.Parts
import ReactiveSpace.Proofs.Space.Checking
import ReactiveSpace.Proofs.Space.Dependency
import ReactiveSpace.Reflection

/-!
# The layout of a reflection

The format fixes which keys the object of a type has, and in which order: `nature`, then
`annotations` if the type has notes, then the keys that belong to its kind (`Reflection.format`).
A structure that another type mentions is only named. Paths of keys lead through a reflection to
the types that it describes (`Table.describedAt?`): the object at the end of such a path is the
one documented for its type (`Reflection.exists_object_at?`), and no other object states a nature
(`Reflection.exists_describedAt?`). With what stands under `types` and `fields` this is
`Draft.reflection_laid_out`, about every checked space.
-/

namespace ReactiveSpace

namespace Json

/-- The value at the end of a path of keys. -/
def at? : List String → Json → Option Json
  | [], j => some j
  | key :: path, j => (j.get? key).bind (at? path)

theorem at?_cons {key : String} {path : List String} {j v : Json} (h : j.get? key = some v) :
    j.at? (key :: path) = v.at? path := by
  rw [at?, h, Option.bind_some]

/-- No path leads through a value that is no object to one. -/
theorem at?_ne_object {j : Json} (h : ∀ ms, j ≠ .object ms) (path : List String)
    (ms : List (String × Json)) : j.at? path ≠ some (.object ms) := by
  cases path with
  | nil =>
    rw [at?, Ne, Option.some.injEq]
    exact h ms
  | cons key path =>
    have hget : j.get? key = none := by
      cases j with
      | object members => exact absurd rfl (h members)
      | _ => rfl
    rw [at?, hget]
    exact nofun

end Json

/-! ### Paths -/

/-- The last field of the given name. -/
def Structure.lastField? (s : Structure Node) (name : String) : Option (Field Node) :=
  s.fields.reverse.find? fun f => f.name == name

namespace Reflection

/-- How a type is described: as it is defined, or as other types mention it. -/
inductive Aspect where
  | defined
  | mentioned

/-- The types that the object of a type describes, each under its key. A projection describes the
domain that it comes to. -/
def namedParts (t : Table) (site : Site) (n : Node) : List (String × Node) :=
  match n.kind with
  | .list element => [("type", element)]
  | .map domain range => [("domain", domain), ("range", range)]
  | .maybe inner => [("type", inner)]
  | .lazy computed _ _ => [("type", computed)]
  | .projection _ _ =>
    match n.resolution? t site with
    | some (.projection _ _ domain) => [("domain", .ofScalar domain)]
    | _ => []
  | _ => []

/-- The type at the end of a path that starts where another type is mentioned. -/
def mentionedAt? (t : Table) (site : Site) : List String → Node → Option Node
  | [], n => some n
  | key :: path, n => (Keyed.get? key (namedParts t site n)).bind (mentionedAt? t site path)

/-- The type at the end of a path that starts at the fields of a structure. -/
def fieldTypeAt? (t : Table) (s : Structure Node) : List String → Option Node
  | name :: "type" :: path =>
    (s.lastField? name).bind fun f => mentionedAt? t (.declared (some s)) path f.type
  | _ => none

/-- The type at the end of a path that starts where another one is defined. -/
def definedAt? (t : Table) (n : Node) : List String → Option (Aspect × Node)
  | [] => some (.defined, n)
  | key :: path =>
    match n.structure? with
    | some s => if key = "fields" then (fieldTypeAt? t s path).map (Prod.mk .mentioned) else none
    | none => (mentionedAt? t (.declared none) (key :: path) n).map (Prod.mk .mentioned)

end Reflection

namespace Table

open Reflection (Aspect definedAt?)

/-- The type that the reflection of a table describes at the end of a path. The root is described as
a record. -/
def describedAt? (t : Table) : List String → Option (Aspect × Node)
  | "types" :: name :: path => (t.get? name).bind fun n => definedAt? t n path
  | "root" :: path => definedAt? t (.ofRecord t.root) path
  | _ => none

/-- The structure that the reflection of a table defines at the end of a path. -/
def structureAt? (t : Table) : List String → Option (Structure Node)
  | ["types", name] => (t.get? name).bind Node.structure?
  | ["root"] => some t.root
  | _ => none

end Table

namespace Reflection

/-! ### What is documented -/

/-- What the format fixes for a kind: the nature that opens its object, and the keys that belong to
it, in order. -/
def format : Kind Node → String × List String
  | .scalar _ => ("reactive_value", ["type"])
  | .text => ("reactive_text", [])
  | .replication _ _ => ("replication_status", [])
  | .list _ => ("reactive_list", ["type"])
  | .map _ _ => ("reactive_map", ["domain", "range"])
  | .maybe _ => ("reactive_maybe", ["type"])
  | .table _ => ("reactive_table", ["record_name"])
  | .holder _ => ("reactive_holder", ["message_name"])
  | .projection _ _ => ("reactive_projection", ["table", "field", "domain"])
  | .lazy _ _ _ => ("reactive_lazy", ["type"])
  | .record _ => ("reactive_record", ["name", "fields"])
  | .message _ => ("native_message", ["name", "fields"])
  | .ref _ => ("reactive_ref", ["ref"])

/-- The object of a note: its name, and its value when there is one. -/
def noteObject (note : Note) : Json :=
  match note.value with
  | none => .object [("name", .string note.name)]
  | some value => .object [("name", .string note.name), ("value", .string value)]

/-- The members of a type that is described in full: the nature, the notes if there are any, and the
keys that belong to the kind, in this order and no others. -/
structure LaidOut (n : Node) (ms : List (String × Json)) : Prop where
  keys : Keyed.names ms =
    "nature" :: ((if n.notes = [] then [] else ["annotations"]) ++ (format n.kind).2)
  nature : Keyed.get? "nature" ms = some (.string (format n.kind).1)
  notes : n.notes ≠ [] → Keyed.get? "annotations" ms = some (.array (n.notes.map noteObject))

/-- The members documented for a type: a structure that is mentioned is only named. -/
def Documents (aspect : Aspect) (n : Node) (ms : List (String × Json)) : Prop :=
  match aspect, n.structure? with
  | .mentioned, some s => ms = [("nature", .string "reactive_ref"), ("ref", .string s.name)]
  | _, _ => LaidOut n ms

/-- The texts of the policies. A field that states none is as private as one that says so. -/
inductive PrivacyText : Option Privacy → String → Prop where
  | everyone : PrivacyText (some .everyone) "public"
  | nobody : PrivacyText (some .nobody) "private"
  | unstated : PrivacyText none "private"
  | viewerIs (field : String) :
      PrivacyText (some (.viewerIs field)) ("viewer_is<" ++ field ++ ">")
  | useCustom (rule : String) :
      PrivacyText (some (.useCustom rule)) ("use_custom<" ++ rule ++ ">")

/-- The entry documented for a field: its type and the text of its policy, under its name. -/
def DocumentsField (f : Field Node) (entry : String × Json) : Prop :=
  entry.1 = f.name ∧ ∃ ms text,
    entry.2 = .object [("type", .object ms), ("privacy", .string text)] ∧
      Documents .mentioned f.type ms ∧ PrivacyText f.privacy text

/-- A value is an object that states its nature. -/
def StatesNature (j : Json) : Prop :=
  ∃ nature, j.get? "nature" = some (.string nature)

variable {t : Table} {site : Site} {n m : Node} {path : List String} {j : Json}

/-! ### Single objects -/

/-- The header of a type is its nature, with annotations behind it if there are notes. -/
theorem names_header :
    Keyed.names (header n) = "nature" :: (if n.notes = [] then [] else ["annotations"]) := by
  unfold header
  cases n.notes <;> rfl

theorem toJson_eq_noteObject (note : Note) : note.toJson = noteObject note := by
  obtain ⟨name, value⟩ := note
  cases value <;> rfl

/-- The word that opens the object of a type is the one that the format fixes for its kind. -/
theorem nature_eq_format (n : Node) : n.nature = (format n.kind).1 := by
  obtain ⟨position, notes, kind⟩ := n
  cases kind <;> rfl

/-- What starts with the header of a type is laid out if the rest has the keys of the kind. -/
theorem laidOut_header {own : List (String × Json)}
    (h : (format n.kind).2 = Keyed.names own) : LaidOut n (header n ++ own) where
  keys := by
    rw [h, Keyed.names, List.map_append]
    exact congrArg (· ++ Keyed.names own) names_header
  nature := by
    rw [← nature_eq_format]
    simp [header]
  notes hnotes := by
    have hentries : n.notes.map Note.toJson = n.notes.map noteObject :=
      List.map_congr_left fun note _ => toJson_eq_noteObject note
    simp [header, hentries, hnotes]

theorem documents_of_structure {s : Structure Node} (h : n.structure? = some s) :
    Documents .mentioned n [("nature", .string "reactive_ref"), ("ref", .string s.name)] := by
  simp only [Documents, h]

theorem documents_of_laidOut {ms : List (String × Json)} {aspect : Aspect}
    (h : n.structure? = none) (hms : LaidOut n ms) : Documents aspect n ms := by
  cases aspect <;> simpa only [Documents, h] using hms

/-- Whatever documents a type states a nature. -/
theorem statesNature_of_documents {aspect : Aspect} {ms : List (String × Json)}
    (h : Documents aspect n ms) : StatesNature (.object ms) := by
  unfold Documents at h
  split at h
  · exact ⟨_, by rw [h]; rfl⟩
  · exact ⟨_, h.nature⟩

/-- A type that is mentioned has the object documented for it. -/
theorem exists_mention (t : Table) (site : Site) (n : Node) :
    ∃ ms, mention t site n = .object ms ∧ Documents .mentioned n ms := by
  obtain ⟨position, notes, kind⟩ := n
  cases kind with
  | record s | message s => exact ⟨_, rfl, documents_of_structure rfl⟩
  | text | replication =>
    refine ⟨_, rfl, documents_of_laidOut rfl ?_⟩
    rw [← List.append_nil (header _)]
    exact laidOut_header rfl
  | _ => exact ⟨_, by rw [mention], documents_of_laidOut rfl (laidOut_header rfl)⟩

/-- A type that is defined has the object documented for it. -/
theorem exists_definition (t : Table) (site : Site) (n : Node) :
    ∃ ms, definition t site n = .object ms ∧ LaidOut n ms := by
  cases hs : n.structure? with
  | some s =>
    refine ⟨_, by rw [definition, hs], laidOut_header ?_⟩
    obtain ⟨position, notes, kind⟩ := n
    cases kind <;> cases hs <;> rfl
  | none =>
    obtain ⟨ms, hms, hdocuments⟩ := exists_mention t site n
    refine ⟨ms, by rw [definition, hs, hms], ?_⟩
    simpa only [Documents, hs] using hdocuments

/-! ### Types that are mentioned -/

/-- What the header of a type holds is no object. -/
theorem get?_header_ne_object {key : String} (h : Keyed.get? key (header n) = some j)
    (ms : List (String × Json)) : j ≠ .object ms := by
  rintro rfl
  rw [header, Keyed.get?_cons, Json.get?_listMember] at h
  split at h
  · cases h
  · split at h <;> cases h

/-- The domain of a projection is described as the scalar that it comes to. -/
theorem projectionDomain_eq {table record : String} {domain : Scalar}
    (h : n.resolution? t site = some (.projection table record domain)) :
    projectionDomain t site n = mention t site (.ofScalar domain) := by
  rw [projectionDomain, h]
  rfl

/-- Under the key of a part stands what the part is mentioned as. -/
theorem get?_mention {key : String} (h : Keyed.get? key (namedParts t site n) = some m) :
    (mention t site n).get? key = some (mention t site m) := by
  -- No part has a key of the header, so the header hides none.
  have hheader : Keyed.get? key (header n) = none := by
    have hkey : "nature" ≠ key ∧ "annotations" ≠ key := by
      refine ⟨?_, ?_⟩ <;> rintro rfl <;> unfold namedParts at h <;> split at h <;>
        first | (split at h <;> simp at h) | simp at h
    simp [header, hkey]
  obtain ⟨position, notes, kind⟩ := n
  cases kind <;> simp only [namedParts, Keyed.get?_nil, reduceCtorEq] at h
  case projection table field =>
    split at h
    · rename_i hresolution
      rw [mention, Json.get?, Keyed.get?_append, hheader, Option.none_or,
        projectionDomain_eq hresolution]
      simp only [Keyed.get?_cons, Keyed.get?_nil] at h ⊢
      split at h
      · rename_i hdomain
        subst hdomain
        rw [if_neg (by decide), if_neg (by decide), if_pos rfl, Option.some.inj h]
      · cases h
    · cases h
  all_goals
    rw [mention, Json.get?, Keyed.get?_append, hheader, Option.none_or]
    simp only [Keyed.get?_cons, Keyed.get?_nil] at h ⊢
    repeat' split at h
    all_goals simp_all

/-- An object stands under the key of a part only. -/
theorem exists_part_of_get?_mention {key : String} {ms : List (String × Json)}
    (h : (mention t site n).get? key = some (.object ms)) :
    ∃ part, Keyed.get? key (namedParts t site n) = some part ∧
      mention t site part = .object ms := by
  -- No member of the header is an object, so this one is among those of the kind.
  have hown : ∀ own, (Json.object (header n ++ own)).get? key = some (.object ms) →
      (key, .object ms) ∈ own := by
    intro own hget
    rw [Json.get?, Keyed.get?_append, Option.or_eq_some_iff] at hget
    rcases hget with hget | ⟨-, hget⟩
    · exact absurd rfl (get?_header_ne_object hget ms)
    · exact Keyed.mem_of_get? hget
  obtain ⟨position, notes, kind⟩ := n
  cases kind with
  | record s | message s =>
    simp only [mention, ofName, Json.get?, Keyed.get?_cons, Keyed.get?_nil] at h
    split at h
    · cases h
    · split at h <;> cases h
  | text | replication =>
    rw [mention, ← List.append_nil (header _)] at h
    cases hown _ h
  | scalar s | ref name =>
    rw [mention] at h
    simpa using hown _ h
  | table record | holder message =>
    rw [mention] at h
    have hname := (Prod.mk.inj (List.mem_singleton.1 (hown _ h))).2
    unfold resolvedName at hname
    split at hname <;> cases hname
  | projection table field =>
    rw [mention] at h
    obtain ⟨rfl, hdomain⟩ : key = "domain" ∧ Json.object ms = projectionDomain t site _ := by
      simpa using hown _ h
    unfold projectionDomain at hdomain
    split at hdomain
    · rename_i domain hresolution
      refine ⟨.ofScalar domain, ?_, hdomain.symm⟩
      simp only [namedParts, hresolution, Keyed.get?_cons, if_pos]
    · cases hdomain
  | list element | maybe element | lazy element =>
    rw [mention] at h
    obtain ⟨rfl, helement⟩ := Prod.mk.inj (List.mem_singleton.1 (hown _ h))
    exact ⟨element, rfl, helement.symm⟩
  | map domain range =>
    rw [mention] at h
    have hpart : (key = "domain" ∧ Json.object ms = mention t site domain) ∨
        key = "range" ∧ Json.object ms = mention t site range := by
      simpa using hown _ h
    rcases hpart with ⟨rfl, hdomain⟩ | ⟨rfl, hrange⟩
    · exact ⟨domain, rfl, hdomain.symm⟩
    · exact ⟨range, rfl, hrange.symm⟩

/-- Below a type that is mentioned, a path leads to the parts of the type. -/
theorem at?_mention (h : mentionedAt? t site path n = some m) :
    (mention t site n).at? path = some (mention t site m) := by
  induction path generalizing n with
  | nil => rw [Json.at?, Option.some.inj h]
  | cons key path ih =>
    obtain ⟨part, hpart, hm⟩ := Option.bind_eq_some_iff.1 h
    rw [Json.at?_cons (get?_mention hpart)]
    exact ih hm

/-- A path that leads through the description of a type to an object leads to a type. -/
theorem exists_mentionedAt? {ms : List (String × Json)}
    (h : (mention t site n).at? path = some (.object ms)) :
    ∃ m, mentionedAt? t site path n = some m := by
  induction path generalizing n with
  | nil => exact ⟨n, rfl⟩
  | cons key path ih =>
    obtain ⟨j, hj, hpath⟩ := Option.bind_eq_some_iff.1 h
    cases j with
    | object members =>
      obtain ⟨part, hpart, hmention⟩ := exists_part_of_get?_mention hj
      rw [← hmention] at hpath
      obtain ⟨m, hm⟩ := ih hpath
      exact ⟨m, by rw [mentionedAt?, hpart]; exact hm⟩
    | _ => exact absurd hpath (Json.at?_ne_object (fun _ => Json.noConfusion) path ms)

/-! ### Fields -/

/-- A field in the reflection of its structure: its name and its entry. -/
def fieldMember (t : Table) (s : Structure Node) (f : Field Node) : String × Json :=
  (f.name, .object [("type", mention t (.declared (some s)) f.type),
    ("privacy", .string f.effectivePrivacy.text)])

variable {s : Structure Node}

/-- The entries of a structure are those of its fields, a later one in the place of an earlier one
of the same name. -/
theorem fields_eq :
    fields t (.declared none) s = .object (Keyed.ofPairs (s.fields.map (fieldMember t s))) :=
  rfl

/-- Under a name stands the entry of the last field of this name. -/
theorem get?_fields (name : String) :
    (fields t (.declared none) s).get? name =
      (s.lastField? name).map fun f => (fieldMember t s f).2 := by
  rw [fields_eq, Json.get?]
  cases hf : s.lastField? name with
  | none =>
    rw [Option.map_none, Keyed.get?_eq_none_iff, Keyed.mem_names_ofPairs, List.map_map]
    intro hname
    obtain ⟨f, hmem, rfl⟩ := List.mem_map.1 hname
    exact absurd (beq_self_eq_true _)
      (List.find?_eq_none.1 hf f (List.mem_reverse.2 hmem))
  | some f =>
    -- Reversed, the fields that were searched first are those after the field that was found.
    obtain ⟨hname, after, before, hfields, hafter⟩ := List.find?_eq_some_iff_append.1 hf
    have hs : s.fields = before.reverse ++ f :: after.reverse := by
      have hreverse := congrArg List.reverse hfields
      simpa using hreverse
    rw [Option.map_some, Keyed.get?_ofPairs_eq_some_iff]
    refine ⟨before.reverse.map (fieldMember t s), after.reverse.map (fieldMember t s), ?_, ?_⟩
    · rw [hs, List.map_append, List.map_cons, ← beq_iff_eq.1 hname]
      rfl
    · intro p hp
      obtain ⟨g, hg, rfl⟩ := List.mem_map.1 hp
      have hne := hafter g (List.mem_reverse.1 hg)
      simpa [fieldMember] using hne

/-- A path below the fields leads through the type of one field. -/
theorem at?_fields (h : fieldTypeAt? t s path = some m) :
    (fields t (.declared none) s).at? path = some (mention t (.declared (some s)) m) := by
  unfold fieldTypeAt? at h
  split at h
  · rename_i name path
    obtain ⟨f, hf, hm⟩ := Option.bind_eq_some_iff.1 h
    have hfield : (fields t (.declared none) s).get? name = some (fieldMember t s f).2 := by
      rw [get?_fields, hf, Option.map_some]
    have htype : (fieldMember t s f).2.get? "type" =
        some (mention t (.declared (some s)) f.type) := rfl
    rw [Json.at?_cons hfield, Json.at?_cons htype]
    exact at?_mention hm
  · cases h

/-- Among the fields of a structure only types state a nature, whatever the fields are called. -/
theorem exists_fieldTypeAt? (h : (fields t (.declared none) s).at? path = some j)
    (hj : StatesNature j) : ∃ m, fieldTypeAt? t s path = some m := by
  obtain ⟨nature, hnature⟩ := hj
  match path with
  | [] =>
    -- A field may be called `nature`, but its entry is no text.
    obtain rfl := Option.some.inj h
    rw [get?_fields, Option.map_eq_some_iff] at hnature
    obtain ⟨f, -, hf⟩ := hnature
    cases hf
  | name :: path =>
    obtain ⟨entry, hentry, hpath⟩ := Option.bind_eq_some_iff.1 h
    rw [get?_fields, Option.map_eq_some_iff] at hentry
    obtain ⟨f, hf, rfl⟩ := hentry
    match path with
    | [] =>
      obtain rfl := Option.some.inj hpath
      cases hnature
    | key :: path =>
      obtain ⟨v, hv, hpath⟩ := Option.bind_eq_some_iff.1 hpath
      cases j with
      | object ms =>
        simp only [fieldMember, Json.get?, Keyed.get?_cons, Keyed.get?_nil] at hv
        split at hv
        · rename_i hkey
          obtain rfl := Option.some.inj hv
          obtain ⟨m, hm⟩ := exists_mentionedAt? hpath
          refine ⟨m, ?_⟩
          rw [← hkey, fieldTypeAt?, hf, Option.bind_some, hm]
        · split at hv
          · obtain rfl := Option.some.inj hv
            exact absurd hpath (Json.at?_ne_object (fun _ => Json.noConfusion) path ms)
          · cases hv
      | _ => cases hnature

/-- The privacy in effect is printed as the text of the policy that the field states, or does not
state. -/
theorem privacyText_effective (f : Field Node) :
    PrivacyText f.privacy f.effectivePrivacy.text := by
  cases hprivacy : f.privacy with
  | none =>
    rw [Field.effectivePrivacy, hprivacy]
    exact .unstated
  | some privacy =>
    rw [Field.effectivePrivacy, hprivacy, Option.getD_some]
    cases privacy with
    | everyone => exact .everyone
    | nobody => exact .nobody
    | viewerIs field => exact .viewerIs field
    | useCustom rule => exact .useCustom rule

/-- If field names are distinct, every field has its entry, in order. -/
theorem exists_fields (hd : (s.fields.map Field.name).Nodup) :
    ∃ entries, fields t (.declared none) s = .object entries ∧
      List.Forall₂ DocumentsField s.fields entries := by
  refine ⟨s.fields.map (fieldMember t s), ?_, ?_⟩
  · rw [fields_eq, Keyed.ofPairs_eq_self]
    rw [Keyed.names, List.map_map]
    exact hd
  · rw [List.forall₂_map_right_iff]
    refine List.forall₂_same.2 fun f _ => ⟨rfl, ?_⟩
    obtain ⟨ms, hms, hdocuments⟩ := exists_mention t (.declared (some s)) f.type
    exact ⟨ms, _, by rw [fieldMember, hms], hdocuments, privacyText_effective f⟩

/-! ### Types that are defined -/

/-- The fields of a structure are described where it is defined. -/
theorem get?_definition (h : n.structure? = some s) :
    (definition t site n).get? "fields" = some (fields t site s) := by
  rw [definition, h]
  simp [Json.get?, header]

/-- Where a path leads to a type, there is an object, and it documents this type. -/
theorem exists_object_definition {aspect : Aspect} (h : definedAt? t n path = some (aspect, m)) :
    ∃ ms, (definition t (.declared none) n).at? path = some (.object ms) ∧
      Documents aspect m ms := by
  cases path with
  | nil =>
    obtain ⟨rfl, rfl⟩ := Prod.mk.inj (Option.some.inj h)
    obtain ⟨ms, hms, hlaid⟩ := exists_definition t (.declared none) n
    refine ⟨ms, by rw [Json.at?, hms], ?_⟩
    simpa only [Documents] using hlaid
  | cons key path =>
    rw [definedAt?] at h
    cases hs : n.structure? with
    -- A structure has its types below its fields.
    | some s =>
      simp only [hs] at h
      split at h
      · rename_i hkey
        obtain ⟨type, htype, heq⟩ := Option.map_eq_some_iff.1 h
        obtain ⟨rfl, rfl⟩ := Prod.mk.inj heq
        obtain ⟨ms, hms, hdocuments⟩ := exists_mention t (.declared (some s)) type
        refine ⟨ms, ?_, hdocuments⟩
        rw [hkey, Json.at?_cons (get?_definition hs), at?_fields htype, hms]
      · cases h
    | none =>
      simp only [hs] at h
      obtain ⟨type, htype, heq⟩ := Option.map_eq_some_iff.1 h
      obtain ⟨rfl, rfl⟩ := Prod.mk.inj heq
      obtain ⟨ms, hms, hdocuments⟩ := exists_mention t (.declared none) type
      refine ⟨ms, ?_, hdocuments⟩
      rw [definition, hs]
      exact (at?_mention htype).trans (congrArg some hms)

/-- In the definition of a type only types state a nature. -/
theorem exists_definedAt? (h : (definition t (.declared none) n).at? path = some j)
    (hj : StatesNature j) : ∃ aspect m, definedAt? t n path = some (aspect, m) := by
  cases path with
  | nil => exact ⟨.defined, n, rfl⟩
  | cons key path =>
    -- Only an object states a nature.
    obtain ⟨ms, rfl⟩ : ∃ ms, j = .object ms := by
      obtain ⟨nature, hnature⟩ := hj
      cases j <;> first | exact ⟨_, rfl⟩ | cases hnature
    rw [definedAt?]
    cases hs : n.structure? with
    | some s =>
      obtain ⟨v, hv, hpath⟩ := Option.bind_eq_some_iff.1 h
      rw [definition, hs, Json.get?, Keyed.get?_append, Option.or_eq_some_iff] at hv
      -- Neither the header nor the name has an object in it.
      rcases hv with hv | ⟨-, hv⟩
      · exact absurd hpath (Json.at?_ne_object (get?_header_ne_object hv) path ms)
      · simp only [Keyed.get?_cons, Keyed.get?_nil] at hv
        split at hv
        · obtain rfl := Option.some.inj hv
          exact absurd hpath (Json.at?_ne_object (fun _ => Json.noConfusion) path ms)
        · split at hv
          · rename_i hkey
            obtain rfl := Option.some.inj hv
            obtain ⟨m, hm⟩ := exists_fieldTypeAt? hpath hj
            exact ⟨.mentioned, m, by simp only [if_pos hkey.symm, hm, Option.map_some]⟩
          · cases hv
    | none =>
      rw [definition, hs] at h
      obtain ⟨m, hm⟩ := exists_mentionedAt? h
      exact ⟨.mentioned, m, by simp only [hm, Option.map_some]⟩

/-! ### All of a table -/

/-- What stands under `types`. -/
def typeMembers (t : Table) : List (String × Json) :=
  t.entries.map fun e => (e.1, definition t (.declared none) e.2)

/-- A reflection has the types of the table and its root, and nothing else. -/
theorem ofTable_eq : ofTable t = .object [("types", .object (typeMembers t)),
    ("root", definition t (.declared none) (.ofRecord t.root))] :=
  rfl

/-- Under each name stands the definition of what is declared there. -/
theorem get?_typeMembers (name : String) :
    Keyed.get? name (typeMembers t) = (t.get? name).map (definition t (.declared none)) :=
  Keyed.get?_map name (definition t (.declared none)) t.entries

/-- Where a name is declared its type is defined. -/
theorem at?_types {name : String} (h : t.get? name = some n) :
    (ofTable t).at? ("types" :: name :: path) = (definition t (.declared none) n).at? path := by
  have hname : (Json.object (typeMembers t)).get? name =
      some (definition t (.declared none) n) := by
    rw [Json.get?, get?_typeMembers, h, Option.map_some]
  rw [ofTable_eq, Json.at?_cons rfl, Json.at?_cons hname]

theorem at?_root :
    (ofTable t).at? ("root" :: path) =
      (definition t (.declared none) (.ofRecord t.root)).at? path := by
  rw [ofTable_eq, Json.at?_cons rfl]

/-- **Paths** lead to the objects documented for the types that they describe. -/
theorem exists_object_at? {aspect : Aspect} (h : t.describedAt? path = some (aspect, n)) :
    ∃ ms, (ofTable t).at? path = some (.object ms) ∧ Documents aspect n ms := by
  unfold Table.describedAt? at h
  split at h
  · obtain ⟨entry, hentry, hn⟩ := Option.bind_eq_some_iff.1 h
    rw [at?_types hentry]
    exact exists_object_definition hn
  · rw [at?_root]
    exact exists_object_definition h
  · cases h

/-- Nothing else in the reflection of a table states a nature. -/
theorem exists_describedAt? (h : (ofTable t).at? path = some j) (hj : StatesNature j) :
    ∃ aspect n, t.describedAt? path = some (aspect, n) := by
  obtain ⟨nature, hnature⟩ := id hj
  match path with
  | [] =>
    obtain rfl := Option.some.inj h
    cases hnature
  | key :: path =>
    by_cases hroot : key = "root"
    · subst hroot
      rw [at?_root] at h
      exact exists_definedAt? h hj
    by_cases htypes : key = "types"
    · subst htypes
      match path with
      | [] =>
        -- A type may be called `nature` as well.
        obtain rfl : .object (typeMembers t) = j := Option.some.inj h
        rw [Json.get?, get?_typeMembers, Option.map_eq_some_iff] at hnature
        obtain ⟨n, -, hn⟩ := hnature
        obtain ⟨ms, hms, -⟩ := exists_definition t (.declared none) n
        cases hms.symm.trans hn
      | name :: path =>
        cases hname : t.get? name with
        | none =>
          rw [ofTable_eq, Json.at?_cons rfl, Json.at?, Json.get?, get?_typeMembers, hname] at h
          cases h
        | some n =>
          rw [at?_types hname] at h
          obtain ⟨aspect, m, hm⟩ := exists_definedAt? h hj
          exact ⟨aspect, m, by rw [Table.describedAt?, hname]; exact hm⟩
    · have hnone : (ofTable t).get? key = none := by
        simp [ofTable_eq, Json.get?, Ne.symm hroot, Ne.symm htypes]
      rw [Json.at?, hnone] at h
      cases h

/-- In a well-formed table every structure has its fields where it is defined. -/
theorem exists_fields_at? (ht : t.WellFormed) (h : t.structureAt? path = some s) :
    ∃ entries, (ofTable t).at? (path ++ ["fields"]) = some (.object entries) ∧
      List.Forall₂ DocumentsField s.fields entries := by
  have hdefined : ∀ n, n.structure? = some s → t.Occurs (.body s) →
      ∃ entries, (definition t (.declared none) n).at? ["fields"] = some (.object entries) ∧
        List.Forall₂ DocumentsField s.fields entries := by
    intro n hs hbody
    obtain ⟨entries, hentries, hdocuments⟩ := exists_fields (t := t)
      (ht.structures s hbody).fields_nodup
    exact ⟨entries, by rw [Json.at?_cons (get?_definition hs), hentries, Json.at?], hdocuments⟩
  -- A structure is defined under its name, and the root apart from these.
  unfold Table.structureAt? at h
  split at h
  · obtain ⟨n, hn, hs⟩ := Option.bind_eq_some_iff.1 h
    rw [List.cons_append, List.cons_append, List.nil_append, at?_types hn]
    exact hdefined n hs (.body (.of_get? hn) hs)
  · obtain rfl := Option.some.inj h
    rw [List.cons_append, List.nil_append, at?_root]
    exact hdefined _ rfl .root
  · cases h

end Reflection

/-! ### Checked spaces -/

namespace Draft

open Reflection (Documents DocumentsField StatesNature)

/-- The draft that declares a root, types and tests, in this order. -/
def ofDeclared (root : Structure Node) (types : List (String × Node)) (tests : List String) :
    Draft :=
  ((ofRoot root).declareAll types).declareTests tests

/-- Declaring a name adds it at the end unless it is there. -/
theorem names_declare (draft : Draft) (name : String) (node : Node) :
    (draft.declare name node).table.names =
      if draft.table.names.contains name then draft.table.names
      else draft.table.names ++ [name] := by
  by_cases hname : name ∈ draft.table.names
  · rw [if_pos (List.contains_iff_mem.2 hname)]
    unfold declare Table.declare
    simp [hname]
  · rw [if_neg (mt List.contains_iff_mem.1 hname), Table.names, entries_declare hname, Keyed.names,
      List.map_append]
    rfl

/-- A table has every declared name, at the first place where it was declared. -/
theorem names_ofDeclared (root : Structure Node) (types : List (String × Node))
    (tests : List String) :
    (ofDeclared root types tests).table.names = firstPlaces (Keyed.names types) := by
  -- By induction on the types, from every draft: it has the names kept so far.
  have hall : ∀ draft : Draft, (draft.declareAll types).table.names =
      (Keyed.names types).foldl (fun kept n => if kept.contains n then kept else kept ++ [n])
        draft.table.names := by
    induction types with
    | nil => exact fun _ => rfl
    | cons e types ih =>
      intro draft
      rw [show draft.declareAll (e :: types) = (draft.declare e.1 e.2).declareAll types from rfl,
        ih, names_declare]
      rfl
  exact hall (ofRoot root)

/-- **Reflections** are laid out as documented. Whatever was declared, the objects that state a
nature are those of the types that the reflection describes, each with the members documented
for it, and under `types` stand the declared names in order. In a deployable space the fields of
each structure stand in order where it is defined. -/
theorem reflection_laid_out (root : Structure Node) (types : List (String × Node))
    (tests : List String) :
    (∀ path aspect n,
      (ofDeclared root types tests).check.table.describedAt? path = some (aspect, n) →
      ∃ ms, (Reflection.ofTable (ofDeclared root types tests).check.table).at? path =
        some (.object ms) ∧ Documents aspect n ms) ∧
    (∀ path j, (Reflection.ofTable (ofDeclared root types tests).check.table).at? path = some j →
      (StatesNature j ↔
        ∃ aspect n, (ofDeclared root types tests).check.table.describedAt? path =
          some (aspect, n))) ∧
    (∃ members rootObject, Reflection.ofTable (ofDeclared root types tests).check.table =
        .object [("types", .object members), ("root", rootObject)] ∧
      Keyed.names members = firstPlaces (Keyed.names types)) ∧
    ((ofDeclared root types tests).check.isDeployable = true →
      ∀ path s, (ofDeclared root types tests).check.table.structureAt? path = some s →
        ∃ entries, (Reflection.ofTable (ofDeclared root types tests).check.table).at?
            (path ++ ["fields"]) = some (.object entries) ∧
          List.Forall₂ DocumentsField s.fields entries) := by
  refine ⟨fun path aspect n h => Reflection.exists_object_at? h, fun path j hj => ⟨fun h => ?_, ?_⟩,
    ⟨_, _, Reflection.ofTable_eq, ?_⟩, fun hdeployable path s h => ?_⟩
  · exact Reflection.exists_describedAt? hj h
  · rintro ⟨aspect, n, h⟩
    obtain ⟨ms, hms, hdocuments⟩ := Reflection.exists_object_at? h
    obtain rfl := Option.some.inj (hj.symm.trans hms)
    exact Reflection.statesNature_of_documents hdocuments
  · have hnames : Keyed.names (Reflection.typeMembers (ofDeclared root types tests).check.table) =
        (ofDeclared root types tests).check.table.names := by
      rw [Keyed.names, Reflection.typeMembers, List.map_map]
      rfl
    rw [hnames]
    exact names_ofDeclared root types tests
  · exact Reflection.exists_fields_at? (wellFormed_of_isDeployable hdeployable) h

end Draft

/-- What is checked of declarations is a draft of their root, types and tests. -/
theorem Declarations.draft_eq_ofDeclared (d : Declarations) :
    d.draft = Draft.ofDeclared d.document d.types (d.surface.tests.map Test.name) :=
  d.draft_eq

end ReactiveSpace
