import ReactiveSpace.Proofs.Schema.RoundTrip
import ReactiveSpace.Space.Declarations

/-!
# Declarations are read as they were written

The text of declarations is read as these declarations, with every component in place
(`Declarations.ofText?_compact_toJson`). What this takes is what any declarations have that a text
can write: the maps have distinct names, the integers of the configuration fit 64 bits
(`Declarations.Proper`), and nothing lies too deep. The doubles of the configuration have to be
found again in their digits.
-/

namespace ReactiveSpace

open Json (Tree)
open Json.Tree (required orElse optional exists_parts listOf?_eq_some mapOf?_eq_some)

/-! ### The surface -/

/-- Predicates are read as they were written, those that are not set included. -/
theorem Predicates.ofTree?_toTree (p : Predicates) : ofTree? p.toJson.toTree = some p := by
  obtain ⟨parts, hparts, hc⟩ := exists_parts p.toJson
    ["can_create", "can_invent", "can_send_while_disconnected"] rfl
    (Keyed.names_append (Keyed.names_append (Json.names_optionalMember _ _)
      (Json.names_optionalMember _ _)) (Json.names_optionalMember _ _)) (by decide)
  have hcreate : optional parts "can_create" (·.1.string?) = some p.canCreate :=
    hc.optional_string (by decide) (by simp)
  have hinvent : optional parts "can_invent" (·.1.string?) = some p.canInvent :=
    hc.optional_string (by decide) (by simp)
  have hsend : optional parts "can_send_while_disconnected" (·.1.string?) =
      some p.canSendWhileDisconnected :=
    hc.optional_string (by decide) (by simp)
  rw [ofTree?, hparts]
  simp [hcreate, hinvent, hsend]

theorem Test.ofTree?_toTree (t : Test) : ofTree? t.toJson.toTree = some t := by
  obtain ⟨parts, hparts, hc⟩ := exists_parts t.toJson ["name", "body"] rfl (.refl _) (by decide)
  have hname : required parts "name" (·.1.string?) = some t.name :=
    hc.required_string (by decide) (by simp)
  have hbody : required parts "body" (·.1.string?) = some t.body :=
    hc.required_string (by decide) (by simp)
  rw [ofTree?, hparts]
  simp [hname, hbody]

namespace Surface

/-- The maps of a surface have distinct names, and its configuration holds numbers of 64 bits. -/
structure Proper (s : Surface) : Prop where
  config : s.configJson.Proper
  services : (Keyed.names s.services).Nodup
  properties : ∀ service ∈ s.services, (Keyed.names service.2).Nodup

/-- The configuration is read entry by entry. -/
theorem mapOf?_configJson {s : Surface} (h : s.configJson.Proper) :
    s.configJson.toTree.mapOf? Json.ofTree? = some s.config := by
  cases h with
  | object hnames hproper =>
    have hread := mapOf?_eq_some id hnames fun m hm => Json.ofTree?_toTree (hproper m hm)
    have hconfig : (s.config.map fun m => (m.1, id m.2)) = s.config := List.map_id _
    rw [hconfig] at hread
    exact hread

/-- The properties of a service as a value. -/
def propertiesJson (properties : List (String × String)) : Json :=
  .object (properties.map fun p => (p.1, .string p.2))

theorem servicesJson_eq (s : Surface) :
    s.servicesJson =
      .object (s.services.map fun service => (service.1, propertiesJson service.2)) :=
  rfl

theorem mapOf?_servicesJson {s : Surface} (h : s.Proper) :
    s.servicesJson.toTree.mapOf? (Tree.mapOf? Tree.string?) = some s.services := by
  rw [servicesJson_eq]
  refine mapOf?_eq_some propertiesJson h.services fun service hservice => ?_
  exact mapOf?_eq_some .string (h.properties service hservice) fun _ _ => rfl

/-- A surface is read as it was written. -/
theorem ofTree?_toTree {s : Surface} (h : s.Proper) : ofTree? s.toJson.toTree = some s := by
  obtain ⟨parts, hparts, hc⟩ := exists_parts s.toJson
    ["policies", "config", "services", "constructor", "tests"] rfl
    (Keyed.names_append (Keyed.names_append (.refl _) (Json.names_optionalMember _ _)) (.refl _))
    (by decide)
  -- Slot by slot; what the text leaves out is the default of its slot.
  have hpredicates : orElse parts "policies" {} (Predicates.ofTree? ·.1) = some s.predicates :=
    hc.orElse_eq (v := s.predicates.toJson) (by decide) (by simp)
      fun _ => s.predicates.ofTree?_toTree
  have hconfig : orElse parts "config" [] (·.1.mapOf? Json.ofTree?) = some s.config :=
    hc.orElse_eq (v := s.configJson) (by decide) (by simp) fun _ => mapOf?_configJson h.config
  have hservices : orElse parts "services" [] (·.1.mapOf? (Tree.mapOf? Tree.string?)) =
      some s.services :=
    hc.orElse_eq (v := s.servicesJson) (by decide) (by simp) fun _ => mapOf?_servicesJson h
  have hconstructor : optional parts "constructor" (·.1.string?) = some s.constructor :=
    hc.optional_string (by decide) (by simp)
  have htests : orElse parts "tests" [] (·.1.listOf? Test.ofTree?) = some s.tests :=
    hc.orElse_eq (v := .array (s.tests.map Test.toJson)) (by decide) (by simp)
      fun _ => listOf?_eq_some fun t _ => t.ofTree?_toTree
  rw [ofTree?, hparts]
  simp [hpredicates, hconfig, hservices, hconstructor, htests]

/-- Services hold texts only, which are always found again. -/
theorem legible_servicesJson (s : Surface) : s.servicesJson.Legible := by
  rw [servicesJson_eq, Json.legible_object_iff, Json.allLegible_map_iff propertiesJson]
  intro service _
  rw [propertiesJson, Json.legible_object_iff, Json.allLegible_map_iff .string]
  exact fun p _ => .string p.2

/-- Numbers stand in the configuration of a surface and nowhere else in it. -/
theorem legible {s : Surface} (h : s.configJson.Legible) : s.toJson.Legible := by
  simp [toJson, h, s.legible_servicesJson, Predicates.toJson, Test.toJson]

end Surface

namespace Declarations

/-- The maps of declarations have distinct names, and the configuration holds numbers of 64 bits. -/
structure Proper (d : Declarations) : Prop where
  aliases : (Keyed.names d.aliases).Nodup
  surface : d.surface.Proper

/-- The tree of declarations is read as these declarations. -/
theorem ofTree?_toTree {d : Declarations} (h : d.Proper) : ofTree? d.toJson.toTree = some d := by
  obtain ⟨parts, hparts, hc⟩ := exists_parts d.toJson
    ["space", "records", "messages", "aliases", "root", "document"] rfl (.refl _) (by decide)
  have hspace : required parts "space" (·.1.string?) = some d.space :=
    hc.required_string (by decide) (by simp)
  have hrecords : orElse parts "records" [] (·.1.listOf? Structure.ofTree?) = some d.records :=
    hc.orElse_eq (v := .array (d.records.map Structure.toJson)) (by decide) (by simp)
      fun _ => listOf?_eq_some fun s _ => s.ofTree?_toTree
  have hmessages : orElse parts "messages" [] (·.1.listOf? Structure.ofTree?) =
      some d.messages :=
    hc.orElse_eq (v := .array (d.messages.map Structure.toJson)) (by decide) (by simp)
      fun _ => listOf?_eq_some fun s _ => s.ofTree?_toTree
  -- The names of aliases are distinct, so each is found under its own.
  have haliases : orElse parts "aliases" [] (·.1.mapOf? Node.ofTree?) = some d.aliases :=
    hc.orElse_eq (v := .object (d.aliases.map fun e => (e.1, e.2.toJson))) (by decide)
      (by simp) fun _ => mapOf?_eq_some Node.toJson h.aliases fun e _ => e.2.ofTree?_toTree
  have hroot : orElse parts "root" Structure.emptyRoot (Structure.ofTree? ·.1) = some d.root :=
    hc.orElse_eq (v := d.root.toJson) (by decide) (by simp) fun _ => d.root.ofTree?_toTree
  have hsurface : orElse parts "document" {} (Surface.ofTree? ·.1) = some d.surface :=
    hc.orElse_eq (v := d.surface.toJson) (by decide) (by simp)
      fun _ => Surface.ofTree?_toTree h.surface
  rw [ofTree?, hparts]
  simp [hspace, hrecords, hmessages, haliases, hroot, hsurface]

/-- They stand nowhere else in declarations but in positions and initial integers. -/
theorem legible {d : Declarations} (h : d.surface.configJson.Legible) : d.toJson.Legible := by
  have haliases : Json.AllLegible (d.aliases.map fun e => (e.1, e.2.toJson)) :=
    (Json.allLegible_map_iff Node.toJson).2 fun e _ => e.2.legible
  simp [toJson, Structure.legible, Surface.legible h, haliases]

/-- **Declarations** are read from their text as they were written. -/
theorem ofText?_compact_toJson (d : Declarations) (hd : d.Proper)
    (hdoubles : ∀ x, .double x ∈ d.surface.configJson.numbers →
      (Json.Number.double x).ReadsBack)
    (hnesting : d.toJson.nesting ≤ 127) : ofText? d.toJson.compact = some d := by
  have hlegible : d.toJson.Legible := legible (hd.surface.config.legible hdoubles)
  rw [ofText?, Tree.ofText?_compact hlegible hnesting, Option.bind_some, ofTree?_toTree hd]

/-- A shop: items with a price, a table of them by key, and an offer that may hold an item
inline. -/
def shop : Declarations where
  space := "shop"
  records :=
    [{ name := "Item"
       fields :=
         [{ name := "id", type := .ofScalar .int },
          { name := "price", type := (Node.ofScalar .double).noted ⟨"unit", some "\"EUR\"\n"⟩
            privacy := some (.viewerIs "owner"), initial := some "0.5" },
          { name := "owner", type := .ofScalar .principal, readonly := true }]
       indices := [{ field := "owner", position := .point 4 2 }]
       methods :=
         [{ name := "total", parameters := [⟨"count", .ofScalar .int⟩]
            returns := some (.ofKind (.maybe (.ofScalar .double))), body := "None" }]
       rules := [{ name := "seller", body := "true" }] }]
  messages := [{ name := "Order", role := .message }]
  aliases :=
    [("Price", .ofScalar .double),
     ("Offer", .moveTo ⟨7, 1, 7, 20⟩ (.ofKind (.map (.ofScalar .string) (.ofRecord
       { name := "Bid", fields := [{ name := "item", type := .ofKind (.ref "Item") }] }))))]
  root := { Structure.emptyRoot with
    fields := [{ name := "items", type := .ofKind (.table "Item") }] }
  surface :=
    { predicates := { canCreate := some "who.is_some()" }
      config := [("limit", .object [("rate", .number (.double ⟨false, 4609434218613702656⟩)),
        ("floor", .number (.integer (-3)))])]
      services := [("mail", [("class", "smtp"), ("host", "localhost")]), ("audit", [])]
      tests := [⟨"opens", "assert!(true);"⟩] }

/-- The shop, with `1.5` in its configuration, is read again. -/
theorem ofText?_compact_shop :
    shop.Proper ∧ .double ⟨false, 4609434218613702656⟩ ∈ shop.surface.configJson.numbers ∧
      shop.toJson.nesting ≤ 127 ∧ ofText? shop.toJson.compact = some shop := by
  have hconfig : shop.surface.configJson.Proper := by
    refine .object (by decide) ?_
    rintro _ (_ | ⟨_, ⟨⟩⟩)
    refine .object (by decide) ?_
    rintro _ (_ | ⟨_, (_ | ⟨_, ⟨⟩⟩)⟩)
    · exact .double _
    · exact .integer (by decide) (by decide)
  have hproper : shop.Proper := ⟨by decide, hconfig, by decide, by decide⟩
  have hnumbers : shop.surface.configJson.numbers =
      [.double ⟨false, 4609434218613702656⟩, .integer (-3)] := rfl
  have hdoubles : ∀ x, .double x ∈ shop.surface.configJson.numbers →
      (Json.Number.double x).ReadsBack := by
    intro x hx
    have hx : x = ⟨false, 4609434218613702656⟩ := by simpa [hnumbers] using hx
    -- This double is read off its digits by computing.
    rw [hx, Json.Number.ReadsBack]
    decide +kernel
  have hnesting : shop.toJson.nesting ≤ 127 := by decide +kernel
  exact ⟨hproper, by simp [hnumbers], hnesting,
    ofText?_compact_toJson shop hproper hdoubles hnesting⟩

end Declarations

end ReactiveSpace
