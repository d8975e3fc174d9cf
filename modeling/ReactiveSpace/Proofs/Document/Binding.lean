import ReactiveSpace.Document.Factory
import ReactiveSpace.Proofs.Document.Registry
import ReactiveSpace.Proofs.Document.Settings
import ReactiveSpace.Proofs.Space.RoundTrip
import ReactiveSpace.Proofs.Target.Answers

/-!
# A bound factory shows the declared surface

A library whose static entry points answer what its code says (`Library.Answers`) is bound to a
factory that shows what the surface declares (`Factory.ofUnit_shows_surface`): the services as they
are, the configuration but for the values that hold a `null`, the names of the tests, and one client
for each service.

On the way from the surface to the factory a value is written as text, the text as a literal, and
the text that the literal denotes crosses the border and is read again. No text of a value holds
U+0000 (`Library.isSendable_compact`), so it arrives as it was sent.
-/

namespace ReactiveSpace

open Json (Tree)
open Json.Tree (required exists_parts listOf?_eq_some)

/-! ### Texts that cross the border -/

namespace Json.Token

/-- No token has U+0000 in it, and none stands beside one. -/
theorem step?_nul (p : Place) : p.step? '\x00' = none := by
  have hstart : start? '\x00' = none := by decide
  cases p with
  | word | number =>
    show (Option.bind _ fun _ => (start? '\x00').bind _) = none
    rw [hstart]
    simp
  | between | string | escape | unit => rfl

/-- The scanner takes no text with U+0000. -/
theorem nul_notMem_of_scanFrom? {done tokens : List Token} {p : Place} {cs : List Char}
    (h : scanFrom? done p cs = some tokens) : '\x00' ∉ cs := by
  induction cs generalizing done p with
  | nil => exact List.not_mem_nil
  | cons c cs ih =>
    rw [scanFrom?] at h
    rw [List.mem_cons, not_or]
    refine ⟨?_, ?_⟩
    · rintro rfl
      rw [step?_nul] at h
      cases h
    · split at h
      · exact ih h
      · cases h

end Json.Token

namespace Library

/-- The text of a value can be sent across the border, as no text of a value holds U+0000. -/
theorem isSendable_compact {v : Json} (h : v.Legible) : isSendable v.compact = true := by
  have hnul : '\x00' ∉ v.compact.toList := Json.Token.nul_notMem_of_scanFrom? (Json.scan?_compact h)
  refine List.all_eq_true.2 fun c hc => bne_iff_ne.2 fun hzero => ?_
  have hc0 : c = '\x00' := Char.toNat_inj.1 hzero
  exact hnul (hc0 ▸ hc)

theorem received_eq {text : String} (h : isSendable text = true) : received text = text := by
  have htake : (text.toList.takeWhile fun c => c.toNat != 0) = text.toList :=
    List.takeWhile_eq_self_iff.2 (List.all_eq_true.1 h)
  rw [received, htake, String.ofList_toList]

/-- A text that can be sent is the answer to whoever asks. -/
theorem answer_some (entry : String) {text : String} (h : isSendable text = true) :
    answer entry (some text) = .ok text := by
  rw [answer, received_eq h]

/-- If it can be read as well, what is read is the answer. -/
theorem readAnswer_some {α : Type} (entry : String) {read : String → Option α} {text : String}
    {value : α} (h : isSendable text = true) (hread : read text = some value) :
    readAnswer entry read (some text) = .ok value := by
  rw [readAnswer, answer_some entry h]
  dsimp only
  rw [hread]

end Library

/-! ### Reading the texts of a surface -/

namespace Surface

/-- The clients are given by texts alone, so their value can be read back. -/
theorem legible_clientsJson (s : Surface) : s.clientsJson.Legible := by
  simp [clientsJson, Client.toJson]

theorem legible_testsJson (s : Surface) : s.testsJson.Legible := by
  simp [testsJson]

/-- Services are two levels of objects, far from too many. -/
theorem nesting_servicesJson (s : Surface) : s.servicesJson.nesting ≤ Tree.levels := by
  have hservices : s.servicesJson.nesting ≤ 1 + 1 := by
    refine Nat.succ_le_succ (Json.memberNesting_le ?_)
    intro m hm
    obtain ⟨service, -, rfl⟩ := List.mem_map.1 hm
    refine Nat.succ_le_succ (Json.memberNesting_le ?_)
    intro m hm
    obtain ⟨p, -, rfl⟩ := List.mem_map.1 hm
    exact Nat.le_refl 0
  exact Nat.le_trans hservices (by decide)

theorem nesting_clientsJson (s : Surface) : s.clientsJson.nesting ≤ Tree.levels := by
  have hclients : s.clientsJson.nesting ≤ 1 + 1 := by
    refine Nat.succ_le_succ (Json.itemNesting_le ?_)
    intro v hv
    obtain ⟨c, -, rfl⟩ := List.mem_map.1 hv
    exact Nat.le_refl 1
  exact Nat.le_trans hclients (by decide)

/-- The names of tests are one list. -/
theorem nesting_testsJson (s : Surface) : s.testsJson.nesting ≤ Tree.levels := by
  have htests : s.testsJson.nesting ≤ 0 + 1 := by
    refine Nat.succ_le_succ (Json.itemNesting_le ?_)
    intro v hv
    obtain ⟨t, -, rfl⟩ := List.mem_map.1 hv
    exact Nat.le_refl 0
  exact Nat.le_trans htests (by decide)

end Surface

theorem Factory.servicesOfText_compact {s : Surface} (h : s.Proper) :
    servicesOfText s.servicesJson.compact = s.services := by
  rw [servicesOfText, Tree.ofText?_compact s.legible_servicesJson s.nesting_servicesJson,
    Option.bind_some, Surface.mapOf?_servicesJson h, Option.getD_some]

/-- The configuration is read as its members, and the settings are extracted from these. -/
theorem Settings.mapOfText_compact {s : Surface} (h : s.configJson.Proper)
    (hlegible : s.configJson.Legible) (hroom : s.configJson.nesting ≤ Tree.levels) :
    mapOfText s.configJson.compact = mapOfMembers s.config := by
  rw [mapOfText, Json.ofText?_compact h hlegible hroom]
  rfl

namespace Library

/-- A client is read as it was written. -/
theorem clientOfTree?_toTree (c : Client) : clientOfTree? c.toJson.toTree = some c := by
  obtain ⟨parts, hparts, hc⟩ := exists_parts c.toJson ["service", "class"] rfl (.refl _) (by decide)
  have hservice : required parts "service" (·.1.string?) = some c.service :=
    hc.required_string (by decide) (by simp)
  have hclass : required parts "class" (·.1.string?) = some c.clientClass :=
    hc.required_string (by decide) (by simp)
  rw [clientOfTree?, hparts]
  simp [hservice, hclass]

theorem clientsOfText?_compact (s : Surface) :
    clientsOfText? s.clientsJson.compact = some s.clients := by
  rw [clientsOfText?, Tree.ofText?_compact s.legible_clientsJson s.nesting_clientsJson,
    Option.bind_some]
  exact listOf?_eq_some fun c _ => clientOfTree?_toTree c

/-- The tests are listed by their names, in order. -/
theorem testsOfText?_compact (s : Surface) :
    testsOfText? s.testsJson.compact = some (s.tests.map Test.name) := by
  have htests : s.testsJson = .array ((s.tests.map Test.name).map .string) := by
    rw [List.map_map]
    rfl
  rw [testsOfText?, Tree.ofText?_compact s.legible_testsJson s.nesting_testsJson,
    Option.bind_some, htests]
  exact listOf?_eq_some fun _ _ => rfl

end Library

/-! ### Clients -/

namespace Registry

/-- A registry holds one client for each service of a surface. -/
structure Serves (r : Registry) (s : Surface) (decrypt : Decryptor) : Prop where
  size : r.size = s.services.length
  client : ∀ service properties, (service, properties) ∈ s.services →
    r.get? service = some ⟨⟨service, (Keyed.get? "class" properties).getD "generic"⟩, decrypt⟩
  services : r.services.Perm (Keyed.names s.services)
  sorted : r.services.Pairwise (· ≤ ·)

/-- The registry of a surface: one client for each declared service, which the last of its name
gives. -/
theorem serves_ofClients {s : Surface} (h : s.Proper) (decrypt : Decryptor) :
    (ofClients decrypt s.clients).Serves s decrypt := by
  have hservices : s.clients.map Client.service = Keyed.names s.services := by
    rw [Surface.clients, List.map_map]
    rfl
  have hnodup : (s.clients.map Client.service).Nodup := hservices ▸ h.services
  have hentries := entries_ofClients_of_nodup decrypt hnodup
  have hnames : Keyed.names (ofClients decrypt s.clients).entries = Keyed.names s.services := by
    rw [hentries, Keyed.names, List.map_map]
    exact hservices
  refine ⟨?_, ?_, hnames ▸ perm_services _, pairwise_services _⟩
  · rw [size, hentries, List.length_map, Surface.clients, List.length_map]
  · intro service properties hmem
    refine Keyed.get?_of_mem (hnames ▸ h.services) ?_
    rw [hentries, Surface.clients, List.map_map]
    exact List.mem_map_of_mem (f := _ ∘ _) hmem

end Registry

/-! ### Binding -/

/-- A library answers its static entry points as code says. -/
structure Library.Answers {σ : Type} (l : Library σ) (code : List Code) : Prop where
  config : l.config = Target.answer? code "config"
  services : l.services = Target.answer? code "services"
  genericClients : l.genericClients = Target.answer? code "generic_clients"
  getTests : l.getTests = Target.answer? code "get_tests"

namespace Library

variable {m : Type → Type} [Monad m] {σ : Type} {l : Library σ} {s : Surface}

/-- What the code says are the texts of what the surface declares. -/
theorem answers_unitCode_iff (t : Table) (unitName : String) (h : s.configJson.Legible) :
    l.Answers (Target.unitCode t s unitName) ↔
      l.config = some s.configJson.compact ∧ l.services = some s.servicesJson.compact ∧
        l.genericClients = some s.clientsJson.compact ∧ l.getTests = some s.testsJson.compact := by
  have hconfig := Target.answer?_static t s unitName List.mem_cons_self (isSendable_compact h)
  have hservices := Target.answer?_static t s unitName
    (List.mem_cons_of_mem _ List.mem_cons_self) (isSendable_compact s.legible_servicesJson)
  have hclients := Target.answer?_static t s unitName
    (List.mem_cons_of_mem _ (List.mem_cons_of_mem _ List.mem_cons_self))
    (isSendable_compact s.legible_clientsJson)
  have htests := Target.answer?_tests t s unitName (isSendable_compact s.legible_testsJson)
  rw [← hconfig, ← hservices, ← hclients, ← htests]
  exact ⟨fun h => ⟨h.config, h.services, h.genericClients, h.getTests⟩,
    fun ⟨hconfig, hservices, hclients, htests⟩ => ⟨hconfig, hservices, hclients, htests⟩⟩

/-- A library that answers with the text of the configuration has it asked for as a unit. -/
theorem unit_config (hlegible : s.configJson.Legible) (h : l.config = some s.configJson.compact) :
    (l.unit : DocumentUnit m σ).config = pure (.ok s.configJson.compact) := by
  show pure (answer "config" l.config) = _
  rw [h, answer_some "config" (isSendable_compact hlegible)]

theorem unit_services (h : l.services = some s.servicesJson.compact) :
    (l.unit : DocumentUnit m σ).services = pure (.ok s.servicesJson.compact) := by
  show pure (answer "services" l.services) = _
  rw [h, answer_some "services" (isSendable_compact s.legible_servicesJson)]

theorem unit_clients (h : l.genericClients = some s.clientsJson.compact) :
    (l.unit : DocumentUnit m σ).clients = pure (.ok s.clients) := by
  show pure (readAnswer "generic_clients" clientsOfText? l.genericClients) = _
  rw [h, readAnswer_some "generic_clients" (isSendable_compact s.legible_clientsJson)
    (clientsOfText?_compact s)]

theorem unit_tests (h : l.getTests = some s.testsJson.compact) :
    (l.unit : DocumentUnit m σ).tests = pure (.ok (s.tests.map Test.name)) := by
  show pure (readAnswer "get_tests" testsOfText? l.getTests) = _
  rw [h, readAnswer_some "get_tests" (isSendable_compact s.legible_testsJson)
    (testsOfText?_compact s)]

end Library

namespace Factory

variable {m : Type → Type} [Monad m] {σ : Type}

/-- What a factory shows of a surface: its services, its configuration without the values that hold
a `null`, and its tests. -/
structure Shows (f : Factory m σ) (s : Surface) : Prop where
  services : f.services = s.services
  settingNames : Keyed.names f.rawSettings = Keyed.names (s.config.filter fun e => !e.2.holdsNull)
  settings : ∀ name v, (name, v) ∈ s.config → v.holdsNull = false →
    (∀ n, .integer n ∈ v.numbers → n < 2 ^ 63) →
    (Keyed.get? name f.rawSettings).map Setting.toJson = some v
  tests : f.unit.tests = pure (.ok (s.tests.map Test.name))

variable [LawfulMonad m]

theorem ofUnit_eq {unit : DocumentUnit m σ} {config services : String}
    (hconfig : unit.config = pure (.ok config)) (hservices : unit.services = pure (.ok services))
    (space : String) :
    ofUnit space unit = pure (.ok (ofTexts space unit config services)) := by
  simp [ofUnit, hconfig, hservices]

/-- A factory without a registry keeps the one that its unit fills. -/
theorem clients_eq {f : Factory m σ} {clients : List Client} (hf : f.registry = none)
    (hclients : f.unit.clients = pure (.ok clients)) (decrypt : Decryptor) :
    f.clients decrypt = pure (.ok (Registry.ofClients decrypt clients),
      { f with registry := some (Registry.ofClients decrypt clients) }) := by
  simp [Factory.clients, hf, fill, hclients, publish]

/-- **Binding** a library that answers what its code says gives a factory that shows the surface,
and whose registry has one client for each service. -/
theorem ofUnit_shows_surface (t : Table) (s : Surface) (unitName space : String) (l : Library σ)
    (decrypt : Decryptor) (hs : s.Proper)
    (hdoubles : ∀ x, .double x ∈ s.configJson.numbers → (Json.Number.double x).ReadsBack)
    (hnesting : s.configJson.nesting ≤ 127)
    (hl : l.Answers (Target.unitCode t s unitName)) :
    ∃ f : Factory m σ, ofUnit space l.unit = pure (.ok f) ∧ f.Shows s ∧
      ∃ registry next, f.clients decrypt = pure (.ok registry, next) ∧
        next.registry = some registry ∧ registry.Serves s decrypt := by
  have hlegible : s.configJson.Legible := hs.config.legible hdoubles
  obtain ⟨hconfig, hservices, hclients, htests⟩ :=
    (Library.answers_unitCode_iff t unitName hlegible).1 hl
  have hbound := ofUnit_eq (m := m) (Library.unit_config hlegible hconfig)
    (Library.unit_services hservices) space
  have hsettings := Settings.mapOfText_compact hs.config hlegible hnesting
  refine ⟨_, hbound, ⟨servicesOfText_compact hs, ?_, ?_, Library.unit_tests htests⟩, ?_⟩
  · show Keyed.names (Settings.mapOfText s.configJson.compact) = _
    rw [hsettings, Settings.names_mapOfMembers]
  · intro name v hv hnull hbelow
    show (Keyed.get? name (Settings.mapOfText s.configJson.compact)).map Setting.toJson = _
    rw [hsettings, Settings.map_toJson_get?_mapOfMembers hs.config hv hnull hbelow]
  · exact ⟨_, _, clients_eq rfl (Library.unit_clients hclients) decrypt, rfl,
      Registry.serves_ofClients hs decrypt⟩

/-- A kiosk with characters that every form of text escapes, a `null` below an array, an integer
that no setting holds, and a service without a class. -/
def kiosk : Surface where
  config :=
    [("theme", .string "d\"\\\n\x00é\u200b"),
     ("limit", .object [("rate", .number (.double ⟨false, 4609434218613702656⟩)),
       ("floor", .number (.integer (-3)))]),
     ("stale", .array [.bool true, .null]),
     ("huge", .number (.integer 18446744073709551615))]
  services := [("mail", [("class", "smtp"), ("host", "localhost")]), ("audit", [])]
  tests := [⟨"opens", "assert!(true);"⟩, ⟨"closes", ""⟩]

/-- A library of the kiosk, without documents. -/
def kioskLibrary : Library Unit where
  version := 1
  config := some ("\x7b\"theme\":\"d\\\"\\\\\\n\\u0000é\u200b\",\"limit\":" ++
    "\x7b\"rate\":1.5,\"floor\":-3\x7d,\"stale\":[true,null],\"huge\":18446744073709551615\x7d")
  services := some ("\x7b\"mail\":\x7b\"class\":\"smtp\",\"host\":\"localhost\"\x7d," ++
    "\"audit\":\x7b\x7d\x7d")
  genericClients := some ("[\x7b\"service\":\"mail\",\"class\":\"smtp\"\x7d," ++
    "\x7b\"service\":\"audit\",\"class\":\"generic\"\x7d]")
  getTests := some "[\"opens\",\"closes\"]"
  predicate _ _ := 0
  construct := none
  transactConstruct _ _ := (([], none), ·)
  lateBind _ _ := (([], 0), ·)
  runTest _ := (([], none), ·)

/-- The kiosk is bound: the setting with a `null` is left out, and the service without a class has a
generic client. -/
theorem ofUnit_shows_kiosk :
    kiosk.Proper ∧ .double ⟨false, 4609434218613702656⟩ ∈ kiosk.configJson.numbers ∧
      kiosk.configJson.nesting ≤ 127 ∧
      kioskLibrary.Answers (Target.unitCode {} kiosk "livedoc_kiosk") ∧
      ∃ f : Factory Id Unit, ofUnit "kiosk" kioskLibrary.unit = pure (.ok f) ∧
        Keyed.names f.rawSettings = ["theme", "limit", "huge"] ∧
        ∃ registry next, f.clients Decryptor.refusing = pure (.ok registry, next) ∧
          registry.get? "audit" = some ⟨⟨"audit", "generic"⟩, Decryptor.refusing⟩ := by
  -- A value is proper member by member.
  have hconfig : kiosk.configJson.Proper := by
    refine .object (by decide) ?_
    rintro _ (_ | ⟨_, (_ | ⟨_, (_ | ⟨_, (_ | ⟨_, ⟨⟩⟩)⟩)⟩)⟩)
    · exact .string _
    · refine .object (by decide) ?_
      rintro _ (_ | ⟨_, (_ | ⟨_, ⟨⟩⟩)⟩)
      · exact .double _
      · exact .integer (by decide) (by decide)
    · refine .array ?_
      rintro _ (_ | ⟨_, (_ | ⟨_, ⟨⟩⟩)⟩)
      · exact .bool true
      · exact .null
    · exact .integer (by decide) (by decide)
  have hproper : kiosk.Proper := ⟨hconfig, by decide, by decide⟩
  have hnumbers : kiosk.configJson.numbers =
      [.double ⟨false, 4609434218613702656⟩, .integer (-3), .integer 18446744073709551615] := rfl
  -- Only one of the numbers is a double.
  have hdoubles : ∀ x, .double x ∈ kiosk.configJson.numbers →
      (Json.Number.double x).ReadsBack := by
    intro x hx
    have hx : x = ⟨false, 4609434218613702656⟩ := by simpa [hnumbers] using hx
    rw [hx, Json.Number.ReadsBack]
    decide +kernel
  have hnesting : kiosk.configJson.nesting ≤ 127 := by decide
  -- The answers are compared with the literals in the code.
  have hanswers : kioskLibrary.Answers (Target.unitCode {} kiosk "livedoc_kiosk") := by
    rw [Library.answers_unitCode_iff {} "livedoc_kiosk" (hconfig.legible hdoubles)]
    decide +kernel
  refine ⟨hproper, by simp [hnumbers], hnesting, hanswers, ?_⟩
  obtain ⟨f, hf, hshows, registry, next, hregistry, -, hserves⟩ :=
    ofUnit_shows_surface (m := Id) {} kiosk "livedoc_kiosk" "kiosk" kioskLibrary
      Decryptor.refusing hproper hdoubles hnesting hanswers
  refine ⟨f, hf, hshows.settingNames, registry, next, hregistry, ?_⟩
  exact hserves.client "audit" [] (List.mem_cons_of_mem _ List.mem_cons_self)

end Factory

end ReactiveSpace
