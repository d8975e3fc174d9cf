import ReactiveSpace.Proofs.Target.Expansion

/-!
# When spelling a type ends

A shape is finite, for no alias is opened twice in it. Who spells a type without such a guard spells
a container by what is in it and a reference by the type it stands for (`Spelling.write?`), for as
long as there is fuel. Typing rejects aliases that are nothing but names of each other, but an alias
may contain itself, and then the way goes round: `Table.Recurses` is one step of it, and
`Table.Stops` says that there are no steps without end.

A type stops exactly when no alias on its way leads back to itself (`stops_iff`). In a well-formed
table it is spelled with some fuel exactly then, and the spelling is that of its shape
(`WellFormed.exists_write?`, `stops_of_write?`, `WellFormed.eq_of_write?`).
-/

namespace ReactiveSpace

open Relation

/-- A way to spell a type. -/
inductive Spelling where
  /-- The type of the plain value. -/
  | native
  /-- The type of the reactive storage. -/
  | runtime
  /-- The default of the plain value. -/
  | initial
  /-- The expression that builds the storage under a link. -/
  | construction (link : String)
  /-- The type of the delta. -/
  | delta

namespace Spelling

/-- The spelling of a shape. -/
def text : Spelling → Shape → String
  | .native => Shape.nativeType
  | .runtime => Shape.runtimeType
  | .initial => Shape.defaultValue
  | .construction link => Shape.construction link
  | .delta => Shape.deltaType

/-- Whether the spelling of every container takes that of the type in it. The default of a list, a
map or a maybe is empty, and only that of a formula is the default of what it computes. -/
def deep : Spelling → Bool
  | .initial => false
  | _ => true

/-- How the type in a container has to be spelled, if at all. -/
def inner? (f : Spelling) (container : Kind Node) : Option Spelling :=
  match f, container with
  | .initial, .lazy _ _ _ => some .initial
  | .initial, _ => none
  | .native, _ => some .native
  | .delta, _ => some .delta
  -- The cell of a formula holds a plain value.
  | .runtime, .lazy _ _ _ | .construction _, .lazy _ _ _ => some .native
  | .runtime, _ => some .runtime
  | .construction _, _ => some (.construction "__link")

/-- The type in a container that has to be spelled, and how. -/
def asks? (f : Spelling) (n : Node) : Option (Spelling × Node) :=
  n.embedded?.bind fun m => (f.inner? n.kind).map fun g => (g, m)

/-- A container around the spelling of the type in it, and of the keys if it is a map. -/
def around (f : Spelling) (container : Kind Node) (key inner : String) : String :=
  match f, container with
  | .native, .list _ => "NtList<" ++ inner ++ ">"
  | .native, .map _ _ => "NtMap<" ++ key ++ ", " ++ inner ++ ">"
  | .native, .maybe _ => "NtMaybe<" ++ inner ++ ">"
  | .runtime, .list _ => "RxList<" ++ inner ++ ">"
  | .runtime, .map _ _ => "RxMap<" ++ key ++ ", " ++ inner ++ ">"
  | .runtime, .maybe _ => "RxMaybe<" ++ inner ++ ">"
  | .runtime, .lazy _ _ cached => Shape.lazyCell cached ++ "<" ++ inner ++ ">"
  | .construction link, .list _ => "RxList::link(" ++ link ++ ", |__link| " ++ inner ++ ")"
  | .construction link, .map _ _ => "RxMap::link(" ++ link ++ ", |__link| " ++ inner ++ ")"
  | .construction link, .maybe _ => "RxMaybe::link(" ++ link ++ ", |__link| " ++ inner ++ ")"
  | .construction link, .lazy _ formula cached =>
    Shape.lazyCell cached ++ "::link(" ++ link ++ ", |__this: &Self| -> " ++ inner ++ " \x7b " ++
      Text.trim formula ++ " \x7d)"
  | .delta, .list _ => "DList<" ++ inner ++ ">"
  | .delta, .map _ _ => "DMap<" ++ key ++ ", " ++ inner ++ ">"
  | .delta, .maybe _ => "DMaybe<" ++ inner ++ ">"
  | .delta, .lazy _ _ _ => "DLazy<" ++ inner ++ ">"
  | _, _ => inner

/-- The domain of a map whose keys have to be spelled. A construction builds no keys. -/
def domain? (f : Spelling) (container : Kind Node) : Option Node :=
  match f, container with
  | .construction _, _ => none
  | _, .map domain _ => some domain
  | _, _ => none

/-- The spelling of the keys, if they have to be spelled: by their scalar, and when the domain comes
down to no key type as `spell` says. -/
def key? (f : Spelling) (t : Table) (spell : Node → Option String) (container : Kind Node) :
    Option String :=
  match f.domain? container with
  | none => some ""
  | some domain =>
    match t.domainOf? domain with
    | some scalar => some scalar.nativeType
    | none => spell domain

/-- The type `n` spelled without a guard: a container by the type in it, and a reference by the type
it stands for. There is no answer when the fuel runs out. -/
def write? (t : Table) : Nat → Spelling → Option (Structure Node) → Node → Option String
  | 0, _, _, _ => none
  | fuel + 1, f, scope, n =>
    match f.asks? n, n.reference? with
    | some (g, m), _ => do
      let key ← f.key? t (write? t fuel .native scope) n.kind
      let inner ← write? t fuel g scope m
      return f.around n.kind key inner
    | none, some name =>
      match t.followName? name with
      | some target => write? t fuel f none target
      | none => some (f.text (.unresolved name))
    | none, none => some (f.text (n.shape t (.declared scope)))

end Spelling

namespace Table

/-- Spelling the type `n` goes on to the type `m`: from a container to the type in it, unless that
is not asked for, and from a reference to the type it stands for. -/
def Recurses (t : Table) (deep : Bool) (n m : Node) : Prop :=
  (n.embedded? = some m ∧ (deep = true ∨ ∃ formula cached, n.kind = .lazy m formula cached)) ∨
    ∃ name, n.reference? = some name ∧ t.Names name m

/-- Spelling a type does not go on without end. -/
def Stops (t : Table) (deep : Bool) : Node → Prop :=
  Acc fun m n => t.Recurses deep n m

variable {t : Table} {scope : Option (Structure Node)} {n m : Node} {opened : List String}
  {deep : Bool} {f g : Spelling}

/-! ### The way of a spelling -/

theorem mem_parts_of_embedded? (h : n.embedded? = some m) : m ∈ n.parts := by
  unfold Node.embedded? at h
  unfold Node.parts
  cases hk : n.kind <;> simp_all

theorem reference?_of_embedded? (h : n.embedded? = some m) : n.reference? = none := by
  unfold Node.embedded? at h
  unfold Node.reference?
  cases hk : n.kind <;> simp_all

theorem asks?_eq_some_iff :
    f.asks? n = some (g, m) ↔ n.embedded? = some m ∧ f.inner? n.kind = some g := by
  unfold Spelling.asks?
  cases n.embedded? <;> cases f.inner? n.kind <;> simp [and_comm]

/-- What a spelling asks for is as deep as the spelling. -/
theorem deep_of_asks? (h : f.asks? n = some (g, m)) : g.deep = f.deep := by
  have hinner := (asks?_eq_some_iff.1 h).2
  unfold Spelling.inner? at hinner
  split at hinner <;> cases hinner <;> rfl

theorem exists_range_of_domain? {container : Kind Node} {domain : Node}
    (h : f.domain? container = some domain) : ∃ range, container = .map domain range := by
  unfold Spelling.domain? at h
  split at h <;> simp_all

/-- A step goes to what is asked for, or along a reference. -/
theorem recurses_iff :
    t.Recurses f.deep n m ↔
      (∃ g, f.asks? n = some (g, m)) ∨ ∃ name, n.reference? = some name ∧ t.Names name m := by
  refine or_congr_left ?_
  obtain ⟨position, notes, kind⟩ := n
  unfold Spelling.asks? Node.embedded?
  cases kind <;> cases f <;> simp [Spelling.inner?, Spelling.deep]

/-! ### Types that stop -/

/-- What lies on the way of a type that stops will stop too. -/
theorem Stops.of_reaches (h : t.Stops deep n) (hreach : ReflTransGen (t.Recurses deep) n m) :
    t.Stops deep m := by
  induction hreach with
  | refl => exact h
  | tail _ hstep ih => exact ih.inv hstep

/-- A type stops exactly when no alias that it leads to leads back to itself. -/
theorem stops_iff (hn : t.Occurs (.type scope n)) :
    t.Stops deep n ↔
      ∀ key node, t.get? key = some node → ReflTransGen (t.Recurses deep) n node →
        ¬ TransGen (t.Recurses deep) node node := by
  constructor
  · -- A way without end would lead round on this alias.
    intro hstops key node _ hreach
    exact not_transGen_of_acc (hstops.of_reaches hreach)
  · -- Only so many aliases can be open; the one that comes up again leads back to itself.
    intro hacyclic
    suffices ∀ opened, (∀ key ∈ opened, ∀ node, t.get? key = some node →
        ReflTransGen (t.Recurses deep) node n) → t.Stops deep n from this [] (by simp)
    intro opened
    revert hacyclic
    refine hn.expanding (P := fun opened _ n =>
      (∀ key node, t.get? key = some node → ReflTransGen (t.Recurses deep) n node →
        ¬ TransGen (t.Recurses deep) node node) →
      (∀ key ∈ opened, ∀ node, t.get? key = some node → ReflTransGen (t.Recurses deep) node n) →
      t.Stops deep n) ?_
    intro opened scope n _ ihparts ihref hacyclic hopened
    refine Acc.intro _ fun m hstep => ?_
    have hacyclic' : ∀ key node, t.get? key = some node → ReflTransGen (t.Recurses deep) m node →
        ¬ TransGen (t.Recurses deep) node node :=
      fun key node hkey hreach => hacyclic key node hkey (.head hstep hreach)
    have hopened' : ∀ key ∈ opened, ∀ node, t.get? key = some node →
        ReflTransGen (t.Recurses deep) node m :=
      fun key hkey node hget => (hopened key hkey node hget).tail hstep
    rcases id hstep with ⟨hembedded, -⟩ | ⟨name, -, hnames⟩
    · exact ihparts m (mem_parts_of_embedded? hembedded) hacyclic' hopened'
    · obtain ⟨key, hkey⟩ := hnames.exists_entry
      have hnew : key ∉ opened := fun hopen =>
        hacyclic' key m hkey .refl (TransGen.tail' (hopened key hopen m hkey) hstep)
      refine ihref key m hkey hnew hacyclic' fun other hother node hget => ?_
      rcases List.mem_cons.1 hother with rfl | hother
      · obtain rfl := Option.some.inj (hkey.symm.trans hget)
        exact .refl
      · exact hopened' other hother node hget

/-- All types stop exactly when no alias leads back to itself. -/
theorem forall_stops_iff :
    (∀ scope n, t.Occurs (.type scope n) → t.Stops deep n) ↔
      ∀ key node, t.get? key = some node → ¬ TransGen (t.Recurses deep) node node := by
  constructor
  · intro hstops key node hkey
    exact not_transGen_of_acc (hstops none node (.of_get? hkey))
  · intro hacyclic scope n hn
    exact (stops_iff hn).2 fun key node hkey _ => hacyclic key node hkey

/-! ### Spelling with fuel -/

/-- A reference is followed rather than asked about. -/
theorem asks?_of_reference? {name : String} (h : n.reference? = some name) : f.asks? n = none := by
  cases hasks : f.asks? n with
  | none => rfl
  | some x => simp [reference?_of_embedded? ((asks?_eq_some_iff.1 hasks).1)] at h

/-- A container takes a unit of fuel, and the rest goes to what is in it. -/
theorem write?_of_asks? {fuel : Nat} (h : f.asks? n = some (g, m)) :
    f.write? t (fuel + 1) scope n =
      (f.key? t (Spelling.native.write? t fuel scope) n.kind).bind fun key =>
        (g.write? t fuel scope m).map (f.around n.kind key) := by
  simp only [Spelling.write?, h, Option.bind_eq_bind, Option.map_eq_bind]
  rfl

theorem write?_of_reference? {fuel : Nat} {name : String} {target : Node}
    (h : n.reference? = some name) (hnames : t.Names name target) :
    f.write? t (fuel + 1) scope n = f.write? t fuel none target := by
  rw [Spelling.write?, asks?_of_reference? h, h]
  simp only [followName?_eq_some_iff.2 hnames]

/-- A type with nothing in it is spelled by its shape. -/
theorem write?_of_leaf {fuel : Nat} (h : f.asks? n = none) (href : n.reference? = none) :
    f.write? t (fuel + 1) scope n = some (f.text (n.shape t (.declared scope))) := by
  rw [Spelling.write?, h, href]

/-- A type that was spelled stops. -/
theorem stops_of_write? {fuel : Nat} {text : String} (h : f.write? t fuel scope n = some text) :
    t.Stops f.deep n := by
  induction fuel generalizing f scope n text with
  | zero => cases h
  | succ fuel ih =>
    refine Acc.intro _ fun m hstep => ?_
    rcases recurses_iff.1 hstep with ⟨g, hasks⟩ | ⟨name, href, hnames⟩
    · rw [write?_of_asks? hasks] at h
      obtain ⟨key, -, hinner⟩ := Option.bind_eq_some_iff.1 h
      obtain ⟨inner, hinner, -⟩ := Option.map_eq_some_iff.1 hinner
      exact deep_of_asks? hasks ▸ ih hinner
    · rw [write?_of_reference? href hnames] at h
      exact ih h

namespace WellFormed

/-- In a well-formed table keys are spelled by their scalars, without going on to the domain. -/
theorem exists_key? (ht : t.WellFormed) (hn : t.Occurs (.type scope n)) (f : Spelling) :
    ∃ key, (∀ spell, f.key? t spell n.kind = some key) ∧
      ∀ domain, f.domain? n.kind = some domain →
        ∃ k, t.HasKind domain (.scalar k) ∧ key = k.nativeType := by
  cases hdomain : f.domain? n.kind with
  | none => exact ⟨"", fun spell => by simp [Spelling.key?, hdomain], by simp⟩
  | some domain =>
    obtain ⟨range, hk⟩ := exists_range_of_domain? hdomain
    obtain ⟨k, hkey⟩ := domainOf?_isSome_iff.2 (ht.isKey_domain hn hk)
    refine ⟨k.nativeType, fun spell => by simp [Spelling.key?, hdomain, hkey], ?_⟩
    rintro _ ⟨⟩
    exact ⟨k, scalarOf?_eq_some_iff.1 (Option.filter_eq_some_iff.1 hkey).1, rfl⟩

/-- A type that stops is spelled with enough fuel. -/
theorem exists_write? (ht : t.WellFormed) (hn : t.Occurs (.type scope n))
    (hstops : t.Stops f.deep n) : ∃ fuel text, f.write? t fuel scope n = some text := by
  generalize hdeep : f.deep = deep at hstops
  -- Each step of the way takes one unit of fuel.
  induction hstops generalizing f scope with
  | intro n _ ih =>
    subst hdeep
    cases hasks : f.asks? n with
    | some x =>
      obtain ⟨g, m⟩ := x
      have hembedded := (asks?_eq_some_iff.1 hasks).1
      obtain ⟨fuel, inner, hinner⟩ := ih m (recurses_iff.2 (.inl ⟨g, hasks⟩))
        (.part hn (mem_parts_of_embedded? hembedded)) (deep_of_asks? hasks)
      obtain ⟨key, hkey, -⟩ := ht.exists_key? hn f
      refine ⟨fuel + 1, f.around n.kind key inner, ?_⟩
      rw [write?_of_asks? hasks, hkey, Option.bind_some, hinner, Option.map_some]
    | none =>
      cases href : n.reference? with
      | none => exact ⟨1, _, write?_of_leaf hasks href⟩
      | some name =>
        obtain ⟨target, hnames⟩ := ht.exists_names hn href
        obtain ⟨key, hkey⟩ := hnames.exists_entry
        obtain ⟨fuel, text, htext⟩ := ih target (recurses_iff.2 (.inr ⟨name, href, hnames⟩))
          (.of_get? hkey) rfl
        exact ⟨fuel + 1, text, (write?_of_reference? href hnames).trans htext⟩

/-- A container whose type is asked for is spelled around that type. -/
theorem text_expand_of_asks? (hasks : f.asks? n = some (g, m)) {key : String}
    (hkey : ∀ domain, f.domain? n.kind = some domain →
      (Shape.expand t opened (.declared scope) domain).nativeType = key) :
    f.text (Shape.expand t opened (.declared scope) n) =
      f.around n.kind key (g.text (Shape.expand t opened (.declared scope) m)) := by
  obtain ⟨hembedded, hinner⟩ := asks?_eq_some_iff.1 hasks
  obtain ⟨position, notes, kind⟩ := n
  cases kind with
  | list | maybe | lazy =>
    cases hembedded
    rw [Shape.expand]
    cases f <;> cases hinner <;> rfl
  -- Spellings that write the key of a map write it as a native type.
  | map domain range =>
    cases hembedded
    rw [Shape.expand]
    cases f with
    | construction => cases hinner; rfl
    | initial => cases hinner
    | _ =>
      cases hinner
      rw [← hkey _ rfl]
      rfl
  | _ => cases hembedded

/-- What asks for nothing is spelled the same whatever is open. -/
theorem text_expand_of_leaf (hasks : f.asks? n = none) (href : n.reference? = none) (site : Site)
    (opened opened' : List String) :
    f.text (Shape.expand t opened site n) = f.text (Shape.expand t opened' site n) := by
  obtain ⟨position, notes, kind⟩ := n
  cases kind with
  | ref name => cases href
  | list | maybe | map =>
    -- Only defaults ask for nothing, and they are empty.
    cases f with
    | initial =>
      rw [Shape.expand, Shape.expand]
      rfl
    | _ => cases hasks
  | lazy => cases f <;> cases hasks
  | _ => rw [Shape.expand, Shape.expand]

/-- A type is spelled as its expansion is. The aliases that are open lead to the type, and what is
spelled leads back to none of them. -/
theorem eq_of_write? (ht : t.WellFormed) (hn : t.Occurs (.type scope n)) {fuel : Nat}
    {text : String} (h : f.write? t fuel scope n = some text)
    (hopened : ∀ key ∈ opened, ∀ node, t.get? key = some node →
      ReflTransGen (t.Recurses f.deep) node n) :
    text = f.text (Shape.expand t opened (.declared scope) n) := by
  -- The aliases that are open lie behind, so none of them comes up again on a way that stops.
  induction fuel generalizing f scope n text opened with
  | zero => cases h
  | succ fuel ih =>
    have hnext : ∀ {m}, t.Recurses f.deep n m → ∀ key ∈ opened, ∀ node, t.get? key = some node →
        ReflTransGen (t.Recurses f.deep) node m :=
      fun hstep key hkey node hget => (hopened key hkey node hget).tail hstep
    cases hasks : f.asks? n with
    | some x =>
      obtain ⟨g, m⟩ := x
      have hstep : t.Recurses f.deep n m := recurses_iff.2 (.inl ⟨g, hasks⟩)
      have hembedded := (asks?_eq_some_iff.1 hasks).1
      rw [write?_of_asks? hasks] at h
      obtain ⟨key, hkey, h⟩ := Option.bind_eq_some_iff.1 h
      obtain ⟨inner, hinner, rfl⟩ := Option.map_eq_some_iff.1 h
      rw [ih (.part hn (mem_parts_of_embedded? hembedded)) hinner
        (deep_of_asks? hasks ▸ hnext hstep)]
      refine (text_expand_of_asks? hasks fun domain hdomain => ?_).symm
      obtain ⟨key', hkey', hscalar⟩ := ht.exists_key? hn f
      obtain rfl := Option.some.inj (hkey.symm.trans (hkey' _))
      obtain ⟨k, hk', rfl⟩ := hscalar domain hdomain
      obtain ⟨range, hk⟩ := exists_range_of_domain? hdomain
      -- From a scalar no step leads to the map.
      rw [expand_of_hasKind_scalar hk' fun other hother node hget hnode => ?_]
      · rfl
      · rcases (hopened other hother node hget).cases_head with rfl | ⟨_, hstep', -⟩
        · simp [hk] at hnode
        · simp [Recurses, Node.embedded?, Node.reference?, hnode] at hstep'
    | none =>
      cases href : n.reference? with
      | none =>
        rw [write?_of_leaf hasks href, Option.some.injEq] at h
        rw [← h]
        exact text_expand_of_leaf hasks href _ _ _
      | some name =>
        obtain ⟨target, hnames⟩ := ht.exists_names hn href
        have hstep : t.Recurses f.deep n target := .inr ⟨name, href, hnames⟩
        have hstops := stops_of_write? h
        rw [write?_of_reference? href hnames] at h
        rcases expand_ref opened href hnames with ⟨s, -, heq⟩ | ⟨-, key, hkey, heq⟩
        · obtain ⟨key, hkey⟩ := hnames.exists_entry
          rw [heq]
          exact ih (.of_get? hkey) h (hnext hstep)
        · have hnew : key ∉ opened := fun hopen =>
            not_transGen_of_acc hstops (TransGen.head' hstep (hopened key hopen target hkey))
          rw [heq, if_neg hnew]
          refine ih (.of_get? hkey) h fun other hother node hget => ?_
          rcases List.mem_cons.1 hother with rfl | hother
          · obtain rfl := Option.some.inj (hkey.symm.trans hget)
            exact .refl
          · exact hnext hstep other hother node hget

end WellFormed

end Table

namespace Declarations

/-- **When spelling ends.** In a deployable space, spelling goes on without end from no type exactly
when no alias leads back to itself. Each of the five spellings of a type that occurs is found with
some fuel exactly when no alias that the type leads to leads back to itself, and what is found is
always the spelling of its shape. -/
theorem spelling_ends_iff (d : Declarations) (h : d.check.isDeployable = true) :
    ((∀ scope n, d.check.table.Occurs (.type scope n) → d.check.table.Stops true n) ↔
      ∀ name node, d.check.table.get? name = some node →
        ¬ TransGen (d.check.table.Recurses true) node node) ∧
    ∀ scope n, d.check.table.Occurs (.type scope n) → ∀ f : Spelling,
      ((∃ fuel text, f.write? d.check.table fuel scope n = some text) ↔
        ∀ name node, d.check.table.get? name = some node →
          ReflTransGen (d.check.table.Recurses f.deep) n node →
            ¬ TransGen (d.check.table.Recurses f.deep) node node) ∧
      ∀ fuel text, f.write? d.check.table fuel scope n = some text →
        text = f.text (n.shape d.check.table (.declared scope)) := by
  have ht := wellFormed_of_isDeployable h
  refine ⟨Table.forall_stops_iff, fun scope n hn f => ⟨?_, fun fuel text htext => ?_⟩⟩
  · rw [← Table.stops_iff hn]
    constructor
    · rintro ⟨fuel, text, htext⟩
      exact Table.stops_of_write? htext
    · exact ht.exists_write? hn
  · exact ht.eq_of_write? hn htext (by simp)

/-- An alias for lists of itself. -/
def nested : Declarations where
  space := "nested"
  aliases := [("L", .ofKind (.list (.ofKind (.ref "L"))))]
  root := { Structure.emptyRoot with fields := [{ name := "l", type := .ofKind (.ref "L") }] }

/-- A space with such an alias is deployable, but the types of its field have no end; only the
default of the field has one. -/
theorem nested_never_spelled :
    nested.check.isDeployable = true ∧
      (∃ scope n, nested.check.table.Occurs (.type scope n) ∧ ¬ nested.check.table.Stops true n) ∧
      (∀ f : Spelling, f.deep = true → ∀ fuel,
        f.write? nested.check.table fuel (some nested.check.table.root) (.ofKind (.ref "L")) =
          none) ∧
      ∃ fuel, Spelling.initial.write? nested.check.table fuel (some nested.check.table.root)
        (.ofKind (.ref "L")) = some "NtList::new()" := by
  have h : nested.check.isDeployable = true :=
    isDeployable_of_isEmpty (by decide) (by decide +kernel) (by cbv)
  have htable : nested.check.table = nested.table (by decide) := table_draft _
  have hget : nested.check.table.get? "L" = some (.ofKind (.list (.ofKind (.ref "L")))) := by
    rw [htable]
    rfl
  have hnames : nested.check.table.Names "L" (.ofKind (.list (.ofKind (.ref "L")))) :=
    ⟨_, hget, .self rfl⟩
  have hfield : nested.check.table.Occurs
      (.type (some nested.check.table.root) (.ofKind (.ref "L"))) := by
    refine .member .root ?_
    rw [htable]
    exact List.mem_cons_self
  -- The list leads to the reference in it, and the reference to the list.
  have hreference : nested.check.table.Recurses true (.ofKind (.ref "L"))
      (.ofKind (.list (.ofKind (.ref "L")))) := .inr ⟨"L", rfl, hnames⟩
  have hcycle : TransGen (nested.check.table.Recurses true) (.ofKind (.list (.ofKind (.ref "L"))))
      (.ofKind (.list (.ofKind (.ref "L")))) :=
    .tail (.single (.inl ⟨rfl, .inl rfl⟩)) hreference
  obtain ⟨hstops, hspelling⟩ := spelling_ends_iff nested h
  refine ⟨h, ?_, fun f hdeep fuel => ?_, ?_⟩
  · by_contra! hall
    exact hstops.1 hall "L" _ hget hcycle
  · rw [Option.eq_none_iff_forall_ne_some]
    intro text htext
    have hacyclic := (hspelling _ _ hfield f).1.1 ⟨fuel, text, htext⟩
    rw [hdeep] at hacyclic
    exact hacyclic "L" _ hget (.single hreference) hcycle
  · refine ⟨2, ?_⟩
    rw [Table.write?_of_reference? rfl hnames, Table.write?_of_leaf rfl rfl, Node.shape,
      Node.ofKind, Shape.expand]
    rfl

end Declarations

end ReactiveSpace
