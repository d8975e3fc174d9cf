import ReactiveSpace.Check.Recording
import ReactiveSpace.Proofs.Space.Occurrence

/-!
# Addresses

An address leads to one type at most, with one structure around it (`Table.at?`). What has an
address is what occurs (`occurs_iff_exists_at?`), and typing passes the types of a table at their
addresses, all of them and nothing else (`mem_visits_iff`).

All of this goes by single steps (`Part.below?`). A step leads to something smaller, so what is
passed from a part on is told by the steps from there (`Part.mem_visits_iff`), by induction on the
size of the part.
-/

namespace ReactiveSpace

/-! ### Steps -/

/-- The type that a step leads to from a structure. -/
def Structure.member? (s : Structure Node) : Step → Option Node
  | .field index => s.fields[index]?.map Field.type
  | .parameter method index =>
    (s.methods[method]?.bind fun m => m.parameters[index]?).map Parameter.type
  | .result method => s.methods[method]?.bind Method.returns
  | _ => none

/-- The type that a step leads to from a type that is made of others. -/
def Node.part? (n : Node) (step : Step) : Option Node :=
  match n.kind, step with
  | .list element, .element => some element
  | .map domain _, .domain => some domain
  | .map _ range, .range => some range
  | .maybe inner, .inner => some inner
  | .lazy computed _ _, .computed => some computed
  | _, _ => none

/-- The structure at a part. -/
def Part.structure? : Part → Option (Structure Node)
  | .type _ n => n.structure?
  | .body s => some s

/-- What a step leads to from a type or a structure. -/
def Part.below? (p : Part) (step : Step) : Option Part :=
  match p, p.structure? with
  | _, some s => (s.member? step).map (.type (some s))
  | .type scope n, none => (n.part? step).map (.type scope)
  | .body _, none => none

/-- What steps lead to, the last step first. -/
def Part.walk? (p : Part) : List Step → Option Part
  | [] => some p
  | step :: steps => (p.walk? steps).bind fun q => q.below? step

/-- The types that are passed from a type or a structure on. -/
def Part.visits (a : Address) : Part → List Visit
  | .type scope n => n.visits a scope
  | .body s => s.visits a

/-- What an address leads to. -/
def Table.at? (t : Table) (a : Address) : Option Part :=
  match a.entry with
  | some name => (t.get? name).bind fun n => (Part.type none n).walk? a.steps
  | none => (Part.body t.root).walk? a.steps

/-! ### Members -/

/-- The types of a structure are found at its steps. -/
theorem Structure.mem_types_iff {s : Structure Node} {n : Node} :
    n ∈ s.types ↔ ∃ step, s.member? step = some n := by
  rw [types, List.mem_append, List.mem_map, List.mem_flatMap]
  constructor
  · -- A type of a field has the step of the field, the others have a step in their method.
    rintro (⟨f, hf, rfl⟩ | ⟨m, hm, hn⟩)
    · obtain ⟨i, hi⟩ := List.mem_iff_getElem?.1 hf
      exact ⟨.field i, by simp [member?, hi]⟩
    · obtain ⟨k, hk⟩ := List.mem_iff_getElem?.1 hm
      rw [List.mem_append, List.mem_map, Option.mem_toList] at hn
      rcases hn with ⟨p, hp, rfl⟩ | hreturns
      · obtain ⟨i, hi⟩ := List.mem_iff_getElem?.1 hp
        exact ⟨.parameter k i, by simp [member?, hk, hi]⟩
      · exact ⟨.result k, by simpa [member?, hk] using hreturns⟩
  · rintro ⟨step, h⟩
    cases step with
    | field i =>
      obtain ⟨f, hf, rfl⟩ := Option.map_eq_some_iff.1 h
      exact Or.inl ⟨f, List.mem_of_getElem? hf, rfl⟩
    | parameter k i =>
      obtain ⟨p, hp, rfl⟩ := Option.map_eq_some_iff.1 h
      obtain ⟨m, hm, hp⟩ := Option.bind_eq_some_iff.1 hp
      refine Or.inr ⟨m, List.mem_of_getElem? hm, List.mem_append_left _ ?_⟩
      exact List.mem_map_of_mem (List.mem_of_getElem? hp)
    | result k =>
      obtain ⟨m, hm, hn⟩ := Option.bind_eq_some_iff.1 h
      exact Or.inr ⟨m, List.mem_of_getElem? hm, List.mem_append_right _ (Option.mem_toList.2 hn)⟩
    | _ => cases h

theorem Structure.fieldVisits_eq (a : Address) (s : Structure Node) (index : Nat)
    (fs : List (Field Node)) :
    fieldVisits a s index fs =
      (fs.zipIdx index).flatMap fun f => f.1.type.visits (a.below (.field f.2)) (some s) := by
  induction fs generalizing index with
  | nil => rfl
  | cons f fs ih => rw [fieldVisits, ih, List.zipIdx_cons, List.flatMap_cons]

theorem Structure.parameterVisits_eq (a : Address) (s : Structure Node) (method index : Nat)
    (ps : List (Parameter Node)) :
    parameterVisits a s method index ps = (ps.zipIdx index).flatMap fun p =>
      p.1.type.visits (a.below (.parameter method p.2)) (some s) := by
  induction ps generalizing index with
  | nil => rfl
  | cons p ps ih => rw [parameterVisits, ih, List.zipIdx_cons, List.flatMap_cons]

/-- A method is passed by its parameters and then its result. -/
theorem Structure.methodVisits_eq (a : Address) (s : Structure Node) (index : Nat)
    (ms : List (Method Node)) :
    methodVisits a s index ms = (ms.zipIdx index).flatMap fun m =>
      parameterVisits a s m.2 0 m.1.parameters ++ resultVisits a s m.2 m.1.returns := by
  induction ms generalizing index with
  | nil => rfl
  | cons m ms ih => rw [methodVisits, ih, List.zipIdx_cons, List.flatMap_cons]

/-- What is passed inside a structure is passed from its members on. -/
theorem Structure.mem_visits {s : Structure Node} {a : Address} {v : Visit} :
    v ∈ s.visits a ↔
      ∃ step n, s.member? step = some n ∧ v ∈ n.visits (a.below step) (some s) := by
  have hvisits : s.visits a = fieldVisits a s 0 s.fields ++ methodVisits a s 0 s.methods := by
    cases s
    rfl
  rw [hvisits, List.mem_append, fieldVisits_eq, methodVisits_eq, List.mem_flatMap, List.mem_flatMap]
  -- Places in the lists are the numbers of the steps, in both directions.
  constructor
  · rintro (⟨⟨f, i⟩, hf, hv⟩ | ⟨⟨m, k⟩, hm, hv⟩)
    · rw [List.mk_mem_zipIdx_iff_getElem?] at hf
      exact ⟨.field i, f.type, by simp [member?, hf], hv⟩
    · rw [List.mk_mem_zipIdx_iff_getElem?] at hm
      rw [List.mem_append, parameterVisits_eq, List.mem_flatMap] at hv
      rcases hv with ⟨⟨p, i⟩, hp, hv⟩ | hv
      · rw [List.mk_mem_zipIdx_iff_getElem?] at hp
        exact ⟨.parameter k i, p.type, by simp [member?, hm, hp], hv⟩
      · cases hreturns : m.returns with
        | none => simp [hreturns, resultVisits] at hv
        | some n =>
          simp only [hreturns, resultVisits] at hv
          exact ⟨.result k, n, by simp [member?, hm, hreturns], hv⟩
  · rintro ⟨step, n, h, hv⟩
    cases step with
    | field i =>
      obtain ⟨f, hf, rfl⟩ := Option.map_eq_some_iff.1 h
      exact Or.inl ⟨(f, i), List.mk_mem_zipIdx_iff_getElem?.2 hf, hv⟩
    | parameter k i =>
      obtain ⟨p, hp, rfl⟩ := Option.map_eq_some_iff.1 h
      obtain ⟨m, hm, hp⟩ := Option.bind_eq_some_iff.1 hp
      refine Or.inr ⟨(m, k), List.mk_mem_zipIdx_iff_getElem?.2 hm, List.mem_append_left _ ?_⟩
      rw [parameterVisits_eq]
      exact List.mem_flatMap.2 ⟨(p, i), List.mk_mem_zipIdx_iff_getElem?.2 hp, hv⟩
    | result k =>
      obtain ⟨m, hm, hreturns⟩ := Option.bind_eq_some_iff.1 h
      refine Or.inr ⟨(m, k), List.mk_mem_zipIdx_iff_getElem?.2 hm, List.mem_append_right _ ?_⟩
      simpa only [hreturns, resultVisits] using hv
    | _ => cases h

/-! ### Parts -/

/-- The parts of a type are found at its steps. -/
theorem Node.mem_parts_iff {n m : Node} : m ∈ n.parts ↔ ∃ step, n.part? step = some m := by
  constructor
  · intro h
    unfold parts at h
    split at h <;> simp at h
    · exact ⟨.element, by simp [part?, *]⟩
    · rcases h with rfl | rfl
      · exact ⟨.domain, by simp [part?, *]⟩
      · exact ⟨.range, by simp [part?, *]⟩
    · exact ⟨.inner, by simp [part?, *]⟩
    · exact ⟨.computed, by simp [part?, *]⟩
  · rintro ⟨step, h⟩
    unfold part? at h
    split at h <;> simp at h <;> simp [parts, *]

/-- A type that holds a structure has no parts of its own. -/
theorem Node.part?_eq_none {n : Node} {s : Structure Node} (h : n.structure? = some s)
    (step : Step) : n.part? step = none := by
  unfold structure? at h
  split at h
  iterate 2 simp [part?, *]
  cases h

/-- What is passed from a type on is this type, and what is passed from its parts or from the
members of its structure on. -/
theorem Node.mem_visits {n : Node} {a : Address} {scope : Option (Structure Node)} {v : Visit} :
    v ∈ n.visits a scope ↔ v = ⟨a, scope, n⟩ ∨
      (∃ step m, n.part? step = some m ∧ v ∈ m.visits (a.below step) scope) ∨
      ∃ s, n.structure? = some s ∧ v ∈ s.visits a := by
  obtain ⟨position, notes, kind⟩ := n
  rw [visits, List.mem_cons]
  refine or_congr_right ?_
  -- A container has its parts at steps of their own and nothing at the others.
  cases kind with
  | record s | message s => simp [Kind.visits, part?, structure?]
  | list element =>
    have hpart : ∀ step, part? ⟨position, notes, .list element⟩ step =
        if step = .element then some element else none := by
      intro step
      cases step <;> rfl
    simp [Kind.visits, hpart, structure?]
  | map domain range =>
    have hpart : ∀ step, part? ⟨position, notes, .map domain range⟩ step =
        if step = .domain then some domain else if step = .range then some range else none := by
      intro step
      cases step <;> rfl
    rw [Kind.visits, List.mem_append]
    simp only [hpart, structure?, reduceCtorEq, false_and, exists_false, or_false]
    constructor
    · rintro (hv | hv)
      · exact ⟨.domain, domain, rfl, hv⟩
      · exact ⟨.range, range, rfl, hv⟩
    · rintro ⟨step, m, hm, hv⟩
      cases step <;> cases hm
      · exact Or.inl hv
      · exact Or.inr hv
  | maybe inner =>
    have hpart : ∀ step, part? ⟨position, notes, .maybe inner⟩ step =
        if step = .inner then some inner else none := by
      intro step
      cases step <;> rfl
    simp [Kind.visits, hpart, structure?]
  | lazy computed formula cached =>
    have hpart : ∀ step, part? ⟨position, notes, .lazy computed formula cached⟩ step =
        if step = .computed then some computed else none := by
      intro step
      cases step <;> rfl
    simp [Kind.visits, hpart, structure?]
  | _ => simp [Kind.visits, part?, structure?]

namespace Part

/-- A step leads to a member of the structure that stands there, or else to a part of the type. -/
theorem below?_eq_some_iff {p q : Part} {step : Step} :
    p.below? step = some q ↔
      (∃ s n, p.structure? = some s ∧ s.member? step = some n ∧ q = .type (some s) n) ∨
        ∃ scope n m, p = .type scope n ∧ n.part? step = some m ∧ q = .type scope m := by
  cases p with
  | body s => simp [below?, structure?, @eq_comm Part q]
  | type scope n =>
    cases hs : n.structure? with
    | none => simp [below?, structure?, hs, @eq_comm Part q]
    | some s => simp [below?, structure?, hs, Node.part?_eq_none hs, @eq_comm Part q]

/-- A step leads to something smaller. -/
theorem size_lt_of_below? {p q : Part} {step : Step} (h : p.below? step = some q) :
    q.size < p.size := by
  rcases below?_eq_some_iff.1 h with ⟨s, n, hs, hn, rfl⟩ | ⟨scope, n, m, rfl, hm, rfl⟩
  · have hlt : sizeOf n < sizeOf s :=
      Structure.sizeOf_lt_of_mem_types (Structure.mem_types_iff.2 ⟨step, hn⟩)
    cases p with
    | body s' =>
      obtain rfl := Option.some.inj hs
      exact hlt
    | type scope m => exact Nat.lt_trans hlt (Node.sizeOf_lt_of_structure? hs)
  · exact Node.sizeOf_lt_of_mem_parts (Node.mem_parts_iff.2 ⟨step, hm⟩)

/-- What is passed from a part on is this part, if it is a type, and what is passed from there one
step further. -/
theorem mem_visits_step {p : Part} {a : Address} {v : Visit} :
    v ∈ p.visits a ↔
      (p = .type v.scope v.node ∧ v.address = a) ∨
        ∃ step q, p.below? step = some q ∧ v ∈ q.visits (a.below step) := by
  simp only [below?_eq_some_iff]
  cases p with
  -- A structure is not visited itself, only its members are.
  | body s =>
    rw [visits, Structure.mem_visits]
    constructor
    · rintro ⟨step, n, hn, hv⟩
      exact Or.inr ⟨step, _, Or.inl ⟨s, n, rfl, hn, rfl⟩, hv⟩
    · rintro (⟨h, -⟩ | ⟨step, _, ⟨s', n, hs, hn, rfl⟩ | ⟨scope, n, m, h, -, -⟩, hv⟩)
      · cases h
      · obtain rfl := Option.some.inj hs
        exact ⟨step, n, hn, hv⟩
      · cases h
  | type scope n =>
    rw [visits, Node.mem_visits]
    constructor
    · rintro (rfl | ⟨step, m, hm, hv⟩ | ⟨s, hs, hv⟩)
      · exact Or.inl ⟨rfl, rfl⟩
      · exact Or.inr ⟨step, _, Or.inr ⟨scope, n, m, rfl, hm, rfl⟩, hv⟩
      · -- A type that holds a structure leads on to the members of this structure at once.
        obtain ⟨step, m, hm, hv⟩ := Structure.mem_visits.1 hv
        exact Or.inr ⟨step, _, Or.inl ⟨s, m, hs, hm, rfl⟩, hv⟩
    · rintro (⟨h, rfl⟩ | ⟨step, _, ⟨s, m, hs, hm, rfl⟩ | ⟨scope', n', m, h, hm, rfl⟩, hv⟩)
      · obtain ⟨rfl, rfl⟩ := Part.type.inj h
        exact Or.inl rfl
      · exact Or.inr (Or.inr ⟨s, hs, Structure.mem_visits.2 ⟨step, m, hm, hv⟩⟩)
      · obtain ⟨rfl, rfl⟩ := Part.type.inj h
        exact Or.inr (Or.inl ⟨step, m, hm, hv⟩)

/-- Addresses grow at the front, so the first step of a walk is the last of the list. -/
theorem walk?_concat (p : Part) (steps : List Step) (step : Step) :
    p.walk? (steps ++ [step]) = (p.below? step).bind fun q => q.walk? steps := by
  induction steps with
  | nil =>
    show p.below? step = (p.below? step).bind some
    cases p.below? step <;> rfl
  | cons other steps ih =>
    rw [List.cons_append, walk?, ih, Option.bind_assoc]
    rfl

/-- What is passed from a part on is what steps lead to from there. -/
theorem mem_visits_iff {p : Part} {a : Address} {v : Visit} :
    v ∈ p.visits a ↔
      ∃ steps, v.address = ⟨a.entry, steps ++ a.steps⟩ ∧
        p.walk? steps = some (.type v.scope v.node) := by
  -- By size, as every step leads to something smaller.
  induction hsize : p.size using Nat.strongRecOn generalizing p a with
  | ind size ih =>
    subst hsize
    rw [mem_visits_step]
    constructor
    · rintro (⟨hp, rfl⟩ | ⟨step, q, hq, hv⟩)
      · exact ⟨[], rfl, by rw [walk?, hp]⟩
      · obtain ⟨steps, haddress, hwalk⟩ := (ih _ (size_lt_of_below? hq) rfl).1 hv
        refine ⟨steps ++ [step], ?_, ?_⟩
        · simp [haddress, Address.below]
        · rw [walk?_concat, hq, Option.bind_some, hwalk]
    · rintro ⟨steps, haddress, hwalk⟩
      rcases List.eq_nil_or_concat' steps with rfl | ⟨front, step, rfl⟩
      · exact Or.inl ⟨Option.some.inj hwalk, haddress⟩
      · rw [walk?_concat, Option.bind_eq_some_iff] at hwalk
        obtain ⟨q, hq, hwalk⟩ := hwalk
        refine Or.inr ⟨step, q, hq, (ih _ (size_lt_of_below? hq) rfl).2 ⟨front, ?_, hwalk⟩⟩
        simp [haddress, Address.below]

end Part

/-! ### Tables -/

namespace Table

variable {t : Table}

/-- **The pass** over a table passes what has an address, and all of it. -/
theorem mem_visits_iff {v : Visit} :
    v ∈ t.visits ↔ t.at? v.address = some (.type v.scope v.node) := by
  rw [visits, List.mem_append, List.mem_flatMap]
  -- The entries are found by their names, and the root has an address without one.
  constructor
  · rintro (⟨⟨name, n⟩, hn, hv⟩ | hv)
    · obtain ⟨steps, haddress, hwalk⟩ := (Part.mem_visits_iff (p := .type none n)).1 hv
      rw [haddress, at?]
      have hget : t.get? name = some n := Keyed.get?_of_mem t.distinct hn
      simpa [hget] using hwalk
    · obtain ⟨steps, haddress, hwalk⟩ := (Part.mem_visits_iff (p := .body t.root)).1 hv
      rw [haddress, at?]
      simpa using hwalk
  · obtain ⟨⟨entry, steps⟩, scope, n⟩ := v
    intro h
    cases entry with
    | none =>
      exact Or.inr ((Part.mem_visits_iff (p := .body t.root)).2 ⟨steps, by simp, h⟩)
    | some name =>
      obtain ⟨m, hm, hwalk⟩ := Option.bind_eq_some_iff.1 h
      refine Or.inl ⟨(name, m), Keyed.mem_of_get? hm, ?_⟩
      exact (Part.mem_visits_iff (p := .type none m)).2 ⟨steps, by simp, hwalk⟩

/-- An address leads to one type at most. -/
theorem visit_unique {v w : Visit} (hv : v ∈ t.visits) (hw : w ∈ t.visits)
    (h : v.address = w.address) : v = w := by
  obtain ⟨a, scope, n⟩ := v
  obtain ⟨a', scope', n'⟩ := w
  obtain rfl : a = a' := h
  rw [mem_visits_iff] at hv hw
  obtain ⟨rfl, rfl⟩ := Part.type.inj (Option.some.inj (hv.symm.trans hw))
  rfl

/-- What is a step below something that occurs occurs as well. -/
theorem Occurs.of_below? {p q : Part} {step : Step} (h : t.Occurs p) (hq : p.below? step = some q) :
    t.Occurs q := by
  rcases Part.below?_eq_some_iff.1 hq with ⟨s, n, hs, hn, rfl⟩ | ⟨scope, n, m, rfl, hm, rfl⟩
  · have hbody : t.Occurs (.body s) := by
      cases p with
      | body s' =>
        obtain rfl := Option.some.inj hs
        exact h
      | type scope m => exact .body h hs
    exact .member hbody (Structure.mem_types_iff.2 ⟨step, hn⟩)
  · exact .part h (Node.mem_parts_iff.2 ⟨step, hm⟩)

theorem Occurs.of_walk? {p q : Part} {steps : List Step} (h : t.Occurs p)
    (hq : p.walk? steps = some q) : t.Occurs q := by
  induction steps generalizing q with
  | nil =>
    obtain rfl := Option.some.inj hq
    exact h
  | cons step steps ih =>
    obtain ⟨r, hr, hq⟩ := Option.bind_eq_some_iff.1 hq
    exact (ih hr).of_below? hq

/-- What has an address occurs. -/
theorem occurs_of_at? {a : Address} {p : Part} (h : t.at? a = some p) : t.Occurs p := by
  unfold at? at h
  split at h
  · obtain ⟨n, hn, hp⟩ := Option.bind_eq_some_iff.1 h
    exact (Occurs.of_get? hn).of_walk? hp
  · exact Occurs.root.of_walk? h

/-- A step below an address is an address. -/
theorem at?_below {a : Address} {p q : Part} {step : Step} (h : t.at? a = some p)
    (hq : p.below? step = some q) : t.at? (a.below step) = some q := by
  unfold at? Address.below at *
  split at h
  · obtain ⟨n, hn, hp⟩ := Option.bind_eq_some_iff.1 h
    simp only [*, Option.bind_some, Part.walk?]
  · simp only [*, Option.bind_some, Part.walk?]

/-- Whatever occurs has an address; a structure has that of the type it belongs to. -/
theorem Occurs.exists_at? {p : Part} (h : t.Occurs p) :
    ∃ a q, t.at? a = some q ∧ (q = p ∨ ∃ s, p = .body s ∧ q.structure? = some s) := by
  induction h with
  | @entry name n hn =>
    have hget : t.get? name = some n := Keyed.get?_of_mem t.distinct hn
    exact ⟨⟨some name, []⟩, .type none n, by simp [at?, hget, Part.walk?], Or.inl rfl⟩
  | root => exact ⟨⟨none, []⟩, .body t.root, rfl, Or.inl rfl⟩
  | @part scope n m _ hm ih =>
    obtain ⟨a, q, hq, rfl | ⟨s, hs, -⟩⟩ := ih
    · obtain ⟨step, hstep⟩ := Node.mem_parts_iff.1 hm
      refine ⟨a.below step, _, at?_below hq (Part.below?_eq_some_iff.2 (Or.inr ?_)), Or.inl rfl⟩
      exact ⟨scope, n, m, rfl, hstep, rfl⟩
    · cases hs
  -- A structure has the address of the type that holds it.
  | @body scope n s _ hs ih =>
    obtain ⟨a, q, hq, rfl | ⟨s', hs', -⟩⟩ := ih
    · exact ⟨a, _, hq, Or.inr ⟨s, rfl, hs⟩⟩
    · cases hs'
  | @member s n _ hn ih =>
    obtain ⟨step, hstep⟩ := Structure.mem_types_iff.1 hn
    obtain ⟨a, q, hq, hs⟩ := ih
    have hs : q.structure? = some s := by
      rcases hs with rfl | ⟨s', hs', hq'⟩
      · rfl
      · obtain rfl := Part.body.inj hs'
        exact hq'
    refine ⟨a.below step, _, at?_below hq (Part.below?_eq_some_iff.2 (Or.inl ?_)), Or.inl rfl⟩
    exact ⟨s, n, hs, hstep, rfl⟩

/-- **What occurs** in a table is what its addresses lead to. -/
theorem occurs_iff_exists_at? {scope : Option (Structure Node)} {n : Node} :
    t.Occurs (.type scope n) ↔ ∃ a, t.at? a = some (.type scope n) := by
  constructor
  · intro h
    obtain ⟨a, q, hq, rfl | ⟨s, hs, -⟩⟩ := h.exists_at?
    · exact ⟨a, hq⟩
    · cases hs
  · rintro ⟨a, ha⟩
    exact occurs_of_at? ha

end Table

end ReactiveSpace
