import ReactiveSpace.Proofs.Space.Occurrence
import ReactiveSpace.Schema.Capability

/-!
# Types without positions and notes

`Node.erase` resets every position in a type to the one that nobody set, and drops the notes that
`keep` does not hold for, at any depth. Keeping no notes leaves a type without positions and notes;
keeping all of them leaves it without positions. Two types are the same up to positions and notes,
or up to positions, when they are erased to the same type. Most of what is asked of a type is the
same for the erased type; where the answer has types in it, these are erased.
-/

namespace ReactiveSpace

/-- The index without its position. -/
def Index.erase (i : Index) : Index :=
  { i with position := {} }

/-- The rule without its position. -/
def Rule.erase (r : Rule) : Rule :=
  { r with position := {} }

mutual

/-- The type without positions, and with the notes that `keep` holds for. -/
def Node.erase (keep : Note → Bool) : Node → Node
  | ⟨_, notes, kind⟩ => ⟨{}, notes.filter keep, Kind.erase keep kind⟩
termination_by structural x => x

/-- The kind with what it is made of erased. -/
@[simp] def Kind.erase (keep : Note → Bool) : Kind Node → Kind Node
  | .scalar s => .scalar s
  | .text => .text
  | .replication service method => .replication service method
  | .list element => .list (Node.erase keep element)
  | .map domain range => .map (Node.erase keep domain) (Node.erase keep range)
  | .maybe inner => .maybe (Node.erase keep inner)
  | .table rows => .table rows
  | .holder held => .holder held
  | .projection rows field => .projection rows field
  | .lazy computed formula cached => .lazy (Node.erase keep computed) formula cached
  | .record s => .record (Structure.erase keep s)
  | .message s => .message (Structure.erase keep s)
  | .ref name => .ref name
termination_by structural x => x

/-- The structure with its members erased. -/
def Structure.erase (keep : Note → Bool) : Structure Node → Structure Node
  | ⟨name, role, fields, indices, methods, rules, _⟩ =>
    ⟨name, role, Field.eraseAll keep fields, indices.map Index.erase, Method.eraseAll keep methods,
      rules.map Rule.erase, {}⟩
termination_by structural x => x

/-- The fields with their types erased. -/
def Field.eraseAll (keep : Note → Bool) : List (Field Node) → List (Field Node)
  | [] => []
  | ⟨name, type, privacy, readonly, initial, _⟩ :: fs =>
    ⟨name, Node.erase keep type, privacy, readonly, initial, {}⟩ :: Field.eraseAll keep fs
termination_by structural x => x

/-- The methods with their parameters and results erased. -/
def Method.eraseAll (keep : Note → Bool) : List (Method Node) → List (Method Node)
  | [] => []
  | ⟨name, parameters, returns, readonly, body, _⟩ :: ms =>
    ⟨name, Parameter.eraseAll keep parameters, Method.eraseResult keep returns, readonly, body,
      {}⟩ ::
      Method.eraseAll keep ms
termination_by structural x => x

/-- The parameters with their types erased. -/
def Parameter.eraseAll (keep : Note → Bool) :
    List (Parameter Node) → List (Parameter Node)
  | [] => []
  | ⟨name, type⟩ :: ps => ⟨name, Node.erase keep type⟩ :: Parameter.eraseAll keep ps
termination_by structural x => x

/-- The result with its type erased. -/
def Method.eraseResult (keep : Note → Bool) : Option Node → Option Node
  | none => none
  | some type => some (Node.erase keep type)
termination_by structural x => x

end

/-- The field with its type erased. -/
def Field.erase (keep : Note → Bool) (f : Field Node) : Field Node :=
  ⟨f.name, f.type.erase keep, f.privacy, f.readonly, f.initial, {}⟩

/-- The parameter with its type erased. -/
def Parameter.erase (keep : Note → Bool) (p : Parameter Node) : Parameter Node :=
  ⟨p.name, p.type.erase keep⟩

/-- The method with its parameters and result erased. -/
def Method.erase (keep : Note → Bool) (m : Method Node) : Method Node :=
  ⟨m.name, m.parameters.map (Parameter.erase keep), m.returns.map (Node.erase keep), m.readonly,
    m.body, {}⟩

variable {keep : Note → Bool}

/-! ### Members -/

/-- The recursion over the fields of a structure is a map, and so are those over methods and
parameters. Only the definition needs them spelled out. -/
theorem Field.eraseAll_eq_map (fs : List (Field Node)) :
    eraseAll keep fs = fs.map (Field.erase keep) := by
  induction fs with
  | nil => rfl
  | cons f fs ih =>
    rw [eraseAll, ih]
    rfl

theorem Parameter.eraseAll_eq_map (ps : List (Parameter Node)) :
    eraseAll keep ps = ps.map (Parameter.erase keep) := by
  induction ps with
  | nil => rfl
  | cons p ps ih =>
    rw [eraseAll, ih]
    rfl

theorem Method.eraseAll_eq_map (ms : List (Method Node)) :
    eraseAll keep ms = ms.map (Method.erase keep) := by
  induction ms with
  | nil => rfl
  | cons m ms ih =>
    obtain ⟨name, parameters, returns, readonly, body, position⟩ := m
    rw [eraseAll, ih, Parameter.eraseAll_eq_map]
    cases returns <;> rfl

@[simp] theorem Field.erase_name (f : Field Node) : (f.erase keep).name = f.name := rfl

@[simp] theorem Field.erase_type (f : Field Node) : (f.erase keep).type = f.type.erase keep := rfl

@[simp] theorem Field.erase_privacy (f : Field Node) : (f.erase keep).privacy = f.privacy := rfl

@[simp] theorem Field.erase_readonly (f : Field Node) : (f.erase keep).readonly = f.readonly := rfl

@[simp] theorem Field.erase_initial (f : Field Node) : (f.erase keep).initial = f.initial := rfl

@[simp] theorem Field.erase_effectivePrivacy (f : Field Node) :
    (f.erase keep).effectivePrivacy = f.effectivePrivacy := rfl

@[simp] theorem Parameter.erase_name (p : Parameter Node) : (p.erase keep).name = p.name := rfl

@[simp] theorem Parameter.erase_type (p : Parameter Node) :
    (p.erase keep).type = p.type.erase keep := rfl

@[simp] theorem Method.erase_name (m : Method Node) : (m.erase keep).name = m.name := rfl

@[simp] theorem Method.erase_parameters (m : Method Node) :
    (m.erase keep).parameters = m.parameters.map (Parameter.erase keep) := rfl

@[simp] theorem Method.erase_returns (m : Method Node) :
    (m.erase keep).returns = m.returns.map (Node.erase keep) := rfl

@[simp] theorem Method.erase_readonly (m : Method Node) :
    (m.erase keep).readonly = m.readonly := rfl

@[simp] theorem Method.erase_body (m : Method Node) : (m.erase keep).body = m.body := rfl

@[simp] theorem Index.erase_field (i : Index) : i.erase.field = i.field := rfl

@[simp] theorem Rule.erase_name (r : Rule) : r.erase.name = r.name := rfl

@[simp] theorem Rule.erase_body (r : Rule) : r.erase.body = r.body := rfl

/-! ### Structures -/

namespace Structure

variable (s : Structure Node)

/-- A structure is erased member by member, and loses its own position. -/
theorem erase_eq :
    s.erase keep = ⟨s.name, s.role, s.fields.map (Field.erase keep), s.indices.map Index.erase,
      s.methods.map (Method.erase keep), s.rules.map Rule.erase, {}⟩ := by
  obtain ⟨name, role, fields, indices, methods, rules, position⟩ := s
  rw [erase, Field.eraseAll_eq_map, Method.eraseAll_eq_map]

@[simp] theorem erase_name : (s.erase keep).name = s.name := by rw [erase_eq]

@[simp] theorem erase_role : (s.erase keep).role = s.role := by rw [erase_eq]

@[simp] theorem erase_fields : (s.erase keep).fields = s.fields.map (Field.erase keep) := by
  rw [erase_eq]

@[simp] theorem erase_indices : (s.erase keep).indices = s.indices.map Index.erase := by
  rw [erase_eq]

@[simp] theorem erase_methods : (s.erase keep).methods = s.methods.map (Method.erase keep) := by
  rw [erase_eq]

@[simp] theorem erase_rules : (s.erase keep).rules = s.rules.map Rule.erase := by rw [erase_eq]

@[simp] theorem erase_field? (name : String) :
    (s.erase keep).field? name = (s.field? name).map (Field.erase keep) := by
  rw [field?, field?, erase_fields, List.find?_map]
  rfl

end Structure

/-! ### Types -/

namespace Node

variable (n : Node)

@[simp] theorem erase_kind : (n.erase keep).kind = n.kind.erase keep := by
  cases n
  rfl

theorem erase_notes : (n.erase keep).notes = n.notes.filter keep := by
  cases n
  rfl

@[simp] theorem erase_scalar? : (n.erase keep).scalar? = n.scalar? := by
  unfold scalar?
  rw [erase_kind]
  cases n.kind <;> rfl

@[simp] theorem erase_record? :
    (n.erase keep).record? = n.record?.map (Structure.erase keep) := by
  unfold record?
  rw [erase_kind]
  cases n.kind <;> rfl

@[simp] theorem erase_message? :
    (n.erase keep).message? = n.message?.map (Structure.erase keep) := by
  unfold message?
  rw [erase_kind]
  cases n.kind <;> rfl

@[simp] theorem erase_structure? :
    (n.erase keep).structure? = n.structure?.map (Structure.erase keep) := by
  unfold structure?
  rw [erase_kind]
  cases n.kind <;> rfl

@[simp] theorem erase_isTable : (n.erase keep).isTable = n.isTable := by
  unfold isTable
  rw [erase_kind]
  cases n.kind <;> rfl

@[simp] theorem erase_isProjection : (n.erase keep).isProjection = n.isProjection := by
  unfold isProjection
  rw [erase_kind]
  cases n.kind <;> rfl

@[simp] theorem erase_isMapDomain : (n.erase keep).isMapDomain = n.isMapDomain := by
  unfold isMapDomain
  rw [erase_kind]
  cases n.kind <;> rfl

/-- How a field is exposed depends on the kind alone. -/
@[simp] theorem erase_access : (n.erase keep).access = n.access := by
  unfold access
  rw [erase_kind]
  cases n.kind <;> rfl

@[simp] theorem erase_needsSettle : (n.erase keep).needsSettle = n.needsSettle := by
  unfold needsSettle
  rw [erase_kind]
  cases n.kind <;> rfl

@[simp] theorem erase_nature : (n.erase keep).nature = n.nature := by
  unfold nature
  rw [erase_kind]
  cases n.kind <;> rfl

@[simp] theorem erase_parts : (n.erase keep).parts = n.parts.map (erase keep) := by
  unfold parts
  rw [erase_kind]
  cases n.kind <;> rfl

/-- Types are printed alike. Nothing of a position or a note is printed, but the parts of a type
are, so this goes by induction. -/
@[simp] theorem erase_describe : (n.erase keep).describe = n.describe := by
  induction n using Node.induction with
  | h n ih =>
    obtain ⟨position, notes, kind⟩ := n
    -- A container is printed around its parts, everything else by what erasing keeps.
    cases kind with
    | list element => exact congrArg ("list<" ++ · ++ ">") (ih element List.mem_cons_self)
    | maybe inner => exact congrArg ("maybe<" ++ · ++ ">") (ih inner List.mem_cons_self)
    | lazy computed => exact congrArg ("formula<" ++ · ++ ">") (ih computed List.mem_cons_self)
    | map domain range =>
      have hdomain := ih domain List.mem_cons_self
      have hrange := ih range (List.mem_cons_of_mem _ List.mem_cons_self)
      exact congrArg₂ (fun d r => "map<" ++ d ++ "," ++ r ++ ">") hdomain hrange
    | record s | message s => exact s.erase_name
    | _ => rfl

/-- Whether a type may stand in a message is told by its kind and those of its parts. -/
@[simp] theorem erase_fitsMessage : (n.erase keep).fitsMessage = n.fitsMessage := by
  induction n using Node.induction with
  | h n ih =>
    obtain ⟨position, notes, kind⟩ := n
    -- A list or an option fits if what it holds does.
    cases kind with
    | list element => exact ih element List.mem_cons_self
    | maybe inner => exact ih inner List.mem_cons_self
    | _ => rfl

end Node

end ReactiveSpace
