import Mathlib.Data.List.Basic
import ReactiveSpace.Check.Environment

/-!
# Typing only adds

Typing threads one environment through all types of a table, and goes in and out of structures on
the way. All it ever does to the environment is to add at the ends: `Environment.after` is an
environment with more diagnostics and more resolutions, in the scope it had, and typing a type gives
the environment after the diagnostics and the resolutions of this type at its place
(`Node.typing_eq`). So the diagnostics of a space are those of its parts, each typed alone
(`Draft.typing_accumulates`).
-/

namespace ReactiveSpace

namespace Environment

/-- The environment when diagnostics have been reported and resolutions recorded. -/
def after (env : Environment) (ds : List Diagnostic) (rs : Resolutions) : Environment where
  scope := env.scope
  diagnostics := env.diagnostics ++ ds
  resolutions := rs ++ env.resolutions

variable {env : Environment} {ds ds' : List Diagnostic} {rs rs' : Resolutions}

@[simp] theorem scope_after : (env.after ds rs).scope = env.scope := rfl

@[simp] theorem after_nil : env.after [] [] = env := by
  simp [after]

@[simp] theorem after_after :
    (env.after ds rs).after ds' rs' = env.after (ds ++ ds') (rs' ++ rs) := by
  simp [after]

/-- What was found inside a structure stays when the structure is left. -/
@[simp] theorem leave_enter_after (s : Structure Node) :
    ((env.enter s).after ds rs).leave env.scope = env.after ds rs := rfl

/-- Reporting one by one adds all at the end. -/
theorem foldl_report (env : Environment) (ds : List Diagnostic) :
    ds.foldl report env = env.after ds [] := by
  induction ds generalizing env with
  | nil => simp
  | cons d ds ih =>
    rw [List.foldl_cons, ih]
    simp [report, after]

@[simp] theorem reportAt_eq (position : Position) (problems : List Problem) :
    env.reportAt position problems = env.after (Diagnostic.allAt position problems) [] := by
  rw [reportAt, Diagnostic.allAt, ← foldl_report, List.foldl_map]

/-- An outcome adds its problems and, if it has one, its resolution under the identity. -/
@[simp] theorem conclude_eq (identity : Nat) (position : Position) (o : Outcome) :
    env.conclude identity position o =
      env.after (Diagnostic.allAt position o.problems)
        (o.resolution?.toList.map (identity, ·)) := by
  rcases o with (_ | p) | r <;>
    simp [conclude, report, record, after, Outcome.problems, Outcome.resolution?, Diagnostic.allAt]

/-- Going through a list in an environment adds what each of its elements adds. -/
theorem foldl_after {α : Type} (step : Environment → α → Environment)
    (reported : α → List Diagnostic)
    (h : ∀ env x, step env x = env.after (reported x) []) (l : List α) (env : Environment) :
    l.foldl step env = env.after (l.flatMap reported) [] := by
  induction l generalizing env with
  | nil => simp
  | cons x l ih => rw [List.foldl_cons, ih, h, after_after, List.flatMap_cons, List.append_nil]

end Environment

/-! ### What is recorded -/

/-- What is recorded when types are passed, the last first. -/
def recorded (t : Table) (identity : Address → Nat) (passed : List Visit) : Resolutions :=
  passed.foldl (Visit.record t identity) []

section Recorded

variable {t : Table} {identity : Address → Nat}

/-- Recording goes in the order of visits, the latest first. -/
theorem foldl_record (passed : List Visit) (found : Resolutions) :
    passed.foldl (Visit.record t identity) found = recorded t identity passed ++ found := by
  have hrecord : ∀ (v : Visit) (rs : Resolutions),
      v.record t identity (rs ++ found) = v.record t identity rs ++ found := by
    intro v rs
    unfold Visit.record
    cases v.resolution? t <;> rfl
  have hfold : ∀ rs : Resolutions, passed.foldl (Visit.record t identity) (rs ++ found) =
      passed.foldl (Visit.record t identity) rs ++ found := by
    induction passed with
    | nil => intro rs; rfl
    | cons v passed ih =>
      intro rs
      rw [List.foldl_cons, List.foldl_cons, hrecord, ih]
  exact hfold []

@[simp] theorem recorded_nil : recorded t identity [] = [] := rfl

@[simp] theorem recorded_append (first second : List Visit) :
    recorded t identity (first ++ second) =
      recorded t identity second ++ recorded t identity first := by
  rw [recorded, List.foldl_append, foldl_record, ← recorded]

/-- A visit records the resolution of its type, if it has one. -/
theorem recorded_cons (v : Visit) (passed : List Visit) :
    recorded t identity (v :: passed) =
      recorded t identity passed ++
        (v.resolution? t).toList.map (identity v.address, ·) := by
  rw [← List.singleton_append, recorded_append]
  congr 1
  rw [recorded, List.foldl_cons, List.foldl_nil, Visit.record]
  cases v.resolution? t <;> rfl

/-- Nothing is recorded for other types than those that are passed. -/
theorem lookup_recorded_append {passed : List Visit} {found : Resolutions} {id : Nat}
    (h : ∀ v ∈ passed, identity v.address ≠ id) :
    (recorded t identity passed ++ found).lookup id = found.lookup id := by
  induction passed generalizing found with
  | nil => rfl
  | cons v passed ih =>
    rw [List.forall_mem_cons] at h
    rw [recorded_cons, List.append_assoc, ih h.2]
    cases v.resolution? t with
    | none => rfl
    | some r =>
      have hne : (id == identity v.address) = false := by simpa using h.1.symm
      simp [List.lookup_cons, hne]

end Recorded

theorem recorded_visits {t : Table} {identity : Address → Nat} (a : Address)
    (scope : Option (Structure Node)) (n : Node) :
    recorded t identity (n.visits a scope) =
      recorded t identity (n.kind.visits a scope) ++
        (n.resolution? t (.declared scope)).toList.map (identity a, ·) := by
  obtain ⟨position, notes, kind⟩ := n
  rw [Node.visits, recorded_cons]
  rfl

/-! ### One type after the other -/

section Pass

open Environment

variable {t : Table} {identity : Address → Nat}

mutual

/-- Typing a type adds the diagnostics and the resolutions of the type at its place. -/
theorem Node.typing_eq (env : Environment) (a : Address) : ∀ n : Node,
    n.typing t identity env a =
      env.after (n.diagnostics t env.scope) (recorded t identity (n.visits a env.scope))
  | ⟨_, _, .scalar _⟩ | ⟨_, _, .text⟩ | ⟨_, _, .replication _ _⟩ => by
    simp [recorded_visits, Node.typing, Node.diagnostics, Kind.visits, Node.resolution?]
  | ⟨_, _, .list element⟩ => by
    simp [recorded_visits, Node.typing, Node.diagnostics, Kind.visits, Node.resolution?,
      Node.typing_eq env _ element]
  | ⟨_, _, .map domain range⟩ => by
    simp [recorded_visits, Node.typing, Node.diagnostics, Kind.visits, Node.resolution?,
      Node.typing_eq env _ domain, Node.typing_eq _ _ range, Diagnostic.allAt]
  | ⟨_, _, .maybe inner⟩ => by
    simp [recorded_visits, Node.typing, Node.diagnostics, Kind.visits, Node.resolution?,
      Node.typing_eq env _ inner]
  | ⟨_, _, .table _⟩ | ⟨_, _, .holder _⟩ | ⟨_, _, .projection _ _⟩ => by
    simp [recorded_visits, Node.typing, Node.diagnostics, Kind.visits, Node.resolution?]
  | ⟨_, _, .lazy computed _ _⟩ => by
    simp [recorded_visits, Node.typing, Node.diagnostics, Kind.visits, Node.resolution?,
      Node.typing_eq env _ computed, Diagnostic.allAt]
  | ⟨position, _, .record s⟩ | ⟨position, _, .message s⟩ => by
    simp [recorded_visits, Node.typing, Node.diagnostics, Kind.visits, Node.resolution?,
      Structure.typing_eq env a position s]
  | ⟨_, _, .ref name⟩ => by
    cases hname : t.resolve name <;>
      simp [recorded_visits, Node.typing, Node.diagnostics, Kind.visits, Node.resolution?, hname,
        Except.toOption, Environment.record, Environment.after]
termination_by structural x => x

/-- Typing a structure goes back to what was around it. -/
theorem Structure.typing_eq (env : Environment) (a : Address) (position : Position) :
    ∀ s : Structure Node, s.typing t identity env a position =
      env.after (s.diagnostics t position) (recorded t identity (s.visits a))
  | ⟨name, role, fields, indices, methods, rules, span⟩ => by
    let s : Structure Node := ⟨name, role, fields, indices, methods, rules, span⟩
    have hfields := Structure.typingFields_eq s (env.enter s) a 0 [] rfl fields
    have hidentity : ∀ env : Environment,
        (if role = .record then env.reportAt position (s.identityProblems t) else env) =
          env.after (Diagnostic.allAt position
            (if role = .record then s.identityProblems t else [])) [] := by
      intro env
      split <;> simp [Diagnostic.allAt]
    have hindices := foldl_after (fun env i => env.reportAt i.position (s.indexProblems t i))
      (fun i => Diagnostic.allAt i.position (s.indexProblems t i))
      (fun env i => reportAt_eq i.position (s.indexProblems t i)) indices
    -- Whatever was added before, the methods are typed inside of `s`.
    have hmethods := fun ds rs =>
      Structure.typingMethods_eq s ((env.enter s).after ds rs) a 0 [] rfl methods
    have hrules := foldl_after
      (fun env r => env.reportAt r.position (Problem.ofMember .rule r.name))
      (fun r : Rule => Diagnostic.allAt r.position (Problem.ofMember .rule r.name))
      (fun env r => reportAt_eq r.position (Problem.ofMember .rule r.name)) rules
    rw [Structure.typing, hfields, hidentity, hindices, after_after, after_after, hmethods,
      after_after, hrules, after_after, leave_enter_after, Structure.diagnostics, Structure.visits,
      recorded_append, List.nil_append, List.nil_append, List.nil_append,
      ← List.append_assoc (Structure.fieldDiagnostics ..)]
termination_by structural x => x

/-- Typing fields of a structure inside of it. -/
theorem Structure.typingFields_eq (s : Structure Node) (env : Environment) (a : Address)
    (index : Nat) (earlier : List String) (hscope : env.scope = some s) :
    ∀ fs : List (Field Node), Structure.typingFields t identity s env a index earlier fs =
      env.after (Structure.fieldDiagnostics t s earlier fs)
        (recorded t identity (Structure.fieldVisits a s index fs))
  | [] => by
    simp [Structure.typingFields, Structure.fieldDiagnostics, Structure.fieldVisits]
  | ⟨name, type, privacy, readonly, initial, position⟩ :: fs => by
    simp [Structure.typingFields, Structure.fieldDiagnostics, Structure.fieldVisits,
      Node.typing_eq _ _ type, Structure.typingFields_eq s _ a _ _ _ fs, hscope, Diagnostic.allAt]
termination_by structural x => x

/-- Typing methods of a structure inside of it. -/
theorem Structure.typingMethods_eq (s : Structure Node) (env : Environment) (a : Address)
    (index : Nat) (earlier : List String) (hscope : env.scope = some s) :
    ∀ ms : List (Method Node), Structure.typingMethods t identity s env a index earlier ms =
      env.after (Structure.methodDiagnostics t s earlier ms)
        (recorded t identity (Structure.methodVisits a s index ms))
  | [] => by
    simp [Structure.typingMethods, Structure.methodDiagnostics, Structure.methodVisits]
  | ⟨name, parameters, returns, readonly, body, position⟩ :: ms => by
    simp [Structure.typingMethods, Structure.methodDiagnostics, Structure.methodVisits,
      Structure.typingParameters_eq s _ a index 0 _ parameters,
      Structure.typingResult_eq s _ a index _ returns,
      Structure.typingMethods_eq s _ a _ _ _ ms, hscope]
termination_by structural x => x

/-- Typing parameters inside of a structure. -/
theorem Structure.typingParameters_eq (s : Structure Node) (env : Environment) (a : Address)
    (method index : Nat) (hscope : env.scope = some s) :
    ∀ ps : List (Parameter Node), Structure.typingParameters t identity env a method index ps =
      env.after (Structure.parameterDiagnostics t s ps)
        (recorded t identity (Structure.parameterVisits a s method index ps))
  | [] => by
    simp [Structure.typingParameters, Structure.parameterDiagnostics, Structure.parameterVisits]
  | ⟨name, type⟩ :: ps => by
    simp [Structure.typingParameters, Structure.parameterDiagnostics, Structure.parameterVisits,
      Node.typing_eq _ _ type, Structure.typingParameters_eq s _ a method _ _ ps, hscope]
termination_by structural x => x

/-- Typing a result inside of a structure. -/
theorem Structure.typingResult_eq (s : Structure Node) (env : Environment) (a : Address)
    (method : Nat) (hscope : env.scope = some s) :
    ∀ returns : Option Node, Structure.typingResult t identity env a method returns =
      env.after (Structure.resultDiagnostics t s returns)
        (recorded t identity (Structure.resultVisits a s method returns))
  | none => by
    simp [Structure.typingResult, Structure.resultDiagnostics, Structure.resultVisits]
  | some type => by
    simp [Structure.typingResult, Structure.resultDiagnostics, Structure.resultVisits,
      Node.typing_eq _ _ type, hscope]
termination_by structural x => x

end

/-- Typing a table outside of any structure adds the diagnostics of its entries and of its root, and
the resolutions of all its types. -/
theorem Table.typing_eq (env : Environment) (hscope : env.scope = none) :
    t.typing identity env =
      env.after (t.entryDiagnostics ++ t.rootDiagnostics) (recorded t identity t.visits) := by
  have hentries : ∀ (es : List (String × Node)) (env : Environment), env.scope = none →
      es.foldl (fun env e => e.2.typing t identity env ⟨some e.1, []⟩) env =
        env.after (es.flatMap fun e => e.2.diagnostics t none)
          (recorded t identity (es.flatMap fun e => e.2.visits ⟨some e.1, []⟩ none)) := by
    intro es
    induction es with
    | nil => intro env _; simp
    | cons e es ih =>
      intro env hscope
      rw [List.foldl_cons, ih _ (by rw [Node.typing_eq, scope_after, hscope]), Node.typing_eq,
        hscope, after_after, List.flatMap_cons, List.flatMap_cons, recorded_append]
  rw [Table.typing, hentries t.entries env hscope, Structure.typing_eq, after_after,
    entryDiagnostics,
    rootDiagnostics, visits, recorded_append]

end Pass

namespace Draft

open Environment

variable {identity : Address → Nat}

/-- The pass over a draft reports what checking reports, and records what is recorded for its
table. -/
theorem typing_eq (d : Draft) : d.typing identity =
    { diagnostics := d.check.diagnostics
      resolutions := recorded d.table identity d.table.visits } := by
  rw [typing, foldl_report, foldl_report, Table.typing_eq _ rfl, after_after, after_after, check]
  simp [after]

/-- **Typing only adds.** In whatever environment a type is typed, the scope is in the end what it
was at the start, and the diagnostics and resolutions are those from before together with what
typing the type alone gives in this scope; what was recorded for other nodes stays. So checking
reports what was wrong with the declarations, then what each entry gives when it is typed alone,
then what the root gives alone, then each cycle of embeddings. -/
theorem typing_accumulates (d : Draft) (identity : Address → Nat) :
    (∀ (t : Table) (env : Environment) (a : Address) (n : Node),
      let alone := n.typing t identity { scope := env.scope } a
      let after := n.typing t identity env a
      alone.diagnostics = n.diagnostics t env.scope ∧
        after.scope = env.scope ∧
        after.diagnostics = env.diagnostics ++ alone.diagnostics ∧
        after.resolutions = alone.resolutions ++ env.resolutions ∧
        ∀ id, (∀ v ∈ n.visits a env.scope, identity v.address ≠ id) →
          after.resolutions.lookup id = env.resolutions.lookup id) ∧
      (d.typing identity).diagnostics = d.check.diagnostics ∧
      (∀ ids : d.table.Identities, (d.typing ids.of).resolutions = d.table.resolutions ids) ∧
      d.check.diagnostics =
        d.diagnostics ++
          d.table.entries.flatMap
            (fun e => (e.2.typing d.table identity {} ⟨some e.1, []⟩).diagnostics) ++
          (d.table.root.typing d.table identity {} ⟨none, []⟩ d.table.root.position).diagnostics ++
          d.table.cycleDiagnostics ∧
      d.table.cycleDiagnostics.map Diagnostic.problem =
        d.table.embeddings.cycles.map Problem.embeddingCycle := by
  refine ⟨fun t env a n => ?_, by rw [typing_eq], fun ids => ?_, ?_, ?_⟩
  · have htyping : ∀ start : Environment, n.typing t identity start a =
        start.after (n.diagnostics t start.scope) (recorded t identity (n.visits a start.scope)) :=
      fun start => Node.typing_eq start a n
    dsimp only
    rw [htyping env, htyping { scope := env.scope }]
    refine ⟨?_, rfl, ?_, ?_, fun id hid => lookup_recorded_append hid⟩
    all_goals simp [Environment.after]
  · rw [typing_eq]
    rfl
  · -- Each entry is typed from nothing, which gives its diagnostics alone.
    have hentry : ∀ e ∈ d.table.entries,
        (e.2.typing d.table identity {} ⟨some e.1, []⟩).diagnostics =
          e.2.diagnostics d.table none := by
      intro e _
      rw [Node.typing_eq]
      rfl
    rw [List.flatMap_congr hentry, Structure.typing_eq]
    rfl
  · rw [Table.cycleDiagnostics, List.map_map]
    rfl

end Draft

end ReactiveSpace
