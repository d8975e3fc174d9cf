import ReactiveSpace.Proofs.Target.Emitter

/-!
# Emitters are balanced

Two things are said of every emitter. From any depth its calls climb back to this depth, with
whatever wording (`climb?_record` and the like), and with the wording of a table they write the code
of the source (`run_record` and the like). Each lemma takes the calls of one emitter in turn and
cites those of the emitters that it uses.

So emitters are balanced in every writer and write what the source holds (`Emits`), and what is
called for a unit ends at depth zero, with the source of the unit up to its exports
(`emitters_balanced`).
-/

namespace ReactiveSpace.Emit

open Writer (Balanced Call balanced_of_climb? climb?)
open Target

variable {v : Wording} {s : Structure Node}

/-! ### Climbing -/

/-- A function of one line closes what it opens. -/
@[simp] theorem climb?_short (d : Nat) (header body : String) :
    climb? d (short header body) = some d := by
  simp [short]

/-- A condition opens one block, and closes it with the text that opens the other side. That side is
closed by a plain line, so nothing of it is on the climb. -/
@[simp] theorem climb?_choice (d : Nat) (header yes no : String) :
    climb? d (choice header yes no) = some d := by
  simp [choice]

/-- Members are lines, one for each field. -/
@[simp] theorem climb?_storage (d : Nat) : climb? d (storage v s) = some d :=
  Writer.climb?_map_line d _ _

@[simp] theorem climb?_construction (d : Nat) : climb? d (construction v s) = some d :=
  Writer.climb?_map_line d _ _

@[simp] theorem climb?_bindings (d : Nat) : climb? d (bindings s) = some d :=
  Writer.climb?_filterMap_line d _ _

/-- An accessor is made of functions of one line, however the field is exposed. -/
theorem climb?_accessor (d : Nat) (f : Field Node) : climb? d (accessor v f) = some d := by
  unfold accessor
  dsimp only
  cases (v.concrete f.type).access with
  | cell => cases f.readonly <;> simp
  | object => cases f.readonly <;> cases (v.concrete f.type).isProjection <;> simp
  | computed | plain => simp

/-- The accessors of all fields, by the loop lemma over those of one. -/
@[simp] theorem climb?_accessors (d : Nat) : climb? d (accessors v s) = some d :=
  Writer.climb?_flatMap d (climb?_accessor d)

@[simp] theorem climb?_methods (d : Nat) : climb? d (methods v s) = some d :=
  Writer.climb?_flatMap d fun m => by simp

@[simp] theorem climb?_rules (d : Nat) : climb? d (rules s) = some d :=
  Writer.climb?_flatMap d fun r => by simp

@[simp] theorem climb?_settle (d : Nat) : climb? d (settle v s) = some d := by
  simp [settle]

/-- Two functions with a block inside each. Between the braces stand loops that write lines. -/
@[simp] theorem climb?_commitRevert (d : Nat) : climb? d (commitRevert v s) = some d := by
  simp [commitRevert]

@[simp] theorem climb?_compare (d : Nat) : climb? d (compare v s) = some d := by
  simp [compare]

/-- A field is shown by a line, by a condition or not at all. -/
@[simp] theorem climb?_showField (d : Nat) (f : Field Node) :
    climb? d (showField v f) = some d := by
  unfold showField
  cases f.effectivePrivacy <;> simp

/-- A structure and its implementation: the depth goes up to three, and comes down again by single
closes. -/
@[simp] theorem climb?_delta (d : Nat) (type : String) : climb? d (delta v type s) = some d := by
  simp [delta, Writer.climb?_flatMap]

/-- Where a message is read, four blocks are open at a time. -/
@[simp] theorem climb?_message (d : Nat) : climb? d (message v s) = some d := by
  simp [message]

/-- The subscription of an index opens two blocks, and the outer one is closed with a semicolon
behind its brace. -/
@[simp] theorem climb?_wireColumn (d : Nat) (c : IndexColumn) :
    climb? d (wireColumn c) = some d := by
  simp [wireColumn]

@[simp] theorem climb?_recordConstructor (d : Nat) (columns : List IndexColumn) :
    climb? d (recordConstructor v s columns) = some d := by
  simp [recordConstructor, Writer.climb?_flatMap]

@[simp] theorem climb?_eachIndex (d : Nat) (name call : String) (columns : List IndexColumn) :
    climb? d (eachIndex name call columns) = some d := by
  simp [eachIndex, Writer.climb?_flatMap]

@[simp] theorem climb?_indexHooks (d : Nat) (columns : List IndexColumn) :
    climb? d (indexHooks columns) = some d := by
  simp [indexHooks, Writer.climb?_flatMap]

@[simp] theorem climb?_identityFunctions (d : Nat) : climb? d identityFunctions = some d := by
  simp [identityFunctions]

@[simp] theorem climb?_kill (d : Nat) : climb? d (kill v s) = some d := by
  simp [kill]

/-- All functions that records and the document share. -/
@[simp] theorem climb?_members (d : Nat) : climb? d (members v s) = some d := by
  simp [members]

@[simp] theorem climb?_record (d : Nat) : climb? d (record v s) = some d := by
  simp [record]

/-- A predicate without a body has a line in the place of it. -/
@[simp] theorem climb?_predicate (d : Nat) (name : String) (body : Option String) :
    climb? d (predicate name body) = some d := by
  unfold predicate
  cases body <;> simp

@[simp] theorem climb?_staticJson (d : Nat) (name : String) (value : Json) :
    climb? d (staticJson name value) = some d := by
  simp [staticJson]

@[simp] theorem climb?_documentConstructor (d : Nat) :
    climb? d (documentConstructor v) = some d := by
  simp [documentConstructor]

@[simp] theorem climb?_constructTransaction (d : Nat) (body : Option String) :
    climb? d (constructTransaction body) = some d := by
  unfold constructTransaction
  cases body <;> simp

@[simp] theorem climb?_lateBinding (d : Nat) : climb? d lateBinding = some d := by
  simp [lateBinding]

@[simp] theorem climb?_tests (d : Nat) (surface : Surface) :
    climb? d (tests surface) = some d := by
  simp [tests, Writer.climb?_flatMap]

@[simp] theorem climb?_document (d : Nat) (surface : Surface) :
    climb? d (document v surface) = some d := by
  simp [document]

/-- What is called for a whole unit leads back to where it starts, from any depth. -/
theorem climb?_unit (d : Nat) (t : Table) (surface : Surface) (unitName : String) :
    climb? d (unit t surface unitName) = some d := by
  simp [unit, Writer.climb?_flatMap]

/-! ### Source -/

variable {t : Table} {w : Writer}

/-- A line one level further in is the line behind an indentation. -/
theorem line_indent {text : String} (h : text ≠ "") :
    w.line (Writer.indent ++ text) =
      { ({ w with depth := w.depth + 1 } : Writer).line text with depth := w.depth } := by
  have hindent : Writer.indent ++ text ≠ "" := by
    simp [h]
  have hjoin : String.join (List.replicate (w.depth + 1) Writer.indent) =
      String.join (List.replicate w.depth Writer.indent) ++ Writer.indent := by
    rw [List.replicate_succ']
    simp
  simp [Writer.line, h, hindent, hjoin, String.append_assoc]

/-- A condition is written alike by its calls and by its tree. -/
theorem run_choice (header yes : String) {no : String} (h : no ≠ "") :
    w.run (choice header yes no) = Code.write w (.branch header [.line yes] [.line no]) := by
  -- The writer between the two sides.
  let between := ((w.openBlock header).line yes).closeWith " else \x7b"
  have hcalls : w.run (choice header yes no) =
      (between.line (Writer.indent ++ no)).line "\x7d" := rfl
  have htree : Code.write w (.branch header [.line yes] [.line no]) =
      (({ between with depth := between.depth + 1 } : Writer).line no).closeWith "" := rfl
  rw [hcalls, htree, line_indent h, Writer.closeWith, Writer.depth_line]
  rfl

@[simp] theorem run_short (header body : String) :
    w.run (short header body) = Code.write w (shortFunction header body) := rfl

/-- The loop over the fields writes the members of the structure. -/
@[simp] theorem run_storage :
    w.run (storage (t.wording s) s) = Code.writeAll w (Target.storage t s) := by
  simp [storage, Target.storage, Writer.run_map, Code.writeAll_map, Table.wording]

@[simp] theorem run_construction :
    w.run (construction (t.wording s) s) = Code.writeAll w (Target.construction t s) := by
  simp only [construction, Target.construction, Writer.run_map, Code.writeAll_map]
  rfl

/-- A field that needs no binding is passed over by both. -/
@[simp] theorem run_bindings : w.run (bindings s) = Code.writeAll w (Target.bindings s) := by
  simp [bindings, Target.bindings, Writer.run_filterMap_line, Code.writeAll_filterMap_line]

/-- The accessors of a field are its getter and, behind an empty line, its setter. -/
theorem run_accessor (f : Field Node) :
    w.run (accessor (t.wording s) f) =
      Code.writeAll w (getter t s f :: (match setter? t s f with
        | some code => [.blank, code, .blank]
        | none => [.blank])) := by
  unfold accessor getter setter?
  dsimp only [Table.wording]
  cases (Node.concrete t f.type).access with
  | cell => cases f.readonly <;> simp
  | object =>
    cases f.readonly with
    | true => simp
    | false => cases (Node.concrete t f.type).isProjection <;> simp
  | computed | plain => simp

@[simp] theorem run_accessors :
    w.run (accessors (t.wording s) s) = Code.writeAll w (Target.accessors t s) := by
  rw [accessors, Target.accessors, Writer.run_flatMap, Code.writeAll_flatMap]
  congr 1
  funext w f
  exact run_accessor f

@[simp] theorem run_methods :
    w.run (methods (t.wording s) s) = Code.writeAll w (Target.methods t s) := by
  simp only [methods, Target.methods, Writer.run_flatMap, Code.writeAll_flatMap]
  rfl

@[simp] theorem run_rules : w.run (rules s) = Code.writeAll w (Target.rules s) := by
  simp [rules, Target.rules, Writer.run_flatMap, Code.writeAll_flatMap]

@[simp] theorem run_settle :
    w.run (settle (t.wording s) s) = Code.write w (Target.settle t s) := by
  simp [settle, Target.settle, Writer.run_filterMap_line, Code.writeAll_filterMap_line,
    Table.wording]

/-- The two functions stand in one emitter and are two pieces of code, with an empty line between
them. -/
@[simp] theorem run_commitRevert :
    w.run (commitRevert (t.wording s) s) = Code.writeAll w [commit t s, .blank, revert t s] := by
  have hstored : (t.wording s).storedFields s = Target.storedFields t s := rfl
  simp [commitRevert, commit, revert, hstored, Writer.run_map, Code.writeAll_map]

/-- Equality is a single expression and the comparator a loop over those fields that can be ordered,
so the lines of the loop are matched with the arms of the code. -/
@[simp] theorem run_compare :
    w.run (compare (t.wording s) s) = Code.writeAll w [equality t s, .blank, comparator t s] := by
  have hequality : equality t s =
      shortFunction "pub fn __structurally_equals(&self, __other: &Self) -> bool"
        (if (((t.wording s).storedFields s).map (t.wording s).equalityTerm).isEmpty then "true"
        else "\n        && ".intercalate
          (((t.wording s).storedFields s).map (t.wording s).equalityTerm)) := rfl
  -- A field that can not be ordered has neither a line nor an arm.
  have horder : ∀ f, (orderExpression? t f).map (fun e =>
      Code.line ("\"" ++ f.name ++ "\" => Some(|__a: &Self, __b: &Self| " ++ e ++ "),")) =
      ((t.wording s).orderLine? f).map .line := by
    intro f
    rw [Wording.orderLine?, Option.map_map]
    rfl
  simp [compare, comparator, hequality, horder, Writer.run_filterMap_line,
    Code.writeAll_filterMap_line]

/-- By the cases of the privacy: only a field that somebody may see is written at all. -/
@[simp] theorem run_showField (f : Field Node) :
    w.run (showField (t.wording s) f) = Code.writeAll w (Target.showField t f) := by
  have hshow : (t.wording s).showStatement f = Target.showStatement t f := rfl
  have hhide : hideStatement f ≠ "" := by
    simp [hideStatement]
  unfold showField Target.showField
  cases f.effectivePrivacy <;> simp [hshow, run_choice, hhide]

/-- The emitter of a delta writes the code of the delta, behind any writer. -/
@[simp] theorem run_delta (type : String) :
    w.run (delta (t.wording s) type s) = Code.writeAll w (Target.delta t type s) := by
  have hsynced : (t.wording s).syncedFields s = Target.syncedFields t s := rfl
  simp [delta, Target.delta, deltaOf, hsynced, Writer.run_map, Code.writeAll_map,
    Writer.run_flatMap, Code.writeAll_flatMap]

/-- The emitter of a message writes the code of the message. -/
theorem run_message :
    w.run (message (t.wording s) s) = Code.writeAll w (Target.message t s) := by
  simp [message, Target.message, Table.wording, Writer.run_map, Code.writeAll_map]

@[simp] theorem run_recordConstructor (columns : List IndexColumn) :
    w.run (recordConstructor (t.wording s) s columns) =
      Code.write w (Target.recordConstructor t s columns) := by
  simp [recordConstructor, Target.recordConstructor, wireColumn, Target.wireColumn,
    Writer.run_map, Code.writeAll_map, Writer.run_flatMap]

@[simp] theorem run_eachIndex (name call : String) (columns : List IndexColumn) :
    w.run (eachIndex name call columns) = Code.write w (Target.eachIndex name call columns) := by
  simp [eachIndex, Target.eachIndex, Code.writeAll_map, Writer.run_flatMap, shortFunction]

@[simp] theorem run_indexHooks (columns : List IndexColumn) :
    w.run (indexHooks columns) = Code.writeAll w (Target.indexHooks columns) := by
  simp [indexHooks, Target.indexHooks, Code.writeAll_map, Writer.run_flatMap,
    Code.writeAll_flatMap]

@[simp] theorem run_identityFunctions :
    w.run identityFunctions = Code.writeAll w Target.identityFunctions := by
  simp [identityFunctions, Target.identityFunctions, run_choice]

@[simp] theorem run_kill : w.run (kill (t.wording s) s) = Code.write w (Target.kill t s) := by
  simp [kill, Target.kill, Table.wording, Writer.run_filterMap_line, Code.writeAll_filterMap_line]

/-- The members that records and the document share come in one order in both. -/
@[simp] theorem run_members :
    w.run (members (t.wording s) s) =
      Code.writeAll w (Target.accessors t s ++ Target.methods t s ++ Target.rules s ++
        stateFunctions t s ++ [.blank, Target.settle t s]) := by
  simp [members, stateFunctions]

/-- The emitter of a record writes the code of the record. -/
theorem run_record : w.run (record (t.wording s) s) = Code.writeAll w (Target.record t s) := by
  have hcolumns : (t.wording s).indexColumns s = Target.indexColumns t s := rfl
  simp [record, Target.record, hcolumns, Writer.run_map, Code.writeAll_map]

@[simp] theorem run_predicate (name : String) (body : Option String) :
    w.run (predicate name body) = Code.writeAll w (Target.predicate name body) := by
  unfold predicate Target.predicate
  cases body <;> simp

@[simp] theorem run_staticJson (name : String) (value : Json) :
    w.run (staticJson name value) = Code.writeAll w (Target.staticJson name value) := by
  simp [staticJson, Target.staticJson]

@[simp] theorem run_documentConstructor :
    w.run (documentConstructor (t.wording t.root)) =
      Code.write w (Target.documentConstructor t) := by
  have hroot : (t.wording t.root).root = t.root := rfl
  simp [documentConstructor, Target.documentConstructor, hroot, Writer.run_map, Code.writeAll_map]

@[simp] theorem run_constructTransaction (body : Option String) :
    w.run (constructTransaction body) = Code.write w (Target.constructTransaction body) := by
  unfold constructTransaction Target.constructTransaction
  cases body <;> simp

@[simp] theorem run_lateBinding : w.run lateBinding = Code.write w Target.lateBinding := rfl

@[simp] theorem run_tests (surface : Surface) :
    w.run (tests surface) = Code.writeAll w (Target.tests surface) := by
  simp [tests, Target.tests, Code.writeAll_map, Writer.run_flatMap, Code.writeAll_flatMap]

/-- The emitter of the document writes the code of the document, under the wording of the root. -/
theorem run_document (surface : Surface) :
    w.run (document (t.wording t.root) surface) = Code.writeAll w (Target.document t surface) := by
  have hroot : (t.wording t.root).root = t.root := rfl
  simp [document, Target.document, hroot]

/-- The calls for a unit write its code up to its exports. -/
theorem run_unit (surface : Surface) (unitName : String) :
    Code.writeAll w (unitCode t surface unitName) =
      Code.writeAll (w.run (unit t surface unitName)) (exports unitName surface) := by
  simp [unit, unitCode, header, run_message, run_record, run_document, Writer.run_flatMap,
    Code.writeAll_flatMap]

/-! ### Balance -/

/-- What is asked of an emitter: its calls are balanced, and they write the code. -/
structure Emits (calls : List Call) (code : List Code) : Prop where
  balanced : Balanced calls
  writes : ∀ w : Writer, w.run calls = Code.writeAll w code

/-- To be balanced it is enough to climb from zero to zero. -/
theorem emits_of_climb? {calls : List Call} {code : List Code} (h : climb? 0 calls = some 0)
    (hw : ∀ w : Writer, w.run calls = Code.writeAll w code) : Emits calls code :=
  ⟨balanced_of_climb? h, hw⟩

/-- After a unit no block is open. -/
theorem depth_run_unit (t : Table) (surface : Surface) (unitName : String) :
    (({} : Writer).run (unit t surface unitName)).depth = 0 :=
  Writer.depth_run (climb?_unit 0 t surface unitName) rfl

/-- The source of a unit is what its calls write, with the source of its exports behind it. -/
theorem source_unitCode (t : Table) (surface : Surface) (unitName : String) :
    Code.source (unitCode t surface unitName) =
      (({} : Writer).run (unit t surface unitName)).text ++
        Code.source (exports unitName surface) := by
  -- The exports are written at depth zero, as in an empty writer.
  have hunit : ({} : Writer).run (unit t surface unitName) =
      Writer.prepend (({} : Writer).run (unit t surface unitName)).text {} := by
    have heq := Writer.prepend_eq (({} : Writer).run (unit t surface unitName))
    rw [depth_run_unit] at heq
    exact heq.symm
  rw [Code.source, run_unit, hunit, Code.writeAll_prepend, ← hunit]
  rfl

/-- **Emitters are balanced.** The calls of an emitter lead every writer back to the depth that they
found, they only append, and they close no block that they did not open. This holds with whatever
wording; with the wording of a table, what they write is the code of the source. So do the calls for
a unit, which end at depth zero, and whose text is the source of the unit up to its exports. -/
theorem emitters_balanced (v : Wording) (t : Table) (s : Structure Node) (surface : Surface)
    (columns : List IndexColumn) (type name unitName : String) (body : Option String) :
    (Balanced (message v s) ∧ Balanced (record v s) ∧ Balanced (delta v type s) ∧
      Balanced (document v surface) ∧ Balanced (commitRevert v s) ∧ Balanced (compare v s) ∧
      Balanced (settle v s) ∧ Balanced (accessors v s) ∧ Balanced (methods v s)) ∧
    (Emits (message (t.wording s) s) (Target.message t s) ∧
      Emits (record (t.wording s) s) (Target.record t s) ∧
      Emits (delta (t.wording s) type s) (Target.delta t type s) ∧
      Emits (document (t.wording t.root) surface) (Target.document t surface) ∧
      Emits (commitRevert (t.wording s) s) [commit t s, .blank, revert t s] ∧
      Emits (compare (t.wording s) s) [equality t s, .blank, comparator t s] ∧
      Emits (settle (t.wording s) s) [Target.settle t s] ∧
      Emits (accessors (t.wording s) s) (Target.accessors t s) ∧
      Emits (methods (t.wording s) s) (Target.methods t s) ∧
      Emits (rules s) (Target.rules s) ∧
      Emits (indexHooks columns) (Target.indexHooks columns) ∧
      Emits (predicate name body) (Target.predicate name body) ∧
      Emits (tests surface) (Target.tests surface)) ∧
    Balanced (unit t surface unitName) ∧
      (({} : Writer).run (unit t surface unitName)).depth = 0 ∧
      Code.source (unitCode t surface unitName) =
        (({} : Writer).run (unit t surface unitName)).text ++
          Code.source (exports unitName surface) := by
  refine ⟨⟨?_, ?_, ?_, ?_, ?_, ?_, ?_, ?_, ?_⟩,
    ⟨?_, ?_, ?_, ?_, ?_, ?_, ?_, ?_, ?_, ?_, ?_, ?_, ?_⟩,
    balanced_of_climb? (climb?_unit 0 t surface unitName), depth_run_unit t surface unitName,
    source_unitCode t surface unitName⟩
  -- With any wording.
  · exact balanced_of_climb? (climb?_message 0)
  · exact balanced_of_climb? (climb?_record 0)
  · exact balanced_of_climb? (climb?_delta 0 type)
  · exact balanced_of_climb? (climb?_document 0 surface)
  · exact balanced_of_climb? (climb?_commitRevert 0)
  · exact balanced_of_climb? (climb?_compare 0)
  · exact balanced_of_climb? (climb?_settle 0)
  · exact balanced_of_climb? (climb?_accessors 0)
  · exact balanced_of_climb? (climb?_methods 0)
  -- With the wording of a table, and the emitters that ask for none.
  · exact emits_of_climb? (climb?_message 0) fun _ => run_message
  · exact emits_of_climb? (climb?_record 0) fun _ => run_record
  · exact emits_of_climb? (climb?_delta 0 type) fun _ => run_delta type
  · exact emits_of_climb? (climb?_document 0 surface) fun _ => run_document surface
  · exact emits_of_climb? (climb?_commitRevert 0) fun _ => run_commitRevert
  · exact emits_of_climb? (climb?_compare 0) fun _ => run_compare
  · exact emits_of_climb? (climb?_settle 0) fun _ => run_settle
  · exact emits_of_climb? (climb?_accessors 0) fun _ => run_accessors
  · exact emits_of_climb? (climb?_methods 0) fun _ => run_methods
  · exact emits_of_climb? (climb?_rules 0) fun _ => run_rules
  · exact emits_of_climb? (climb?_indexHooks 0 columns) fun _ => run_indexHooks columns
  · exact emits_of_climb? (climb?_predicate 0 name body) fun _ => run_predicate name body
  · exact emits_of_climb? (climb?_tests 0 surface) fun _ => run_tests surface

end ReactiveSpace.Emit
