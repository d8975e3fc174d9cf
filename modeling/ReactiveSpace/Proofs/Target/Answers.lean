import Mathlib.Data.List.Basic
import ReactiveSpace.Document.Library
import ReactiveSpace.Proofs.Text.Quoted
import ReactiveSpace.Target.Source

/-!
# What static entry points answer

A static entry point of a unit hands over a text, which its code gives as a literal or as the call
of a function of the document whose body is a literal. `Target.answer?` reads the answer of an entry
point off the code. The answers of a unit are the texts of what its surface declares
(`answer?_static`, `answer?_tests`), if these texts can cross the border. No message or record has a
block that could be taken for one of the document or of the exports (`body?_unitCode`).
-/

namespace ReactiveSpace

namespace Code

/-- The body of the first block under a header. -/
def body? (header : String) : List Code → Option (List Code)
  | [] => none
  | .block other body _ :: rest => if other = header then some body else body? header rest
  | _ :: rest => body? header rest

/-- The line of a body that is one line. -/
def onlyLine? : List Code → Option String
  | [.line text] => some text
  | _ => none

/-- The headers of blocks, in order. -/
def headers (code : List Code) : List String :=
  code.filterMap fun
    | .block header _ _ => some header
    | _ => none

theorem body?_blank (header : String) (code : List Code) :
    body? header (.blank :: code) = body? header code :=
  rfl

/-- A block is not found in code that does not open it. -/
theorem body?_append_of_notMem {header : String} {xs : List Code} (h : header ∉ headers xs)
    (ys : List Code) : body? header (xs ++ ys) = body? header ys := by
  induction xs with
  | nil => rfl
  | cons c cs ih =>
    cases c with
    | block other body suffix =>
      obtain ⟨hne, hcs⟩ := not_or.1 (List.mem_cons.not.1 h)
      rw [List.cons_append, body?, if_neg (Ne.symm hne), ih hcs]
    | line | blank | snippet | branch => exact ih h

end Code

namespace Target

/-- The header of a static function of the document, by the text of its call. -/
def staticHeader (call : String) : String :=
  "pub fn " ++ call ++ " -> &'static str"

/-- The header of a static entry point. -/
def entryHeader (entry : String) : String :=
  "unsafe extern \"C\" fn __glue_" ++ (entry ++ "() -> *mut c_char")

/-- The text of an expression: a literal, or the call of a static function of the document that has
one for its body. -/
def textOf? (code : List Code) (expression : String) : Option String :=
  match (Structure.rootName ++ "::").toList.isPrefixOf? expression.toList with
  | none => Text.unquote? expression
  | some call => do
    let members ← Code.body? ("impl " ++ Structure.rootName) code
    let body ← Code.body? (staticHeader (String.ofList call)) members
    let literal ← Code.onlyLine? body
    Text.unquote? literal

/-- The expression that a line hands over the border. -/
def handed? (line : String) : Option String := do
  let rest ← "__glue_out(".toList.isPrefixOf? line.toList
  let expression ← [')'].isSuffixOf? rest
  return String.ofList expression

/-- The answer of a static entry point. A text that can not cross the border is none. -/
def answer? (code : List Code) (entry : String) : Option String := do
  let body ← Code.body? (entryHeader entry) code
  let line ← Code.onlyLine? body
  let expression ← handed? line
  let text ← textOf? code expression
  if Library.isSendable text then some text else none

/-- A literal stands for the text that it denotes. -/
theorem textOf?_quote (code : List Code) (text : String) :
    textOf? code (Text.quote text) = some text := by
  have hprefix : (Structure.rootName ++ "::").toList.isPrefixOf? (Text.quote text).toList =
      none := by
    rw [Text.quote, String.toList_ofList]
    rfl
  rw [textOf?, hprefix]
  exact Text.unquote?_quote text

/-- A call stands for the text that the function of the document hands back. -/
theorem textOf?_call {code members : List Code} {call text : String}
    (hmembers : Code.body? ("impl " ++ Structure.rootName) code = some members)
    (hbody : Code.body? (staticHeader call) members = some [.line (Text.quote text)]) :
    textOf? code (Structure.rootName ++ "::" ++ call) = some text := by
  have hprefix : (Structure.rootName ++ "::").toList.isPrefixOf?
      (Structure.rootName ++ "::" ++ call).toList = some call.toList := by
    rw [List.isPrefixOf?_eq_some_iff_append_eq, ← String.toList_append]
  rw [textOf?, hprefix]
  simp [hmembers, hbody, Code.onlyLine?, Text.unquote?_quote]

/-- An entry point hands over the expression between the brackets. -/
theorem handed?_eq (expression : String) :
    handed? ("__glue_out(" ++ expression ++ ")") = some expression := by
  have hprefix : "__glue_out(".toList.isPrefixOf? ("__glue_out(" ++ expression ++ ")").toList =
      some (expression.toList ++ [')']) := by
    rw [List.isPrefixOf?_eq_some_iff_append_eq, String.toList_append, String.toList_append,
      List.append_assoc]
    rfl
  have hsuffix : [')'].isSuffixOf? (expression.toList ++ [')']) = some expression.toList := by
    simp [List.isSuffixOf?, List.isPrefixOf?]
  rw [handed?, hprefix]
  simp [hsuffix]

/-- An entry point answers the text of the expression that it hands over. -/
theorem answer?_eq {code : List Code} {entry expression text : String}
    (hbody : Code.body? (entryHeader entry) code =
      some [.line ("__glue_out(" ++ expression ++ ")")])
    (htext : textOf? code expression = some text) (hsend : Library.isSendable text = true) :
    answer? code entry = some text := by
  rw [answer?, hbody]
  simp [Code.onlyLine?, handed?_eq, htext, hsend]

/-! ### The code of a unit -/

/-- The code of a unit in front of its document. -/
def frontCode (t : Table) (unitName : String) : List Code :=
  header unitName ++
    t.messages.flatMap (fun s => message t s ++ [.blank]) ++
    (orderedRecords t).flatMap (fun s => record t s ++ [.blank])

/-- The code of a unit from its document on, which is what the surface takes part in. -/
def surfaceCode (t : Table) (s : Surface) (unitName : String) : List Code :=
  document t s ++ .blank :: exports unitName s

/-- The words that the headers of messages and records begin with. -/
def structureWords : List String := ["pub struct ", "impl NtMessage for ", "impl RTx"]

/-- The headers of messages and records begin with a few words, whatever the names are. -/
theorem exists_word {t : Table} {unitName head : String}
    (h : head ∈ Code.headers (frontCode t unitName)) :
    ∃ word ∈ structureWords, word.toList <+: head.toList := by
  have hmessage (s : Structure Node) : Code.headers (message t s ++ [.blank]) =
      ["pub struct " ++ messageType s.name, "impl NtMessage for " ++ messageType s.name] := rfl
  have hrecord (s : Structure Node) : Code.headers (record t s ++ [.blank]) =
      ["pub struct " ++ recordType s.name, "impl " ++ recordType s.name,
        "pub struct " ++ recordType s.name ++ "Delta", "impl " ++ recordType s.name ++ "Delta"] :=
    rfl
  -- Only messages and records stand in front, so the headers are theirs.
  have hall : Code.headers (frontCode t unitName) =
      t.messages.flatMap (fun s => Code.headers (message t s ++ [.blank])) ++
        (orderedRecords t).flatMap fun s => Code.headers (record t s ++ [.blank]) := by
    simp only [Code.headers, frontCode, List.filterMap_append, List.filterMap_flatMap]
    rfl
  simp only [hall, hmessage, hrecord, List.mem_append, List.mem_flatMap, List.mem_cons,
    List.not_mem_nil, or_false] at h
  rcases h with ⟨s, -, rfl | rfl⟩ | ⟨s, -, rfl | rfl | rfl | rfl⟩
  · exact ⟨"pub struct ", by decide, by simp⟩
  · exact ⟨"impl NtMessage for ", by decide, by simp⟩
  · exact ⟨"pub struct ", by decide, by simp⟩
  · exact ⟨"impl RTx", by decide, by simp [recordType]⟩
  · exact ⟨"pub struct ", by decide, by simp⟩
  · exact ⟨"impl RTx", by decide, by simp [recordType]⟩

/-- Messages and records have no block under a header that begins otherwise. -/
theorem body?_unitCode (t : Table) (s : Surface) (unitName : String) {head : String}
    (h : ∀ word ∈ structureWords, ¬word.toList <+: head.toList) :
    Code.body? head (unitCode t s unitName) = Code.body? head (surfaceCode t s unitName) := by
  have hcode : unitCode t s unitName = frontCode t unitName ++ surfaceCode t s unitName := by
    simp only [unitCode, frontCode, surfaceCode, List.append_assoc, List.cons_append,
      List.nil_append]
  rw [hcode]
  refine Code.body?_append_of_notMem (fun hmem => ?_) _
  obtain ⟨word, hword, hprefix⟩ := exists_word hmem
  exact h word hword hprefix

/-- The exports in front of the static entry points. -/
def exportFront (unitName : String) : List Code :=
  [Code.blank] ++ exportHeader unitName ++ [Code.blank] ++ vtableType ++ [Code.blank] ++ vtable ++
    [Code.blank] ++ exportHelpers ++ [Code.blank] ++ lifetimeExports ++ [Code.blank] ++
    predicateExports ++ [Code.blank]

variable (t : Table) (s : Surface) (unitName : String)

theorem surfaceCode_eq :
    surfaceCode t s unitName = (document t s ++ .blank :: exportFront unitName) ++
      (staticExports (Text.quote s.testsJson.compact) ++ .blank :: documentExports) := by
  have hexports : exports unitName s = exportFront unitName ++
      staticExports (Text.quote s.testsJson.compact) ++ [.blank] ++ documentExports := by
    unfold exports exportFront
    rfl
  simp only [surfaceCode, hexports, List.append_assoc, List.cons_append, List.nil_append]

theorem headers_front :
    Code.headers (document t s ++ .blank :: exportFront unitName) =
      ["pub struct " ++ Structure.rootName, "impl " ++ Structure.rootName,
        "pub struct " ++ Structure.rootName ++ "Delta", "impl " ++ Structure.rootName ++ "Delta",
        "pub struct LivedocMonitor", "pub struct UnitVTable",
        "pub static " ++ entrySymbol ++ ": UnitVTable = UnitVTable"] ++
        Code.headers (exportHelpers ++ lifetimeExports ++ predicateExports) := by
  simp [Code.headers, document, delta, deltaOf, exportFront, exportHeader, vtableType, vtable,
    Code.nest]

theorem body?_entry {entry : String}
    (h : entry ∈ ["config", "services", "generic_clients", "get_tests"]) :
    Code.body? (entryHeader entry) (unitCode t s unitName) =
      Code.body? (entryHeader entry)
        (staticExports (Text.quote s.testsJson.compact) ++ .blank :: documentExports) := by
  have hwords : ∀ word ∈ structureWords, ¬word.toList <+: (entryHeader entry).toList := by
    revert entry
    decide +kernel
  rw [body?_unitCode t s unitName hwords, surfaceCode_eq]
  refine Code.body?_append_of_notMem ?_ _
  rw [headers_front]
  revert entry
  decide +kernel

/-- The entry point of the tests answers their names. -/
theorem answer?_tests (hsend : Library.isSendable s.testsJson.compact = true) :
    answer? (unitCode t s unitName) "get_tests" = some s.testsJson.compact := by
  have hbody : Code.body? (entryHeader "get_tests") (unitCode t s unitName) =
      some [.line ("__glue_out(" ++ Text.quote s.testsJson.compact ++ ")")] := by
    rw [body?_entry t s unitName (by decide)]
    rfl
  exact answer?_eq hbody (textOf?_quote _ _) hsend

/-- The functions of the document in front of the static texts. -/
def documentFront : List Code :=
  [documentConstructor t, .blank] ++
    predicate "__can_create" s.predicates.canCreate ++
    predicate "__can_invent" s.predicates.canInvent ++
    predicate "__can_send_while_disconnected" s.predicates.canSendWhileDisconnected

/-- The static texts of the document. -/
def staticTexts : List Code :=
  staticJson "__config" s.configJson ++ staticJson "__services" s.servicesJson ++
    staticJson "__generic_clients" s.clientsJson

theorem exists_members :
    ∃ rest, Code.body? ("impl " ++ Structure.rootName) (unitCode t s unitName) =
      some (documentFront t s ++ (staticTexts s ++ rest)) := by
  have hne : "pub struct " ++ Structure.rootName ≠ "impl " ++ Structure.rootName := by decide
  rw [body?_unitCode t s unitName (by decide +kernel), surfaceCode, document, List.append_assoc,
    List.cons_append, Code.nest, Code.body?, if_neg hne, List.cons_append, Code.body?_blank,
    List.cons_append, Code.nest, Code.body?, if_pos rfl]
  simp only [documentFront, staticTexts, List.append_assoc]
  exact ⟨_, rfl⟩

theorem body?_staticTexts {call : String} (rest : List Code)
    (h : call ∈ ["__config()", "__services()", "__generic_clients()"]) :
    Code.body? (staticHeader call) (documentFront t s ++ (staticTexts s ++ rest)) =
      Code.body? (staticHeader call) (staticTexts s ++ rest) := by
  refine Code.body?_append_of_notMem ?_ _
  have hheaders : Code.headers (documentFront t s) =
      ["pub fn new(__monitor: MonitorSink) -> Self",
        "pub fn __can_create(__context: &RequestContext) -> bool",
        "pub fn __can_invent(__context: &RequestContext) -> bool",
        "pub fn __can_send_while_disconnected(__context: &RequestContext) -> bool"] := by
    rfl
  rw [hheaders]
  revert call
  decide +kernel

/-- The entry points of the other static texts answer what the surface declares. -/
theorem answer?_static {entry : String} {value : Json}
    (h : (entry, value) ∈ [("config", s.configJson), ("services", s.servicesJson),
      ("generic_clients", s.clientsJson)])
    (hsend : Library.isSendable value.compact = true) :
    answer? (unitCode t s unitName) entry = some value.compact := by
  obtain ⟨rest, hmembers⟩ := exists_members t s unitName
  -- Every entry point calls the function of its name behind two underscores.
  have hbody : Code.body? (entryHeader entry) (unitCode t s unitName) =
        some [.line ("__glue_out(" ++ (Structure.rootName ++ "::" ++ ("__" ++ entry ++ "()")) ++
          ")")] ∧
      Code.body? (staticHeader ("__" ++ entry ++ "()"))
        (documentFront t s ++ (staticTexts s ++ rest)) =
          some [.line (Text.quote value.compact)] := by
    simp only [List.mem_cons, Prod.mk.injEq, List.not_mem_nil, or_false] at h
    rcases h with ⟨rfl, rfl⟩ | ⟨rfl, rfl⟩ | ⟨rfl, rfl⟩
    all_goals
      rw [body?_entry t s unitName (by decide), body?_staticTexts t s rest (by decide)]
      exact ⟨rfl, rfl⟩
  exact answer?_eq hbody.1 (textOf?_call hmembers hbody.2) hsend

end Target

end ReactiveSpace
