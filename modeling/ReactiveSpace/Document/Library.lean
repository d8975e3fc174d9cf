import ReactiveSpace.Document.Interface
import ReactiveSpace.Target.Exports

/-!
# Units in shared libraries

A library exports a table of entry points in which every text ends at its first U+0000, a missing
text means that the call failed, and predicates answer with a status. `Library.unit` makes a
`DocumentUnit` of such a table: it refuses texts that can not cross the border, and turns missing
texts, failing statuses and answers of the wrong form into errors.
-/

namespace ReactiveSpace

open Json (Tree)

/-- The entry points that a library exports. -/
structure Library (σ : Type) where
  /-- The version of the table. -/
  version : Nat
  config : Option String
  services : Option String
  genericClients : Option String
  getTests : Option String
  /-- The status of a predicate for the text of a context. -/
  predicate : Predicate → String → Int
  construct : Option σ
  /-- The patches reported while a document is constructed. -/
  constructPatches : List String := []
  /-- The patches reported and the answer, for the text of a principal and an argument. -/
  transactConstruct : String → String → σ → (List String × Option String) × σ
  /-- The status for a space and a key. -/
  lateBind : String → String → σ → (List String × Int) × σ
  /-- The patches reported and the answer, for the name of a test. -/
  runTest : String → σ → (List String × Option String) × σ
  /-- The patches reported while a document is destroyed. -/
  destroy : σ → List String := fun _ => []

namespace Library

/-- A text as it arrives across the border: up to its first U+0000. -/
def received (text : String) : String :=
  String.ofList (text.toList.takeWhile fun c => c.toNat != 0)

/-- Whether a text can cross the border. -/
def isSendable (text : String) : Bool :=
  text.toList.all fun c => c.toNat != 0

/-- The text that an entry point answered. -/
def answer (entry : String) : Option String → Except InvokeError String
  | some text => .ok (received text)
  | none => .error (.noAnswer entry)

/-- The answer of an entry point, read by `read`. -/
def readAnswer {α : Type} (entry : String) (read : String → Option α) (text : Option String) :
    Except InvokeError α :=
  match answer entry text with
  | .error e => .error e
  | .ok text =>
    match read text with
    | some value => .ok value
    | none => .error (.unreadable entry)

/-- Reads the description of a client. -/
def clientOfTree? (t : Tree) : Option Client := do
  let parts ← t.parts? ["service", "class"]
  let service ← Tree.required parts "service" (·.1.string?)
  let clientClass ← Tree.required parts "class" (·.1.string?)
  return ⟨service, clientClass⟩

/-- Reads the clients that a unit asks for. -/
def clientsOfText? (text : String) : Option (List Client) :=
  (Tree.ofText? text).bind (Tree.listOf? clientOfTree?)

/-- Reads the names of tests. -/
def testsOfText? (text : String) : Option (List String) :=
  (Tree.ofText? text).bind (Tree.listOf? Tree.string?)

/-- What the status of a predicate means. -/
def verdict (entry : String) (status : Int) : Except InvokeError Bool :=
  if status = 1 then .ok true
  else if status = 0 then .ok false
  else .error (.status entry status)

/-- A call on a document that is made only when all its texts can cross the border. -/
def guarded {α σ : Type} (texts : List String) (call : σ → Reply α × σ) (state : σ) :
    Reply α × σ :=
  if texts.all isSendable then call state else ({ result := .error .textWithNul }, state)

/-- The unit that a library implements. -/
def unit {m : Type → Type} [Monad m] {σ : Type} (l : Library σ) : DocumentUnit m σ where
  config := return answer "config" l.config
  services := return answer "services" l.services
  admits p context :=
    let text := context.toJson.compact
    return if isSendable text then verdict p.name (l.predicate p text) else .error .textWithNul
  clients := return readAnswer "generic_clients" clientsOfText? l.genericClients
  tests := return readAnswer "get_tests" testsOfText? l.getTests
  construct := return {
    patches := l.constructPatches.map received
    result := match l.construct with
      | some state => .ok state
      | none => .error (.noAnswer "constructor") }
  transactConstruct who arg state :=
    return guarded [who.toJson.compact, arg] (fun state =>
      let ((patches, text), next) := l.transactConstruct who.toJson.compact arg state
      (⟨patches.map received, answer "transact_construct" text⟩, next)) state
  lateBind space key state :=
    return guarded [space, key] (fun state =>
      let ((patches, status), next) := l.lateBind space key state
      (⟨patches.map received,
        if status = 0 then .ok () else .error (.status "late_bind" status)⟩, next)) state
  runTest name state :=
    return guarded [name] (fun state =>
      let ((patches, text), next) := l.runTest name state
      (⟨patches.map received, readAnswer s!"test '{name}'" Json.ofText? text⟩, next)) state
  destroy state := return (l.destroy state).map received

end Library

end ReactiveSpace
