import ReactiveSpace.Build.Compiler
import ReactiveSpace.Document.Factory
import ReactiveSpace.Reflection
import ReactiveSpace.Target.Source

/-!
# Deploying a space

From declarations to a factory: the declarations are checked, their unit is generated and compiled,
and the compiled unit is bound. The first stage that fails ends the deployment.
-/

namespace ReactiveSpace

/-- Why a space could not be deployed. -/
inductive SpaceError where
  | notDeployable (space : String) (diagnostics : List Diagnostic)
  | source (error : Target.SourceError)
  | compile (error : CompileError)
  | factory (error : FactoryError)
deriving DecidableEq

namespace SpaceError

/-- The error in words. -/
def message : SpaceError → String
  | .notDeployable space diagnostics =>
    s!"space '{space}' is not deployable:\n" ++ Diagnostic.report diagnostics
  | .source error => error.message
  | .compile error => error.message
  | .factory error => error.message

/-- The code of an error. -/
def code : SpaceError → ErrorCode
  | .notDeployable _ _ => .notDeployable
  | .source _ => .source
  | .compile _ => .compile
  | .factory error => error.code

/-- The errors below an error, which a full report prints after it. -/
def causes : SpaceError → List String
  | .compile (.notStarted _ reason) => [reason]
  | .factory error => error.causes
  | _ => []

/-- The error with those below it. -/
def fullMessage (e : SpaceError) : String :=
  ": ".intercalate (e.message :: e.causes)

end SpaceError

/-- The unit that is generated for a space. -/
structure GeneratedUnit where
  name : String
  source : String
  reflection : Json

namespace Declarations

/-- Checks a space and generates its unit. -/
def generate (d : Declarations) : Except SpaceError GeneratedUnit :=
  let checked := d.check
  if checked.isDeployable then
    match Target.unitSource checked d.surface d.unitName with
    | .ok source => .ok ⟨d.unitName, source, Reflection.ofTable checked.table⟩
    | .error e => .error (.source e)
  else .error (.notDeployable d.space checked.diagnostics)

/-- Generates, compiles and binds the unit of a space. -/
def deploy {m : Type → Type} [Monad m] {σ : Type} (d : Declarations) (compile : Compiler m σ) :
    m (Except SpaceError (Factory m σ)) := do
  match d.generate with
  | .error e => return .error e
  | .ok unit =>
    match ← compile unit.name unit.source with
    | .error e => return .error (.compile e)
    | .ok bundle =>
      let factory ← Factory.ofBundle d.space bundle
      return factory.mapError .factory

end Declarations

end ReactiveSpace
