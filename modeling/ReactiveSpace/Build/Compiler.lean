import ReactiveSpace.Build.Bundle
import ReactiveSpace.Build.Toolchain

/-!
# Compilers

A compiler turns the source of a unit into a bundle. The one that a toolchain describes starts the
toolchain's program: it fails when the program can not be started, when it ends with another status
than zero, and when it did not emit the library of the unit.
-/

namespace ReactiveSpace

/-- Why a unit could not be compiled. -/
inductive CompileError where
  /-- The program could not be started. -/
  | notStarted (program reason : String)
  /-- The program ended with a failure; a program that was killed has no status. -/
  | failed (unitName : String) (status : Option Int) (errors : String)
  | missingLibrary (library : String)
deriving DecidableEq

/-- A status as messages print it. -/
def CompileError.statusText : Option Int → String
  | some status => "Some(" ++ Decimal.intText status ++ ")"
  | none => "None"

/-- The error in words. -/
def CompileError.message : CompileError → String
  | .notStarted program reason => s!"failed to run '{program}': {reason}"
  | .failed unitName status errors =>
    s!"rustc failed for unit '{unitName}' (status " ++ statusText status ++ s!"):\n{errors}"
  | .missingLibrary library => s!"rustc did not produce '{library}'"

/-- Turns the name and the source of a unit into compiled files. -/
abbrev Compiler (m : Type → Type) (σ : Type) : Type :=
  String → String → m (Except CompileError (Bundle σ))

/-- What became of a program. -/
inductive Execution (σ : Type) where
  /-- It could not be started. -/
  | notStarted (reason : String)
  /-- It ended, and left the given files in its output directory. -/
  | ended (status : Option Int) (errors : String) (files : List (String × Image σ))

/-- A program that compiles: it is given the toolchain, the name of the unit and its source. -/
abbrev Launcher (m : Type → Type) (σ : Type) : Type :=
  Toolchain → String → String → m (Execution σ)

namespace Toolchain

/-- What the end of the toolchain's program means. -/
def outcome {σ : Type} (t : Toolchain) (unitName : String) :
    Execution σ → Except CompileError (Bundle σ)
  | .notStarted reason => .error (.notStarted t.program reason)
  | .ended status errors files =>
    if status = some 0 then
      let bundle : Bundle σ := files.foldl (fun b f => b.insert f.1 f.2) { unitName := unitName }
      if bundle.contains bundle.libraryName then .ok bundle
      else .error (.missingLibrary bundle.libraryName)
    else .error (.failed unitName status errors)

/-- The compiler that starts the toolchain's program. -/
def compiler {m : Type → Type} [Monad m] {σ : Type} (t : Toolchain) (launch : Launcher m σ) :
    Compiler m σ :=
  fun unitName source => do
    let execution ← launch t unitName source
    return t.outcome unitName execution

end Toolchain

end ReactiveSpace
