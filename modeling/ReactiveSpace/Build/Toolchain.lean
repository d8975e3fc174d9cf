import ReactiveSpace.Json.Parts
import ReactiveSpace.Toml.Document

/-!
# Toolchains

How units are compiled: the program that does it, the options it is given and the libraries a unit
is linked with. `Toolchain.arguments` is the command line that builds one unit.
-/

namespace ReactiveSpace

open Json (Tree)
open Json.Tree (required orElse)

/-- A library that units are linked with. -/
structure Extern where
  name : String
  path : String
deriving DecidableEq, Inhabited

/-- How units are compiled. -/
structure Toolchain where
  /-- The program, by its path or by its name. -/
  program : String := "rustc"
  edition : String := "2021"
  optLevel : String := "2"
  externs : List Extern := []
  /-- Where libraries that other libraries need are looked for. -/
  libraryPaths : List String := []
  /-- Options that are passed on as they are. -/
  extraFlags : List String := []
deriving DecidableEq, Inhabited

/-- What is wrong with a toolchain. -/
inductive ToolchainProblem where
  | unknownEdition (edition : String)
  | unknownOptLevel (level : String)
  | unnamedExtern (path : String)
deriving DecidableEq

/-- The problem in words. -/
def ToolchainProblem.message : ToolchainProblem → String
  | .unknownEdition edition => s!"Invalid configuration: Unknown edition '{edition}'"
  | .unknownOptLevel level => s!"Invalid configuration: Unknown opt_level '{level}'"
  | .unnamedExtern path => s!"Invalid configuration: Extern at '{path}' has an empty name"

/-- Why there is no toolchain. -/
inductive ToolchainError where
  /-- The text is no configuration of a toolchain. -/
  | unreadable
  | invalid (problem : ToolchainProblem)
deriving DecidableEq

/-- The error in words. -/
def ToolchainError.message : ToolchainError → String
  | .unreadable => "TOML parse error: this is no toolchain"
  | .invalid problem => problem.message

namespace Toolchain

/-- The editions of the target language. -/
def editions : List String := ["2015", "2018", "2021", "2024"]

/-- The levels of optimization. -/
def optLevels : List String := ["0", "1", "2", "3", "s", "z"]

/-- The first thing that is wrong with a toolchain. -/
def problem? (t : Toolchain) : Option ToolchainProblem :=
  if !editions.contains t.edition then some (.unknownEdition t.edition)
  else if !optLevels.contains t.optLevel then some (.unknownOptLevel t.optLevel)
  else (t.externs.find? fun e => e.name.isEmpty).map fun e => .unnamedExtern e.path

/-- Adds a library to link with. -/
def addExtern (t : Toolchain) (name path : String) : Toolchain :=
  { t with externs := t.externs ++ [⟨name, path⟩] }

/-- Adds a place to look for libraries. -/
def addLibraryPath (t : Toolchain) (path : String) : Toolchain :=
  { t with libraryPaths := t.libraryPaths ++ [path] }

/-- The arguments that compile `source` as the unit `unitName` into the directory `output`. -/
def arguments (t : Toolchain) (unitName source output : String) : List String :=
  ["--crate-type", "cdylib", "--crate-name", unitName, "--edition", t.edition, "-C",
    "opt-level=" ++ t.optLevel, "--out-dir", output] ++
    t.externs.flatMap (fun e => ["--extern", e.name ++ "=" ++ e.path]) ++
    t.libraryPaths.flatMap (fun path => ["-L", path]) ++
    t.extraFlags ++ [source]

/-- A toolchain as a value. -/
def toJson (t : Toolchain) : Json :=
  .object [("rustc", .string t.program), ("edition", .string t.edition),
    ("opt_level", .string t.optLevel),
    ("externs", .array (t.externs.map fun e =>
      .object [("name", .string e.name), ("path", .string e.path)])),
    ("library_paths", .array (t.libraryPaths.map .string)),
    ("extra_flags", .array (t.extraFlags.map .string))]

/-- Reads a library to link with. Only where `surplus` is set may an array hold more than its name
and path. -/
def externOfTree? (surplus : Bool) (t : Tree) : Option Extern := do
  let fields := ["name", "path"]
  let parts ← if surplus then t.leadingParts? fields else t.parts? fields
  let name ← required parts "name" (·.1.string?)
  let path ← required parts "path" (·.1.string?)
  return ⟨name, path⟩

/-- Reads a toolchain. What is not given has its default. -/
def ofTree? (surplus : Bool) (t : Tree) : Option Toolchain := do
  let parts ← t.parts?
    ["rustc", "edition", "opt_level", "externs", "library_paths", "extra_flags"]
  let program ← orElse parts "rustc" "rustc" (·.1.string?)
  let edition ← orElse parts "edition" "2021" (·.1.string?)
  let optLevel ← orElse parts "opt_level" "2" (·.1.string?)
  let externs ← orElse parts "externs" [] (·.1.listOf? (externOfTree? surplus))
  let libraryPaths ← orElse parts "library_paths" [] (·.1.listOf? Tree.string?)
  let extraFlags ← orElse parts "extra_flags" [] (·.1.listOf? Tree.string?)
  return ⟨program, edition, optLevel, externs, libraryPaths, extraFlags⟩

/-- A toolchain with which nothing is wrong. -/
def validate (t : Toolchain) : Except ToolchainError Toolchain :=
  match t.problem? with
  | some problem => .error (.invalid problem)
  | none => .ok t

/-- Reads a toolchain from the text of a configuration file. -/
def ofConfiguration (text : String) : Except ToolchainError Toolchain :=
  match (Toml.documentOf? text).bind (ofTree? true) with
  | some t => t.validate
  | none => .error .unreadable

end Toolchain

end ReactiveSpace
