import ReactiveSpace.Space.Surface
import ReactiveSpace.Schema.Equality

/-!
# Declarations of a space

Everything that is declared for one space: its records, messages and aliases, the root structure and
the surface of its document. `ofText?` reads declarations and `toJson` writes them.
-/

namespace ReactiveSpace

open Json (Tree)
open Json.Tree (required orElse)

/-- The declarations of a space. -/
structure Declarations where
  space : String
  records : List (Structure Node) := []
  messages : List (Structure Node) := []
  /-- Names for other types. -/
  aliases : List (String × Node) := []
  root : Structure Node := Structure.emptyRoot
  surface : Surface := {}
deriving Inhabited

namespace Declarations

/-- The name of the unit that is generated for the space: letters and digits in lower case, and an
underscore for everything else. -/
def unitName (d : Declarations) : String :=
  "livedoc_" ++ String.ofList
    (d.space.toList.map fun c => if c.isAlphanum then c.toLower else '_')

/-- Whether two declarations are the same. The order of aliases does not matter. -/
def same (a b : Declarations) : Bool :=
  a.space == b.space && Structure.allSame a.records b.records &&
    Structure.allSame a.messages b.messages && Keyed.sameBy Node.same a.aliases b.aliases &&
    a.root.same b.root && a.surface.same b.surface

/-- The declarations as a value. -/
def toJson (d : Declarations) : Json :=
  .object [("space", .string d.space), ("records", .array (d.records.map Structure.toJson)),
    ("messages", .array (d.messages.map Structure.toJson)),
    ("aliases", .object (d.aliases.map fun (name, node) => (name, node.toJson))),
    ("root", d.root.toJson), ("document", d.surface.toJson)]

/-- Reads declarations. -/
def ofTree? (t : Tree) : Option Declarations := do
  let parts ← t.parts? ["space", "records", "messages", "aliases", "root", "document"]
  let space ← required parts "space" (·.1.string?)
  let records ← orElse parts "records" [] (·.1.listOf? Structure.ofTree?)
  let messages ← orElse parts "messages" [] (·.1.listOf? Structure.ofTree?)
  let aliases ← orElse parts "aliases" [] (·.1.mapOf? Node.ofTree?)
  let root ← orElse parts "root" Structure.emptyRoot (Structure.ofTree? ·.1)
  let surface ← orElse parts "document" {} (Surface.ofTree? ·.1)
  return ⟨space, records, messages, aliases, root, surface⟩

/-- Reads declarations from text. -/
def ofText? (text : String) : Option Declarations :=
  (Tree.ofText? text).bind ofTree?

end Declarations

end ReactiveSpace
