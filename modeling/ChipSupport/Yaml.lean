import ChipSupport.Yaml.Builder
import ChipSupport.Yaml.Lexer

/-!
# Reading descriptions

A description in indented notation becomes data.  A name stands for the last node before it that has
the name, and a table may take over the entries of other tables.

## Main definitions

* `Yaml.read` — the data of a text.
-/

namespace ChipSupport.Yaml

/-- The data of a text with at most one document. -/
def read (s : String) : Except Fault Data := do
  match ← Document.read? (tokens s.toList) with
  | none => return .null
  | some d =>
    let (graph, root) := Graph.ofDocument d
    graph.data d.setting.edition root

end ChipSupport.Yaml
