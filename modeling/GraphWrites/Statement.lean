import GraphWrites.Failure
import GraphWrites.Json.Printer
import GraphWrites.Query.Placeholder

namespace GraphWrites

abbrev Parameters := SortedMap String Json

structure Statement where
  text : String
  parameters : Parameters

namespace Statement

/-- Pairs a text with its parameters, unless a placeholder has no parameter or the reverse. -/
def make (text : String) (parameters : Parameters) : Except Failure Statement :=
  let used := (Placeholder.ofText text).toList
  let given := parameters.keys
  if used = given then
    .ok ⟨text, parameters⟩
  else
    .error (.mismatch
      { missing := used.filter fun name => !given.contains name
        orphan := given.filter fun name => !used.contains name
        text })

def parametersJson (s : Statement) : Json := .object s.parameters.entries

/-- The statement as the transport sends it, text first. -/
def toTransport (s : Statement) : Json :=
  .object [("statement", .text s.text), ("parameters", s.parametersJson)]

def toJson (s : Statement) : Json :=
  .object [("parameters", s.parametersJson), ("statement", .text s.text)]

end Statement

end GraphWrites
