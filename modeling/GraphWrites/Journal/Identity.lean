import GraphWrites.Journal
import GraphWrites.Json.Tree

namespace GraphWrites.IdentityRow

open Json (Tree)

inductive Field where
  | reference
  | id
deriving DecidableEq, Repr

def Field.name : Field → String
  | reference => "reference"
  | id => "id"

def Field.ofKey? (k : List Char) : Option Field := [reference, id].find? fun f => f.name.toList == k

def ofParts? : Tree → Tree → Option IdentityRow
  | .text (some reference), .number n =>
    match n.read? with
    | some (.int i) => if 0 ≤ i then some ⟨String.ofList reference, i.toNat.toUInt64⟩ else none
    | _ => none
  | _, _ => none

def ofTree? : Tree → Option IdentityRow
  | .array [reference, id] => ofParts? reference id
  | .object fields => do
    match ← Tree.known Field.ofKey? fields with
    | [(.reference, reference), (.id, id)] | [(.id, id), (.reference, reference)] => ofParts? reference id
    | _ => none
  | _ => none

def ofText? (s : String) : Option IdentityRow := do ofTree? (← Tree.ofText? s)

def toJson (r : IdentityRow) : Json :=
  .object [(Field.reference.name, .text r.reference), (Field.id.name, .int r.id.toNat)]

end GraphWrites.IdentityRow
