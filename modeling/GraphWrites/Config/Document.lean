import GraphWrites.Config
import GraphWrites.Toml.Document

namespace GraphWrites.Config

open Toml (Item Entries)

def ofBool? : Item → Option Bool
  | .bool b => some b
  | _ => none

def ofSize? : Item → Option Nat
  | .int i => if 0 ≤ i then some i.toNat else none
  | _ => none

def policyOfName? : String → Option EndpointPolicy
  | "fail" => some .fail
  | "skip" => some .skip
  | _ => none

def isNothing : Item → Bool
  | .array [] | .inline _ [] | .table _ [] | .tables [] => true
  | _ => false

/-- A policy by its name, or as the only key of a table that holds nothing under it. -/
def ofPolicy? : Item → Option EndpointPolicy
  | .text s => policyOfName? s
  | .inline _ [(k, x)] | .table _ [(k, x)] => if isNothing x then policyOfName? k else none
  | _ => none

def setting {α : Type} (es : Entries) (name : String) (read? : Item → Option α) (default : α) : Option α :=
  match es.get? name with
  | none => some default
  | some x => read? x

def ofEntries? (es : Entries) : Option Config := do
  return {
    batch := ← setting es "batch_relationships" ofBool? default.batch
    policy := ← setting es "endpoint_policy" ofPolicy? default.policy
    poolCapacity := ← setting es "max_free_identifiers" ofSize? default.poolCapacity }

def ofText (text : String) : Except Failure Config :=
  match (Toml.document? text.toList).bind ofEntries? with
  | some c => c.validate
  | none => .error .malformedConfig

def ofFile (content : Option ByteArray) : Except Failure Config :=
  match content.bind String.fromUTF8? with
  | some text => ofText text
  | none => .error .unreadableConfig

end GraphWrites.Config
