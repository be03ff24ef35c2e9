import GraphWrites.Failure

namespace GraphWrites

inductive EndpointPolicy where
  | fail
  | skip
deriving DecidableEq, Repr

structure Config where
  batch : Bool
  policy : EndpointPolicy
  /-- How many variables may wait to be used again. -/
  poolCapacity : Nat
deriving DecidableEq, Repr

namespace Config

def default : Config := ⟨true, .fail, 1024⟩

instance : Inhabited Config := ⟨default⟩

def strict : Config := { default with batch := false }

def lenient : Config := { default with policy := .skip }

def validate (c : Config) : Except Failure Config :=
  if c.poolCapacity = 0 then .error (.invalidConfig "max_free_identifiers must be greater than zero") else .ok c

end Config

end GraphWrites
