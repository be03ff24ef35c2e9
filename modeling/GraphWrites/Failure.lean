import GraphWrites.Text.Quoted

namespace GraphWrites

inductive EdgeEnd where
  | source
  | target
deriving DecidableEq, Repr

def EdgeEnd.text : EdgeEnd → String
  | source => "start"
  | target => "end"

/-- Names that a statement's text uses without a parameter, and parameters that it does not use. -/
structure Mismatch where
  missing : List String
  orphan : List String
  text : String
deriving DecidableEq, Repr

inductive Failure where
  | unresolvedEndpoint (reference type : String) (edgeEnd : EdgeEnd)
  | missingPrimaryKey (reference key : String)
  | unknownReference (reference : String)
  | invalidConfig (reason : String)
  | unreadableConfig
  | malformedConfig
  /-- A statement whose parameters are not the ones its text uses. It must never be sent. -/
  | mismatch (m : Mismatch)
deriving DecidableEq, Repr

namespace Failure

def code? : Failure → Option String
  | unresolvedEndpoint .. => some "UnresolvedEndpoint"
  | missingPrimaryKey .. => some "MissingPrimaryKey"
  | unknownReference _ => some "UnknownReference"
  | invalidConfig _ | malformedConfig => some "InvalidConfig"
  | unreadableConfig => some "Io"
  | mismatch _ => none

def message : Failure → String
  | unresolvedEndpoint reference type edgeEnd =>
    "relationship " ++ reference ++ " of type '" ++ type ++ "' has an unresolved " ++ edgeEnd.text ++ " endpoint"
  | missingPrimaryKey reference key =>
    "node " ++ reference ++ " merges on '" ++ key ++ "' but the property is not set"
  | unknownReference reference => "identity reported for unknown reference '" ++ reference ++ "'"
  | invalidConfig reason => "invalid configuration: " ++ reason
  | unreadableConfig => "configuration cannot be read"
  | malformedConfig => "config parse error"
  | mismatch m =>
    "statement parameters out of sync with text: missing " ++ Text.quotedList m.missing ++ ", orphan " ++
      Text.quotedList m.orphan ++ " in `" ++ m.text ++ "`"

end Failure

end GraphWrites
