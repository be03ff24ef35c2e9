import GraphWrites.Query.Clause
import GraphWrites.Statement
import GraphWrites.Value

namespace GraphWrites

inductive Row where
  | created (primaryKey : Option Value) (props : PropertyRow)
  | stored (node : NodeId) (props : PropertyRow)
  | edge (props : PropertyRow)

/-- A new edge between stored nodes, in stored order. -/
structure LinkRow where
  source : NodeId
  target : NodeId
  reference : Variable
deriving DecidableEq, Repr

structure LinkBlock where
  parameter : String
  type : String
  singleton : Bool
  rows : List LinkRow
deriving DecidableEq, Repr

structure PatchRow where
  edge : EdgeId
  props : PropertyRow

inductive Query where
  | script (clauses : List Clause) (rows : SortedMap Variable Row)
  | link (blocks : List LinkBlock)
  | patch (type : String) (rows : List PatchRow)
  /-- Deletes every edge of the type between two nodes, the source first. -/
  | deleteBetween (type : String) (rows : List (NodeId × NodeId))
  | deleteById (type : String) (rows : List EdgeId)

namespace Row

def toJson : Row → Json
  | created none props => .object [("props", props.toJson)]
  | created (some key) props => .object [("primaryKey", key.toJson), ("props", props.toJson)]
  | stored node props =>
    .object (("nodeId", .int node.val.toNat) :: if props.isEmpty then [] else [("props", props.toJson)])
  | edge props => .object [("props", props.toJson)]

end Row

namespace LinkRow

def toJson (r : LinkRow) : Json :=
  .object [("endNodeId", .int r.target.val.toNat), ("relRef", .text r.reference.text),
    ("startNodeId", .int r.source.val.toNat)]

end LinkRow

namespace LinkBlock

def text (b : LinkBlock) : String :=
  "UNWIND $" ++ b.parameter ++ " AS row MATCH (start) WHERE id(start) = row.startNodeId " ++
    "MATCH (end) WHERE id(end) = row.endNodeId " ++ Clause.creating b.singleton ++ " (start)-[rel:" ++
    Name.quoted b.type ++ "]->(end) RETURN row.relRef AS ref, id(rel) AS id, 'rel' AS type"

end LinkBlock

namespace PatchRow

def toJson (r : PatchRow) : Json :=
  .object [("props", r.props.toJson), ("relId", .int r.edge.val.toNat)]

end PatchRow

namespace Query

def text : Query → String
  | script clauses _ => " ".intercalate (clauses.map Clause.text)
  | link blocks => " UNION ALL ".intercalate (blocks.map LinkBlock.text)
  | patch type _ =>
    "MATCH ()-[rel:" ++ Name.quoted type ++ "]->() WHERE id(rel) IN [r IN $" ++ Name.rowsParameter type ++
      " | r.relId] FOREACH (row IN [r IN $" ++ Name.rowsParameter type ++
      " WHERE r.relId = id(rel)] | SET rel += row.props)"
  | deleteBetween type _ =>
    "UNWIND $" ++ Name.rowsParameter type ++ " AS row MATCH (start)-[rel:" ++ Name.quoted type ++
      "]->(end) WHERE id(start) = row.startNodeId AND id(end) = row.endNodeId DELETE rel"
  | deleteById type _ =>
    "UNWIND $" ++ Name.rowsParameter type ++ " AS row MATCH ()-[rel:" ++ Name.quoted type ++
      "]->() WHERE id(rel) = row.relId DELETE rel"

def parameters : Query → Parameters
  | script _ rows => .ofList (rows.entries.map fun e => (e.1.text, e.2.toJson))
  | link blocks => .ofList (blocks.map fun b => (b.parameter, .array (b.rows.map LinkRow.toJson)))
  | patch type rows => .ofList [(Name.rowsParameter type, .array (rows.map PatchRow.toJson))]
  | deleteBetween type rows =>
    .ofList [(Name.rowsParameter type, .array (rows.map fun r =>
      .object [("endNodeId", .int r.2.val.toNat), ("startNodeId", .int r.1.val.toNat)]))]
  | deleteById type rows =>
    .ofList [(Name.rowsParameter type, .array (rows.map fun r => .object [("relId", .int r.val.toNat)]))]

def statement (q : Query) : Except Failure Statement := Statement.make q.text q.parameters

end Query

end GraphWrites
