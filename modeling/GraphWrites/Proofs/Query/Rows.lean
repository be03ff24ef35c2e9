import GraphWrites.Edge
import GraphWrites.Intent.Edge
import GraphWrites.Proofs.SortedMap
import GraphWrites.Query

namespace GraphWrites

namespace Json

def field? (name : String) : Json → Option Json
  | object fields => (fields.find? fun f => f.1 == name).map Prod.snd
  | _ => none

def fields? : Json → Option (List (String × Json))
  | object fields => some fields
  | _ => none

def nodeId? : Json → Option NodeId
  | int (.ofNat n) => if n < UInt64.size then some ⟨.ofNat n⟩ else none
  | _ => none

def edgeId? : Json → Option EdgeId
  | int (.ofNat n) => if n < UInt64.size then some ⟨.ofNat n⟩ else none
  | _ => none

def text? : Json → Option String
  | text s => some s
  | _ => none

def props? (row : Json) : Option (SortedMap String Json) := ((row.field? "props").bind fields?).map .ofList

theorem nodeId?_int (n : NodeId) : (int n.val.toNat).nodeId? = some n := by
  change (if n.val.toNat < UInt64.size then some (⟨.ofNat n.val.toNat⟩ : NodeId) else none) = some n
  rw [if_pos n.val.toNat_lt, UInt64.ofNat_toNat]

theorem edgeId?_int (e : EdgeId) : (int e.val.toNat).edgeId? = some e := by
  change (if e.val.toNat < UInt64.size then some (⟨.ofNat e.val.toNat⟩ : EdgeId) else none) = some e
  rw [if_pos e.val.toNat_lt, UInt64.ofNat_toNat]

end Json

namespace PropertyRow

def asJson (row : PropertyRow) : SortedMap String Json := row.mapValues fun _ v => v.toJson

theorem ofList_fields (row : PropertyRow) : SortedMap.ofList (row.entries.map fun e => (e.1, e.2.toJson)) = row.asJson :=
  SortedMap.ofList_eq_of_perm (.refl _)

end PropertyRow

/-- What is read off each row of a parameter, or none for a parameter that holds no rows. -/
def Parameters.rows {α : Type} (given : Parameters) (name : String) (read : Json → Option α) : List (Option α) :=
  match given.get? name with
  | some (.array rows) => rows.map read
  | _ => [none]

theorem Parameters.rows_of_get? {α β : Type} {given : Parameters} {name : String} {xs : List β} {toJson : β → Json}
    (found : given.get? name = some (.array (xs.map toJson))) {read : Json → Option α} {made : β → α}
    (reads : ∀ x, read (toJson x) = some (made x)) : given.rows name read = xs.map fun x => some (made x) := by
  rw [rows, found]
  simp only [List.map_map, Function.comp_def, reads]

/-- A change of a stored edge as the database is told to make it. -/
structure EdgeUpdate where
  type : String
  edge : EdgeId
  props : SortedMap String Json

inductive DeleteRow where
  | between (t : Triple)
  | byId (type : String) (id : EdgeId)
deriving DecidableEq

def DeleteRow.key : DeleteRow → String × Bool
  | between t => (t.type, false)
  | byId type _ => (type, true)

def StoredEdge.update (s : StoredEdge) : EdgeUpdate := ⟨s.type, s.edge, s.props.asJson⟩

def DeletedEdge.row (d : DeletedEdge) : DeleteRow :=
  match d.edge with
  | none => .between d.triple
  | some id => .byId d.triple.type id

namespace Query

/-- The deletions that a query makes, read off its parameters. -/
def deleteRows (q : Query) : List (Option DeleteRow) :=
  match q with
  | deleteBetween type _ =>
    q.parameters.rows (Name.rowsParameter type) fun row =>
      ((row.field? "startNodeId").bind Json.nodeId?).bind fun first =>
        ((row.field? "endNodeId").bind Json.nodeId?).map fun last => .between ⟨type, first, last⟩
  | deleteById type _ =>
    q.parameters.rows (Name.rowsParameter type) fun row => ((row.field? "relId").bind Json.edgeId?).map (.byId type)
  | _ => []

theorem deleteRows_between (type : String) (rows : List (NodeId × NodeId)) :
    (deleteBetween type rows).deleteRows = rows.map fun ends => some (.between ⟨type, ends.1, ends.2⟩) := by
  refine Parameters.rows_of_get? (SortedMap.get?_insert_self ..) fun ends => ?_
  simp [Json.field?, Json.nodeId?_int]

theorem deleteRows_byId (type : String) (rows : List EdgeId) :
    (deleteById type rows).deleteRows = rows.map fun e => some (.byId type e) := by
  refine Parameters.rows_of_get? (SortedMap.get?_insert_self ..) fun e => ?_
  simp [Json.field?, Json.edgeId?_int]

end Query

end GraphWrites
