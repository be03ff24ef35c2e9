import GraphWrites.Journal

namespace GraphWrites

inductive JournalCall where
  | visited (e : Entity)
  | linked (l : Link)
  | visit (e : Entity) (v : Variable)
  | visitEdge (e : EdgeId)
  | edgeVisited (e : EdgeId)
  | register (r : EdgeRecord)
  | forget (r : EdgeRecord)
  | clear (c : Clearing)
  | ledger
  | isPresent (r : EdgeRecord)
  | isRemoved (r : EdgeRecord)
  | addLink (l : Link) (v : Variable)
  | forgetLinks (v : Variable)
  | addCreated (v : Variable) (e : Entity)
  | created (v : Variable)
  | setId (v : Variable) (id : UInt64)
  | id (v : Variable)
  | returned
  | applyIds (rows : List IdentityRow)
  | statements
  | takeStatements
deriving DecidableEq, Repr

inductive JournalAnswer where
  | done
  | flag (b : Bool)
  | variable (v : Option Variable)
  | entity (e : Option Entity)
  | id (id : Option UInt64)
  /-- The ledger behind a call, with what the call itself answered. -/
  | ledger (ok : Option Bool) (l : Ledger)
  | returned (vs : List Variable)
  | identities (ids : List (Entity × UInt64))
  | statements (ss : List Statement)

namespace Journal

def onLedger (j : Journal) (answer : Option Bool) (l : Ledger) : JournalAnswer × Journal :=
  (.ledger answer l, { j with ledger := l })

def perform : JournalCall → Attempt Journal JournalAnswer
  | .visited e => modifyGet fun j => (.variable (j.visited.get? e), j)
  | .linked l => modifyGet fun j => (.variable (j.links.get? l), j)
  | .visit e v => modifyGet fun j => (.done, j.visit e v)
  | .visitEdge e => modifyGet fun j => (.done, j.visitEdge e)
  | .edgeVisited e => modifyGet fun j => (.flag (j.visitedEdges.contains e), j)
  | .register r => modifyGet fun j => j.onLedger none (j.ledger.register r)
  | .forget r => modifyGet fun j =>
    let (known, l) := j.ledger.forget r
    j.onLedger (some known) l
  | .clear c => modifyGet fun j =>
    let (ok, l) := j.ledger.clear c
    j.onLedger (some ok) l
  | .ledger => modifyGet fun j => (.ledger none j.ledger, j)
  | .isPresent r => modifyGet fun j => (.flag (j.ledger.present.contains r), j)
  | .isRemoved r => modifyGet fun j => (.flag (j.ledger.removed.contains r), j)
  | .addLink l v => modifyGet fun j => (.done, j.addLink l v)
  | .forgetLinks v => modifyGet fun j => (.done, j.forgetLinks v)
  | .addCreated v e => modifyGet fun j => (.done, j.addCreated v e)
  | .created v => modifyGet fun j => (.entity (j.created.get? v), j)
  | .setId v id => modifyGet fun j => (.done, j.setId v id)
  | .id v => modifyGet fun j => (.id (j.ids.get? v), j)
  | .returned => modifyGet fun j => (.returned j.returned.toList, j)
  | .applyIds rows => do return .identities (← takeIds rows)
  | .statements => modifyGet fun j => (.statements j.statements, j)
  | .takeStatements => modifyGet fun j => (.statements j.statements, empty)

def call (j : Journal) (c : JournalCall) : Except Failure (JournalAnswer × Journal) := (perform c).outcome j

end Journal

end GraphWrites
