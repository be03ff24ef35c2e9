import GraphWrites.Journal.Call
import GraphWrites.Proofs.SortedMap
import GraphWrites.Proofs.Variable

namespace GraphWrites.Journal

theorem foldl_setId (es : List (Variable × UInt64)) (j : Journal) :
    es.foldl (fun j (v, id) => j.setId v id) j =
      { j with ids := es.foldl (fun m e => m.insert e.1 e.2) j.ids } := by
  induction es generalizing j with
  | nil => rfl
  | cons e es ih => exact ih (j.setId e.1 e.2)

theorem on_mapM_reported (rows : List IdentityRow) (j : Journal) :
    Attempt.on (rows.mapM fun row => do (← get).reported row) j = (rows.mapM j.reported, j) := by
  induction rows with
  | nil => rfl
  | cons row rows ih =>
    rw [List.mapM_cons, List.mapM_cons, Attempt.on_bind, Attempt.on_bind, Attempt.on_get]
    dsimp only
    rw [Attempt.on_lift]
    cases j.reported row with
    | error failure => rfl
    | ok entry =>
      dsimp only
      rw [Attempt.on_bind, ih]
      cases rows.mapM j.reported <;> rfl

theorem on_takeId (e : Variable × UInt64) (j : Journal) :
    (takeId e).on j = (.ok ((j.created.get? e.1).map (·, e.2)), j.setId e.1 e.2) := rfl

theorem on_filterMapM_takeId (es : List (Variable × UInt64)) (j : Journal) : Attempt.on (es.filterMapM takeId) j =
    (.ok (es.filterMap fun (v, id) => (j.created.get? v).map (·, id)), es.foldl (fun j (v, id) => j.setId v id) j) := by
  -- setting an id leaves the created objects, so that the journal in between answers for them like the first
  induction es generalizing j with
  | nil => rfl
  | cons e es ih =>
    obtain ⟨v, n⟩ := e
    have rest := ih (j.setId v n)
    rw [List.filterMapM_cons, Attempt.on_bind, on_takeId, List.filterMap_cons]
    dsimp only
    cases j.created.get? v with
    | none => exact rest
    | some o =>
      dsimp only [Option.map]
      rw [Attempt.on_bind, rest]
      rfl

/-- Once the rows are read, nothing can fail, and of the journal only the ids change. -/
theorem on_takeIds (j : Journal) (rows : List IdentityRow) : (takeIds rows).on j =
    match rows.mapM j.reported with
    | .ok es => (.ok ((SortedMap.ofList es).entries.filterMap fun (v, id) => (j.created.get? v).map (·, id)),
        { j with ids := (SortedMap.ofList es).entries.foldl (fun m e => m.insert e.1 e.2) j.ids })
    | .error failure => (.error failure, j) := by
  rw [takeIds, Attempt.on_bind, on_mapM_reported]
  cases rows.mapM j.reported with
  | error failure => rfl
  | ok es =>
    dsimp only
    rw [on_filterMapM_takeId, foldl_setId]

theorem applyIds_eq (j : Journal) (rows : List IdentityRow) : j.applyIds rows = (rows.mapM j.reported).map fun es =>
    ((SortedMap.ofList es).entries.filterMap fun (v, id) => (j.created.get? v).map (·, id),
      { j with ids := (SortedMap.ofList es).entries.foldl (fun m e => m.insert e.1 e.2) j.ids }) := by
  rw [applyIds, Attempt.outcome, on_takeIds]
  cases rows.mapM j.reported <;> rfl

theorem on_perform_applyIds (j : Journal) (rows : List IdentityRow) :
    (perform (.applyIds rows)).on j = (((takeIds rows).on j).1.map .identities, ((takeIds rows).on j).2) := by
  rw [perform, Attempt.on_return]

theorem call_applyIds (j : Journal) (rows : List IdentityRow) :
    j.call (.applyIds rows) = (j.applyIds rows).map (Prod.map .identities id) := by
  rw [call, perform, Attempt.outcome_return, applyIds]

/-- A call that fails leaves the journal as it was: rows are taken in once all of them have been read. -/
theorem unchanged_of_error {c : JournalCall} {j : Journal} {f : Failure} (fails : ((perform c).on j).1 = .error f) :
    ((perform c).on j).2 = j := by
  cases c with
  | applyIds rows =>
    rw [on_perform_applyIds, on_takeIds] at fails ⊢
    cases read : rows.mapM j.reported with
    | error g => rfl
    | ok es =>
      rw [read] at fails
      cases fails
  | _ => cases fails

def Names (j : Journal) (row : IdentityRow) (v : Variable) : Prop :=
  Variable.ofText? row.reference = some v ∧ j.returned.contains v = true

def entry (row : IdentityRow) : Variable × UInt64 := ((Variable.ofText? row.reference).getD default, row.id)

theorem Names.entry_eq {j : Journal} {row : IdentityRow} {v : Variable} (names : j.Names row v) :
    entry row = (v, row.id) := by
  rw [entry, names.1]
  rfl

theorem Names.reported {j : Journal} {row : IdentityRow} {v : Variable} (names : j.Names row v) :
    j.reported row = .ok (entry row) := by
  rw [names.entry_eq, Journal.reported, names.1, Option.filter_some, if_pos names.2]

theorem mapM_reported_of_names {j : Journal} {rows : List IdentityRow} (named : ∀ row ∈ rows, ∃ v, j.Names row v) :
    rows.mapM j.reported = .ok (rows.map entry) := by
  induction rows with
  | nil => rfl
  | cons row rows ih =>
    obtain ⟨v, names⟩ := named row List.mem_cons_self
    rw [List.mapM_cons, names.reported, ih fun row member => named row (List.mem_cons_of_mem _ member)]
    rfl

end GraphWrites.Journal
