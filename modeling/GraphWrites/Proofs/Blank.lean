import GraphWrites.Plan.Call
import GraphWrites.Proofs.Journal.Identity

namespace GraphWrites

def PropertyRow.blank (row : PropertyRow) : PropertyRow := row.mapValues fun _ _ => .null

theorem PropertyRow.insert_blank (row : PropertyRow) (key : String) (value : Value) :
    row.blank.insert key .null = PropertyRow.blank (row.insert key value) :=
  SortedMap.insert_mapValues row (fun _ _ => Value.null) key value

theorem PropertyRow.isEmpty_blank (row : PropertyRow) : row.blank.isEmpty = row.isEmpty := row.isEmpty_mapValues _

theorem PropertyRow.blank_blank (row : PropertyRow) : row.blank.blank = row.blank :=
  SortedMap.mapValues_congr_keys (fun _ => Value.null) (row.keys_mapValues _)

def NodeEdit.blank : NodeEdit → NodeEdit
  | setProperty key _ => setProperty key .null
  | edit => edit

def EdgeEdit.blank : EdgeEdit → EdgeEdit
  | setProperty key _ => setProperty key .null
  | edit => edit

namespace NodeIntent

def blank : NodeIntent → NodeIntent
  | create n => create { n with props := n.props.blank }
  | update n => update { n with props := n.props.blank }

theorem edit_blank (n : NodeIntent) (edit : NodeEdit) : n.blank.edit edit.blank = (n.edit edit).blank := by
  cases n with
  | create n =>
    cases edit with
    | setProperty key value => exact congrArg (fun props => create { n with props }) (n.props.insert_blank key value)
    | _ => rfl
  | update n =>
    cases edit with
    | setProperty key value => exact congrArg (fun props => update { n with props }) (n.props.insert_blank key value)
    | _ => rfl

theorem editAll_blank (n : NodeIntent) (edits : List NodeEdit) :
    n.blank.editAll (edits.map NodeEdit.blank) = (n.editAll edits).blank := by
  rw [editAll, List.foldl_map]
  exact List.foldl_hom blank edit_blank

theorem blank_blank (n : NodeIntent) : n.blank.blank = n.blank := by
  cases n with
  | create n => exact congrArg (fun props => create { n with props }) n.props.blank_blank
  | update n => exact congrArg (fun props => update { n with props }) n.props.blank_blank

theorem isNew_blank (n : NodeIntent) : n.blank.isNew = n.isNew := by cases n <;> rfl

theorem node?_blank (n : NodeIntent) : n.blank.node? = n.node? := by cases n <;> rfl

theorem hasChanges_blank (n : NodeIntent) : n.blank.hasChanges = n.hasChanges := by
  cases n with
  | create n => rfl
  | update n => rw [blank, hasChanges, hasChanges, n.props.isEmpty_blank]

end NodeIntent

namespace EdgeIntent

def blank : EdgeIntent → EdgeIntent
  | create e => create { e with props := e.props.blank }
  | patch e => patch { e with props := e.props.blank }
  | delete e => delete e
  | pair e => pair { e with props := e.props.blank }

theorem edit_blank (e : EdgeIntent) (edit : EdgeEdit) : e.blank.edit edit.blank = (e.edit edit).blank := by
  cases e with
  | create e =>
    cases edit with
    | setProperty key value => exact congrArg (fun props => create { e with props }) (e.props.insert_blank key value)
    | _ => rfl
  | patch e =>
    cases edit with
    | setProperty key value => exact congrArg (fun props => patch { e with props }) (e.props.insert_blank key value)
    | _ => rfl
  | delete e => cases edit <;> rfl
  | pair e =>
    cases edit with
    | setProperty key value => exact congrArg (fun props => pair { e with props }) (e.props.insert_blank key value)
    | _ => rfl

theorem editAll_blank (e : EdgeIntent) (edits : List EdgeEdit) :
    e.blank.editAll (edits.map EdgeEdit.blank) = (e.editAll edits).blank := by
  rw [editAll, List.foldl_map]
  exact List.foldl_hom blank edit_blank

theorem blank_blank (e : EdgeIntent) : e.blank.blank = e.blank := by
  cases e with
  | create e => exact congrArg (fun props => create { e with props }) e.props.blank_blank
  | patch e => exact congrArg (fun props => patch { e with props }) e.props.blank_blank
  | delete e => rfl
  | pair e => exact congrArg (fun props => pair { e with props }) e.props.blank_blank

theorem type_blank (e : EdgeIntent) : e.blank.type = e.type := by cases e <;> rfl

theorem owned_blank (e : EdgeIntent) (v : Variable) : e.blank.owned v = e.owned v := by cases e <;> rfl

theorem endpoints?_blank (e : EdgeIntent) : e.blank.endpoints? = e.endpoints? := by cases e <;> rfl

theorem touches_blank (e : EdgeIntent) (node : Variable) : e.blank.touches node = e.touches node := by
  rw [touches, touches, endpoints?_blank]

end EdgeIntent

def Row.blank : Row → Row
  | created key props => created (key.map fun _ => .null) props.blank
  | stored node props => stored node props.blank
  | edge props => edge props.blank

def PatchRow.blank (r : PatchRow) : PatchRow := { r with props := r.props.blank }

def Query.blank : Query → Query
  | script clauses rows => script clauses (rows.mapValues fun _ => Row.blank)
  | patch type rows => patch type (rows.map PatchRow.blank)
  | q => q

def Rendering.blank (r : Rendering) : Rendering := { r with queries := r.queries.map Query.blank }

def Statement.blank (s : Statement) : Statement := { s with parameters := s.parameters.mapValues fun _ _ => .null }

theorem Statement.blank_congr {s t : Statement} (text : s.text = t.text) (names : s.parameters.keys = t.parameters.keys) :
    s.blank = t.blank := by
  rw [blank, text, SortedMap.mapValues_congr_keys (fun _ => Json.null) names, blank]

theorem Statement.blank_blank (s : Statement) : s.blank.blank = s.blank :=
  blank_congr rfl (s.parameters.keys_mapValues _)

theorem Query.text_blank (q : Query) : q.blank.text = q.text := by cases q <;> rfl

theorem Query.keys_parameters_blank (q : Query) : q.blank.parameters.keys = q.parameters.keys := by
  cases q with
  | script clauses rows =>
    apply SortedMap.keys_ofList_congr
    rw [SortedMap.mapValues, List.map_map, List.map_map, List.map_map]
    rfl
  | patch type rows => exact SortedMap.keys_ofList_congr rfl
  | _ => rfl

namespace Journal

def blank (j : Journal) : Journal := { j with statements := j.statements.map Statement.blank }

theorem foldl_forgetEdge_blank (j : Journal) (vs : List Variable) :
    vs.foldl forgetEdge j.blank = (vs.foldl forgetEdge j).blank :=
  List.foldl_hom blank fun _ _ => rfl

end Journal

def JournalAnswer.blank : JournalAnswer → JournalAnswer
  | statements ss => statements (ss.map Statement.blank)
  | answer => answer

theorem JournalAnswer.blank_blank (a : JournalAnswer) : a.blank.blank = a.blank := by
  cases a with
  | statements ss => simp only [blank, List.map_map, Function.comp_def, Statement.blank_blank]
  | _ => rfl

theorem Journal.applyIds_blank (j : Journal) (rows : List IdentityRow) :
    j.blank.applyIds rows = (j.applyIds rows).map (Prod.map id blank) := by
  have reported : j.blank.reported = j.reported := rfl
  rw [applyIds_eq, applyIds_eq, reported]
  cases rows.mapM j.reported <;> rfl

theorem Journal.call_blank (j : Journal) (c : JournalCall) :
    j.blank.call c = (j.call c).map (Prod.map JournalAnswer.blank Journal.blank) := by
  cases c with
  | applyIds rows =>
    rw [call_applyIds, applyIds_blank, call_applyIds]
    cases j.applyIds rows <;> rfl
  | _ => rfl

def PlanCall.blank : PlanCall → PlanCall
  | node request edits => node request (edits.map NodeEdit.blank)
  | edge request edits => edge request (edits.map EdgeEdit.blank)
  | c => c

def PlanAnswer.blank : PlanAnswer → PlanAnswer
  | node n => node (n.map NodeIntent.blank)
  | edge e => edge (e.map EdgeIntent.blank)
  | statements ss => statements (ss.map Statement.blank)
  | compiled finished => compiled finished.blank
  | journal a => journal a.blank
  | answer => answer

end GraphWrites
