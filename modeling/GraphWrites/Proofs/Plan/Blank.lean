import GraphWrites.Proofs.Blank
import GraphWrites.Proofs.Plan.Recycling

namespace GraphWrites

namespace Plan

def blank (p : Plan) : Plan :=
  { p with
    journal := p.journal.blank
    nodes := p.nodes.mapValues fun _ => NodeIntent.blank
    edges := p.edges.mapValues fun _ => EdgeIntent.blank }

variable (p : Plan)

theorem get?_nodes_blank (v : Variable) : p.blank.nodes.get? v = (p.nodes.get? v).map NodeIntent.blank :=
  p.nodes.get?_mapValues _ v

theorem get?_edges_blank (v : Variable) : p.blank.edges.get? v = (p.edges.get? v).map EdgeIntent.blank :=
  p.edges.get?_mapValues _ v

theorem contains_nodes_blank : p.blank.nodes.contains = p.nodes.contains := p.nodes.contains_mapValues _

theorem contains_edges_blank : p.blank.edges.contains = p.edges.contains := p.edges.contains_mapValues _

theorem values_nodes_blank : p.blank.nodes.values = p.nodes.values.map NodeIntent.blank := p.nodes.values_mapValues _

theorem values_edges_blank : p.blank.edges.values = p.edges.values.map EdgeIntent.blank := p.edges.values_mapValues _

theorem addNode_blank (v : Variable) (n : NodeIntent) : p.blank.addNode v n.blank = (p.addNode v n).blank :=
  congrArg (fun nodes => { p.blank with nodes }) (p.nodes.insertIfNew_mapValues (fun _ => NodeIntent.blank) v n)

theorem addEdge_blank (v : Variable) (e : EdgeIntent) : p.blank.addEdge v e.blank = (p.addEdge v e).blank :=
  congrArg (fun edges => { p.blank with edges }) (p.edges.insertIfNew_mapValues (fun _ => EdgeIntent.blank) v e)

theorem editNode_blank (v : Variable) (edits : List NodeEdit) :
    p.blank.editNode v (edits.map NodeEdit.blank) = (p.editNode v edits).blank :=
  congrArg (fun nodes => { p.blank with nodes }) (SortedMap.modify_mapValues (fun n => n.editAll_blank edits) p.nodes v)

theorem editEdge_blank (v : Variable) (edits : List EdgeEdit) :
    p.blank.editEdge v (edits.map EdgeEdit.blank) = (p.editEdge v edits).blank :=
  congrArg (fun edges => { p.blank with edges }) (SortedMap.modify_mapValues (fun e => e.editAll_blank edits) p.edges v)

theorem takeVariable_blank {note : Journal → Variable → Journal} (notes : ∀ j v, note j.blank v = (note j v).blank) :
    p.blank.takeVariable note = (p.takeVariable note).map id blank :=
  congrArg (fun journal => (p.supply.take.1, { p.blank with supply := p.supply.take.2, journal })) (notes _ _)

theorem visitedNode?_blank (e : Entity) : p.blank.visitedNode? e = p.visitedNode? e := by
  rw [visitedNode?, contains_nodes_blank]
  rfl

theorem visitedEdge?_blank (e : Entity) : p.blank.visitedEdge? e = p.visitedEdge? e := by
  rw [visitedEdge?, contains_edges_blank]
  rfl

theorem newNode_blank (e : Entity) : p.blank.newNode e = (p.newNode e).map id blank := by
  unfold newNode
  rw [visitedNode?_blank]
  cases p.visitedNode? e with
  | some v => rfl
  | none =>
    rw [takeVariable_blank p fun _ _ => rfl]
    exact congrArg (Prod.mk _) (addNode_blank _ _ (.new e))

theorem storedNode_blank (e : Entity) (n : NodeId) : p.blank.storedNode e n = (p.storedNode e n).map id blank := by
  have supply : p.blank.supply = p.supply := rfl
  unfold storedNode
  rw [visitedNode?_blank, supply]
  cases p.visitedNode? e with
  | some v => rfl
  | none =>
    generalize p.supply.takeFor n = taken
    obtain ⟨v, s⟩ := taken
    exact congrArg (Prod.mk v) (addNode_blank { p with supply := s, journal := p.journal.visit e v } v (.stored n))

theorem requestNode_blank (request : NodeRequest) : p.blank.requestNode request = (p.requestNode request).map id blank := by
  cases request with
  | new e => exact congrArg (Prod.map some id) (p.newNode_blank e)
  | stored e n => exact congrArg (Prod.map some id) (p.storedNode_blank e n)
  | under v =>
    rw [requestNode, contains_nodes_blank]
    rfl

theorem newEdge_blank (type : String) : p.blank.newEdge type = (p.newEdge type).map id blank := by
  unfold newEdge
  rw [takeVariable_blank p fun _ _ => rfl]
  exact congrArg (Prod.mk _) (addEdge_blank _ _ (.create { type }))

theorem connect_blank (source : Variable) (type : String) (target : Variable) (d : Direction) :
    p.blank.connect source type target d = (p.connect source type target d).map id blank := by
  have links : p.blank.journal.links = p.journal.links := rfl
  unfold connect
  dsimp only
  rw [contains_edges_blank, links]
  split
  · rfl
  · rw [takeVariable_blank p fun _ _ => rfl]
    exact congrArg (Prod.mk _) (addEdge_blank _ _ (.create { type, source, target, direction := d }))

theorem edgeObject_blank (e : Entity) (type : String) : p.blank.edgeObject e type = (p.edgeObject e type).map id blank := by
  unfold edgeObject
  rw [visitedEdge?_blank]
  cases p.visitedEdge? e with
  | some v => rfl
  | none =>
    rw [takeVariable_blank p fun _ _ => rfl]
    exact congrArg (Prod.mk _) (addEdge_blank _ _ (.create { type, entity := some e }))

theorem edgePair_blank (type : String) : p.blank.edgePair type = (p.edgePair type).map id blank := by
  unfold edgePair
  rw [takeVariable_blank p fun _ _ => rfl]
  dsimp only [Prod.map]
  rw [takeVariable_blank _ fun _ _ => rfl]
  exact congrArg (Prod.mk _) (addEdge_blank _ _ (.pair { reverse := _, type }))

theorem storedEdge_blank (e : EdgeId) (type : String) : p.blank.storedEdge e type = (p.storedEdge e type).map id blank := by
  have known : p.blank.storedEdges = p.storedEdges := rfl
  unfold storedEdge
  rw [contains_edges_blank, known]
  split
  · rfl
  · rw [takeVariable_blank p fun _ _ => rfl]
    generalize (p.takeVariable fun j _ => j.visitEdge e) = taken
    obtain ⟨v, q⟩ := taken
    exact congrArg (Prod.mk v) (addEdge_blank { q with storedEdges := q.storedEdges.insert e v } v (.patch { type, edge := e }))

theorem requestEdge_blank (request : EdgeRequest) : p.blank.requestEdge request = (p.requestEdge request).map id blank := by
  cases request with
  | new type => exact congrArg (Prod.map some id) (p.newEdge_blank type)
  | connect source type target d => exact congrArg (Prod.map some id) (p.connect_blank source type target d)
  | object e type => exact congrArg (Prod.map some id) (p.edgeObject_blank e type)
  | pair type => exact congrArg (Prod.map some id) (p.edgePair_blank type)
  | stored e type => exact congrArg (Prod.map some id) (p.storedEdge_blank e type)
  | under v =>
    rw [requestEdge, contains_edges_blank]
    rfl

theorem release_blank (v : Variable) : p.blank.release v = (p.release v).map id blank := by
  unfold release
  rw [get?_edges_blank]
  cases p.edges.get? v with
  | none => rfl
  | some e =>
    have edges : p.blank.edges.erase v = (p.edges.erase v).mapValues fun _ => EdgeIntent.blank := p.edges.erase_mapValues _ v
    have journal : (e.owned v).foldl Journal.forgetEdge p.blank.journal =
        ((e.owned v).foldl Journal.forgetEdge p.journal).blank := p.journal.foldl_forgetEdge_blank _
    dsimp only [Option.map]
    rw [EdgeIntent.owned_blank, journal, edges]
    cases e <;> rfl

theorem unmap_blank (v : Variable) : p.blank.unmap v = (p.unmap v).map id blank := by
  have untouched : (p.blank.edges.values.all fun e => !e.touches v) = p.edges.values.all fun e => !e.touches v := by
    rw [values_edges_blank, List.all_map]
    exact congrArg p.edges.values.all (funext fun e => congrArg not (e.touches_blank v))
  have nodes : p.blank.nodes.erase v = (p.nodes.erase v).mapValues fun _ => NodeIntent.blank := p.nodes.erase_mapValues _ v
  unfold unmap
  rw [get?_nodes_blank, untouched, nodes]
  cases p.nodes.get? v with
  | none => rfl
  | some n =>
    cases n with
    | create n => rfl
    | update n =>
      dsimp only [Option.map, NodeIntent.blank]
      split <;> rfl

theorem persisted?_blank (v : Option Variable) : p.blank.persisted? v = p.persisted? v := by
  cases v with
  | none => rfl
  | some v =>
    change (p.blank.nodes.get? v).bind NodeIntent.node? = (p.nodes.get? v).bind NodeIntent.node?
    rw [get?_nodes_blank, Option.bind_map]
    exact congrArg (p.nodes.get? v).bind (funext NodeIntent.node?_blank)

theorem persistedEnds_blank (e : NewEdge) : p.blank.persistedEnds e = p.persistedEnds e := by
  rw [persistedEnds, persisted?_blank, persisted?_blank, persistedEnds]

theorem createsTriple_blank (t : Triple) (e : EdgeIntent) : p.blank.createsTriple t e.blank = p.createsTriple t e := by
  cases e with
  | create e =>
    dsimp only [EdgeIntent.blank, createsTriple]
    rw [persistedEnds_blank]
    rfl
  | _ => rfl

theorem unrelate_blank (t : Triple) (e : Option EdgeId) : p.blank.unrelate t e = (p.unrelate t e).map id blank := by
  have found : (p.blank.edges.entries.find? fun entry => p.blank.createsTriple t entry.2) =
      (p.edges.entries.find? fun entry => p.createsTriple t entry.2).map fun entry => (entry.1, entry.2.blank) := by
    have creates : (fun entry : Variable × EdgeIntent => p.createsTriple t entry.2) =
        fun entry => p.blank.createsTriple t entry.2.blank := funext fun entry => (p.createsTriple_blank t entry.2).symm
    rw [creates]
    exact List.find?_map ..
  unfold unrelate
  rw [found]
  cases p.edges.entries.find? fun entry => p.createsTriple t entry.2 with
  | some entry => exact congrArg (Prod.map (fun _ => none) id) (p.release_blank entry.1)
  | none =>
    dsimp only [Option.map]
    rw [takeVariable_blank p fun _ _ => rfl]
    exact congrArg (fun edges => (some (p.takeVariable fun j _ => j).1, { (p.takeVariable fun j _ => j).2.blank with edges }))
      (p.edges.insert_mapValues (fun _ => EdgeIntent.blank) _ (.delete ⟨t, e⟩))

theorem entries_edges_blank : p.blank.edges.entries = p.edges.entries.map fun e => (e.1, e.2.blank) := rfl

theorem unresolvedEnd?_blank (e : EdgeIntent) : p.blank.unresolvedEnd? e.blank = p.unresolvedEnd? e := by
  have known : p.blank.isKnown = p.isKnown := by
    funext v
    rw [isKnown, contains_nodes_blank, isKnown]
  rw [unresolvedEnd?, e.endpoints?_blank, known, unresolvedEnd?]

theorem unresolved_blank : p.blank.unresolved = p.unresolved.map fun (v, e, edgeEnd) => (v, e.blank, edgeEnd) := by
  rw [unresolved, entries_edges_blank, List.filterMap_map, unresolved, List.map_filterMap]
  refine List.filterMap_congr fun entry _ => ?_
  simp only [Function.comp_apply, unresolvedEnd?_blank, Option.map_map]
  rfl

theorem skipped_blank : p.blank.skipped = p.skipped := by
  have config : p.blank.config = p.config := rfl
  unfold skipped
  rw [config, unresolved_blank]
  cases p.config.policy with
  | skip =>
    dsimp only
    rw [List.map_map]
    rfl
  | fail =>
    cases p.unresolved with
    | nil => rfl
    | cons u us => exact congrArg (fun type => Except.error (Failure.unresolvedEndpoint u.1.text type u.2.2)) u.2.1.type_blank

theorem createdTriples_blank (e : EdgeIntent) : p.blank.createdTriples e.blank = p.createdTriples e := by
  cases e with
  | create e =>
    dsimp only [EdgeIntent.blank, createdTriples]
    rw [persistedEnds_blank]
    rfl
  | pair e =>
    dsimp only [EdgeIntent.blank, createdTriples]
    rw [persisted?_blank, persisted?_blank]
  | _ => rfl

theorem recreated_blank : p.blank.recreated = p.recreated := by
  rw [recreated, values_edges_blank, List.flatMap_map, recreated]
  exact congrArg (fun f => SortedSet.ofList (p.edges.values.flatMap f)) (funext p.createdTriples_blank)

theorem isSuperseded_blank (e : EdgeIntent) : p.blank.isSuperseded e.blank = p.isSuperseded e := by
  cases e with
  | delete e => rw [EdgeIntent.blank, isSuperseded, recreated_blank, isSuperseded]
  | _ => rfl

theorem removals_blank : p.blank.removals = p.removals := by
  have ledger : p.blank.journal.ledger = p.journal.ledger := rfl
  rw [removals, recreated_blank, ledger, removals]

theorem isPlainCreation_blank (e : EdgeIntent) : isPlainCreation e.blank = isPlainCreation e := by
  cases e with
  | create e =>
    rw [EdgeIntent.blank, isPlainCreation, NewEdge.needsOwnClause, e.props.isEmpty_blank]
    rfl
  | _ => rfl

theorem isBatchable_blank : p.blank.isBatchable = p.isBatchable := by
  have config : p.blank.config = p.config := rfl
  rw [isBatchable, config, removals_blank, values_nodes_blank, values_edges_blank, List.all_map, List.all_map, List.any_map,
    isBatchable]
  simp only [Function.comp_def, NodeIntent.hasChanges_blank, isPlainCreation_blank, isSuperseded_blank]

theorem linkRow?_blank (v : Variable) (e : EdgeIntent) : p.blank.linkRow? v e.blank = p.linkRow? v e := by
  cases e with
  | create e =>
    dsimp only [EdgeIntent.blank, linkRow?]
    rw [persistedEnds_blank]
    rfl
  | _ => rfl

theorem linkRows_blank (skipped : SortedSet Variable) : p.blank.linkRows skipped = p.linkRows skipped := by
  have edges : p.blank.edges.filter (fun v _ => !skipped.contains v) =
      (p.edges.filter fun v _ => !skipped.contains v).mapValues fun _ => EdgeIntent.blank :=
    p.edges.filter_mapValues (fun _ => EdgeIntent.blank) fun v _ => !skipped.contains v
  rw [linkRows, edges, SortedMap.mapValues, List.filterMap_map, linkRows]
  exact List.filterMap_congr fun entry _ => p.linkRow?_blank entry.1 entry.2

theorem renderBatch_blank (skipped : SortedSet Variable) : p.blank.renderBatch skipped = (p.renderBatch skipped).blank := by
  unfold renderBatch Rendering.blank
  rw [linkRows_blank]
  dsimp only
  split <;> rfl

end Plan

theorem foldlM_hom {α β γ δ : Type} {f : β → α → Except Failure β} {g : δ → γ → Except Failure δ} {s : β → δ} {t : α → γ}
    (step : ∀ b a, g (s b) (t a) = (f b a).map s) (xs : List α) (b : β) :
    (xs.map t).foldlM g (s b) = (xs.foldlM f b).map s := by
  induction xs generalizing b with
  | nil => rfl
  | cons x xs ih =>
    rw [List.map_cons, List.foldlM_cons, step, List.foldlM_cons]
    cases f b x with
    | error failure => rfl
    | ok c => exact ih c

namespace Draft

def blank (d : Draft) : Draft := { d with rows := d.rows.mapValues fun _ => Row.blank }

theorem insert_rows_blank (d : Draft) (v : Variable) (row : Row) :
    d.blank.rows.insert v row.blank = (d.rows.insert v row).mapValues fun _ => Row.blank :=
  d.rows.insert_mapValues (fun _ => Row.blank) v row

theorem createNode_blank (d : Draft) (v : Variable) (n : NewNode) :
    d.blank.createNode v { n with props := n.props.blank } = (d.createNode v n).map blank := by
  cases key : n.primaryKey with
  | none =>
    simp only [createNode, key, Bind.bind, Except.bind, Pure.pure, Except.pure, Except.map]
    exact congrArg (fun rows => Except.ok (Draft.mk _ rows _ _)) (d.insert_rows_blank v (.created none n.props))
  | some k =>
    have found : n.props.blank.get? k = (n.props.get? k).map fun _ => .null := n.props.get?_mapValues _ k
    simp only [createNode, key, found]
    cases n.props.get? k with
    | none => rfl
    | some value =>
      exact congrArg (fun rows => Except.ok (Draft.mk _ rows _ _)) (d.insert_rows_blank v (.created (some value) n.props))

theorem storedClauses_blank (v : Variable) (n : StoredNode) :
    storedClauses v { n with props := n.props.blank } = storedClauses v n := by
  rw [storedClauses, n.props.isEmpty_blank, storedClauses]

theorem updateNode_blank (d : Draft) (v : Variable) (n : StoredNode) :
    d.blank.updateNode v { n with props := n.props.blank } = (d.updateNode v n).blank := by
  unfold updateNode
  rw [storedClauses_blank]
  exact congrArg (fun rows => Draft.mk _ rows _ _) (d.insert_rows_blank v (.stored n.node n.props))

theorem addNode_blank (d : Draft) (entry : Variable × NodeIntent) :
    d.blank.addNode (entry.1, entry.2.blank) = (d.addNode entry).map blank := by
  obtain ⟨v, n⟩ := entry
  cases n with
  | create n => exact d.createNode_blank v n
  | update n => exact congrArg Except.ok (d.updateNode_blank v n)

theorem connect_blank (d : Draft) (singleton : Bool) (v source target : Variable) (type : String) (props : PropertyRow)
    (direction : Direction) :
    d.blank.connect singleton v source target type props.blank direction =
      (d.connect singleton v source target type props direction).blank := by
  have keys : props.blank.keys = props.keys := props.keys_mapValues _
  unfold connect
  rw [keys, props.isEmpty_blank]
  split
  · rfl
  · exact congrArg (fun rows => Draft.mk _ rows _ _) (d.insert_rows_blank v (.edge props))

theorem addEdge_blank (d : Draft) (entry : Variable × EdgeIntent) :
    d.blank.addEdge (entry.1, entry.2.blank) = (d.addEdge entry).map blank := by
  obtain ⟨v, e⟩ := entry
  have ends : d.blank.endpoint = d.endpoint := rfl
  cases e with
  | create e =>
    dsimp only [addEdge, EdgeIntent.blank]
    rw [ends]
    cases d.endpoint v e.type .source e.source with
    | error failure => rfl
    | ok source =>
      dsimp only [Bind.bind, Except.bind]
      cases d.endpoint v e.type .target e.target with
      | error failure => rfl
      | ok target => exact congrArg Except.ok (d.connect_blank ..)
  | pair e =>
    dsimp only [addEdge, EdgeIntent.blank]
    rw [ends]
    cases d.endpoint v e.type .source e.source with
    | error failure => rfl
    | ok source =>
      dsimp only [Bind.bind, Except.bind]
      cases d.endpoint v e.type .target e.target with
      | error failure => rfl
      | ok target =>
        dsimp only [Pure.pure, Except.pure, Except.map]
        rw [connect_blank, connect_blank]
  | _ => rfl

theorem script?_blank (d : Draft) : d.blank.script? = d.script?.map Query.blank := by
  have clauses : d.blank.clauses = d.clauses := rfl
  unfold script?
  rw [clauses]
  split <;> rfl

end Draft

namespace Plan

variable (p : Plan)

theorem patchRow?_blank (e : EdgeIntent) :
    patchRow? e.blank = (patchRow? e).map fun (type, row) => (type, row.blank) := by
  cases e with
  | patch e =>
    rw [EdgeIntent.blank, patchRow?, e.props.isEmpty_blank, patchRow?]
    split <;> rfl
  | _ => rfl

theorem patches_blank (es : List EdgeIntent) : patches (es.map EdgeIntent.blank) = (patches es).map Query.blank := by
  have rows : (es.map EdgeIntent.blank).filterMap patchRow? =
      (es.filterMap patchRow?).map fun (type, row) => (type, row.blank) := by
    rw [List.filterMap_map, List.map_filterMap]
    exact List.filterMap_congr fun e _ => patchRow?_blank e
  rw [patches, rows, groupByKey_map, List.map_map, patches, List.map_map]
  refine List.map_congr_left fun g _ => ?_
  simp only [Function.comp_apply, List.map_map, Query.blank]
  rfl

theorem filterMap_deletion?_blank (es : List EdgeIntent) :
    (es.map EdgeIntent.blank).filterMap deletion? = es.filterMap deletion? := by
  rw [List.filterMap_map]
  exact List.filterMap_congr fun e _ => by cases e <;> rfl

theorem map_blank_deletions (ds : List DeletedEdge) : (deletions ds).map Query.blank = deletions ds := by
  refine (List.map_congr_left fun q member => ?_).trans (List.map_id _)
  rcases of_mem_deletions member with ⟨_, _, rfl⟩ | ⟨_, _, rfl⟩ <;> rfl

theorem writtenEdges_blank (skipped : SortedSet Variable) :
    p.blank.writtenEdges skipped = (p.writtenEdges skipped).mapValues fun _ => EdgeIntent.blank := by
  have same : (fun v e => !skipped.contains v && !p.isSuperseded e) =
      fun v e => !skipped.contains v && !p.blank.isSuperseded e.blank := by
    funext v e
    rw [isSuperseded_blank]
  rw [writtenEdges, writtenEdges, same]
  exact p.edges.filter_mapValues (fun _ => EdgeIntent.blank) fun v e => !skipped.contains v && !p.blank.isSuperseded e

theorem joined_blank (es : List EdgeIntent) : joined (es.map EdgeIntent.blank) = joined es := by
  rw [joined, List.flatMap_map, joined]
  exact List.flatMap_congr fun e _ => by rw [e.endpoints?_blank]

theorem writtenNodes_blank (es : List EdgeIntent) :
    p.blank.writtenNodes (es.map EdgeIntent.blank) = (p.writtenNodes es).map fun e => (e.1, e.2.blank) := by
  have entries : p.blank.nodes.entries = p.nodes.entries.map fun e => (e.1, e.2.blank) := rfl
  simp only [writtenNodes, entries, joined_blank, List.filter_map, List.map_append, Function.comp_def,
    NodeIntent.isNew_blank, NodeIntent.hasChanges_blank]

theorem renderSingly_blank (skipped : SortedSet Variable) :
    p.blank.renderSingly skipped = (p.renderSingly skipped).map Rendering.blank := by
  have edges : (p.blank.writtenEdges skipped).entries = (p.writtenEdges skipped).entries.map fun e => (e.1, e.2.blank) :=
    congrArg SortedMap.entries (p.writtenEdges_blank skipped)
  have values : (p.blank.writtenEdges skipped).values = (p.writtenEdges skipped).values.map EdgeIntent.blank := by
    rw [writtenEdges_blank, SortedMap.values_mapValues]
  have empty : Draft.empty = Draft.empty.blank := rfl
  unfold renderSingly
  dsimp only
  rw [values, edges, writtenNodes_blank, empty, foldlM_hom Draft.addNode_blank, ← empty]
  cases (p.writtenNodes (p.writtenEdges skipped).values).foldlM Draft.addNode .empty with
  | error failure => rfl
  | ok d =>
    dsimp only [Bind.bind, Except.bind, Except.map]
    rw [foldlM_hom Draft.addEdge_blank]
    cases (p.writtenEdges skipped).entries.foldlM Draft.addEdge d with
    | error failure => rfl
    | ok d =>
      dsimp only [Except.map, Pure.pure, Except.pure, Rendering.blank]
      rw [patches_blank, filterMap_deletion?_blank, removals_blank, Draft.script?_blank, List.map_append, List.map_append,
        map_blank_deletions]
      cases d.script? <;> rfl

theorem render_blank : p.blank.render = p.render.map Rendering.blank := by
  unfold render
  rw [skipped_blank, isBatchable_blank]
  cases p.skipped with
  | error failure => rfl
  | ok skipped =>
    dsimp only [Bind.bind, Except.bind]
    split
    · exact congrArg Except.ok (p.renderBatch_blank skipped)
    · exact p.renderSingly_blank skipped

end Plan

end GraphWrites
