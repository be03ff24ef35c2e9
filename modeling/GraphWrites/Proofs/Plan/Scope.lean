import GraphWrites.Proofs.Plan.Creation
import GraphWrites.Proofs.Plan.Variables
import GraphWrites.Proofs.Query.Scope

namespace GraphWrites

namespace Clause

/-- How a clause may stand behind others. A `WITH` lists what they introduce, and a `MATCH` follows a `WITH`. -/
def Follows (before : List Clause) : Clause → Prop
  | carry vs => vs.Pairwise (fun v w => v.index < w.index) ∧
      ∀ v, v ∈ vs ↔ .introduces v ∈ before.flatMap Clause.pieces
  | locate _ => before = [] ∨ ∃ earlier vs, before = earlier ++ [carry vs]
  | _ => True

def Sequenced (before : List Clause) : List Clause → Prop
  | [] => True
  | c :: cs => c.Follows before ∧ Sequenced (before ++ [c]) cs

theorem sequenced_append {before cs ds : List Clause} :
    Sequenced before (cs ++ ds) ↔ Sequenced before cs ∧ Sequenced (before ++ cs) ds := by
  induction cs generalizing before with
  | nil => simp [Sequenced]
  | cons c cs ih => simp [Sequenced, ih, and_assoc]

theorem follows_of_sequenced {cs before after : List Clause} {c : Clause} (sequenced : Sequenced [] cs)
    (split : cs = before ++ c :: after) : c.Follows before := by
  rw [split, sequenced_append] at sequenced
  exact sequenced.2.1

end Clause

namespace Draft

def storedChanges (v : Variable) (n : StoredNode) : List Clause :=
  (if n.removedLabels.isEmpty then [] else [.removeLabels v n.removedLabels]) ++
    (if n.labels.isEmpty then [] else [.addLabels v n.labels]) ++ (if n.props.isEmpty then [] else [.patch v])

theorem storedClauses_eq (v : Variable) (n : StoredNode) : storedClauses v n = .locate v :: storedChanges v n := rfl

theorem pieces_of_mem_storedChanges {v : Variable} {n : StoredNode} {c : Clause} (member : c ∈ storedChanges v n) :
    ∃ before behind, c.pieces = [.literal before, .uses v, .literal behind] := by
  simp only [storedChanges, List.mem_append, List.mem_ite_nil_left, List.mem_singleton] at member
  rcases member with (⟨-, rfl⟩ | ⟨-, rfl⟩) | ⟨-, rfl⟩
  · exact ⟨_, _, rfl⟩
  · exact ⟨_, _, rfl⟩
  · exact ⟨_, _, rfl⟩

theorem sequenced_storedChanges (v : Variable) (n : StoredNode) (before : List Clause) :
    Clause.Sequenced before (storedChanges v n) := by
  unfold storedChanges
  split <;> split <;> split <;> simp [Clause.Sequenced, Clause.Follows]

end Draft

namespace Scope

variable {s : Scope} {vs : List Variable}

theorem accepts_carry (visible : ∀ v ∈ vs, v ∈ s.visible) :
    s.Accepts (Clause.carry vs).pieces ∧ s.after (Clause.carry vs).pieces = { s with visible := vs } := by
  have listed : s.Accepts (Piece.separated (fun v => [.uses v]) vs) ∧
      s.after (Piece.separated (fun v => [.uses v]) vs) = s := by
    refine accepts_of_uses fun piece member => ?_
    rcases Piece.of_mem_separated member with rfl | ⟨v, known, inside⟩
    · exact .inl ⟨_, rfl⟩
    · exact .inr ⟨v, visible v known, List.mem_singleton.mp inside⟩
  change (True ∧ s.Accepts (Piece.separated _ vs ++ [.keeps vs])) ∧ s.after (Piece.separated _ vs ++ [.keeps vs]) = _
  rw [accepts_append, after_append, listed.2]
  exact ⟨⟨True.intro, listed.1, visible, True.intro⟩, rfl⟩

theorem accepts_report (visible : ∀ v ∈ vs, v ∈ s.visible) : s.Accepts (Clause.report vs).pieces := by
  refine ⟨True.intro, (accepts_of_uses fun piece member => ?_).1⟩
  rcases Piece.of_mem_separated member with rfl | ⟨v, known, inside⟩
  · exact .inl ⟨_, rfl⟩
  · simp only [List.mem_cons, List.not_mem_nil, or_false] at inside
    rcases inside with rfl | rfl | rfl
    · exact .inl ⟨_, rfl⟩
    · exact .inr ⟨v, visible v known, rfl⟩
    · exact .inl ⟨_, rfl⟩

theorem visible_of_sequenced (before : List Clause) {cs : List Clause} (sequenced : Clause.Sequenced before cs)
    (start : ∀ v, .introduces v ∈ before.flatMap Clause.pieces →
      v ∈ (empty.after (before.flatMap Clause.pieces)).visible) {v : Variable}
    (introduced : .introduces v ∈ (before ++ cs).flatMap Clause.pieces) :
    v ∈ (empty.after ((before ++ cs).flatMap Clause.pieces)).visible := by
  induction cs generalizing before with
  | nil =>
    rw [List.append_nil] at introduced ⊢
    exact start v introduced
  | cons c cs ih =>
    obtain ⟨follows, rest⟩ := sequenced
    rw [List.append_cons] at introduced ⊢
    refine ih _ rest (fun w known => ?_) introduced
    rw [List.flatMap_append, List.flatMap_singleton, List.mem_append] at known
    rw [List.flatMap_append, List.flatMap_singleton, after_append]
    -- only a `WITH` takes anything out of scope, and it lists all that stands before it
    by_cases carries : ∃ vs, c = .carry vs
    · obtain ⟨vs, rfl⟩ := carries
      have listed : ∀ u ∈ vs, u ∈ (empty.after (before.flatMap Clause.pieces)).visible :=
        fun u member => start u ((follows.2 u).mp member)
      rw [(accepts_carry listed).2, follows.2]
      refine known.resolve_right fun here => ?_
      cases Clause.introduces_mem_pieces_iff.mp here
    · rw [mem_visible_after fun vs member => carries ⟨vs, Clause.eq_carry_of_keeps member⟩]
      exact known.imp_left (start w)

theorem accepts_storedClauses {v : Variable} (new : v ∉ s.introduced) (n : StoredNode) :
    s.Accepts ((Draft.storedClauses v n).flatMap Clause.pieces) ∧
      s.after ((Draft.storedClauses v n).flatMap Clause.pieces) = ⟨v :: s.introduced, v :: s.visible⟩ := by
  let grown : Scope := ⟨v :: s.introduced, v :: s.visible⟩
  have located : s.after (Clause.locate v).pieces = grown := rfl
  have changed : grown.Accepts ((Draft.storedChanges v n).flatMap Clause.pieces) ∧
      grown.after ((Draft.storedChanges v n).flatMap Clause.pieces) = grown := by
    refine accepts_of_uses fun piece member => ?_
    obtain ⟨c, change, inside⟩ := List.mem_flatMap.mp member
    obtain ⟨before, behind, pieces⟩ := Draft.pieces_of_mem_storedChanges change
    simp only [pieces, List.mem_cons, List.not_mem_nil, or_false] at inside
    rcases inside with rfl | rfl | rfl
    · exact .inl ⟨_, rfl⟩
    · exact .inr ⟨v, List.mem_cons_self, rfl⟩
    · exact .inl ⟨_, rfl⟩
  rw [Draft.storedClauses_eq, List.flatMap_cons, accepts_append, after_append, located]
  exact ⟨⟨⟨True.intro, new, True.intro, List.mem_cons_self, True.intro, True.intro⟩, changed.1⟩, changed.2⟩

end Scope

namespace Draft

def pieces (d : Draft) : List Piece := d.clauses.flatMap Clause.pieces

def scope (d : Draft) : Scope := Scope.empty.after d.pieces

/-- The clauses of a draft introduce each variable once and use it in scope, and what is declared is in scope
behind them. -/
structure Threaded (d : Draft) : Prop where
  accepted : Scope.empty.Accepts d.pieces
  introduced : ∀ v, v ∈ d.scope.introduced ↔ d.declared.contains v = true
  visible : ∀ v, v ∈ d.scope.visible ↔ d.declared.contains v = true
  returned : ∀ v, d.returned.contains v = true → d.declared.contains v = true
  sequenced : Clause.Sequenced [] d.clauses
  started : d.declared.isEmpty = true → d.clauses = []

structure Extends (d : Draft) (v : Variable) (cs : List Clause) : Prop where
  accepted : d.scope.Accepts (cs.flatMap Clause.pieces)
  introduced : ∀ w, w ∈ (d.scope.after (cs.flatMap Clause.pieces)).introduced ↔ w = v ∨ w ∈ d.scope.introduced
  visible : ∀ w, w ∈ (d.scope.after (cs.flatMap Clause.pieces)).visible ↔ w = v ∨ w ∈ d.scope.visible
  sequenced : Clause.Sequenced d.clauses cs

namespace Threaded

variable {d : Draft}

theorem empty : Draft.empty.Threaded where
  accepted := True.intro
  introduced v := by simp [scope, pieces, Draft.empty, Scope.after, Scope.empty]
  visible v := by simp [scope, pieces, Draft.empty, Scope.after, Scope.empty]
  returned v known := known
  sequenced := True.intro
  started _ := rfl

theorem append (threaded : d.Threaded) {e : Draft} {v : Variable} {cs : List Clause} (behind : d.Extends v cs)
    (clauses : e.clauses = d.clauses ++ cs) (declared : e.declared = d.declared.insert v)
    (returned : e.returned = d.returned ∨ e.returned = d.returned.insert v) : e.Threaded := by
  have pieces : e.pieces = d.pieces ++ cs.flatMap Clause.pieces := by
    rw [Draft.pieces, clauses, List.flatMap_append]
    rfl
  have scope : e.scope = d.scope.after (cs.flatMap Clause.pieces) := by
    rw [Draft.scope, pieces, Scope.after_append]
    rfl
  have known : ∀ w, e.declared.contains w = true ↔ w = v ∨ d.declared.contains w = true := by
    intro w
    rw [declared, SortedSet.contains_insert, Bool.or_eq_true, decide_eq_true_eq]
  refine ⟨?_, fun w => ?_, fun w => ?_, fun w back => ?_, ?_, fun none => ?_⟩
  · rw [pieces, Scope.accepts_append]
    exact ⟨threaded.accepted, behind.accepted⟩
  · rw [scope, behind.introduced, threaded.introduced, known]
  · rw [scope, behind.visible, threaded.visible, known]
  · rw [known]
    rcases returned with same | more
    · exact .inr (threaded.returned w (same ▸ back))
    · rw [more, SortedSet.contains_insert, Bool.or_eq_true, decide_eq_true_eq] at back
      exact back.imp_right (threaded.returned w)
  · rw [clauses, Clause.sequenced_append]
    exact ⟨threaded.sequenced, behind.sequenced⟩
  · have absent := SortedMap.contains_eq_false_iff.mpr (SortedMap.isEmpty_iff.mp none v)
    rw [(known v).mpr (.inl rfl)] at absent
    cases absent

theorem not_introduced (threaded : d.Threaded) {v : Variable} (fresh : d.declared.contains v = false) :
    v ∉ d.scope.introduced := by
  rw [threaded.introduced, fresh]
  exact Bool.false_ne_true

theorem extends_created (threaded : d.Threaded) {v : Variable} (fresh : d.declared.contains v = false) (n : NewNode) :
    d.Extends v ((NodeIntent.create n).clauses d.declared v) := by
  have new := threaded.not_introduced fresh
  unfold NodeIntent.clauses
  dsimp only
  split
  · exact ⟨⟨True.intro, new, True.intro, List.mem_cons_self, True.intro, True.intro⟩, fun w => List.mem_cons,
      fun w => List.mem_cons, True.intro, True.intro⟩
  · exact ⟨⟨True.intro, new, True.intro, List.mem_cons_self, True.intro, True.intro⟩, fun w => List.mem_cons,
      fun w => List.mem_cons, True.intro, True.intro⟩

theorem follows_carry (threaded : d.Threaded) : (Clause.carry d.declared.toList).Follows d.clauses := by
  refine ⟨d.declared.keys_ascending.imp Variable.compare_eq_lt_iff.mp, fun v => ?_⟩
  have introduced : v ∈ (Scope.empty.after d.pieces).introduced ↔ v ∈ Scope.empty.introduced ∨ .introduces v ∈ d.pieces :=
    Scope.mem_introduced_after
  rw [SortedSet.mem_toList, ← threaded.introduced]
  exact introduced.trans (or_iff_right List.not_mem_nil)

theorem extends_stored (threaded : d.Threaded) {v : Variable} (fresh : d.declared.contains v = false) (n : StoredNode) :
    d.Extends v ((NodeIntent.update n).clauses d.declared v) := by
  have new := threaded.not_introduced fresh
  have tail : ∀ before, (Clause.locate v).Follows before → Clause.Sequenced before (storedClauses v n) :=
    fun before start => ⟨start, sequenced_storedChanges v n _⟩
  unfold NodeIntent.clauses
  dsimp only
  split
  · rename_i none
    obtain ⟨accepted, after⟩ := Scope.accepts_storedClauses new n
    rw [List.nil_append]
    refine ⟨accepted, fun w => ?_, fun w => ?_, tail _ (.inl (threaded.started none))⟩
    · rw [after]
      exact List.mem_cons
    · rw [after]
      exact List.mem_cons
  · have all : ∀ w ∈ d.declared.toList, w ∈ d.scope.visible := by
      intro w member
      rw [threaded.visible, ← SortedSet.mem_toList]
      exact member
    obtain ⟨carried, kept⟩ := Scope.accepts_carry all
    obtain ⟨accepted, after⟩ := Scope.accepts_storedClauses (s := { d.scope with visible := d.declared.toList }) new n
    rw [List.singleton_append]
    refine ⟨?_, fun w => ?_, fun w => ?_, threaded.follows_carry, tail _ (.inr ⟨_, _, rfl⟩)⟩
    · rw [List.flatMap_cons, Scope.accepts_append, kept]
      exact ⟨carried, accepted⟩
    · rw [List.flatMap_cons, Scope.after_append, kept, after]
      exact List.mem_cons
    · rw [List.flatMap_cons, Scope.after_append, kept, after, threaded.visible, ← SortedSet.mem_toList]
      exact List.mem_cons

theorem introduce (threaded : d.Threaded) {entry : Variable × NodeIntent} (fresh : d.declared.contains entry.1 = false) :
    (d.introduce entry).Threaded := by
  obtain ⟨v, n⟩ := entry
  cases n with
  | create n => exact threaded.append (threaded.extends_created fresh n) rfl rfl (.inr rfl)
  | update n => exact threaded.append (threaded.extends_stored fresh n) rfl rfl (.inl rfl)

theorem draw (threaded : d.Threaded) {x : DrawnEdge} (fresh : d.declared.contains x.own = false)
    (source : d.declared.contains x.source = true) (target : d.declared.contains x.target = true) :
    (d.draw x).Threaded := by
  have new := threaded.not_introduced fresh
  have first := (threaded.visible x.source).mpr source
  have last := (threaded.visible x.target).mpr target
  have behind : d.Extends x.own [x.clause] :=
    ⟨⟨True.intro, first, True.intro, new, True.intro, List.mem_cons_of_mem _ last, True.intro, True.intro⟩,
      fun w => List.mem_cons, fun w => List.mem_cons, True.intro, True.intro⟩
  exact threaded.append behind rfl rfl (.inr rfl)

theorem scoped_report (threaded : d.Threaded) :
    Scope.empty.Accepts ((d.clauses ++ d.report).flatMap Clause.pieces) ∧ Clause.Sequenced [] (d.clauses ++ d.report) := by
  rw [List.flatMap_append, Scope.accepts_append, Clause.sequenced_append]
  have visible : ∀ v ∈ d.returned.toList, v ∈ d.scope.visible := by
    intro v member
    exact (threaded.visible v).mpr (threaded.returned v (SortedSet.mem_toList.mp member))
  refine ⟨⟨threaded.accepted, ?_⟩, threaded.sequenced, ?_⟩
  · unfold report
    split
    · exact True.intro
    · rw [List.flatMap_singleton]
      exact Scope.accepts_report visible
  · unfold report
    split
    · exact True.intro
    · exact ⟨True.intro, True.intro⟩

end Threaded

theorem foldl_fresh {α : Type} {f : Draft → α → Draft} {own : α → Variable} (kept : Draft → Prop) {xs : List α}
    (declares : ∀ d x, (f d x).declared = d.declared.insert (own x)) (distinct : (xs.map own).Nodup)
    (step : ∀ d, kept d → ∀ x ∈ xs, d.declared.contains (own x) = false → kept (f d x)) {d : Draft} (start : kept d)
    (fresh : ∀ x ∈ xs, d.declared.contains (own x) = false) : kept (xs.foldl f d) := by
  induction xs generalizing d with
  | nil => exact start
  | cons x xs ih =>
    obtain ⟨once, distinct⟩ := List.nodup_cons.mp distinct
    refine ih distinct (fun d before y member => step d before y (List.mem_cons_of_mem _ member))
      (step d start x List.mem_cons_self (fresh x List.mem_cons_self)) fun y member => ?_
    have other : own y ≠ own x := fun same => once (same ▸ List.mem_map_of_mem member)
    rw [declares, SortedSet.contains_insert, fresh y (List.mem_cons_of_mem _ member), decide_eq_false other]
    rfl

structure ReadyFor (d : Draft) (drawn : List DrawnEdge) : Prop where
  threaded : d.Threaded
  ends : ∀ x ∈ drawn, d.declared.contains x.source = true ∧ d.declared.contains x.target = true

theorem ReadyFor.draw {d : Draft} {drawn : List DrawnEdge} (ready : d.ReadyFor drawn) {x : DrawnEdge} (member : x ∈ drawn)
    (fresh : d.declared.contains x.own = false) : (d.draw x).ReadyFor drawn := by
  refine ⟨ready.threaded.draw fresh (ready.ends x member).1 (ready.ends x member).2, fun y inside => ?_⟩
  have still : ∀ w, d.declared.contains w = true → (d.draw x).declared.contains w = true := by
    intro w known
    change (d.declared.insert x.own).contains w = true
    rw [SortedSet.contains_insert, known, Bool.or_true]
  exact ⟨still _ (ready.ends y inside).1, still _ (ready.ends y inside).2⟩

end Draft

theorem EdgeIntent.touches_of_mem_drawn {e : EdgeIntent} {v : Variable} {x : DrawnEdge} (member : x ∈ e.drawn v) :
    e.touches x.source = true ∧ e.touches x.target = true := by
  cases e with
  | create e =>
    unfold drawn at member
    dsimp only at member
    split at member
    · rename_i a b ha hb
      rw [List.mem_singleton] at member
      subst member
      simp [touches, endpoints?, ha, hb]
    · cases member
  | pair e =>
    unfold drawn at member
    dsimp only at member
    split at member
    · rename_i a b ha hb
      rcases List.mem_pair.mp member with rfl | rfl <;> simp [touches, endpoints?, ha, hb]
    · cases member
  | patch e => cases member
  | delete e => cases member

theorem EdgeIntent.drawn_own_sublist (e : EdgeIntent) (v : Variable) :
    ((e.drawn v).map DrawnEdge.own).Sublist (e.owned v) := by
  cases e with
  | create e =>
    unfold drawn
    dsimp only
    split
    · exact .refl _
    · exact List.nil_sublist _
  | pair e =>
    unfold drawn
    dsimp only
    split
    · exact .refl _
    · exact List.nil_sublist _
  | patch e => exact List.nil_sublist _
  | delete e => exact List.nil_sublist _

namespace Plan

variable {p : Plan} {skipped : SortedSet Variable}

theorem mem_drawnEdges {x : DrawnEdge} : x ∈ Draft.drawnEdges (p.writtenEdges skipped).entries ↔
    ∃ v e, (p.writtenEdges skipped).get? v = some e ∧ x ∈ e.drawn v := by
  simp only [Draft.drawnEdges, List.mem_flatMap, Prod.exists, SortedMap.get?_eq_some_iff]

theorem Owned.nodup_drawn (owned : p.Owned) (skipped : SortedSet Variable) :
    ((Draft.drawnEdges (p.writtenEdges skipped).entries).map DrawnEdge.own).Nodup := by
  have edge : ∀ {entry}, entry ∈ (p.writtenEdges skipped).entries → p.edges.get? entry.1 = some entry.2 :=
    fun member => (get?_writtenEdges_eq_some_iff.mp (SortedMap.get?_eq_some_iff.mpr member)).1
  rw [Draft.drawnEdges, List.map_flatMap]
  refine List.nodup_flatMap.mpr ⟨fun entry member => ?_, ?_⟩
  · exact (owned.distinct entry.1 entry.2 (edge member)).sublist (entry.2.drawn_own_sublist entry.1)
  · refine (p.writtenEdges skipped).ascending.imp_of_mem fun {a b} left right less => ?_
    intro v first second
    have differ : a.1 ≠ b.1 := by
      intro same
      simp [same, Std.ReflCmp.compare_self] at less
    exact owned.disjoint_of_ne (edge left) (edge right) differ ((a.2.drawn_own_sublist a.1).mem first)
      ((b.2.drawn_own_sublist b.1).mem second)

theorem Owned.node_of_drawn (owned : p.Owned) {x : DrawnEdge}
    (member : x ∈ Draft.drawnEdges (p.writtenEdges skipped).entries) : p.nodes.get? x.own = none := by
  obtain ⟨v, e, written, drawn⟩ := mem_drawnEdges.mp member
  have held : p.Holds (.edge v) x.own := ⟨e, (get?_writtenEdges_eq_some_iff.mp written).1, (own_of_mem_drawn drawn).1⟩
  refine get?_nodes_of_absent fun node => ?_
  cases owned.unique _ _ _ held node

theorem declared_writtenNodes {edges : List EdgeIntent} {v : Variable} :
    ((p.writtenNodes edges).foldl Draft.introduce .empty).declared.contains v = true ↔
      ∃ n, (v, n) ∈ p.writtenNodes edges := by
  rw [Draft.declared_foldl_introduce, SortedSet.contains_insertMany]
  simp [Draft.empty]

theorem readyFor_edges (skips : p.skipped = .ok skipped) :
    ((p.writtenNodes (p.writtenEdges skipped).values).foldl Draft.introduce .empty).ReadyFor
      (Draft.drawnEdges (p.writtenEdges skipped).entries) := by
  refine ⟨?_, fun x member => ?_⟩
  · exact Draft.foldl_fresh Draft.Threaded (fun _ _ => rfl) (p.writtenNodes_nodup _)
      (fun d threaded entry _ fresh => threaded.introduce fresh) .empty fun _ _ => rfl
  · obtain ⟨v, e, written, inside⟩ := mem_drawnEdges.mp member
    have known : ∀ a, e.touches a = true → ((p.writtenNodes (p.writtenEdges skipped).values).foldl Draft.introduce
        .empty).declared.contains a = true := by
      intro a touches
      obtain ⟨n, found⟩ := known_of_touches (resolved_of_written skips written) touches
      exact (introduced (introduced_of_touches written touches found)).2
    obtain ⟨source, target⟩ := e.touches_of_mem_drawn inside
    exact ⟨known _ source, known _ target⟩

theorem Owned.threaded_draft (owned : p.Owned) (skips : p.skipped = .ok skipped) : (p.draft skipped).Threaded := by
  have drawn : (p.draft skipped).ReadyFor (Draft.drawnEdges (p.writtenEdges skipped).entries) := by
    refine Draft.foldl_fresh (f := Draft.draw) (fun d => d.ReadyFor _) (fun _ _ => rfl) (owned.nodup_drawn skipped)
      (fun d ready x member fresh => ready.draw member fresh) (readyFor_edges skips) fun x member => ?_
    rw [Bool.eq_false_iff]
    intro declared
    obtain ⟨n, written⟩ := declared_writtenNodes.mp declared
    have found := (mem_writtenNodes.mp written).1
    rw [owned.node_of_drawn member] at found
    cases found
  exact drawn.threaded

/-- The clause that brings a variable into a script belongs to the intent that owns the variable. -/
inductive Introduces (p : Plan) : Variable → Clause → Prop where
  | created {v : Variable} {n : NewNode} (found : p.nodes.get? v = some (.create n)) (plain : n.primaryKey = none) :
      Introduces p v (.create v n.labels.toList)
  | merged {v : Variable} {n : NewNode} {key : String} (found : p.nodes.get? v = some (.create n))
      (keyed : n.primaryKey = some key) : Introduces p v (.merge v n.labels.toList key)
  | located {v : Variable} {n : StoredNode} (found : p.nodes.get? v = some (.update n)) : Introduces p v (.locate v)
  | drawn {v : Variable} {e : EdgeIntent} {x : DrawnEdge} (found : p.edges.get? v = some e) (member : x ∈ e.drawn v) :
      Introduces p x.own x.clause

theorem introduces_of_node {v : Variable} {n : NodeIntent} (found : p.nodes.get? v = some n)
    {declared : SortedSet Variable} {c : Clause} (member : c ∈ n.clauses declared v) {w : Variable}
    (introduces : c.introduced? = some w) : p.Introduces w c := by
  cases NodeIntent.writtenWith_of_mem member with
  | create plain =>
    cases introduces
    exact .created found plain
  | merge keyed =>
    cases introduces
    exact .merged found keyed
  | locate =>
    cases introduces
    exact .located found
  | _ => cases introduces

theorem introduces_of_mem_draft {c : Clause} (member : c ∈ (p.draft skipped).clauses) {v : Variable}
    (introduces : c.introduced? = some v) : p.Introduces v c := by
  rcases mem_clauses_draft.mp member with node | ⟨w, e, written, x, drawn, rfl⟩
  · rcases Draft.mem_clauses_foldl_introduce node with before | ⟨⟨w, n⟩, listed, declared, member⟩
    · cases before
    · exact introduces_of_node (mem_writtenNodes.mp listed).1 member introduces
  · cases introduces
    exact .drawn (get?_writtenEdges_eq_some_iff.mp written).1 drawn

/-- What a reader of a script's text finds about its variables, clause by clause. -/
structure ScopedScript (p : Plan) (clauses : List Clause) : Prop where
  accepted : Scope.empty.Accepts (clauses.flatMap Clause.pieces)
  once : ∀ c ∈ clauses, ∀ piece ∈ c.pieces, ∀ v, piece.mentioned? = some v →
    (clauses.flatMap Clause.pieces).count (.introduces v) = 1
  own : ∀ c ∈ clauses, ∀ v, .introduces v ∈ c.pieces → p.Introduces v c
  follows : ∀ before c after, clauses = before ++ c :: after → c.Follows before
  kept : ∀ before after, clauses = before ++ after → ∀ v, .introduces v ∈ before.flatMap Clause.pieces →
    v ∈ (Scope.empty.after (before.flatMap Clause.pieces)).visible

/-- Every script that a plan can be written as is well scoped. -/
theorem script_is_scoped (c : Config) (actions : List Action) {skipped : SortedSet Variable} {r : Rendering}
    {clauses : List Clause} {rows : SortedMap Variable Row}
    (skips : ((ofConfig c).acted actions).skipped = .ok skipped)
    (rendered : ((ofConfig c).acted actions).renderSingly skipped = .ok r) (script : .script clauses rows ∈ r.queries) :
    (Query.script clauses rows).text = " ".intercalate (clauses.map fun c => String.join (c.pieces.map Piece.text)) ∧
      ((ofConfig c).acted actions).ScopedScript clauses := by
  have owned : ((ofConfig c).acted actions).Owned := (Owned.ofConfig c).acted actions
  generalize (ofConfig c).acted actions = p at skips rendered owned
  have threaded := owned.threaded_draft skips
  have written : (p.draft skipped).script? = some (.script clauses rows) := by
    rw [eq_of_renderSingly rendered, mem_queries_singly] at script
    rcases script with written | patched | deleted
    · exact written
    · obtain ⟨_, _, same⟩ := of_mem_patches patched
      cases same
    · rcases of_mem_deletions deleted with ⟨_, _, same⟩ | ⟨_, _, same⟩ <;> cases same
  obtain ⟨-, same⟩ := Draft.script?_eq_some_iff.mp written
  cases same
  obtain ⟨accepted, sequenced⟩ := threaded.scoped_report
  refine ⟨?_, accepted, fun c member piece inside v mentions => ?_, fun c member v introduces => ?_,
    fun before c after split => Clause.follows_of_sequenced sequenced split, fun before after split v known => ?_⟩
  · exact congrArg (String.intercalate " ") (List.map_congr_left fun c _ => c.text_eq_join)
  · exact Scope.count_introduces_eq_one accepted (List.mem_flatMap.mpr ⟨c, member, inside⟩) mentions
  · rw [Clause.introduces_mem_pieces_iff] at introduces
    rcases List.mem_append.mp member with member | report
    · exact introduces_of_mem_draft member introduces
    · rw [Draft.of_mem_report report] at introduces
      cases introduces
  · rw [split, Clause.sequenced_append] at sequenced
    exact Scope.visible_of_sequenced [] sequenced.1 (fun w none => absurd none List.not_mem_nil) known

def joinedToNew : List Action :=
  [.call (.node (.stored ⟨1⟩ ⟨10⟩) [.addLabel "Seen"]), .call (.node (.stored ⟨2⟩ ⟨20⟩) []),
    .call (.node (.stored ⟨3⟩ ⟨30⟩) []), .call (.node (.new ⟨4⟩) [.addLabel "Film"]),
    .call (.edge (.pair "NEAR") [.relate ⟨3⟩ ⟨1⟩])]

def joinedToNewScript : List Clause :=
  [.create ⟨3⟩ ["Film"], .carry [⟨3⟩], .locate ⟨0⟩, .addLabels ⟨0⟩ ["Seen"], .carry [⟨0⟩, ⟨3⟩], .locate ⟨1⟩,
    .connect false ⟨4⟩ ⟨3⟩ ⟨1⟩ "NEAR" [] .outgoing, .connect false ⟨5⟩ ⟨1⟩ ⟨3⟩ "NEAR" [] .outgoing,
    .report [⟨3⟩, ⟨4⟩, ⟨5⟩]]

theorem joinedToNew_scoped : ∃ skipped r rows, ((ofConfig .default).acted joinedToNew).skipped = .ok skipped ∧
    ((ofConfig .default).acted joinedToNew).renderSingly skipped = .ok r ∧
    .script joinedToNewScript rows ∈ r.queries ∧ ((ofConfig .default).acted joinedToNew).ScopedScript joinedToNewScript := by
  have skips : ((ofConfig .default).acted joinedToNew).skipped = .ok ∅ := by rfl
  have rendered : ((ofConfig .default).acted joinedToNew).renderSingly ∅ = .ok _ := rfl
  have script : .script joinedToNewScript _ ∈ (((ofConfig .default).acted joinedToNew).singly ∅).queries :=
    List.mem_cons_self
  exact ⟨∅, _, _, skips, rendered, script, (script_is_scoped .default joinedToNew skips rendered script).2⟩

end Plan

end GraphWrites
