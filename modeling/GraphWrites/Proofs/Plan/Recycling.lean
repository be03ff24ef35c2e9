import GraphWrites.Proofs.Plan.Variables
import GraphWrites.Proofs.Variable.Pool

namespace GraphWrites.Plan

def answer (p : Plan) : Action → Except Failure PlanAnswer
  | .call c => (p.call c).map Prod.fst
  | .replaceJournal _ => .ok (.journal .done)

def answers (p : Plan) : List Action → List (Except Failure PlanAnswer)
  | [] => []
  | a :: actions => p.answer a :: (p.act a).answers actions

def withSupply (p : Plan) (s : Supply) : Plan := { p with supply := s }

structure Proceeds (p q : Plan) : Prop where
  config : q.config = p.config
  moves : p.supply.Moves q.supply

variable (p : Plan)

theorem proceeds_requestNode (request : NodeRequest) : p.Proceeds (p.requestNode request).2 := by
  cases request with
  | new e =>
    rw [requestNode, newNode]
    split
    · exact ⟨rfl, .stay⟩
    · exact ⟨rfl, .take⟩
  | stored e n =>
    rw [requestNode, storedNode]
    split
    · exact ⟨rfl, .stay⟩
    · exact ⟨rfl, .takeFor n⟩
  | under v => exact ⟨rfl, .stay⟩

theorem proceeds_requestEdge (request : EdgeRequest) : p.Proceeds (p.requestEdge request).2 := by
  cases request with
  | new type => exact ⟨rfl, .take⟩
  | connect source type target d =>
    rw [requestEdge, connect]
    dsimp only
    split
    · exact ⟨rfl, .stay⟩
    · exact ⟨rfl, .take⟩
  | object e type =>
    rw [requestEdge, edgeObject]
    split
    · exact ⟨rfl, .stay⟩
    · exact ⟨rfl, .take⟩
  | pair type => exact ⟨rfl, .takeTwice⟩
  | stored e type =>
    rw [requestEdge, storedEdge]
    split
    · exact ⟨rfl, .stay⟩
    · exact ⟨rfl, .take⟩
  | under v => exact ⟨rfl, .stay⟩

theorem proceeds_release (v : Variable) : p.Proceeds (p.release v).2 := by
  unfold release
  split
  · exact ⟨rfl, .stay⟩
  · exact ⟨rfl, .releaseAll _⟩

theorem proceeds_act (a : Action) : p.Proceeds (p.act a) := by
  cases a with
  | replaceJournal j => exact ⟨rfl, .stay⟩
  | call c =>
    unfold act
    cases c with
    | node request edits =>
      have asked := p.proceeds_requestNode request
      dsimp only
      rw [step_node]
      rcases answer : p.requestNode request with ⟨_ | v, q⟩ <;> rw [answer] at asked
      · exact asked
      · exact ⟨asked.config, asked.moves⟩
    | edge request edits =>
      have asked := p.proceeds_requestEdge request
      dsimp only
      rw [step_edge]
      rcases answer : p.requestEdge request with ⟨_ | v, q⟩ <;> rw [answer] at asked
      · exact asked
      · exact ⟨asked.config, asked.moves⟩
    | unrelate t e =>
      change p.Proceeds (p.unrelate t e).2
      unfold unrelate
      split
      · exact p.proceeds_release _
      · exact ⟨rfl, .take⟩
    | release v => exact p.proceeds_release v
    | unmap v =>
      change p.Proceeds (p.unmap v).2
      rcases p.unmap_cases v with kept | ⟨n, -, -, unmapped⟩
      · rw [kept]
        exact ⟨rfl, .stay⟩
      · rw [unmapped]
        exact ⟨rfl, .releaseAll [v]⟩
    | statements =>
      dsimp only
      rw [step_statements]
      exact ⟨rfl, .stay⟩
    | compile =>
      dsimp only
      rw [step_compile]
      cases compiled : p.compile with
      | error failure => exact ⟨rfl, .stay⟩
      | ok answer =>
        obtain ⟨finished, q⟩ := answer
        obtain ⟨-, -, -, -, -, empty⟩ := compile_cases compiled
        subst empty
        exact ⟨rfl, .releaseAll _⟩
    | journal c =>
      dsimp only
      rw [step_journal]
      exact ⟨rfl, .stay⟩
    | _ => exact ⟨rfl, .stay⟩

def Echoes {α : Type} (x y : α × Plan) : Prop := ∃ s, y = (x.1, x.2.withSupply s)

variable {p} {t : Supply}

theorem Echoes.map {α β : Type} {x y : α × Plan} (echoes : Echoes x y) (f : α → β) :
    Echoes (x.map f id) (y.map f id) := by
  obtain ⟨s, rfl⟩ := echoes
  exact ⟨s, rfl⟩

theorem takeVariable_withSupply (next : p.supply.take.1 = t.take.1) (note : Journal → Variable → Journal) :
    (p.withSupply t).takeVariable note =
      ((p.takeVariable note).1, (p.takeVariable note).2.withSupply t.take.2) := by
  change (t.take.1, { (p.withSupply t) with supply := t.take.2, journal := note p.journal t.take.1 }) = _
  rw [← next]
  rfl

theorem echoes_newNode (next : p.supply.take.1 = t.take.1) (e : Entity) :
    Echoes (p.newNode e) ((p.withSupply t).newNode e) := by
  have visited : (p.withSupply t).visitedNode? e = p.visitedNode? e := rfl
  unfold newNode
  rw [visited]
  cases p.visitedNode? e with
  | some v => exact ⟨t, rfl⟩
  | none =>
    dsimp only
    rw [takeVariable_withSupply next]
    exact ⟨t.take.2, rfl⟩

theorem echoes_storedNode (e : Entity) (n : NodeId) (next : (p.supply.takeFor n).1 = (t.takeFor n).1) :
    Echoes (p.storedNode e n) ((p.withSupply t).storedNode e n) := by
  have visited : (p.withSupply t).visitedNode? e = p.visitedNode? e := rfl
  have supply : (p.withSupply t).supply = t := rfl
  unfold storedNode
  rw [visited, supply]
  cases p.visitedNode? e with
  | some v => exact ⟨t, rfl⟩
  | none =>
    refine ⟨(t.takeFor n).2, ?_⟩
    generalize t.takeFor n = taken at next ⊢
    obtain ⟨v, s⟩ := taken
    dsimp only at next ⊢
    rw [← next]
    rfl

theorem echoes_connect (next : p.supply.take.1 = t.take.1) (source : Variable) (type : String) (target : Variable)
    (d : Direction) : Echoes (p.connect source type target d) ((p.withSupply t).connect source type target d) := by
  have journal : (p.withSupply t).journal = p.journal := rfl
  have edges : (p.withSupply t).edges = p.edges := rfl
  unfold connect
  dsimp only
  rw [journal, edges]
  split
  · exact ⟨t, rfl⟩
  · rw [takeVariable_withSupply next]
    exact ⟨t.take.2, rfl⟩

theorem echoes_edgeObject (next : p.supply.take.1 = t.take.1) (e : Entity) (type : String) :
    Echoes (p.edgeObject e type) ((p.withSupply t).edgeObject e type) := by
  have visited : (p.withSupply t).visitedEdge? e = p.visitedEdge? e := rfl
  unfold edgeObject
  rw [visited]
  cases p.visitedEdge? e with
  | some v => exact ⟨t, rfl⟩
  | none =>
    dsimp only
    rw [takeVariable_withSupply next]
    exact ⟨t.take.2, rfl⟩

theorem echoes_edgePair (next : p.supply.take.1 = t.take.1) (second : p.supply.take.2.take.1 = t.take.2.take.1)
    (type : String) : Echoes (p.edgePair type) ((p.withSupply t).edgePair type) := by
  refine ⟨t.take.2.take.2, ?_⟩
  unfold edgePair
  rw [takeVariable_withSupply next]
  dsimp only
  rw [takeVariable_withSupply second]
  rfl

theorem echoes_storedEdge (next : p.supply.take.1 = t.take.1) (e : EdgeId) (type : String) :
    Echoes (p.storedEdge e type) ((p.withSupply t).storedEdge e type) := by
  have known : (p.withSupply t).storedEdges = p.storedEdges := rfl
  have edges : (p.withSupply t).edges = p.edges := rfl
  unfold storedEdge
  rw [known, edges]
  split
  · exact ⟨t, rfl⟩
  · rw [takeVariable_withSupply next]
    exact ⟨t.take.2, rfl⟩

theorem echoes_release (v : Variable) : Echoes (p.release v) ((p.withSupply t).release v) := by
  have edges : (p.withSupply t).edges = p.edges := rfl
  unfold release
  rw [edges]
  cases p.edges.get? v with
  | none => exact ⟨t, rfl⟩
  | some e => exact ⟨t.releaseAll (e.owned v), rfl⟩

theorem echoes_unmap (v : Variable) : Echoes (p.unmap v) ((p.withSupply t).unmap v) := by
  have nodes : (p.withSupply t).nodes = p.nodes := rfl
  have edges : (p.withSupply t).edges = p.edges := rfl
  unfold unmap
  rw [nodes, edges]
  dsimp only
  split
  · split
    · exact ⟨(t.release v).2, rfl⟩
    · exact ⟨t, rfl⟩
  · exact ⟨t, rfl⟩

theorem echoes_unrelate (next : p.supply.take.1 = t.take.1) (triple : Triple) (e : Option EdgeId) :
    Echoes (p.unrelate triple e) ((p.withSupply t).unrelate triple e) := by
  have edges : (p.withSupply t).edges = p.edges := rfl
  have creates : (p.withSupply t).createsTriple = p.createsTriple := rfl
  unfold unrelate
  rw [edges, creates]
  split
  · exact (echoes_release _).map fun _ => none
  · rw [takeVariable_withSupply next]
    exact ⟨t.take.2, rfl⟩

theorem render_withSupply : (p.withSupply t).render = p.render := rfl

theorem statements_withSupply : (p.withSupply t).statements = p.statements := rfl

theorem compile_withSupply : (p.withSupply t).compile =
    p.compile.map fun (finished, q) => (finished, q.withSupply (t.releaseAll p.owned)) := by
  rw [compile_eq_bind, compile_eq_bind, render_withSupply]
  cases p.render with
  | error failure => rfl
  | ok r =>
    dsimp only [Bind.bind, Except.bind]
    cases r.statements <;> rfl

theorem echoes_requestNode (next : p.supply.take.1 = t.take.1)
    (nextFor : ∀ n, (p.supply.takeFor n).1 = (t.takeFor n).1) (request : NodeRequest) :
    Echoes (p.requestNode request) ((p.withSupply t).requestNode request) := by
  cases request with
  | new e => exact (echoes_newNode next e).map some
  | stored e n => exact (echoes_storedNode e n (nextFor n)).map some
  | under v => exact ⟨t, rfl⟩

theorem echoes_requestEdge (next : p.supply.take.1 = t.take.1) (request : EdgeRequest)
    (second : ∀ type, request = .pair type → p.supply.take.2.take.1 = t.take.2.take.1) :
    Echoes (p.requestEdge request) ((p.withSupply t).requestEdge request) := by
  cases request with
  | new type =>
    refine ⟨t.take.2, ?_⟩
    unfold requestEdge newEdge
    rw [takeVariable_withSupply next]
    rfl
  | connect source type target d => exact (echoes_connect next source type target d).map some
  | object e type => exact (echoes_edgeObject next e type).map some
  | pair type => exact (echoes_edgePair next (second type rfl) type).map some
  | stored e type => exact (echoes_storedEdge next e type).map some
  | under v => exact ⟨t, rfl⟩

theorem call_withSupply (next : p.supply.take.1 = t.take.1)
    (nextFor : ∀ n, (p.supply.takeFor n).1 = (t.takeFor n).1) (c : PlanCall)
    (second : ∀ type edits, c = .edge (.pair type) edits → p.supply.take.2.take.1 = t.take.2.take.1) :
    ∃ s, (p.withSupply t).call c = (p.call c).map fun (a, q) => (a, q.withSupply s) := by
  cases c with
  | node request edits =>
    obtain ⟨s, echoes⟩ := echoes_requestNode next nextFor request
    refine ⟨s, ?_⟩
    rw [call_node, call_node, echoes]
    rcases p.requestNode request with ⟨_ | v, q⟩ <;> rfl
  | edge request edits =>
    obtain ⟨s, echoes⟩ := echoes_requestEdge next request fun type pair => second type edits (by rw [pair])
    refine ⟨s, ?_⟩
    rw [call_edge, call_edge, echoes]
    rcases p.requestEdge request with ⟨_ | v, q⟩ <;> rfl
  | unrelate triple e =>
    obtain ⟨s, echoes⟩ := (echoes_unrelate next triple e).map PlanAnswer.variable
    exact ⟨s, congrArg Except.ok echoes⟩
  | release v =>
    obtain ⟨s, echoes⟩ := (echoes_release (p := p) (t := t) v).map fun b => PlanAnswer.flag (some b)
    exact ⟨s, congrArg Except.ok echoes⟩
  | unmap v =>
    obtain ⟨s, echoes⟩ := (echoes_unmap (p := p) (t := t) v).map fun b => PlanAnswer.flag (some b)
    exact ⟨s, congrArg Except.ok echoes⟩
  | statements =>
    refine ⟨t, ?_⟩
    rw [call_statements, call_statements, statements_withSupply]
    cases p.statements <;> rfl
  | compile =>
    refine ⟨t.releaseAll p.owned, ?_⟩
    rw [call_compile, call_compile, compile_withSupply]
    cases p.compile <;> rfl
  | journal c =>
    have journal : (p.withSupply t).journal = p.journal := rfl
    refine ⟨t, ?_⟩
    rw [call_journal, call_journal, journal]
    cases p.journal.call c <;> rfl
  | _ => exact ⟨t, rfl⟩

/-- At no time are more variables outstanding than the pool can hold. -/
def FitsPool (p : Plan) (actions : List Action) : Prop :=
  ∀ before, before <+: actions → (p.acted before).supply.live ≤ p.config.poolCapacity

theorem fitsPool_nil : p.FitsPool [] ↔ p.supply.live ≤ p.config.poolCapacity := by
  simp [FitsPool, acted]

theorem fitsPool_cons {a : Action} {actions : List Action} :
    p.FitsPool (a :: actions) ↔ p.supply.live ≤ p.config.poolCapacity ∧ (p.act a).FitsPool actions := by
  have config := (p.proceeds_act a).config
  apply Iff.intro
  · intro fits
    refine ⟨fits [] List.nil_prefix, fun before initial => ?_⟩
    rw [config]
    exact fits (a :: before) (List.cons_prefix_cons.mpr ⟨rfl, initial⟩)
  · intro h before initial
    obtain ⟨now, later⟩ := h
    cases before with
    | nil => exact now
    | cons b before =>
      obtain ⟨rfl, rest⟩ := List.cons_prefix_cons.mp initial
      exact config ▸ later before rest

instance decidableFitsPool (p : Plan) : (actions : List Action) → Decidable (p.FitsPool actions)
  | [] => decidable_of_iff' _ fitsPool_nil
  | a :: actions =>
    have := decidableFitsPool (p.act a) actions
    decidable_of_iff' _ fitsPool_cons

theorem FitsPool.now {actions : List Action} (fits : p.FitsPool actions) : p.supply.live ≤ p.config.poolCapacity :=
  fits [] List.nil_prefix

theorem FitsPool.head {a : Action} {actions : List Action} (fits : p.FitsPool (a :: actions)) :
    (p.act a).supply.live ≤ p.config.poolCapacity := by
  rw [← (p.proceeds_act a).config]
  exact (fitsPool_cons.mp fits).2.now

theorem FitsPool.tail {a : Action} {actions : List Action} (fits : p.FitsPool (a :: actions)) :
    (p.act a).FitsPool actions := (fitsPool_cons.mp fits).2

/-- A plan whose pool has never overflowed. -/
structure Pooled (p : Plan) : Prop where
  owned : p.Owned
  roomy : p.supply.Roomy
  capacity : p.supply.capacity = p.config.poolCapacity

theorem Pooled.ofConfig (c : Config) : (ofConfig c).Pooled := ⟨.ofConfig c, .new _, rfl⟩

theorem Pooled.act (pooled : p.Pooled) {a : Action} (room : (p.act a).supply.live ≤ p.config.poolCapacity) :
    (p.act a).Pooled := by
  obtain ⟨config, moves⟩ := p.proceeds_act a
  refine ⟨pooled.owned.act a, moves.roomy pooled.roomy ?_, ?_⟩
  · rwa [pooled.capacity]
  · rw [moves.capacity, pooled.capacity, config]

theorem Pooled.acted (pooled : p.Pooled) {actions : List Action} (fits : p.FitsPool actions) :
    (p.acted actions).Pooled := by
  induction actions generalizing p with
  | nil => exact pooled
  | cons a actions ih => exact ih (pooled.act fits.head) fits.tail

theorem config_acted (p : Plan) (actions : List Action) : (p.acted actions).config = p.config := by
  induction actions generalizing p with
  | nil => rfl
  | cons a actions ih => exact (ih (p.act a)).trans (p.proceeds_act a).config

theorem Owned.alike (owned : p.Owned) (owned' : (p.withSupply t).Owned) : p.supply.Alike t := by
  have held : ∀ a w, (p.withSupply t).Holds a w ↔ p.Holds a w := by
    intro a w
    cases a <;> rfl
  constructor
  · intro v
    have here := owned.outstanding v
    have there := owned'.outstanding v
    simp only [held] at there
    rw [Bool.eq_iff_iff]
    exact here.trans there.symm
  · apply SortedMap.ext_get?
    intro n
    ext v
    exact (owned.bound n v).trans (owned'.bound n v).symm

theorem Owned.live_withSupply (owned : p.Owned) (owned' : (p.withSupply t).Owned) : t.live = p.supply.live :=
  owned'.live_eq.trans owned.live_eq.symm

theorem answer_withSupply (pooled : p.Pooled) (pooled' : (p.withSupply t).Pooled) {a : Action}
    (room : (p.act a).supply.live ≤ p.config.poolCapacity) :
    ∃ s, (p.withSupply t).answer a = p.answer a ∧ (p.withSupply t).act a = (p.act a).withSupply s := by
  have alike := pooled.owned.alike pooled'.owned
  cases a with
  | replaceJournal j => exact ⟨t, rfl, rfl⟩
  | call c =>
    have next := alike.take_fst pooled.roomy pooled'.roomy
    have nextFor := alike.takeFor_fst pooled.roomy pooled'.roomy
    have second : ∀ type edits, c = .edge (.pair type) edits → p.supply.take.2.take.1 = t.take.2.take.1 := by
      intro type edits pair
      subst pair
      -- the plan behind the call has room for both variables of the pair
      have live : (p.act (.call (.edge (.pair type) edits))).supply.live = p.supply.live + 2 := by
        change p.supply.take.2.take.2.live = _
        rw [Supply.live_take, Supply.live_take]
      have live' := pooled.owned.live_withSupply pooled'.owned
      have capacity : p.supply.capacity = p.config.poolCapacity := pooled.capacity
      have capacity' : t.capacity = p.config.poolCapacity := pooled'.capacity
      apply alike.take_take_fst pooled.roomy pooled'.roomy <;> omega
    obtain ⟨s, echoes⟩ := call_withSupply next nextFor c second
    unfold answer act
    dsimp only
    rw [step_eq, step_eq, echoes]
    cases p.call c with
    | error failure => exact ⟨t, rfl, rfl⟩
    | ok done => exact ⟨s, rfl, rfl⟩

theorem act_withSupply (pooled : p.Pooled) (pooled' : (p.withSupply t).Pooled) {a : Action}
    (room : (p.act a).supply.live ≤ p.config.poolCapacity) :
    (p.withSupply t).answer a = p.answer a ∧
      ∃ s, (p.withSupply t).act a = (p.act a).withSupply s ∧ ((p.act a).withSupply s).Pooled := by
  obtain ⟨s, answered, acted⟩ := answer_withSupply pooled pooled' room
  have owned := pooled.owned.act a
  have owned' := pooled'.owned.act a
  rw [acted] at owned'
  have live : s.live = (p.act a).supply.live := owned.live_withSupply owned'
  refine ⟨answered, s, acted, ?_⟩
  rw [← acted]
  apply pooled'.act
  rw [acted]
  change s.live ≤ p.config.poolCapacity
  omega

theorem answers_withSupply (pooled : p.Pooled) (pooled' : (p.withSupply t).Pooled) {actions : List Action}
    (fits : p.FitsPool actions) :
    (p.withSupply t).answers actions = p.answers actions ∧
      ∃ s, (p.withSupply t).acted actions = (p.acted actions).withSupply s := by
  induction actions generalizing p t with
  | nil => exact ⟨rfl, t, rfl⟩
  | cons a actions ih =>
    obtain ⟨answered, s, acted, pooled''⟩ := act_withSupply pooled pooled' fits.head
    obtain ⟨rest, u, left⟩ := ih (pooled.act fits.head) pooled'' fits.tail
    refine ⟨?_, u, ?_⟩
    · rw [answers, answers, answered, acted, rest]
    · rw [← acted] at left
      exact left

/-- A plan whose save has been compiled answers whatever is done to it next as a new plan does, and apart from the
supply it becomes the same plan, unless more variables are outstanding at some time than the pool can hold. -/
theorem recycled_answers_as_new (c : Config) {first next : List Action}
    (compiles : ∃ finished q, ((ofConfig c).acted first).compile = .ok (finished, q))
    (room : (ofConfig c).FitsPool (first ++ [.call .compile])) (room' : (ofConfig c).FitsPool next) :
    ((ofConfig c).acted (first ++ [.call .compile])).answers next = (ofConfig c).answers next ∧
      ∃ s, ((ofConfig c).acted (first ++ [.call .compile])).acted next = ((ofConfig c).acted next).withSupply s := by
  obtain ⟨finished, q, compiled⟩ := compiles
  have left : (ofConfig c).acted (first ++ [.call .compile]) = q := by
    unfold acted
    rw [List.foldl_append]
    change ((ofConfig c).acted first).step .compile = q
    rw [step_compile, compiled]
  obtain ⟨-, -, -, -, -, empty⟩ := compile_cases compiled
  have recycled : q = (ofConfig c).withSupply q.supply := by
    rw [config_acted] at empty
    rw [empty]
    rfl
  have pooled : q.Pooled := left ▸ (Pooled.ofConfig c).acted room
  rw [left]
  rw [recycled] at pooled ⊢
  exact answers_withSupply (.ofConfig c) pooled room'

def smallPool : Config := { Config.default with poolCapacity := 4 }

def firstSave : List Action :=
  [.call (.node (.stored ⟨1⟩ ⟨10⟩) []), .call (.edge (.new "T") []), .call (.edge (.pair "T") []),
    .call (.release ⟨1⟩), .call (.release ⟨2⟩)]

def nextSaves : List Action :=
  [.call (.node (.stored ⟨2⟩ ⟨20⟩) []), .call (.node (.stored ⟨1⟩ ⟨10⟩) []),
    .call (.edge (.connect ⟨0⟩ "T" ⟨1⟩ .incoming) []), .call (.unrelate ⟨"T", ⟨10⟩, ⟨20⟩⟩ none), .call (.unmap ⟨0⟩),
    .call (.edge (.new "T") []), .call (.edge (.new "T") []), .call (.release ⟨0⟩), .call (.release ⟨2⟩),
    .call .compile, .call (.node (.new ⟨3⟩) []), .call .compile]

theorem nextSaves_answered : (∃ finished q, ((ofConfig smallPool).acted firstSave).compile = .ok (finished, q)) ∧
    (ofConfig smallPool).FitsPool (firstSave ++ [.call .compile]) ∧ (ofConfig smallPool).FitsPool nextSaves ∧
    ((ofConfig smallPool).acted (firstSave ++ [.call .compile])).answers nextSaves =
      (ofConfig smallPool).answers nextSaves := by
  have compiles : ∃ finished q, ((ofConfig smallPool).acted firstSave).compile = .ok (finished, q) := ⟨_, _, rfl⟩
  have room : (ofConfig smallPool).FitsPool (firstSave ++ [.call .compile]) := by decide
  have room' : (ofConfig smallPool).FitsPool nextSaves := by decide
  exact ⟨compiles, room, room', (recycled_answers_as_new smallPool compiles room room').1⟩

end GraphWrites.Plan
