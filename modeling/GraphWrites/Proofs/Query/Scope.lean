import GraphWrites.Query

namespace GraphWrites

inductive Piece where
  | literal (s : String)
  | introduces (v : Variable)
  | uses (v : Variable)
  | keeps (vs : List Variable)
deriving DecidableEq, Repr

namespace Piece

def text : Piece → String
  | literal s => s
  | introduces v | uses v => v.text
  | keeps _ => ""

def mentioned? : Piece → Option Variable
  | introduces v | uses v => some v
  | literal _ | keeps _ => none

def separated (piece : Variable → List Piece) (vs : List Variable) : List Piece :=
  [literal ", "].intercalate (vs.map piece)

theorem separated_cons_cons (piece : Variable → List Piece) (v w : Variable) (vs : List Variable) :
    separated piece (v :: w :: vs) = piece v ++ literal ", " :: separated piece (w :: vs) := by
  simp [separated, List.intercalate]

theorem join_separated (piece : Variable → List Piece) (vs : List Variable) :
    String.join ((separated piece vs).map text) =
      ", ".intercalate (vs.map fun v => String.join ((piece v).map text)) := by
  induction vs with
  | nil => rfl
  | cons v vs ih =>
    cases vs with
    | nil => simp [separated, List.intercalate]
    | cons w vs =>
      rw [separated_cons_cons, List.map_append, List.map_cons, String.join_append, String.join_cons, ih]
      simp only [List.map_cons, String.intercalate_cons_cons, text, String.append_assoc]

theorem of_mem_separated {piece : Variable → List Piece} {vs : List Variable} {x : Piece}
    (member : x ∈ separated piece vs) : x = .literal ", " ∨ ∃ v ∈ vs, x ∈ piece v := by
  induction vs with
  | nil => cases member
  | cons v vs ih =>
    cases vs with
    | nil =>
      have only : separated piece [v] = piece v := by simp [separated, List.intercalate]
      exact .inr ⟨v, List.mem_cons_self, only ▸ member⟩
    | cons w vs =>
      rw [separated_cons_cons] at member
      rcases List.mem_append.mp member with first | rest
      · exact .inr ⟨v, List.mem_cons_self, first⟩
      · rcases List.mem_cons.mp rest with rfl | rest
        · exact .inl rfl
        · refine (ih rest).imp_right fun later => ?_
          obtain ⟨u, member, inside⟩ := later
          exact ⟨u, List.mem_cons_of_mem _ member, inside⟩

end Piece

namespace Clause

def pieces : Clause → List Piece
  | create v labels =>
    [.literal "CREATE (", .introduces v, .literal (Name.labels labels ++ ") SET "), .uses v,
      .literal (" = $" ++ v.text ++ ".props")]
  | merge v labels key =>
    [.literal "MERGE (", .introduces v,
      .literal (Name.labels labels ++ " \x7b" ++ Name.quoted key ++ ": $" ++ v.text ++ ".primaryKey\x7d) SET "), .uses v,
      .literal (" = $" ++ v.text ++ ".props")]
  | carry vs => .literal "WITH " :: (Piece.separated (fun v => [.uses v]) vs ++ [.keeps vs])
  | locate v =>
    [.literal "MATCH (", .introduces v, .literal ") WHERE id(", .uses v, .literal (") = $" ++ v.text ++ ".nodeId")]
  | removeLabels v labels => [.literal "REMOVE ", .uses v, .literal (Name.labels labels)]
  | addLabels v labels => [.literal "SET ", .uses v, .literal (Name.labels labels)]
  | patch v => [.literal "SET ", .uses v, .literal (" += $" ++ v.text ++ ".props")]
  | connect singleton v source target type keys direction =>
    [.literal (creating singleton ++ " ("), .uses source, .literal (")" ++ (arrow direction).1), .introduces v,
      .literal (":" ++ Name.quoted type ++ pattern v keys ++ (arrow direction).2 ++ "("), .uses target, .literal ")"]
  | report vs =>
    .literal "RETURN " :: Piece.separated (fun v => [.literal "id(", .uses v, .literal (") AS " ++ v.text)]) vs

theorem text_eq_join (c : Clause) : c.text = String.join (c.pieces.map Piece.text) := by
  unfold text pieces
  cases c with
  | carry vs =>
    have listing := Piece.join_separated (fun v => [.uses v]) vs
    simp only [List.map_cons, List.map_nil, Piece.text, String.join_cons, String.join_nil, String.append_empty] at listing
    simp only [List.map_cons, List.map_append, List.map_nil, Piece.text, String.join_cons, String.join_append,
      String.join_nil, String.append_empty, listing, listed]
  | report vs =>
    have listing := Piece.join_separated (fun v => [.literal "id(", .uses v, .literal (") AS " ++ v.text)]) vs
    simp only [List.map_cons, List.map_nil, Piece.text, String.join_cons, String.join_nil, String.append_empty] at listing
    simp only [List.map_cons, String.join_cons, listing, Piece.text, String.append_assoc]
  | _ =>
    simp only [List.map_cons, List.map_nil, Piece.text, String.join_cons, String.join_nil, String.append_empty,
      String.append_assoc]

def introduced? : Clause → Option Variable
  | create v _ | merge v _ _ | locate v | connect _ v .. => some v
  | carry _ | removeLabels .. | addLabels .. | patch _ | report _ => none

theorem introduces_mem_pieces_iff {c : Clause} {v : Variable} : .introduces v ∈ c.pieces ↔ c.introduced? = some v := by
  have apart : ∀ (piece : Variable → List Piece) vs, (∀ w, .introduces v ∉ piece w) →
      .introduces v ∉ Piece.separated piece vs := by
    intro piece vs uses member
    rcases Piece.of_mem_separated member with same | ⟨w, -, inside⟩
    · cases same
    · exact uses w inside
  cases c with
  | carry vs => simp [pieces, introduced?, apart]
  | report vs => simp [pieces, introduced?, apart]
  | _ => simp [pieces, introduced?, eq_comm]

theorem eq_carry_of_keeps {c : Clause} {vs : List Variable} (member : .keeps vs ∈ c.pieces) : c = .carry vs := by
  have apart : ∀ (piece : Variable → List Piece) ws, (∀ w, .keeps vs ∉ piece w) → .keeps vs ∉ Piece.separated piece ws := by
    intro piece ws uses member
    rcases Piece.of_mem_separated member with same | ⟨w, -, inside⟩
    · cases same
    · exact uses w inside
  cases c with
  | carry ws => simpa [pieces, apart, eq_comm] using member
  | report ws => simp [pieces, apart] at member
  | _ => simp [pieces] at member

end Clause

structure Scope where
  introduced : List Variable
  visible : List Variable

namespace Scope

def empty : Scope := ⟨[], []⟩

def read (s : Scope) : Piece → Scope
  | .introduces v => ⟨v :: s.introduced, v :: s.visible⟩
  | .keeps vs => { s with visible := vs }
  | .literal _ | .uses _ => s

def after (s : Scope) (ps : List Piece) : Scope := ps.foldl read s

/-- A variable is introduced once and used only where it is in scope. -/
def Allows (s : Scope) : Piece → Prop
  | .literal _ => True
  | .introduces v => v ∉ s.introduced
  | .uses v => v ∈ s.visible
  | .keeps vs => ∀ v ∈ vs, v ∈ s.visible

def Accepts : Scope → List Piece → Prop
  | _, [] => True
  | s, piece :: ps => s.Allows piece ∧ (s.read piece).Accepts ps

variable {s : Scope} {ps : List Piece} {v : Variable}

theorem after_append (s : Scope) (ps qs : List Piece) : s.after (ps ++ qs) = (s.after ps).after qs := List.foldl_append

theorem accepts_append {qs : List Piece} : s.Accepts (ps ++ qs) ↔ s.Accepts ps ∧ (s.after ps).Accepts qs := by
  induction ps generalizing s with
  | nil => simp [Accepts, after]
  | cons piece ps ih => simp [Accepts, after, ih, and_assoc]

theorem mem_introduced_after : v ∈ (s.after ps).introduced ↔ v ∈ s.introduced ∨ .introduces v ∈ ps := by
  induction ps generalizing s with
  | nil => simp [after]
  | cons piece ps ih =>
    change v ∈ ((s.read piece).after ps).introduced ↔ _
    rw [ih, List.mem_cons]
    cases piece with
    | introduces w =>
      simp only [read, List.mem_cons, Piece.introduces.injEq]
      rw [or_left_comm, or_assoc]
    | _ => simp [read]

theorem mem_visible_after (whole : ∀ vs, .keeps vs ∉ ps) :
    v ∈ (s.after ps).visible ↔ v ∈ s.visible ∨ .introduces v ∈ ps := by
  induction ps generalizing s with
  | nil => simp [after]
  | cons piece ps ih =>
    change v ∈ ((s.read piece).after ps).visible ↔ _
    rw [ih fun vs member => whole vs (List.mem_cons_of_mem _ member), List.mem_cons]
    cases piece with
    | introduces w =>
      simp only [read, List.mem_cons, Piece.introduces.injEq]
      rw [or_left_comm, or_assoc]
    | keeps vs => exact absurd List.mem_cons_self (whole vs)
    | _ => simp [read]

theorem accepts_of_uses (uses : ∀ piece ∈ ps, (∃ text, piece = .literal text) ∨ ∃ v ∈ s.visible, piece = .uses v) :
    s.Accepts ps ∧ s.after ps = s := by
  induction ps with
  | nil => exact ⟨True.intro, rfl⟩
  | cons piece ps ih =>
    obtain ⟨accepted, same⟩ := ih fun piece member => uses piece (List.mem_cons_of_mem _ member)
    rcases uses piece List.mem_cons_self with ⟨text, rfl⟩ | ⟨v, visible, rfl⟩
    · exact ⟨⟨True.intro, accepted⟩, same⟩
    · exact ⟨⟨visible, accepted⟩, same⟩

theorem not_introduced_again (accepted : s.Accepts ps) (known : v ∈ s.introduced) : .introduces v ∉ ps := by
  induction ps generalizing s with
  | nil => exact List.not_mem_nil
  | cons piece ps ih =>
    obtain ⟨allowed, rest⟩ := accepted
    have later : .introduces v ∉ ps := by
      refine ih rest ?_
      cases piece with
      | introduces w => exact List.mem_cons_of_mem _ known
      | _ => exact known
    intro member
    rcases List.mem_cons.mp member with rfl | member
    · exact allowed known
    · exact later member

theorem count_introduces_le_one (accepted : s.Accepts ps) (v : Variable) : ps.count (.introduces v) ≤ 1 := by
  induction ps generalizing s with
  | nil => exact Nat.zero_le 1
  | cons piece ps ih =>
    obtain ⟨-, rest⟩ := accepted
    by_cases here : piece = .introduces v
    · subst here
      have none := not_introduced_again rest (v := v) List.mem_cons_self
      have once : (Piece.introduces v :: ps).count (.introduces v) = 1 := by
        rw [List.count_cons_self, List.count_eq_zero.mpr none]
      exact Nat.le_of_eq once
    · rw [List.count_cons_of_ne here]
      exact ih rest

theorem introduced_of_mentioned (accepted : s.Accepts ps) (visible : ∀ w ∈ s.visible, w ∈ s.introduced) {piece : Piece}
    (member : piece ∈ ps) (mentions : piece.mentioned? = some v) : v ∈ s.introduced ∨ .introduces v ∈ ps := by
  induction ps generalizing s with
  | nil => cases member
  | cons first ps ih =>
    obtain ⟨allowed, rest⟩ := accepted
    rcases List.mem_cons.mp member with rfl | later
    · cases piece with
      | introduces w =>
        cases mentions
        exact .inr List.mem_cons_self
      | uses w =>
        cases mentions
        exact .inl (visible v allowed)
      | literal text => cases mentions
      | keeps vs => cases mentions
    · cases first with
      | introduces w =>
        have still : ∀ u ∈ w :: s.visible, u ∈ w :: s.introduced := fun u known =>
          List.mem_cons.mpr ((List.mem_cons.mp known).imp_right (visible u))
        rcases ih rest still later with before | behind
        · rcases List.mem_cons.mp before with rfl | before
          · exact .inr List.mem_cons_self
          · exact .inl before
        · exact .inr (List.mem_cons_of_mem _ behind)
      | keeps vs => exact (ih rest (fun u kept => visible u (allowed u kept)) later).imp_right (List.mem_cons_of_mem _)
      | literal text => exact (ih rest visible later).imp_right (List.mem_cons_of_mem _)
      | uses w => exact (ih rest visible later).imp_right (List.mem_cons_of_mem _)

theorem count_introduces_eq_one (accepted : empty.Accepts ps) {piece : Piece} (member : piece ∈ ps)
    (mentions : piece.mentioned? = some v) : ps.count (.introduces v) = 1 := by
  have once := count_introduces_le_one accepted v
  rcases introduced_of_mentioned accepted (fun w visible => visible) member mentions with before | introduced
  · cases before
  · have some := List.count_pos_iff.mpr introduced
    omega

end Scope

end GraphWrites
