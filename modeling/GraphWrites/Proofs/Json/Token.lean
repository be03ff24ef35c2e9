import GraphWrites.Json.Token
import Mathlib.Data.Nat.Init

namespace GraphWrites.Json

/-- The piece is one of the ways in which a string may name a character. -/
def Piece.Spells (p : Piece) (c : Char) : Prop := p = .char c ∨ p = .unit c.toNat ∧ c.toNat < 0x20

theorem joinPieces_cons {p : Piece} {c : Char} (spells : p.Spells c) (ps : List Piece) :
    joinPieces (p :: ps) = (joinPieces ps).map (c :: ·) := by
  rcases spells with rfl | ⟨rfl, control⟩
  · rfl
  · have low : ¬ (0xD800 ≤ c.toNat ∧ c.toNat < 0xDC00) := by omega
    have high : ¬ (0xDC00 ≤ c.toNat ∧ c.toNat < 0xE000) := by omega
    have both : ¬ (0xD800 ≤ c.toNat ∧ c.toNat < 0xE000) := by omega
    cases ps with
    | nil => rw [joinPieces.eq_def]; simp [both, Char.ofNat_toNat]
    | cons p ps => cases p <;> (rw [joinPieces.eq_def]; simp [both, low, high, Char.ofNat_toNat])

theorem hexValue?_hexDigit : ∀ n < 16, hexValue? (hexDigit n) = some n := by decide

theorem pieces_escape (c : Char) (rest : List Char) :
    ∃ p : Piece, p.Spells c ∧ pieces (escape c ++ rest) = (pieces rest).map fun (ps, rest) => (p :: ps, rest) := by
  unfold escape
  split
  case h_8 quote backslash _ _ _ _ _ =>
    split
    · rename_i control
      have high := hexValue?_hexDigit (c.toNat / 16) (by omega)
      have low := hexValue?_hexDigit (c.toNat % 16) (by omega)
      have zero : hexValue? '0' = some 0 := rfl
      refine ⟨.unit c.toNat, .inr ⟨rfl, control⟩, ?_⟩
      have value : c.toNat / 16 * 16 + c.toNat % 16 = c.toNat := by omega
      cases behind : pieces rest <;> simp [pieces, behind, zero, high, low, value]
    · rename_i plain
      refine ⟨.char c, .inl rfl, ?_⟩
      rw [List.singleton_append, pieces, if_neg (not_or.mpr ⟨plain, backslash⟩)]
      · cases pieces rest <;> rfl
      · exact quote
      · exact fun _ _ _ _ _ same _ => backslash same
      · exact fun _ _ same _ => backslash same
  all_goals
    refine ⟨_, .inl rfl, ?_⟩
    cases behind : pieces rest <;> simp [pieces, behind]

theorem pieces_escapes (cs rest : List Char) :
    ∃ ps, pieces (cs.flatMap escape ++ '"' :: rest) = some (ps, rest) ∧ joinPieces ps = some cs := by
  induction cs with
  | nil => exact ⟨[], rfl, rfl⟩
  | cons c cs ih =>
    obtain ⟨ps, read, joined⟩ := ih
    obtain ⟨p, spells, first⟩ := pieces_escape c (cs.flatMap escape ++ '"' :: rest)
    refine ⟨p :: ps, ?_, ?_⟩
    · rw [List.flatMap_cons, List.append_assoc, first, read]
      rfl
    · rw [joinPieces_cons spells, joined]
      rfl

def EndsNumber (rest : List Char) : Prop :=
  ∀ c, rest.head? = some c → c.isDigit = false ∧ c ≠ '.' ∧ c ≠ 'e' ∧ c ≠ 'E'

theorem head?_toDigits_ne_zero {n : Nat} (positive : 0 < n) : (Nat.toDigits 10 n).head? ≠ some '0' := by
  induction n using Nat.strongRecOn with
  | ind n ih =>
    rw [Nat.toDigits_eq_if (by decide)]
    split
    · rename_i small
      have digits : ∀ d < 10, 0 < d → [Nat.digitChar d].head? ≠ some '0' := by decide
      exact digits n small positive
    · have leading := ih (n / 10) (by omega) (by omega)
      rw [List.head?_append]
      cases ds : Nat.toDigits 10 (n / 10) with
      | nil => exact absurd ds Nat.toDigits_ne_nil
      | cons d ds => rwa [ds] at leading

theorem isDigit_of_mem_toDigits {n : Nat} {c : Char} (member : c ∈ Nat.toDigits 10 n) : c.isDigit = true :=
  Nat.isDigit_of_mem_toDigits (by decide) (by decide) member

theorem digits1_append {ds rest : List Char} (some : ds ≠ []) (digits : ∀ c ∈ ds, c.isDigit = true)
    (ends : EndsNumber rest) : digits1 (ds ++ rest) = .some (ds, rest) := by
  have taken : rest.takeWhile Char.isDigit = [] := by
    cases rest with
    | nil => rfl
    | cons c rest => simp [(ends c rfl).1]
  have dropped : rest.dropWhile Char.isDigit = rest := by
    cases rest with
    | nil => rfl
    | cons c rest => simp [(ends c rfl).1]
  rw [digits1, List.takeWhile_append_of_pos digits, List.dropWhile_append_of_pos digits, taken, dropped,
    List.append_nil]
  cases ds with
  | nil => exact absurd rfl some
  | cons c ds => rfl

theorem wholePart_toDigits (n : Nat) {rest : List Char} (ends : EndsNumber rest) :
    wholePart (Nat.toDigits 10 n ++ rest) = some (Nat.toDigits 10 n, rest) := by
  rcases Nat.eq_zero_or_pos n with rfl | positive
  · rfl
  · have first := head?_toDigits_ne_zero positive
    have read := digits1_append Nat.toDigits_ne_nil (fun _ => isDigit_of_mem_toDigits (n := n)) ends
    cases digits : Nat.toDigits 10 n with
    | nil => exact absurd digits Nat.toDigits_ne_nil
    | cons d ds =>
      rw [digits] at first read
      rw [List.cons_append, wholePart]
      · exact read
      · exact fun _ zero => first (congrArg some (List.cons.inj zero).1)

theorem minus_toDigits (n : Nat) (rest : List Char) :
    minus (Nat.toDigits 10 n ++ rest) = (false, Nat.toDigits 10 n ++ rest) := by
  cases digits : Nat.toDigits 10 n with
  | nil => exact absurd digits Nat.toDigits_ne_nil
  | cons d ds =>
    have digit := isDigit_of_mem_toDigits (digits ▸ List.mem_cons_self)
    rw [List.cons_append, minus]
    intro _ same
    rw [(List.cons.inj same).1] at digit
    revert digit
    decide

theorem EndsNumber.fractionPart {rest : List Char} (ends : EndsNumber rest) : fractionPart rest = some ([], rest) := by
  cases rest with
  | nil => rfl
  | cons c rest =>
    rw [Json.fractionPart]
    exact fun _ point => (ends c rfl).2.1 (List.cons.inj point).1

theorem EndsNumber.exponentPart {rest : List Char} (ends : EndsNumber rest) :
    exponentPart rest = some (none, rest) := by
  cases rest with
  | nil => rfl
  | cons c rest => rw [Json.exponentPart, if_neg (not_or.mpr (ends c rfl).2.2)]

theorem numeral_ofInt (i : Int) {rest : List Char} (ends : EndsNumber rest) :
    numeral ((Numeral.ofInt i).chars ++ rest) = some (.ofInt i, rest) := by
  have signed : minus ((Numeral.ofInt i).chars ++ rest) = (decide (i < 0), Nat.toDigits 10 i.natAbs ++ rest) := by
    by_cases negative : i < 0
    · simp [Numeral.chars, Numeral.ofInt, negative, minus]
    · simpa [Numeral.chars, Numeral.ofInt, negative] using minus_toDigits i.natAbs rest
  unfold numeral
  rw [signed]
  simp [wholePart_toDigits _ ends, ends.fractionPart, ends.exponentPart, Numeral.ofInt]

theorem read?_ofInt {i : Int} (low : -0x8000000000000000 ≤ i) (high : i < 0x10000000000000000) :
    (Numeral.ofInt i).read? = some (.int i) := by
  have digits : Nat.ofDigitChars 10 (Nat.toDigits 10 i.natAbs) 0 = i.natAbs := by simp
  unfold Numeral.read?
  simp only [Numeral.ofInt, digits, decide_eq_true_eq, true_and]
  have word : if i < 0 then 0 < i.natAbs ∧ i.natAbs ≤ 2 ^ 63 else i.natAbs < 2 ^ 64 := by
    split <;> omega
  have value : (if i < 0 then -(i.natAbs : Int) else i.natAbs) = i := by
    split <;> omega
  exact (if_pos word).trans (congrArg (some ∘ Numeral.Reading.int) value)

theorem chars_ofInt (i : Int) :
    ∃ c cs, (Numeral.ofInt i).chars = c :: cs ∧ (c = '-' ∨ c.isDigit = true) := by
  by_cases negative : i < 0
  · exact ⟨'-', Nat.toDigits 10 i.natAbs, by simp [Numeral.chars, Numeral.ofInt, negative], .inl rfl⟩
  · cases digits : Nat.toDigits 10 i.natAbs with
    | nil => exact absurd digits Nat.toDigits_ne_nil
    | cons d ds =>
      refine ⟨d, ds, by simp [Numeral.chars, Numeral.ofInt, negative, digits], .inr ?_⟩
      exact isDigit_of_mem_toDigits (digits ▸ List.mem_cons_self)

def Token.Whole : Token → Prop
  | .number n => ∃ i, n = .ofInt i
  | .text content => ∃ cs, content = some cs
  | _ => True

theorem token_of_numeral {c : Char} (start : c = '-' ∨ c.isDigit = true) (cs : List Char) :
    token (c :: cs) = (numeral (c :: cs)).map fun (n, rest) => (.number n, rest) := by
  have other : ∀ d, d ≠ '-' → d.isDigit = false → c ≠ d := by
    rintro d minus digit rfl
    rcases start with same | same
    · exact minus same
    · rw [digit] at same
      cases same
  rw [token]
  all_goals
    intros
    rename_i same
    exact other _ (by decide) (by decide) (List.cons.inj same).1

theorem token_chars {t : Token} {rest : List Char} (whole : t.Whole) (ends : (∃ n, t = .number n) → EndsNumber rest) :
    token (t.chars ++ rest) = some (t, rest) := by
  cases t with
  | bool b => cases b <;> rfl
  | number n =>
    obtain ⟨i, rfl⟩ := whole
    obtain ⟨c, cs, spelled, start⟩ := chars_ofInt i
    have read := numeral_ofInt i (ends ⟨_, rfl⟩)
    rw [spelled] at read
    rw [Token.chars, spelled, List.cons_append, token_of_numeral start, ← List.cons_append, read]
    rfl
  | text content =>
    obtain ⟨cs, rfl⟩ := whole
    obtain ⟨ps, read, joined⟩ := pieces_escapes cs rest
    have behind : Token.chars (.text (some cs)) ++ rest = '"' :: (cs.flatMap escape ++ '"' :: rest) := by
      simp [Token.chars, quote]
    rw [behind, token, read, ← joined]
    rfl
  | _ => rfl

theorem chars_eq_cons {t : Token} (whole : t.Whole) : ∃ c cs, t.chars = c :: cs ∧ isBlank c = false := by
  cases t with
  | bool b => cases b <;> exact ⟨_, _, rfl, by decide⟩
  | number n =>
    obtain ⟨i, rfl⟩ := whole
    obtain ⟨c, cs, spelled, start⟩ := chars_ofInt i
    refine ⟨c, cs, spelled, ?_⟩
    rw [isBlank, Bool.eq_false_iff]
    intro blank
    simp only [Bool.or_eq_true, decide_eq_true_eq] at blank
    rcases blank with ((rfl | rfl) | rfl) | rfl <;> revert start <;> decide
  | _ => exact ⟨_, _, rfl, by decide⟩

def Lexes (cs : List Char) (ts : List Token) : Prop := ∀ fuel, cs.length ≤ fuel → tokensWithin fuel cs = some ts

theorem Lexes.nil : Lexes [] [] := fun fuel _ => by cases fuel <;> rfl

theorem Lexes.tokens {cs : List Char} {ts : List Token} (lexes : Lexes cs ts) : tokens cs = some ts :=
  lexes cs.length (Nat.le_refl _)

theorem Lexes.cons {t : Token} {rest : List Char} {ts : List Token} (whole : t.Whole)
    (ends : (∃ n, t = .number n) → EndsNumber rest) (lexes : Lexes rest ts) : Lexes (t.chars ++ rest) (t :: ts) := by
  obtain ⟨c, cs, spelled, visible⟩ := chars_eq_cons whole
  have read := token_chars whole ends
  intro fuel bound
  rw [spelled, List.cons_append] at read bound ⊢
  cases fuel with
  | zero => cases bound
  | succ fuel =>
    have behind := lexes fuel (by simp only [List.length_cons, List.length_append] at bound; omega)
    simp [tokensWithin, visible, read, behind]

end GraphWrites.Json
