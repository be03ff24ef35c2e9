import GraphWrites.Proofs.Variable
import Mathlib.Data.Nat.Digits.Defs

namespace GraphWrites.Variable

def digitValue (c : Char) : Nat := c.toNat - '0'.toNat

def placeValue (digits : List Char) : Nat := Nat.ofDigits 10 (digits.reverse.map digitValue)

theorem isDigit_iff {c : Char} : c.isDigit = true ↔ '0' ≤ c ∧ c ≤ '9' := by
  simp only [Char.isDigit, Bool.and_eq_true, decide_eq_true_eq, Char.le_def, ge_iff_le]

theorem digitValue_lt {c : Char} (digit : c.isDigit = true) : digitValue c < 10 := by
  have range : 48 ≤ c.toNat ∧ c.toNat ≤ 57 := Char.isDigit_iff_toNat.mp digit
  change c.toNat - 48 < 10
  omega

theorem digitChar_digitValue {c : Char} (digit : c.isDigit = true) : Nat.digitChar (digitValue c) = c := by
  have range : 48 ≤ c.toNat ∧ c.toNat ≤ 57 := Char.isDigit_iff_toNat.mp digit
  apply Char.toNat_inj.mp
  rw [Nat.toNat_digitChar_of_lt_ten (digitValue_lt digit)]
  change 48 + (c.toNat - 48) = c.toNat
  omega

theorem placeValue_cons (c : Char) (cs : List Char) :
    placeValue (c :: cs) = placeValue cs + 10 ^ cs.length * digitValue c := by
  simp [placeValue, Nat.ofDigits_append]

theorem ofDigitChars_cons (c : Char) (cs : List Char) (n : Nat) :
    Nat.ofDigitChars 10 (c :: cs) n = Nat.ofDigitChars 10 cs (10 * n + digitValue c) := Nat.ofDigitChars_cons

theorem ofDigitChars_eq_placeValue (cs : List Char) : Nat.ofDigitChars 10 cs 0 = placeValue cs := by
  induction cs with
  | nil => rfl
  | cons c cs ih =>
    rw [ofDigitChars_cons, Nat.zero_add, Nat.ofDigitChars_eq_ofDigitChars_zero, ih, placeValue_cons, Nat.add_comm]

theorem index?_eq_some_iff {digits : List Char} {n : Nat} : index? digits = some n ↔
    digits ≠ [] ∧ (∀ c ∈ digits, c.isDigit = true) ∧ Nat.ofDigitChars 10 digits 0 = n ∧ n < indexBound := by
  simp only [index?, Option.ite_none_right_eq_some, List.all_eq_true, Option.some_inj]
  constructor
  · rintro ⟨⟨some, all, bound⟩, rfl⟩
    exact ⟨some, all, rfl, bound⟩
  · rintro ⟨some, all, rfl, bound⟩
    exact ⟨⟨some, all, bound⟩, rfl⟩

def fitting? (n : Nat) : Option UInt32 := if n < UInt32.size then some (.ofNat n) else none

def digit? (c : Char) : Option Nat := if c.isDigit then some (digitValue c) else none

/-- The index with one more digit. Both the multiplication and the addition can overflow. -/
def push? (n : UInt32) (c : Char) : Option UInt32 := do
  let d ← digit? c
  let tens ← fitting? (n.toNat * 10)
  fitting? (tens.toNat + d)

def word? (digits : List Char) : Option UInt32 := if digits = [] then none else digits.foldlM push? 0

theorem fitting?_eq_some_iff {n : Nat} {w : UInt32} : fitting? n = some w ↔ w.toNat = n := by
  unfold fitting?
  split
  · rename_i fits
    rw [Option.some_inj, ← UInt32.toNat_inj, UInt32.toNat_ofNat_of_lt' fits]
    exact eq_comm
  · rename_i large
    have bound : w.toNat < UInt32.size := w.toNat_lt
    simp only [reduceCtorEq, false_iff]
    omega

theorem exists_word {n : Nat} (bound : n < indexBound) : ∃ w : UInt32, w.toNat = n :=
  ⟨.ofNat n, UInt32.toNat_ofNat_of_lt' bound⟩

theorem push?_eq_some_iff {n m : UInt32} {c : Char} :
    push? n c = some m ↔ c.isDigit = true ∧ m.toNat = 10 * n.toNat + digitValue c := by
  simp only [push?, digit?, Option.bind_eq_bind, Option.bind_eq_some_iff, Option.ite_none_right_eq_some, Option.some_inj,
    fitting?_eq_some_iff]
  constructor
  · rintro ⟨d, ⟨digit, rfl⟩, tens, product, sum⟩
    exact ⟨digit, by omega⟩
  · rintro ⟨digit, sum⟩
    have bound : m.toNat < indexBound := m.toNat_lt
    obtain ⟨tens, product⟩ := exists_word (n := n.toNat * 10) (by omega)
    exact ⟨_, ⟨digit, rfl⟩, tens, product, by omega⟩

theorem le_ofDigitChars (cs : List Char) (n : Nat) : n ≤ Nat.ofDigitChars 10 cs n := by
  have shift : Nat.ofDigitChars 10 cs n = 10 ^ cs.length * n + Nat.ofDigitChars 10 cs 0 :=
    Nat.ofDigitChars_eq_ofDigitChars_zero
  have grown : n ≤ 10 ^ cs.length * n := Nat.le_mul_of_pos_left n (Nat.pow_pos (by decide))
  omega

theorem foldlM_push?_eq_some_iff {cs : List Char} {n m : UInt32} : cs.foldlM push? n = some m ↔
    (∀ c ∈ cs, c.isDigit = true) ∧ m.toNat = Nat.ofDigitChars 10 cs n.toNat := by
  induction cs generalizing n with
  | nil =>
    simp only [List.foldlM_nil, Option.pure_def, Option.some_inj, Nat.ofDigitChars_nil, UInt32.toNat_inj]
    exact ⟨fun same => ⟨List.forall_mem_nil _, same.symm⟩, fun h => h.2.symm⟩
  | cons c cs ih =>
    simp only [List.foldlM_cons, Option.bind_eq_bind, Option.bind_eq_some_iff, push?_eq_some_iff, ih,
      List.forall_mem_cons, ofDigitChars_cons]
    constructor
    · rintro ⟨k, ⟨digit, step⟩, digits, rest⟩
      exact ⟨⟨digit, digits⟩, step ▸ rest⟩
    · rintro ⟨⟨digit, digits⟩, whole⟩
      -- what is read so far is at most the whole number, and that is a word
      have bound : m.toNat < indexBound := m.toNat_lt
      have most := le_ofDigitChars cs (10 * n.toNat + digitValue c)
      obtain ⟨k, step⟩ := exists_word (n := 10 * n.toNat + digitValue c) (by omega)
      rw [← step] at whole
      exact ⟨k, ⟨digit, step⟩, digits, whole⟩

theorem map_word? (digits : List Char) : (word? digits).map UInt32.toNat = index? digits := by
  ext n
  simp only [Option.map_eq_some_iff, word?, Option.ite_none_left_eq_some, foldlM_push?_eq_some_iff, index?_eq_some_iff]
  constructor
  · rintro ⟨m, ⟨some, all, value⟩, rfl⟩
    exact ⟨some, all, value.symm, m.toNat_lt⟩
  · rintro ⟨some, all, value, bound⟩
    obtain ⟨m, word⟩ := exists_word bound
    exact ⟨m, ⟨some, all, word.trans value.symm⟩, word⟩

theorem toDigits_ofDigitChars {cs : List Char} {n : Nat} (positive : 0 < n) (digits : ∀ c ∈ cs, c.isDigit = true) :
    Nat.toDigits 10 (Nat.ofDigitChars 10 cs n) = Nat.toDigits 10 n ++ cs := by
  induction cs generalizing n with
  | nil => simp
  | cons c cs ih =>
    obtain ⟨digit, digits⟩ := List.forall_mem_cons.mp digits
    have small := digitValue_lt digit
    have one : Nat.toDigits 10 (digitValue c) = [c] := by
      rw [Nat.toDigits_of_lt_base small, digitChar_digitValue digit]
    calc
      Nat.toDigits 10 (Nat.ofDigitChars 10 (c :: cs) n)
          = Nat.toDigits 10 (Nat.ofDigitChars 10 cs (10 * n + digitValue c)) := by rw [ofDigitChars_cons]
      _ = Nat.toDigits 10 (10 * n + digitValue c) ++ cs := ih (by omega) digits
      _ = Nat.toDigits 10 n ++ [c] ++ cs := by rw [← Nat.toDigits_append_toDigits (by decide) positive small, one]
      _ = Nat.toDigits 10 n ++ c :: cs := List.append_assoc _ _ _

theorem eq_zeros_append_toDigits {cs : List Char} (some : cs ≠ []) (digits : ∀ c ∈ cs, c.isDigit = true) :
    ∃ zeros, cs = List.replicate zeros '0' ++ Nat.toDigits 10 (Nat.ofDigitChars 10 cs 0) := by
  induction cs with
  | nil => exact absurd rfl some
  | cons c cs ih =>
    obtain ⟨digit, digits⟩ := List.forall_mem_cons.mp digits
    have value : Nat.ofDigitChars 10 (c :: cs) 0 = Nat.ofDigitChars 10 cs (digitValue c) := by
      rw [ofDigitChars_cons, Nat.mul_zero, Nat.zero_add]
    rcases Nat.eq_zero_or_pos (digitValue c) with zero | positive
    · have first : c = '0' := by
        rw [← digitChar_digitValue digit, zero]
        rfl
      rw [value, zero]
      cases cs with
      | nil => exact ⟨0, by rw [first]; rfl⟩
      | cons d ds =>
        obtain ⟨zeros, rest⟩ := ih (List.cons_ne_nil d ds) digits
        refine ⟨zeros + 1, ?_⟩
        rw [List.replicate_succ, List.cons_append, ← rest, first]
    · refine ⟨0, ?_⟩
      rw [value, toDigits_ofDigitChars positive digits, Nat.toDigits_of_lt_base (digitValue_lt digit),
        digitChar_digitValue digit]
      rfl

theorem index?_eq_some_iff_zeros {digits : List Char} {n : Nat} : index? digits = some n ↔
    n < indexBound ∧ ∃ zeros, digits = List.replicate zeros '0' ++ Nat.toDigits 10 n := by
  rw [index?_eq_some_iff]
  constructor
  · rintro ⟨some, all, rfl, bound⟩
    exact ⟨bound, eq_zeros_append_toDigits some all⟩
  · rintro ⟨bound, zeros, rfl⟩
    refine ⟨?_, fun c member => ?_, ?_, bound⟩
    · exact List.append_ne_nil_of_right_ne_nil _ Nat.toDigits_ne_nil
    · rcases List.mem_append.mp member with zero | digit
      · rw [List.eq_of_mem_replicate zero]
        rfl
      · exact Nat.isDigit_of_mem_toDigits (by decide) (by decide) digit
    · rw [Nat.ofDigitChars_append, Nat.ofDigitChars_replicate_zero, Nat.mul_zero, Nat.ofDigitChars_ten_toDigits]

/-- The text is an underscore, at most one plus sign, and one or more ASCII digits with the variable's index as their
value, which fits into 32 bits. -/
def Spells (s : String) (v : Variable) : Prop :=
  ∃ sign digits : String, s = "_" ++ sign ++ digits ∧ (sign = "" ∨ sign = "+") ∧ digits ≠ "" ∧
    (∀ c ∈ digits.toList, '0' ≤ c ∧ c ≤ '9') ∧ placeValue digits.toList = v.index ∧ v.index ≤ 4294967295

theorem index?_dropPlus_iff {cs : List Char} {n : Nat} : index? (dropPlus cs) = some n ↔
    ∃ sign digits, cs = sign ++ digits ∧ (sign = [] ∨ sign = ['+']) ∧ index? digits = some n := by
  constructor
  · intro read
    unfold dropPlus at read
    split at read
    · rename_i ds
      exact ⟨['+'], ds, rfl, .inr rfl, read⟩
    · exact ⟨[], cs, rfl, .inl rfl, read⟩
  · rintro ⟨sign, digits, rfl, unsigned | signed, read⟩
    · have all := (index?_eq_some_iff.mp read).2.1
      rwa [unsigned, List.nil_append, dropPlus_of_digits all]
    · rwa [signed]

theorem ofText?_eq_some_iff {s : String} {v : Variable} : ofText? s = some v ↔
    ∃ sign digits : String, s = "_" ++ sign ++ digits ∧ (sign = "" ∨ sign = "+") ∧
      index? digits.toList = some v.index := by
  constructor
  · intro read
    unfold ofText? ofChars? at read
    split at read
    · rename_i cs chars
      obtain ⟨n, numeral, rfl⟩ := Option.map_eq_some_iff.mp read
      obtain ⟨sign, digits, rfl, signs, numeral⟩ := index?_dropPlus_iff.mp numeral
      refine ⟨.ofList sign, .ofList digits, ?_, ?_, ?_⟩
      · apply String.toList_inj.mp
        simpa using chars
      · rcases signs with rfl | rfl
        · exact .inl rfl
        · exact .inr rfl
      · rwa [String.toList_ofList]
    · cases read
  · rintro ⟨sign, digits, rfl, signs, numeral⟩
    have chars : ("_" ++ sign ++ digits).toList = '_' :: (sign.toList ++ digits.toList) := by simp
    have signs : sign.toList = [] ∨ sign.toList = ['+'] := by
      rcases signs with rfl | rfl
      · exact .inl rfl
      · exact .inr rfl
    rw [ofText?, chars, ofChars?, index?_dropPlus_iff.mpr ⟨_, _, rfl, signs, numeral⟩]
    rfl

theorem ofText?_eq_some_iff_spells {s : String} {v : Variable} : ofText? s = some v ↔ Spells s v := by
  have numeral (digits : String) : index? digits.toList = some v.index ↔ digits ≠ "" ∧
      (∀ c ∈ digits.toList, '0' ≤ c ∧ c ≤ '9') ∧ placeValue digits.toList = v.index ∧ v.index ≤ 4294967295 := by
    simp only [index?_eq_some_iff, isDigit_iff, ofDigitChars_eq_placeValue, ne_eq, String.toList_eq_nil_iff]
    exact and_congr_right' (and_congr_right' (and_congr_right' Nat.lt_succ_iff))
  simp only [ofText?_eq_some_iff, Spells, numeral]

theorem ofText?_eq_some_iff_zeros {s : String} {v : Variable} : ofText? s = some v ↔ v.index ≤ 4294967295 ∧
    ∃ sign zeros, (sign = "" ∨ sign = "+") ∧
      s = "_" ++ sign ++ String.ofList (List.replicate zeros '0') ++ v.index.repr := by
  have numeral (digits : String) (zeros : Nat) : digits.toList = List.replicate zeros '0' ++ Nat.toDigits 10 v.index ↔
      digits = String.ofList (List.replicate zeros '0') ++ v.index.repr := by
    rw [← String.toList_inj, String.toList_append, String.toList_ofList, Nat.toList_repr]
  simp only [ofText?_eq_some_iff, index?_eq_some_iff_zeros, numeral]
  constructor
  · rintro ⟨sign, digits, rfl, signs, bound, zeros, rfl⟩
    exact ⟨Nat.le_of_lt_succ bound, sign, zeros, signs, (String.append_assoc ..).symm⟩
  · rintro ⟨bound, sign, zeros, signs, rfl⟩
    exact ⟨sign, _, String.append_assoc .., signs, Nat.lt_succ_of_le bound, zeros, rfl⟩

theorem ofText_eq_ok_iff {s : String} {v : Variable} : ofText s = .ok v ↔ ofText? s = some v := by
  unfold ofText
  cases ofText? s <;> simp

theorem ofText_eq_error_iff {s : String} {failure : Failure} :
    ofText s = .error failure ↔ failure = .unknownReference s ∧ ofText? s = none := by
  unfold ofText
  cases ofText? s <;> simp [eq_comm]

/-- The text of a variable is read back, and no two variables share one. A text is read exactly if it spells a variable,
which is to say that only a sign and zeros tell it from the printed text, and any other text is refused and handed back
in the failure. Reading the index in words of 32 bits, digit by digit, comes to the same. -/
theorem texts_read_exactly :
    (∀ i : UInt32, ofText (text ⟨i.toNat⟩) = .ok ⟨i.toNat⟩) ∧ Function.Injective text ∧
      (∀ (s : String) (v : Variable), ofText s = .ok v ↔ Spells s v) ∧
      (∀ (s : String) (failure : Failure),
        ofText s = .error failure ↔ failure = .unknownReference s ∧ ∀ v, ¬Spells s v) ∧
      (∀ (s : String) (v : Variable), ofText s = .ok v ↔ v.index ≤ 4294967295 ∧ ∃ sign zeros,
        (sign = "" ∨ sign = "+") ∧ s = "_" ++ sign ++ String.ofList (List.replicate zeros '0') ++ v.index.repr) ∧
      ∀ digits : List Char, index? digits = (word? digits).map UInt32.toNat := by
  refine ⟨fun i => ?_, text_injective, fun s v => ?_, fun s failure => ?_, fun s v => ?_, fun digits => ?_⟩
  · exact ofText_eq_ok_iff.mpr (ofText?_text i.toNat_lt)
  · rw [ofText_eq_ok_iff, ofText?_eq_some_iff_spells]
  · simp only [ofText_eq_error_iff, Option.eq_none_iff_forall_ne_some, ne_eq, ofText?_eq_some_iff_spells]
  · rw [ofText_eq_ok_iff, ofText?_eq_some_iff_zeros]
  · exact (map_word? digits).symm

example : ofText "_+0004294967295" = .ok ⟨4294967295⟩ ∧
    ofText "_4294967296" = .error (.unknownReference "_4294967296") := by decide

end GraphWrites.Variable
