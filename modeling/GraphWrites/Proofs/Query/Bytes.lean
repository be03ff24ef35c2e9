import GraphWrites.Proofs.Query.Placeholders
import GraphWrites.Proofs.Query.Quoting
import Mathlib.Data.List.Forall2

namespace GraphWrites.Placeholder

/-- The first index from `i` on whose byte fails the test, or the end. -/
def skip (p : UInt8 → Bool) (bytes : List UInt8) (i : Nat) : Nat :=
  if _ : i < bytes.length then if p bytes[i] then skip p bytes (i + 1) else i else i
termination_by bytes.length - i

theorem le_skip (p : UInt8 → Bool) (bytes : List UInt8) (i : Nat) : i ≤ skip p bytes i := by
  fun_induction skip p bytes i with
  | case1 i _ _ ih => exact Nat.le_of_succ_le ih
  | case2 => exact Nat.le_refl _
  | case3 => exact Nat.le_refl _

def cuts (bytes : List UInt8) (i : Nat) : List (Nat × Nat) :=
  if _ : i < bytes.length then
    let b := bytes[i]
    if Mode.isQuote (Char.ofUInt8 b) then cuts bytes (skip (fun d => d != b) bytes (i + 1) + 1)
    else if Char.ofUInt8 b = '$' then
      let finish := skip (fun d => Name.isPart (Char.ofUInt8 d)) bytes (i + 1)
      if i + 1 < finish then (i + 1, finish) :: cuts bytes finish else cuts bytes finish
    else cuts bytes (i + 1)
  else []
termination_by bytes.length - i
decreasing_by
  · have := le_skip (fun d => d != bytes[i]) bytes (i + 1)
    omega
  · have := le_skip (fun d => Name.isPart (Char.ofUInt8 d)) bytes (i + 1)
    omega
  · have := le_skip (fun d => Name.isPart (Char.ofUInt8 d)) bytes (i + 1)
    omega
  · omega

def encode (cs : List Char) : List UInt8 := cs.flatMap String.utf8EncodeChar

theorem encode_nil : encode [] = [] := rfl

theorem encode_append (cs ds : List Char) : encode (cs ++ ds) = encode cs ++ encode ds := List.flatMap_append

theorem encode_toList (text : String) : encode text.toList = text.toByteArray.data.toList := by
  rw [← String.utf8Encode_toList, List.utf8Encode, List.toList_data_toByteArray, encode]

theorem utf8EncodeChar_of_lt {c : Char} (ascii : c.toNat < 128) :
    String.utf8EncodeChar c = [c.toUInt8] ∧ Char.ofUInt8 c.toUInt8 = c := by
  have small : c.val.toNat ≤ 127 := Nat.le_of_lt_succ ascii
  constructor
  · simp only [String.utf8EncodeChar, if_pos small, Char.toUInt8, Nat.toUInt8, UInt32.toUInt8]
  · apply Char.toNat_inj.mp
    change c.val.toUInt8.toUInt32.toNat = c.val.toNat
    rw [UInt8.toNat_toUInt32, UInt32.toNat_toUInt8]
    omega

theorem encode_cons_of_lt {c : Char} (ascii : c.toNat < 128) (cs : List Char) :
    encode (c :: cs) = c.toUInt8 :: encode cs := by
  rw [encode, List.flatMap_cons, (utf8EncodeChar_of_lt ascii).1]
  rfl

theorem lt_of_mem_utf8EncodeChar {c : Char} {b : UInt8} (member : b ∈ String.utf8EncodeChar c) (ascii : b.toNat < 128) :
    c.toNat < 128 := by
  apply Nat.lt_of_not_le
  intro large
  change 128 ≤ c.val.toNat at large
  unfold String.utf8EncodeChar at member
  dsimp only at member
  split at member
  · omega
  · split at member
    · simp only [List.mem_cons, List.not_mem_nil, or_false] at member
      rcases member with rfl | rfl <;> rw [UInt8.toNat_ofNat'] at ascii <;> omega
    · split at member
      · simp only [List.mem_cons, List.not_mem_nil, or_false] at member
        rcases member with rfl | rfl | rfl <;> rw [UInt8.toNat_ofNat'] at ascii <;> omega
      · simp only [List.mem_cons, List.not_mem_nil, or_false] at member
        rcases member with rfl | rfl | rfl | rfl <;> rw [UInt8.toNat_ofNat'] at ascii <;> omega

def Ascii (p : Char → Bool) : Prop := ∀ c, p c = true → c.toNat < 128

theorem ascii_isPart : Ascii Name.isPart := by
  intro c part
  rw [Name.isPart_eq, Name.isFollowing, Name.isInitial] at part
  simp only [Bool.or_eq_true, Bool.and_eq_true, decide_eq_true_eq, beq_iff_eq] at part
  rcases part with ((⟨-, bound⟩ | ⟨-, bound⟩) | rfl) | ⟨-, bound⟩
  · exact Nat.lt_of_le_of_lt bound (by decide)
  · exact Nat.lt_of_le_of_lt bound (by decide)
  · decide
  · exact Nat.lt_of_le_of_lt bound (by decide)

theorem ascii_isQuote : Ascii Mode.isQuote := by
  intro c quote
  simp only [Mode.isQuote, Bool.or_eq_true, beq_iff_eq] at quote
  rcases quote with (rfl | rfl) | rfl <;> decide

theorem ascii_eq (c : Char) (small : c.toNat < 128) : Ascii (fun d => d == c) := by
  intro d same
  rw [beq_iff_eq.mp same]
  exact small

theorem Ascii.ofUInt8 {p : Char → Bool} (ascii : Ascii p) {c : Char} {b : UInt8}
    (member : b ∈ String.utf8EncodeChar c) : p (Char.ofUInt8 b) = p c := by
  have alone (small : c.toNat < 128) : Char.ofUInt8 b = c := by
    obtain ⟨single, same⟩ := utf8EncodeChar_of_lt small
    rw [single, List.mem_singleton] at member
    rw [member, same]
  rw [Bool.eq_iff_iff]
  apply Iff.intro
  · intro holds
    have small := ascii _ holds
    change b.toUInt32.toNat < 128 at small
    rw [UInt8.toNat_toUInt32] at small
    rwa [alone (lt_of_mem_utf8EncodeChar member small)] at holds
  · intro holds
    rwa [alone (ascii c holds)]

theorem Ascii.encode_all {p : Char → Bool} (ascii : Ascii p) {cs : List Char} {value : Bool}
    (all : ∀ c ∈ cs, p c = value) : ∀ b ∈ encode cs, p (Char.ofUInt8 b) = value := by
  intro b member
  obtain ⟨c, known, member⟩ := List.mem_flatMap.mp member
  rw [ascii.ofUInt8 member]
  exact all c known

theorem Ascii.encode_head {p : Char → Bool} (ascii : Ascii p) {cs : List Char} {value : Bool}
    (head : ∀ c, cs.head? = some c → p c = value) :
    ∀ b, (encode cs).head? = some b → p (Char.ofUInt8 b) = value := by
  intro b first
  cases cs with
  | nil => cases first
  | cons c cs =>
    have known : b ∈ String.utf8EncodeChar c := by
      rw [encode, List.flatMap_cons] at first
      cases bytes : String.utf8EncodeChar c with
      | nil => exact absurd bytes (String.utf8EncodeChar_ne_nil)
      | cons d ds =>
        rw [bytes] at first
        obtain rfl := Option.some_inj.mp first
        exact List.mem_cons_self
    rw [ascii.ofUInt8 known]
    exact head c rfl

theorem not_mem_encode {c : Char} (small : c.toNat < 128) {cs : List Char} (none : c ∉ cs) : c.toUInt8 ∉ encode cs := by
  intro member
  have other : ∀ d ∈ cs, (d == c) = false := by
    intro d known
    rw [beq_eq_false_iff_ne]
    rintro rfl
    exact none known
  have differs := (ascii_eq c small).encode_all other _ member
  rw [(utf8EncodeChar_of_lt small).2] at differs
  simp at differs

theorem skip_append {p : UInt8 → Bool} {inner : List UInt8} (all : ∀ b ∈ inner, p b = true) (after : List UInt8)
    (ends : ∀ b, after.head? = some b → p b = false) (before : List UInt8) :
    skip p (before ++ (inner ++ after)) before.length = (before ++ inner).length := by
  induction inner generalizing before with
  | nil =>
    rw [skip]
    cases after with
    | nil => simp
    | cons b after => simp [ends b rfl]
  | cons b inner ih =>
    obtain ⟨first, others⟩ := List.forall_mem_cons.mp all
    have rest := ih others (before ++ [b])
    simp only [List.append_assoc, List.singleton_append, List.length_append, List.length_singleton] at rest
    rw [skip]
    simp [first, rest]

theorem cuts_of_length_le {bytes : List UInt8} {i : Nat} (bound : bytes.length ≤ i) : cuts bytes i = [] := by
  rw [cuts, dif_neg (by omega)]

theorem cuts_other {bs : List UInt8} (plain : ∀ b ∈ bs, Mode.isQuote (Char.ofUInt8 b) = false)
    (dollar : ∀ b ∈ bs, Char.ofUInt8 b ≠ '$') (before after : List UInt8) :
    cuts (before ++ (bs ++ after)) before.length = cuts (before ++ (bs ++ after)) (before ++ bs).length := by
  induction bs generalizing before with
  | nil => simp
  | cons b bs ih =>
    obtain ⟨plain, plains⟩ := List.forall_mem_cons.mp plain
    obtain ⟨dollar, dollars⟩ := List.forall_mem_cons.mp dollar
    have rest := ih plains dollars (before ++ [b])
    simp only [List.append_assoc, List.singleton_append, List.length_append, List.length_singleton] at rest
    rw [cuts]
    simp [plain, dollar, rest]

theorem bne_of_not_mem {b : UInt8} {inner : List UInt8} (closes : b ∉ inner) : ∀ d ∈ inner, (d != b) = true := by
  intro d member
  rw [bne_iff_ne]
  rintro rfl
  exact closes member

theorem cuts_span {b : UInt8} (quote : Mode.isQuote (Char.ofUInt8 b) = true) {inner : List UInt8} (closes : b ∉ inner)
    (before after : List UInt8) :
    cuts (before ++ b :: (inner ++ b :: after)) before.length =
      cuts (before ++ b :: (inner ++ b :: after)) (before ++ b :: (inner ++ [b])).length := by
  have skipped := skip_append (bne_of_not_mem closes) (b :: after) (by simp) (before ++ [b])
  simp only [List.append_assoc, List.singleton_append, List.length_append, List.length_singleton] at skipped
  rw [cuts]
  simp [quote, skipped, Nat.add_assoc]

theorem cuts_unclosed {b : UInt8} (quote : Mode.isQuote (Char.ofUInt8 b) = true) {inner : List UInt8}
    (closes : b ∉ inner) (before : List UInt8) : cuts (before ++ b :: inner) before.length = [] := by
  have skipped := skip_append (bne_of_not_mem closes) [] nofun (before ++ [b])
  simp only [List.append_assoc, List.singleton_append, List.append_nil, List.length_append,
    List.length_singleton] at skipped
  rw [cuts]
  simp [quote, skipped, cuts_of_length_le]

theorem cuts_name {b : UInt8} (dollar : Char.ofUInt8 b = '$') {name after : List UInt8}
    (parts : ∀ d ∈ name, Name.isPart (Char.ofUInt8 d) = true)
    (ends : ∀ d, after.head? = some d → Name.isPart (Char.ofUInt8 d) = false) (before : List UInt8) :
    cuts (before ++ b :: (name ++ after)) before.length =
      (if name = [] then [] else [((before ++ [b]).length, (before ++ b :: name).length)]) ++
        cuts (before ++ b :: (name ++ after)) (before ++ b :: name).length := by
  have plain : Mode.isQuote '$' = false := rfl
  have skipped := skip_append (p := fun d => Name.isPart (Char.ofUInt8 d)) parts after ends (before ++ [b])
  simp only [List.append_assoc, List.singleton_append, List.length_append, List.length_singleton] at skipped
  rw [cuts]
  simp [dollar, plain, skipped]
  cases name with
  | nil => rfl
  | cons => rfl

def IsCut (cs : List Char) (cut : Nat × Nat) (name : List Char) : Prop :=
  ∃ before behind, cs = before ++ (name ++ behind) ∧ cut = ((encode before).length, (encode (before ++ name)).length)

theorem cuts_encode (cs before : List Char) :
    List.Forall₂ (IsCut (before ++ cs)) (cuts (encode (before ++ cs)) (encode before).length) (scan .plain cs) := by
  -- by the steps of the scan; the text before them is carried along, so that all indices are those of the whole text
  induction cs using text_induction generalizing before with
  | nil =>
    rw [List.append_nil, cuts_of_length_le (Nat.le_refl _)]
    exact .nil
  | other c cs plain dollar ih =>
    have quotes : ∀ b ∈ String.utf8EncodeChar c, Mode.isQuote (Char.ofUInt8 b) = false := by
      intro b member
      rw [ascii_isQuote.ofUInt8 member, plain]
    have dollars : ∀ b ∈ String.utf8EncodeChar c, Char.ofUInt8 b ≠ '$' := by
      intro b member
      have same := (ascii_eq '$' (by decide)).ofUInt8 member
      simpa [dollar] using same
    have bytes : encode (before ++ c :: cs) = encode before ++ (String.utf8EncodeChar c ++ encode cs) :=
      encode_append before (c :: cs)
    have step := cuts_other quotes dollars (encode before) (encode cs)
    have rest := ih (before ++ [c])
    rw [List.append_assoc, List.singleton_append, encode_append before [c]] at rest
    rw [scan_other plain dollar, bytes, step, ← bytes]
    simpa [encode] using rest
  | name run rest parts stops ih =>
    have small : '$'.toNat < 128 := by decide
    have bytes : encode (before ++ '$' :: (run ++ rest)) =
        encode before ++ '$'.toUInt8 :: (encode run ++ encode rest) := by
      rw [encode_append, encode_cons_of_lt small, encode_append]
    have step := cuts_name (utf8EncodeChar_of_lt small).2 (ascii_isPart.encode_all parts)
      (ascii_isPart.encode_head stops) (encode before)
    have others := ih (before ++ '$' :: run)
    have named : List.Forall₂ (IsCut (before ++ '$' :: (run ++ rest)))
        (if encode run = [] then []
          else [((encode before ++ ['$'.toUInt8]).length, (encode before ++ '$'.toUInt8 :: encode run).length)])
        (Mode.finished (.name run)) := by
      cases run with
      | nil => exact .nil
      | cons c run =>
        have some : encode (c :: run) ≠ [] := by simp [encode, String.utf8EncodeChar_ne_nil]
        rw [if_neg some]
        refine .cons ⟨before ++ ['$'], rest, by simp, ?_⟩ .nil
        simp [encode_append, encode_cons_of_lt small, encode_nil]
    rw [scan_name parts stops, bytes, step, ← bytes]
    refine List.rel_append named ?_
    simpa [encode_append, encode_cons_of_lt small] using others
  | span q inner rest quote closes ih =>
    have small := ascii_isQuote q quote
    have bytes : encode (before ++ q :: (inner ++ q :: rest)) =
        encode before ++ q.toUInt8 :: (encode inner ++ q.toUInt8 :: encode rest) := by
      rw [encode_append, encode_cons_of_lt small, encode_append, encode_cons_of_lt small]
    have opens : Mode.isQuote (Char.ofUInt8 q.toUInt8) = true := by rw [(utf8EncodeChar_of_lt small).2, quote]
    have step := cuts_span opens (not_mem_encode small closes) (encode before) (encode rest)
    have rest := ih (before ++ q :: (inner ++ [q]))
    rw [scan_span quote closes, bytes, step, ← bytes]
    simpa [encode_append, encode_cons_of_lt small, encode_nil] using rest
  | unclosed q inner quote closes =>
    have small := ascii_isQuote q quote
    have opens : Mode.isQuote (Char.ofUInt8 q.toUInt8) = true := by rw [(utf8EncodeChar_of_lt small).2, quote]
    rw [scan_unclosed quote closes, encode_append, encode_cons_of_lt small,
      cuts_unclosed opens (not_mem_encode small closes)]
    exact .nil

/-- For every text the scan by indices comes to an end, cuts names out between characters, and these are the
placeholders. They are the names behind a `$` outside of quotes, as long as they can be. A name that the caller gave
adds none and takes none away if the text before it closes its quotes and ends in no placeholder. -/
theorem placeholders_by_parts :
    (∀ text : String, ∃ names, List.Forall₂ (IsCut text.toList) (cuts text.toByteArray.data.toList 0) names ∧
        ofText text = SortedSet.ofList (names.map String.ofList)) ∧
      (∀ text name : String, name ∈ (ofText text).toList ↔ Occurs text.toList name.toList) ∧
      ∀ a : String, Balanced a.toList → (∀ c, a.toList.getLast? = some c → c ≠ '$' ∧ Name.isPart c = false) →
        ∀ n b name : String, name ∈ (ofText (a ++ Name.quoted n ++ b)).toList ↔
          name ∈ (ofText a).toList ∨ name ∈ (ofText b).toList := by
  refine ⟨fun text => ⟨scan .plain text.toList, ?_, rfl⟩, mem_ofText_iff, ?_⟩
  · rw [← encode_toList]
    exact cuts_encode text.toList []
  · intro a balanced last n b name
    exact mem_ofText_around balanced last n b name

def located : String := "MATCH (n:`$odd`) WHERE n.é = $a AND '$b' <> n."

theorem placeholders_around_ticked :
    ("a" ∈ (ofText (located ++ Name.quoted "`\"$x" ++ "`$y` = $c")).toList ↔
      "a" ∈ (ofText located).toList ∨ "a" ∈ (ofText "`$y` = $c").toList) ∧
    "a" ∈ (ofText located).toList := by
  obtain ⟨-, occurs, around⟩ := placeholders_by_parts
  have balanced : Balanced located.toList := by decide
  have last : ∀ c, located.toList.getLast? = some c → c ≠ '$' ∧ Name.isPart c = false := by
    intro c same
    obtain rfl : '.' = c := Option.some_inj.mp same
    decide
  have starts : Starts "a AND '$b' <> n.".toList "a".toList := by
    refine ⟨" AND '$b' <> n.".toList, rfl, by decide, List.all_eq_true.mp (by decide), ?_⟩
    intro c same
    obtain rfl : ' ' = c := Option.some_inj.mp same
    decide
  refine ⟨around located balanced last _ _ _, (occurs _ _).mpr ?_⟩
  exact ⟨"MATCH (n:`$odd`) WHERE n.é = ".toList, _, rfl, by decide, starts⟩

end GraphWrites.Placeholder
