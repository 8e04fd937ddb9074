import HostBridge.Json.Printer
import HostBridge.Json.Reader
import HostBridge.Proofs.Decimal.Numeral
import HostBridge.Proofs.Double.Shortest
import Mathlib.Data.Option.Basic

/-!
Strings and numbers of JSON are read back from their text.

An escape stands for the one character that is written as it, so the reader of strings takes a
text apart character by character. The text of a number is one numeral: an integer has the digits
of its size, and the digits of a double are the shortest that are read back as the double.
-/

namespace HostBridge

/-! ### Strings -/

namespace Json

lemma hexDigit?_digitChar {n : ℕ} (hn : n < 16) : Text.hexDigit? (Nat.digitChar n) = some n := by
  have hall : ∀ n < 16, Text.hexDigit? (Nat.digitChar n) = some n := by decide
  exact hall n hn

lemma readUnit_hexPair {n : ℕ} (hn : n < 256) (rest : List Char) :
    readUnit ('0' :: '0' :: (hexPair n ++ rest)) = some (n, rest) := by
  have hzero : Text.hexDigit? '0' = some 0 := rfl
  have hhigh := hexDigit?_digitChar (n := n / 16 % 16) (by omega)
  have hlow := hexDigit?_digitChar (n := n % 16) (by omega)
  have hvalue : 16 * (n / 16 % 16) + n % 16 = n := by omega
  simp [readUnit, Text.readHex, hexPair, hzero, hhigh, hlow, hvalue]

/-- A character is taken off the front of a string, escaped or not. -/
lemma readQuoted_escape (c : Char) (limit : ℕ) (rest : List Char) :
    Text.readQuoted readEscape isPlain (limit + 1) (escape c ++ rest) =
      (Text.readQuoted readEscape isPlain limit rest).map fun (cs, rest) => (c :: cs, rest) := by
  have hescaped : ∀ {text : List Char}, readEscape text = some (c, rest) →
      Text.readQuoted readEscape isPlain (limit + 1) ('\\' :: text) =
        (Text.readQuoted readEscape isPlain limit rest).map
          fun (cs, rest) => (c :: cs, rest) := by
    intro text htext
    rw [Text.readQuoted, if_neg (by decide), if_pos rfl, htext]
    simp only [bind, Option.bind]
    cases Text.readQuoted readEscape isPlain limit rest <;> rfl
  unfold escape
  -- seven characters have an escape of their own
  iterate 7
    split
    · rename_i h; subst h; exact hescaped rfl
  split
  · rename_i hlow
    have hunit := readUnit_hexPair (n := c.toNat) (by omega) rest
    have hunicode : readEscape ('u' :: '0' :: '0' :: (hexPair c.toNat ++ rest)) =
        some (c, rest) := by
      simp only [readEscape, readUnicode, hunit, bind, Option.bind]
      rw [if_neg (by omega), if_neg (by omega), Char.ofNat_toNat]
    exact hescaped hunicode
  · rename_i hquote hbackslash _ _ _ _ _ hlow
    have hplain : isPlain c = true := decide_eq_true (Nat.le_of_not_lt hlow)
    rw [List.singleton_append, Text.readQuoted, if_neg hquote, if_neg hbackslash, if_pos hplain]
    cases Text.readQuoted readEscape isPlain limit rest <;> rfl

lemma readQuoted_flatMap (cs rest : List Char) {limit : ℕ} (hlimit : cs.length < limit) :
    Text.readQuoted readEscape isPlain limit (cs.flatMap escape ++ '"' :: rest) =
      some (cs, rest) := by
  induction cs generalizing limit with
  | nil =>
    obtain ⟨limit, rfl⟩ := Nat.exists_eq_add_one_of_ne_zero (Nat.ne_of_gt hlimit)
    rfl
  | cons c cs ih =>
    have hpos : limit ≠ 0 := Nat.ne_of_gt (Nat.zero_lt_of_lt hlimit)
    obtain ⟨limit, rfl⟩ := Nat.exists_eq_add_one_of_ne_zero hpos
    rw [List.flatMap_cons, List.append_assoc, readQuoted_escape,
      ih (Nat.lt_of_succ_lt_succ hlimit)]
    rfl

/-- **Strings are read back** from what stands behind the opening quote. -/
lemma readString_print (s : String) (rest : List Char) {limit : ℕ}
    (hlimit : s.toList.length < limit) :
    readString limit (s.toList.flatMap escape ++ '"' :: rest) = some (s, rest) := by
  simp only [readString, readQuoted_flatMap _ _ hlimit, Option.map_some, String.ofList_toList]

end Json

/-! ### Numbers -/

namespace Numeral

lemma whole?_toDigits (n : ℕ) {rest : List Char} (hrest : NoDigit rest) :
    whole? (Nat.toDigits 10 n ++ rest) = some (Nat.toDigits 10 n, rest) := by
  by_cases hn : n = 0
  · subst hn; rfl
  · exact whole?_append Nat.toDigits_ne_nil (fun c => isDigit_of_mem_toDigits)
      (zero_notMem_head?_toDigits hn) hrest

lemma unsigned?_toDigits (negative : Bool) (n : ℕ) {rest : List Char} (hrest : Stops rest) :
    unsigned? negative (Nat.toDigits 10 n ++ rest) =
      some (⟨negative, Nat.toDigits 10 n, none, none⟩, rest) := by
  simp only [unsigned?, whole?_toDigits n hrest.noDigit, hrest.fraction?, hrest.exponent?, bind,
    Option.bind]

/-- A numeral begins with a digit, its sign apart. -/
lemma isDigit_of_unsigned? {negative : Bool} {cs : List Char} {r : Numeral × List Char}
    (h : unsigned? negative cs = some r) : ∃ c rest, cs = c :: rest ∧ c.isDigit = true := by
  obtain ⟨⟨whole, rest⟩, hwhole, -⟩ := Option.bind_eq_some_iff.mp h
  unfold whole? at hwhole
  split at hwhole
  · exact ⟨'0', _, rfl, rfl⟩
  · rcases cs with _ | ⟨c, cs⟩
    · cases hwhole
    · refine ⟨c, cs, rfl, ?_⟩
      by_contra hc
      rw [digits?, List.takeWhile_cons_of_neg hc] at hwhole
      cases hwhole

lemma read?_of_unsigned? {negative : Bool} {cs : List Char} {r : Numeral × List Char}
    (h : unsigned? negative cs = some r) :
    read? (if negative then '-' :: cs else cs) = some r := by
  cases negative
  · obtain ⟨c, rest, rfl, hc⟩ := isDigit_of_unsigned? h
    rw [if_neg (by decide), read?, h]
    rintro rest' he
    rw [(List.cons.inj he).1] at hc
    exact absurd hc (by decide)
  · rw [if_pos rfl, read?, h]

/-- A numeral begins with a digit or with the sign. -/
lemma head_of_read? {cs : List Char} {r : Numeral × List Char} (h : read? cs = some r) :
    ∃ c rest, cs = c :: rest ∧ (c.isDigit = true ∨ c = '-') := by
  unfold read? at h
  split at h
  · exact ⟨_, _, rfl, Or.inr rfl⟩
  · obtain ⟨c, rest, rfl, hc⟩ := isDigit_of_unsigned? h
    exact ⟨c, rest, rfl, Or.inl hc⟩

end Numeral

namespace Json

lemma printInt_eq (n : ℤ) : printInt n =
    if decide (n < 0) then '-' :: Nat.toDigits 10 n.natAbs else Nat.toDigits 10 n.natAbs := by
  simp [printInt]

lemma ofNumeral?_integer (n : ℤ) (inRange : -0x8000000000000000 ≤ n ∧ n < 0x10000000000000000) :
    Number.ofNumeral? ⟨decide (n < 0), Nat.toDigits 10 n.natAbs, none, none⟩ =
      some (.integer n inRange) := by
  have hwhole : (⟨decide (n < 0), Nat.toDigits 10 n.natAbs, none, none⟩ : Numeral).isWhole = true :=
    rfl
  rw [Number.ofNumeral?, if_pos hwhole]
  simp only [Numeral.digitsValue_toDigits]
  by_cases hneg : n < 0
  · have hvalue : -((n.natAbs : ℕ) : ℤ) = n := by omega
    rw [if_pos (decide_eq_true hneg), if_neg (by omega), if_pos (by omega), hvalue,
      Number.ofInt?, dif_pos inRange]
  · have hvalue : ((n.natAbs : ℕ) : ℤ) = n := by omega
    rw [if_neg (by simpa using hneg), hvalue, if_pos inRange.2, Number.ofInt?, dif_pos inRange]

/-- What is no whole numeral is the double that its size denotes. -/
lemma ofNumeral?_float {numeral : Numeral} {x : FiniteDouble} (hwhole : numeral.isWhole = false)
    (hread : Double.ofDecimal numeral.negative numeral.size = .finite x) :
    Number.ofNumeral? numeral = some (.float x) := by
  rw [Number.ofNumeral?, hwhole, hread]
  rfl

/-- The text of a double is read as a numeral of its value. -/
lemma exists_numeral (x : FiniteDouble) {rest : List Char} (hrest : Numeral.Stops rest) :
    ∃ numeral, Numeral.read? (x.render floatStyle ++ rest) = some (numeral, rest) ∧
      numeral.isWhole = false ∧
      Double.ofDecimal numeral.negative numeral.size = .finite x := by
  obtain ⟨negative, rank⟩ := x
  -- the sign stands before the numeral of the size
  have hsigned : ∀ {size : List Char} {numeral : Numeral},
      Numeral.unsigned? negative (size ++ rest) = some (numeral, rest) →
      Numeral.read? ((if negative then '-' :: size else size) ++ rest) = some (numeral, rest) := by
    intro size numeral hread
    have := Numeral.read?_of_unsigned? hread
    cases negative <;> exact this
  rw [FiniteDouble.render]
  by_cases hzero : rank.val = 0
  · have hread : Numeral.unsigned? negative (['0', '.', '0'] ++ rest) =
        some (⟨negative, ['0'], some ['0'], none⟩, rest) := by
      have hpoint := Numeral.fraction?_point (List.cons_ne_nil '0' []) (by simp) hrest.noDigit
      simp only [List.cons_append, List.nil_append] at hpoint
      simp only [List.cons_append, List.nil_append, Numeral.unsigned?, Numeral.whole?, hpoint,
        hrest.exponent?, bind, Option.bind]
    obtain rfl : rank = ⟨0, by decide⟩ := Fin.ext hzero
    exact ⟨_, hsigned hread, rfl, rfl⟩
  · have hpos : 0 < rank.val := Nat.pos_of_ne_zero hzero
    have hdigits := Double.shortest_digits_ne_zero floatStyle.tie hpos
    obtain ⟨numeral, k, hread, hnegative, hwhole, hsize⟩ :=
      Numeral.denotes_render hdigits floatStyle.toLayout negative rest hrest
    rw [if_neg hzero]
    refine ⟨numeral, hsigned hread, hwhole, ?_⟩
    rw [hnegative, hsize, Double.ofDecimal_mul_pow, sub_add_cancel,
      Double.ofDecimal_shortest floatStyle.tie rank hpos]

/-- **Numbers are read back**, integers as integers and doubles as doubles. -/
lemma readNumber_print (n : Number) {rest : List Char} (hrest : Numeral.Stops rest) :
    readNumber (n.print ++ rest) = some (n, rest) := by
  cases n with
  | integer n inRange =>
    have hread := Numeral.read?_of_unsigned?
      (Numeral.unsigned?_toDigits (decide (n < 0)) n.natAbs hrest)
    have htext : (Number.integer n inRange).print ++ rest =
        if decide (n < 0) then '-' :: (Nat.toDigits 10 n.natAbs ++ rest)
        else Nat.toDigits 10 n.natAbs ++ rest := by
      rw [Number.print, printInt_eq]
      split <;> rfl
    simp only [readNumber, htext, hread, ofNumeral?_integer n inRange, bind, Option.bind]
  | float x =>
    obtain ⟨numeral, hread, hwhole, hdouble⟩ := exists_numeral x hrest
    simp only [readNumber, Number.print, hread, ofNumeral?_float hwhole hdouble, bind, Option.bind]

end Json

end HostBridge
