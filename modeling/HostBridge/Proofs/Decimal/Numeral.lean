import HostBridge.Decimal.Numeral
import Mathlib.Tactic.Lemma
import Mathlib.Tactic.Ring

/-!
Decimals are written so that they are read back.

The reader of numerals takes as many digits as there are, so what follows a numeral must not go on
with it. The text of a decimal is one numeral, never a whole one, and it denotes the decimal, up to
zeros that are written at the end of its digits.
-/

namespace HostBridge

namespace Numeral

/-- No numeral goes on with the text. -/
def Stops (rest : List Char) : Prop :=
  ∀ c ∈ rest.head?, c.isDigit = false ∧ c ≠ '.' ∧ c ≠ 'e' ∧ c ≠ 'E'

lemma stops_nil : Stops [] := by
  intro c hc; cases hc

lemma stops_cons {c : Char} {rest : List Char} (hdigit : c.isDigit = false) (hpoint : c ≠ '.')
    (he : c ≠ 'e') (hE : c ≠ 'E') : Stops (c :: rest) := by
  intro c' hc'
  cases hc'
  exact ⟨hdigit, hpoint, he, hE⟩

/-! ### The reader on digits -/

section Read

variable {ds rest : List Char}

/-- A text that does not begin with a digit. -/
def NoDigit (rest : List Char) : Prop := ∀ c ∈ rest.head?, c.isDigit = false

lemma Stops.noDigit (h : Stops rest) : NoDigit rest := fun c hc => (h c hc).1

lemma digits?_append (hne : ds ≠ []) (hds : ∀ c ∈ ds, c.isDigit = true) (hrest : NoDigit rest) :
    digits? (ds ++ rest) = some (ds, rest) := by
  have htake : rest.takeWhile Char.isDigit = [] ∧ rest.dropWhile Char.isDigit = rest := by
    rcases rest with _ | ⟨c, rest⟩
    · exact ⟨rfl, rfl⟩
    · have hc := hrest c rfl
      exact ⟨by simp [hc], by simp [hc]⟩
  obtain ⟨c, ds', rfl⟩ := List.exists_cons_of_ne_nil hne
  rw [digits?, List.takeWhile_append_of_pos hds, List.dropWhile_append_of_pos hds, htake.1,
    htake.2, List.append_nil]

lemma whole?_append (hne : ds ≠ []) (hds : ∀ c ∈ ds, c.isDigit = true)
    (hzero : '0' ∉ ds.head?) (hrest : NoDigit rest) : whole? (ds ++ rest) = some (ds, rest) := by
  have hdigits := digits?_append hne hds hrest
  obtain ⟨c, ds', rfl⟩ := List.exists_cons_of_ne_nil hne
  have hc : c ≠ '0' := fun h => hzero (by rw [h]; rfl)
  rw [← hdigits, List.cons_append, whole?]
  rintro rest' h
  exact hc (List.cons.inj h).1

lemma fraction?_point (hne : ds ≠ []) (hds : ∀ c ∈ ds, c.isDigit = true) (hrest : NoDigit rest) :
    fraction? ('.' :: (ds ++ rest)) = some (some ds, rest) := by
  rw [fraction?, digits?_append hne hds hrest, Option.map_some]

lemma fraction?_of_ne (h : '.' ∉ rest.head?) : fraction? rest = some (none, rest) := by
  unfold fraction?
  split
  · exact absurd rfl h
  · rfl

lemma exponent?_of_ne (he : 'e' ∉ rest.head?) (hE : 'E' ∉ rest.head?) :
    exponent? rest = some (none, rest) := by
  rcases rest with _ | ⟨c, rest⟩
  · rfl
  · rw [exponent?, if_neg]
    rintro (rfl | rfl)
    · exact he rfl
    · exact hE rfl

lemma Stops.fraction? (h : Stops rest) : fraction? rest = some (none, rest) :=
  fraction?_of_ne fun hc => (h _ hc).2.1 rfl

lemma Stops.exponent? (h : Stops rest) : exponent? rest = some (none, rest) :=
  exponent?_of_ne (fun hc => (h _ hc).2.2.1 rfl) fun hc => (h _ hc).2.2.2 rfl

end Read

/-! ### Digits of a number -/

lemma digitsValue_eq (ds : List Char) : digitsValue ds = Nat.ofDigitChars 10 ds 0 := rfl

lemma digitsValue_toDigits (n : ℕ) : digitsValue (Nat.toDigits 10 n) = n :=
  Nat.ofDigitChars_ten_toDigits

lemma isDigit_of_mem_toDigits {n : ℕ} {c : Char} (hc : c ∈ Nat.toDigits 10 n) : c.isDigit = true :=
  Nat.isDigit_of_mem_toDigits (by decide) (by decide) hc

/-- The digits of a number other than zero do not begin with a zero. -/
lemma zero_notMem_head?_toDigits {n : ℕ} (hn : n ≠ 0) : '0' ∉ (Nat.toDigits 10 n).head? := by
  induction n using Nat.strong_induction_on with
  | _ n ih =>
    by_cases hlt : n < 10
    · rw [Nat.toDigits_of_lt_base hlt]
      intro h
      exact hn (Nat.digitChar_eq_zero.mp (Option.some.inj h))
    · have hdiv := ih (n / 10) (by omega) (by omega)
      rwa [Nat.toDigits_of_base_le (by decide) (by omega), List.head?_append,
        Option.or_of_isSome (List.isSome_head?.mpr Nat.toDigits_ne_nil)]

/-- An exponent is read with its sign, which may be left out if it is plus. -/
lemma power?_append (plus : Bool) (power : ℤ) {rest : List Char} (hrest : NoDigit rest) :
    power? ((if power < 0 then ['-'] else if plus then ['+'] else []) ++
      (Nat.toDigits 10 power.natAbs ++ rest)) = some (power, rest) := by
  have hdigits : digits? (Nat.toDigits 10 power.natAbs ++ rest) = some (_, rest) :=
    digits?_append Nat.toDigits_ne_nil (fun c => isDigit_of_mem_toDigits) hrest
  by_cases hneg : power < 0
  · have hvalue : -((power.natAbs : ℕ) : ℤ) = power := by omega
    rw [if_pos hneg, List.singleton_append, power?, hdigits]
    simp only [Option.map_some, digitsValue_toDigits, hvalue]
  · have hvalue : ((power.natAbs : ℕ) : ℤ) = power := by omega
    rw [if_neg hneg]
    cases plus
    · -- the first digit is not taken for a sign
      have hplain : power? (Nat.toDigits 10 power.natAbs ++ rest) =
          (digits? (Nat.toDigits 10 power.natAbs ++ rest)).map
            fun read => ((digitsValue read.1 : ℤ), read.2) := by
        obtain ⟨c, ds, hcons⟩ :=
          List.exists_cons_of_ne_nil (Nat.toDigits_ne_nil (n := power.natAbs) (b := 10))
        have hc : c.isDigit = true := isDigit_of_mem_toDigits (hcons ▸ List.mem_cons_self)
        rw [hcons, List.cons_append, power?]
        · rintro rest' h
          rw [(List.cons.inj h).1] at hc
          exact absurd hc (by decide)
        · rintro rest' h
          rw [(List.cons.inj h).1] at hc
          exact absurd hc (by decide)
      rw [if_neg (by decide), List.nil_append, hplain, hdigits]
      simp only [Option.map_some, digitsValue_toDigits, hvalue]
    · rw [if_pos rfl, List.singleton_append, power?, hdigits]
      simp only [Option.map_some, digitsValue_toDigits, hvalue]

/-! ### Decimals -/

/--
The text is one numeral, not a whole one, and denotes the decimal, up to zeros that may be written
at the end of its digits.
-/
def Denotes (text : List Char) (d : Decimal) : Prop :=
  ∀ negative rest, Stops rest → ∃ numeral, ∃ k : ℕ,
    unsigned? negative (text ++ rest) = some (numeral, rest) ∧ numeral.negative = negative ∧
    numeral.isWhole = false ∧ numeral.size = ⟨d.digits * 10 ^ k, d.exponent - k⟩

section Decimals

variable {whole fraction rest : List Char}

/-- Digits with a point between them. -/
lemma denotes_point {d : Decimal} (k : ℕ)
    (hwhole : ∀ rest, NoDigit rest → whole? (whole ++ rest) = some (whole, rest))
    (hne : fraction ≠ []) (hfraction : ∀ c ∈ fraction, c.isDigit = true)
    (hdigits : digitsValue (whole ++ fraction) = d.digits * 10 ^ k)
    (hexponent : d.exponent = k - fraction.length) : Denotes (whole ++ '.' :: fraction) d := by
  intro negative rest hrest
  refine ⟨⟨negative, whole, some fraction, none⟩, k, ?_, rfl, rfl, ?_⟩
  · have hpoint : NoDigit ('.' :: (fraction ++ rest)) := by intro c hc; cases hc; rfl
    rw [List.append_assoc, List.cons_append, unsigned?, hwhole _ hpoint]
    simp only [bind, Option.bind, fraction?_point hne hfraction hrest.noDigit, hrest.exponent?]
  · rw [size, Option.getD_some, hdigits, Option.getD_none]
    congr 1
    omega

lemma whole?_zero (rest : List Char) (_ : NoDigit rest) :
    whole? (['0'] ++ rest) = some (['0'], rest) := rfl

/-- Zeros may be written before the digits of a number, and may be counted behind them. -/
lemma digitsValue_zeros (before after n : ℕ) :
    digitsValue (List.replicate before '0' ++ Nat.toDigits 10 n ++ List.replicate after '0') =
      n * 10 ^ after := by
  simp [digitsValue_eq, Nat.ofDigitChars_append, Nat.mul_comm]

/-- Digits in full denote what they stand for. -/
lemma denotes_positional {d : Decimal} (hd : d.digits ≠ 0) :
    Denotes (Decimal.positional (Nat.toDigits 10 d.digits) d.point) d := by
  have hvalue := digitsValue_zeros (n := d.digits)
  have hne : Nat.toDigits 10 d.digits ≠ [] := Nat.toDigits_ne_nil
  have hds : ∀ c ∈ Nat.toDigits 10 d.digits, c.isDigit = true := fun c => isDigit_of_mem_toDigits
  have hhead : '0' ∉ (Nat.toDigits 10 d.digits).head? := zero_notMem_head?_toDigits hd
  have hexponent : d.exponent = d.point - (Nat.toDigits 10 d.digits).length := by
    rw [Decimal.point, Decimal.width, if_neg hd]; omega
  generalize Nat.toDigits 10 d.digits = ds at hvalue hne hds hhead hexponent ⊢
  have hzeros : ∀ n, ∀ c ∈ List.replicate n '0', c.isDigit = true := fun n c hc => by
    rw [List.eq_of_mem_replicate hc]; rfl
  -- the point stands right before the digits, among them, behind them, or before zeros
  rcases hp : d.point with (_ | p) | m
  · refine denotes_point 0 whole?_zero hne hds ?_ (by rw [hexponent, hp]; rfl)
    simpa using hvalue 1 0
  · rw [Decimal.positional]
    split
    · rename_i hlt
      refine denotes_point 0 (fun rest => whole?_append ?_ ?_ ?_) ?_ ?_ ?_ ?_
      · simpa using hne
      · exact fun c hc => hds c (List.mem_of_mem_take hc)
      · rwa [List.head?_take, if_neg (Nat.succ_ne_zero p)]
      · simpa using hlt
      · exact fun c hc => hds c (List.mem_of_mem_drop hc)
      · simpa using hvalue 0 0
      · rw [hexponent, hp, List.length_drop]; simp only [Int.ofNat_eq_natCast]; omega
    · rename_i hge
      have htext : ds ++ List.replicate (p + 1 - ds.length) '0' ++ ['.', '0'] =
          (ds ++ List.replicate (p + 1 - ds.length) '0') ++ '.' :: ['0'] := rfl
      rw [htext]
      refine denotes_point (p + 1 - ds.length + 1) (fun rest => whole?_append ?_ ?_ ?_)
        (List.cons_ne_nil _ _) (by simp) ?_ ?_
      · simp [hne]
      · intro c hc
        rcases List.mem_append.mp hc with hc | hc
        · exact hds c hc
        · exact hzeros _ c hc
      · rwa [List.head?_append, Option.or_of_isSome (List.isSome_head?.mpr hne)]
      · rw [← hvalue 0, List.replicate_succ', List.replicate_zero, List.nil_append,
          List.append_assoc]
      · rw [hexponent, hp]; simp only [Int.ofNat_eq_natCast, List.length_singleton]; omega
  · refine denotes_point 0 whole?_zero (by simp) ?_ ?_ ?_
    · intro c hc
      rcases List.mem_append.mp hc with hc | hc
      · exact hzeros _ c hc
      · exact hds c hc
    · simpa [List.replicate_succ] using hvalue (m + 2) 0
    · rw [hexponent, hp, List.length_append, List.length_replicate]; omega

/-- Digits with an exponent denote what they stand for. -/
lemma denotes_scientific {d : Decimal} (hd : d.digits ≠ 0) (plus : Bool) :
    Denotes (Decimal.scientific plus (Nat.toDigits 10 d.digits) (d.point - 1)) d := by
  have hvalue : digitsValue (Nat.toDigits 10 d.digits) = d.digits := digitsValue_toDigits _
  have hds : ∀ c ∈ Nat.toDigits 10 d.digits, c.isDigit = true := fun c => isDigit_of_mem_toDigits
  have hhead : '0' ∉ (Nat.toDigits 10 d.digits).head? := zero_notMem_head?_toDigits hd
  have hexponent : d.exponent = d.point - 1 + 1 - (Nat.toDigits 10 d.digits).length := by
    rw [Decimal.point, Decimal.width, if_neg hd]; omega
  generalize d.point - 1 = power at hexponent ⊢
  obtain ⟨c, ds, hcons⟩ :=
    List.exists_cons_of_ne_nil (Nat.toDigits_ne_nil (n := d.digits) (b := 10))
  rw [hcons] at hvalue hds hhead hexponent ⊢
  intro negative rest hrest
  have hwhole : ∀ rest, NoDigit rest → whole? (c :: rest) = some ([c], rest) := fun rest =>
    whole?_append (List.cons_ne_nil c []) (by simpa using hds c List.mem_cons_self)
      (by simpa using hhead)
  -- what stands behind the letter is the exponent
  have hpower := power?_append plus power hrest.noDigit
  generalize htail : (if power < 0 then ['-'] else if plus then ['+'] else []) ++
    (Nat.toDigits 10 power.natAbs ++ rest) = tail at hpower
  have hexponent? : exponent? ('e' :: tail) = some (some power, rest) := by
    rw [exponent?, if_pos (Or.inl rfl), hpower, Option.map_some]
  have he : NoDigit ('e' :: tail) := by intro c hc; cases hc; rfl
  rcases ds with _ | ⟨c', ds⟩
  · refine ⟨⟨negative, [c], none, some power⟩, 0, ?_, rfl, rfl, ?_⟩
    · have hfraction : fraction? ('e' :: tail) = some (none, 'e' :: tail) := rfl
      simp only [Decimal.scientific, List.drop_succ_cons, List.drop_nil, List.take_succ_cons,
        List.take_zero, List.nil_append, List.cons_append, List.append_assoc, htail, unsigned?,
        hwhole _ he, hfraction, hexponent?, bind, Option.bind]
    · simp [size, hvalue, hexponent]
  · refine ⟨⟨negative, [c], some (c' :: ds), some power⟩, 0, ?_, rfl, rfl, ?_⟩
    · have hpoint : NoDigit ('.' :: c' :: (ds ++ 'e' :: tail)) := by intro c hc; cases hc; rfl
      have hfraction : fraction? ('.' :: c' :: (ds ++ 'e' :: tail)) =
          some (some (c' :: ds), 'e' :: tail) :=
        fraction?_point (List.cons_ne_nil c' ds) (fun x hx => hds x (List.mem_cons_of_mem c hx)) he
      simp only [Decimal.scientific, List.drop_succ_cons, List.drop_zero, List.take_succ_cons,
        List.take_zero, List.nil_append, List.cons_append, List.append_assoc, htail, unsigned?,
        hwhole _ hpoint, hfraction, hexponent?, bind, Option.bind]
    · simp only [size, Option.getD_some, List.singleton_append, hvalue, hexponent, pow_zero,
        Nat.mul_one, List.length_cons]
      congr 1
      push_cast
      omega

lemma denotes_render {d : Decimal} (hd : d.digits ≠ 0) (layout : Decimal.Layout) :
    Denotes (d.render layout) d := by
  unfold Decimal.render
  dsimp only
  split
  · exact denotes_positional hd
  · exact denotes_scientific hd _

end Decimals

end Numeral

end HostBridge
