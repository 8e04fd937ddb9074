import HostBridge.Proofs.Json.Depth
import HostBridge.Proofs.Json.Scalars
import Mathlib.Data.List.TakeWhile

/-!
Reading a tree back from its text.

The reader of values recurses on the depth that it still allows, and so does the proof: a tree is
read back where its arrays and objects are nested no deeper than that. What follows the text of a
value must not go on with a number; in arrays, objects and at the end of a text it never does.
-/

namespace HostBridge.Json

/-! ### First characters -/

lemma skipBlanks_cons {c : Char} (hblank : isBlank c = false) (rest : List Char) :
    skipBlanks (c :: rest) = c :: rest := by
  rw [skipBlanks, List.dropWhile_cons_of_neg (by simp [hblank])]

/-- The text of a tree begins with a character that is no blank and closes nothing. -/
lemma exists_printChars_eq_cons (json : Json) :
    ∃ c cs, printChars json = c :: cs ∧ isBlank c = false ∧ c ≠ ']' := by
  cases json with
  | null => exact ⟨'n', _, rfl, by decide, by decide⟩
  | boolean value => cases value <;> exact ⟨_, _, rfl, by decide, by decide⟩
  | number n =>
    have hread := readNumber_print n Numeral.stops_nil
    obtain ⟨⟨numeral, rest⟩, hnumeral, -⟩ := Option.bind_eq_some_iff.mp hread
    obtain ⟨c, cs, hcons, hc⟩ := Numeral.head_of_read? hnumeral
    rw [List.append_nil] at hcons
    refine ⟨c, cs, hcons, ?_, ?_⟩
    · rcases hc with hc | rfl
      · by_contra hblank
        simp only [isBlank, Bool.not_eq_false, Bool.or_eq_true, beq_iff_eq] at hblank
        rcases hblank with ((rfl | rfl) | rfl) | rfl <;> exact absurd hc (by decide)
      · decide
    · rintro rfl
      rcases hc with hc | hc <;> exact absurd hc (by decide)
  | string s => exact ⟨'"', _, rfl, by decide, by decide⟩
  | array items => cases items <;> exact ⟨'[', _, by rw [printChars], by decide, by decide⟩
  | object members =>
    rcases members with _ | ⟨⟨key, value⟩, rest⟩ <;>
      exact ⟨'\x7b', _, by rw [printChars], by decide, by decide⟩

/-! ### Lengths -/

lemma length_le_flatMap {β γ : Type} {f : β → List γ} (xs : List β)
    (hf : ∀ x, 1 ≤ (f x).length) : xs.length ≤ (xs.flatMap f).length := by
  induction xs with
  | nil => exact Nat.zero_le _
  | cons x xs ih =>
    have := hf x
    rw [List.flatMap_cons, List.length_append, List.length_cons]
    omega

lemma length_le_of_mem_flatMap {β γ : Type} {f : β → List γ} {xs : List β} {x : β}
    (hx : x ∈ xs) : (f x).length ≤ (xs.flatMap f).length := by
  obtain ⟨before, after, rfl⟩ := List.append_of_mem hx
  rw [List.flatMap_append, List.flatMap_cons, List.length_append, List.length_append]
  omega

lemma one_le_length_escape (c : Char) : 1 ≤ (escape c).length := by
  unfold escape
  repeat' split
  all_goals exact Nat.succ_le_succ (Nat.zero_le _)

/-! ### Scalars -/

section Scalars

variable {limit : ℕ} {rest : List Char}

lemma readScalar_number (n : Number) (hrest : Numeral.Stops rest) :
    readScalar limit (n.print ++ rest) = some (number n, rest) := by
  have hread := readNumber_print n hrest
  obtain ⟨⟨numeral, rest'⟩, hnumeral, -⟩ := Option.bind_eq_some_iff.mp hread
  obtain ⟨c, cs, hcons, hc⟩ := Numeral.head_of_read? hnumeral
  rw [hcons] at hread ⊢
  have hne : ∀ d, d.isDigit = false → d ≠ '-' → c ≠ d := by
    rintro d hd hminus rfl
    rcases hc with hc | hc
    · rw [hc] at hd; cases hd
    · exact hminus hc
  -- a digit or a sign is the beginning of no name
  have hnamed : readNamed (c :: cs) = none := by
    unfold readNamed
    split
    · rename_i h; exact absurd (List.cons.inj h).1 (hne 'n' (by decide) (by decide))
    · rename_i h; exact absurd (List.cons.inj h).1 (hne 't' (by decide) (by decide))
    · rename_i h; exact absurd (List.cons.inj h).1 (hne 'f' (by decide) (by decide))
    · rfl
  rw [readScalar, hnamed, hread]
  · rfl
  · intro rest'' h
    exact hne '"' (by decide) (by decide) (List.cons.inj h).1

lemma length_lt_printString {s : String} (hlimit : (printString s).length ≤ limit) :
    s.toList.length < limit := by
  have hescape := length_le_flatMap (f := escape) s.toList one_le_length_escape
  rw [printString, List.length_cons, List.length_append, List.length_singleton] at hlimit
  omega

lemma readScalar_string (s : String) (hlimit : (printString s).length ≤ limit) :
    readScalar limit (printString s ++ rest) = some (string s, rest) := by
  rw [printString, List.cons_append, List.append_assoc, readScalar]
  simp only [List.singleton_append, readString_print s rest (length_lt_printString hlimit),
    Option.map_some]

end Scalars

/-! ### Sequences -/

section Sequences

variable {β : Type} {item : Reader β} {text : β → List Char} {close : Char} {rest : List Char}

/-- The texts of items, parted by commas, and the closing bracket. -/
def sequenceChars (text : β → List Char) (close : Char) : List β → List Char
  | [] => [close]
  | x :: xs => text x ++ (xs.flatMap (fun y => ',' :: text y) ++ [close])

lemma length_le_of_mem_sequenceChars {xs : List β} {x : β} (hx : x ∈ xs) :
    (text x).length ≤ (sequenceChars text close xs).length := by
  rcases xs with _ | ⟨y, ys⟩
  · cases hx
  · rw [sequenceChars, List.length_append, List.length_append]
    rcases List.mem_cons.mp hx with rfl | hx
    · omega
    · have := length_le_of_mem_flatMap (f := fun y => ',' :: text y) hx
      rw [List.length_cons] at this
      omega

/-- Items parted by commas are read one by one. -/
lemma readItems_print {x : β} {xs : List β} {limit : ℕ} (hlimit : xs.length < limit)
    (hblank : isBlank close = false) (hcomma : close ≠ ',')
    (hstops : Numeral.Stops (close :: rest))
    (hitem : ∀ y ∈ x :: xs, ∀ rest, Numeral.Stops rest → item (text y ++ rest) = some (y, rest)) :
    readItems item close limit
      (text x ++ (xs.flatMap (fun y => ',' :: text y) ++ close :: rest)) =
      some (x :: xs, rest) := by
  induction xs generalizing x limit with
  | nil =>
    obtain ⟨limit, rfl⟩ := Nat.exists_eq_add_one_of_ne_zero (Nat.ne_of_gt hlimit)
    have hx := hitem x List.mem_cons_self (close :: rest) hstops
    rw [List.flatMap_nil, List.nil_append, readItems, hx]
    simp only [bind, Option.bind, skipBlanks_cons hblank, if_neg hcomma, if_true]
  | cons y ys ih =>
    obtain ⟨limit, rfl⟩ :=
      Nat.exists_eq_add_one_of_ne_zero (Nat.ne_of_gt (Nat.zero_lt_of_lt hlimit))
    have hrest := ih (Nat.lt_of_succ_lt_succ hlimit)
      fun z hz => hitem z (List.mem_cons_of_mem x hz)
    have hx := hitem x List.mem_cons_self
      (',' :: (text y ++ (ys.flatMap (fun y => ',' :: text y) ++ close :: rest)))
      (Numeral.stops_cons (by decide) (by decide) (by decide) (by decide))
    rw [List.flatMap_cons, List.cons_append, List.cons_append, List.append_assoc, readItems, hx]
    simp only [bind, Option.bind, skipBlanks_cons (c := ',') (by decide), if_true, hrest]

/-- A sequence is read from what stands behind its opening bracket. -/
lemma readSequence_print {xs : List β} {limit : ℕ}
    (hlimit : (sequenceChars text close xs).length ≤ limit)
    (hblank : isBlank close = false) (hcomma : close ≠ ',')
    (hstops : Numeral.Stops (close :: rest))
    (hhead : ∀ x ∈ xs, ∃ c cs, text x = c :: cs ∧ isBlank c = false ∧ c ≠ close)
    (hitem : ∀ y ∈ xs, ∀ rest, Numeral.Stops rest → item (text y ++ rest) = some (y, rest)) :
    readSequence limit item close (sequenceChars text close xs ++ rest) = some (xs, rest) := by
  rcases xs with _ | ⟨x, xs⟩
  · simp only [sequenceChars, List.singleton_append, readSequence, skipBlanks_cons hblank,
      if_true]
  · have hlength : xs.length < limit := by
      have := length_le_flatMap (f := fun y => ',' :: text y) xs
        fun _ => Nat.succ_le_succ (Nat.zero_le _)
      rw [sequenceChars, List.length_append, List.length_append, List.length_singleton] at hlimit
      omega
    have hitems := readItems_print hlength hblank hcomma hstops hitem
    obtain ⟨c, cs, hcons, hc, hclose⟩ := hhead x List.mem_cons_self
    rw [sequenceChars, List.append_assoc, List.append_assoc, List.singleton_append]
    rw [hcons, List.cons_append] at hitems ⊢
    simp only [readSequence, skipBlanks_cons hc, if_neg hclose, hitems]

end Sequences

/-! ### Values -/

/-- The text of a member. -/
def memberChars (member : String × Json) : List Char :=
  printString member.1 ++ ':' :: printChars member.2

lemma printItems_eq (items : List Json) :
    printItems items = items.flatMap (fun item => ',' :: printChars item) ++ [']'] := by
  induction items with
  | nil => rfl
  | cons item rest ih => rw [printItems, ih, List.flatMap_cons]; simp

lemma printMembers_eq (members : List (String × Json)) :
    printMembers members =
      members.flatMap (fun member => ',' :: memberChars member) ++ ['\x7d'] := by
  induction members with
  | nil => rfl
  | cons member rest ih =>
    obtain ⟨key, value⟩ := member
    rw [printMembers, ih, List.flatMap_cons, memberChars]; simp

lemma printChars_array (items : List Json) :
    printChars (.array items) = '[' :: sequenceChars printChars ']' items := by
  cases items with
  | nil => rfl
  | cons item rest => rw [printChars, printItems_eq, sequenceChars]

lemma printChars_object (members : List (String × Json)) :
    printChars (.object members) = '\x7b' :: sequenceChars memberChars '\x7d' members := by
  rcases members with _ | ⟨⟨key, value⟩, rest⟩
  · rfl
  · rw [printChars, printMembers_eq, sequenceChars, memberChars]; simp

/-- What is read as a scalar is read so as a value at every depth. -/
lemma readValue_of_readScalar (depth : ℕ) {limit : ℕ} {json : Json} {rest : List Char}
    (h : readScalar limit (printChars json ++ rest) = some (json, rest)) :
    readValue limit depth (printChars json ++ rest) = some (json, rest) := by
  obtain ⟨c, cs, hcons, hblank, -⟩ := exists_printChars_eq_cons json
  rw [hcons, List.cons_append] at h ⊢
  cases depth with
  | zero => simp only [readValue, skipBlanks_cons hblank, h]
  | succ depth =>
    simp only [readValue, skipBlanks_cons hblank]
    split
    -- no scalar begins with a bracket
    · rename_i hc; cases hc; cases h
    · rename_i hc; cases hc; cases h
    · exact h

lemma readValue_scalar {limit depth : ℕ} {json : Json} {rest : List Char}
    (hscalar : json.depth = 0) (hlimit : (printChars json).length ≤ limit)
    (hrest : Numeral.Stops rest) :
    readValue limit depth (printChars json ++ rest) = some (json, rest) := by
  refine readValue_of_readScalar depth ?_
  cases json with
  | null => rfl
  | boolean value => cases value <;> rfl
  | number n => exact readScalar_number n hrest
  | string s => exact readScalar_string s hlimit
  | array | object => rw [Json.depth] at hscalar; cases hscalar

lemma readMember_print {limit depth : ℕ} {member : String × Json} {rest : List Char}
    (hkey : (printString member.1).length ≤ limit)
    (hvalue : readValue limit depth (printChars member.2 ++ rest) = some (member.2, rest)) :
    readMember (readString limit) (fun _ => readValue limit depth) (memberChars member ++ rest) =
      some (member, rest) := by
  have hstring := readString_print member.1 (':' :: (printChars member.2 ++ rest))
    (length_lt_printString hkey)
  rw [memberChars, printString]
  simp only [List.cons_append, List.append_assoc, List.nil_append, readMember,
    skipBlanks_cons (c := '"') (by decide), skipBlanks_cons (c := ':') (by decide), hstring,
    hvalue, bind, Option.bind]

/-- **Trees are read back** from their text, to any depth that they do not exceed. -/
theorem readValue_print {limit depth : ℕ} {json : Json} {rest : List Char}
    (hdepth : json.depth ≤ depth) (hlimit : (printChars json).length ≤ limit)
    (hrest : Numeral.Stops rest) :
    readValue limit depth (printChars json ++ rest) = some (json, rest) := by
  induction depth generalizing json rest with
  | zero =>
    cases json with
    | null | boolean | number | string => exact readValue_scalar rfl hlimit hrest
    | array | object => rw [depth] at hdepth; omega
  | succ depth ih =>
    cases json with
    | null | boolean | number | string => exact readValue_scalar rfl hlimit hrest
    | array items =>
      rw [printChars_array, List.length_cons] at hlimit
      have hsequence : readSequence limit (readValue limit depth) ']'
          (sequenceChars printChars ']' items ++ rest) = some (items, rest) := by
        refine readSequence_print (by omega) (by decide) (by decide)
          (Numeral.stops_cons (by decide) (by decide) (by decide) (by decide))
          (fun item _ => exists_printChars_eq_cons item) fun item hi rest hrest => ?_
        have hlength : (printChars item).length ≤ (sequenceChars printChars ']' items).length :=
          length_le_of_mem_sequenceChars hi
        have hlt := depth_lt_of_mem_array hi
        exact ih (by omega) (by omega) hrest
      rw [printChars_array, List.cons_append]
      simp only [readValue, skipBlanks_cons (c := '[') (by decide), hsequence, Option.map_some]
    | object members =>
      rw [printChars_object, List.length_cons] at hlimit
      have hsequence : readSequence limit
          (readMember (readString limit) fun _ => readValue limit depth) '\x7d'
          (sequenceChars memberChars '\x7d' members ++ rest) = some (members, rest) := by
        refine readSequence_print (by omega) (by decide) (by decide)
          (Numeral.stops_cons (by decide) (by decide) (by decide) (by decide))
          (fun member _ => ⟨'"', _, rfl, by decide, by decide⟩) fun member hm rest hrest => ?_
        have hlength : (memberChars member).length ≤
            (sequenceChars memberChars '\x7d' members).length :=
          length_le_of_mem_sequenceChars hm
        rw [memberChars, List.length_append, List.length_cons] at hlength
        have hlt := depth_lt_of_mem_object hm
        exact readMember_print (by omega) (ih (by omega) (by omega) hrest)
      rw [printChars_object, List.cons_append]
      simp only [readValue, skipBlanks_cons (c := '\x7b') (by decide), hsequence, Option.map_some]

/-! ### Texts -/

/-- A text may end in blanks. -/
lemma readAll?_print {json : Json} (hdepth : json.depth ≤ maxDepth) (blanks : String)
    (hblanks : blanks.toList.all isBlank = true) :
    readAll? (readValue · maxDepth) (json.print ++ blanks) = some json := by
  have hall : ∀ c ∈ blanks.toList, isBlank c = true := List.all_eq_true.mp hblanks
  have hstops : Numeral.Stops blanks.toList := by
    intro c hc
    have hblank := hall c (List.mem_of_mem_head? hc)
    simp only [isBlank, Bool.or_eq_true, beq_iff_eq] at hblank
    rcases hblank with ((rfl | rfl) | rfl) | rfl <;> decide
  have hempty : skipBlanks blanks.toList = [] := by
    rw [skipBlanks, List.dropWhile_eq_nil_iff]
    exact fun c hc => hall c hc
  have hlist : (json.print ++ blanks).toList = printChars json ++ blanks.toList := by
    rw [String.toList_append, print, String.toList_ofList]
  have hread : readValue (printChars json ++ blanks.toList).length maxDepth
      (printChars json ++ blanks.toList) = some (json, blanks.toList) :=
    readValue_print hdepth (by rw [List.length_append]; omega) hstops
  simp only [readAll?, hlist, hread, hempty, List.isEmpty_nil, if_true]

/-- **Texts are read back**, as canonical trees. -/
theorem parse?_print {json : Json} (hdepth : json.depth ≤ maxDepth) (blanks : String)
    (hblanks : blanks.toList.all isBlank = true) :
    parse? (json.print ++ blanks) = some json.canonical := by
  rw [parse?, readAll?_print hdepth blanks hblanks, Option.map_some]

end HostBridge.Json
