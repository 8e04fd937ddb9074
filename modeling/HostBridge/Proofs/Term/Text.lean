import HostBridge.Proofs.Term.Ordered
import Mathlib.Order.Nat

/-!
The text of a term.

The tree that the writer makes of a term spells the term, and no tree that spells the term is
nested less deep. So a lawful library that keeps the doubles of a term reads its text as the term,
unless that is nested too deep, and it never is if the term was read from a text.
-/

namespace HostBridge.Term

/-! ### The writer within the grammar -/

section Write

lemma spellsWord_ofWord (n : UInt64) : (Json.ofWord n).SpellsWord n := .intro rfl

lemma spellsNumeric_toJson (n : Numeric) : n.toJson.SpellsNumeric n := by
  cases n with
  | integer n => exact .integer rfl
  | float x =>
    refine .float ?_
    rcases x with _ | negative | x
    · exact .nan
    · cases negative
      · exact .infinity
      · exact .negativeInfinity
    · exact .number (.float x)

lemma spellsList_listJson {items : List Term} (h : ∀ t ∈ items, t.toJson.Spells t) :
    Json.SpellsList Json.Spells (.array (listJson items)) items := by
  refine .intro ?_
  rw [listJson_eq_map, List.forall₂_map_left_iff, List.forall₂_same]
  exact h

lemma spellsTable_fieldsJson {fields : List (String × Term)}
    (h : ∀ e ∈ fields, e.2.toJson.Spells e.2) :
    Json.SpellsTable Json.Spells (.object (fieldsJson fields)) fields := by
  refine .intro (spellsEntries_iff.mpr ?_)
  rw [fieldsJson_eq_map, List.forall₂_map_left_iff, List.forall₂_same]
  exact fun e he => ⟨rfl, h e he⟩

lemma spellsDictionary_fieldsJson {fields : List (String × Term)}
    (h : ∀ e ∈ fields, e.2.toJson.Spells e.2) :
    Json.SpellsDictionary Json.Spells (.object [("fields", .object (fieldsJson fields))]) fields :=
  .intro List.lookup_cons_self (spellsTable_fieldsJson h)

/-- What is written for a value that may be absent. -/
lemma spellsOption_map {β : Type} {R : Json → β → Prop} {write : β → Json} {value : Option β}
    (h : ∀ b ∈ value, R (write b) b) : Json.SpellsOption R (value.map write) value := by
  cases value with
  | none => exact .absent
  | some b => exact .present (h b rfl)

lemma spellsOption_ofOption (text : Option String) :
    Json.SpellsOption Json.SpellsText (some (.ofOption .string text)) text := by
  cases text with
  | none => exact .null
  | some text => exact .present (.intro text)

lemma spellsPayload_handleJson {handle : Handle Term}
    (h : ∀ t ∈ handle.constructor, t.toJson.Spells t) :
    Json.SpellsPayload Json.Spells .external (handleJson handle) (.external handle) := by
  obtain ⟨id, constructor, repr, classRepr, classId⟩ := handle
  rw [handleJson, constructorJson_eq_map]
  refine .external ?_ (spellsWord_ofWord id) ?_ ?_ ?_ ?_
  · simp [List.lookup_append, List.lookup_cons]
  · simpa [List.lookup_append, List.lookup_cons] using spellsOption_map h
  · simpa [List.lookup_append, List.lookup_cons] using spellsOption_ofOption repr
  · simpa [List.lookup_append, List.lookup_cons] using spellsOption_ofOption classRepr
  · simpa [List.lookup_append, List.lookup_cons] using
      spellsOption_map fun n (_ : n ∈ classId) => spellsWord_ofWord n

/-- **The tree that the writer makes of a term spells the term.** -/
lemma spells_toJson (t : Term) : t.toJson.Spells t := by
  have hterm : ∀ {name tag json} {value : Payload Term} (id offset : UInt64),
      payloadJson value = .object [(name, json)] → Json.SpellsTag name tag →
      Json.SpellsPayload Json.Spells tag json value →
      (toJson ⟨id, offset, value⟩).Spells ⟨id, offset, value⟩ := by
    intro name tag json value id offset hvalue htag hpayload
    rw [toJson, hvalue]
    refine .intro ?_ ?_ ?_ htag hpayload
    · exact .present (spellsWord_ofWord id)
    · exact .present (spellsWord_ofWord offset)
    · simp [List.lookup_cons]
  induction t with
  | string id offset s => exact hterm id offset rfl .string (.string s)
  | boolean id offset b => exact hterm id offset rfl .boolean (.boolean b)
  | number id offset n => exact hterm id offset rfl .number (.number (spellsNumeric_toJson n))
  | list id offset items ih => exact hterm id offset rfl .list (.list (spellsList_listJson ih))
  | dictionary id offset fields ih =>
    exact hterm id offset rfl .dictionary (.dictionary (spellsDictionary_fieldsJson ih))
  | external id offset handle ih =>
    exact hterm id offset rfl .external (spellsPayload_handleJson ih)
  | call id offset name args kwargs hargs hkwargs =>
    refine hterm id offset rfl .call
      (.call ?_ ?_ (spellsList_listJson hargs) ?_)
    · simp [List.lookup_append, List.lookup_cons]
    · exact List.lookup_cons_self
    · rw [kwargsJson_eq_map]
      simpa [List.lookup_append, List.lookup_cons] using
        spellsOption_map fun fields (hf : fields ∈ kwargs) =>
          spellsTable_fieldsJson (hkwargs fields hf)
  | var id offset name => exact hterm id offset rfl .var (.var name)
  | expression id offset operator args ih =>
    refine hterm id offset rfl .expression (.expression ?_ ?_ (spellsList_listJson ih))
    · simp [List.lookup_cons]
    · exact List.lookup_cons_self
  | pattern id offset tag fields ih =>
    have hfields := spellsDictionary_fieldsJson ih
    rcases tag with _ | tag
    · exact hterm id offset rfl .pattern (.barePattern hfields)
    · refine hterm id offset rfl .pattern (.taggedPattern ?_ List.lookup_cons_self hfields)
      simp [List.lookup_cons]

/-- What is written of a term is canonical if its tables are in order, and only then. -/
lemma canonical_toJson_iff {t : Term} : t.toJson.canonical = t.toJson ↔ t.Ordered :=
  ⟨ordered_of_spells (spells_toJson t), canonical_toJson⟩

lemma canonical_listJson_iff {items : List Term} :
    (Json.array (listJson items)).canonical = .array (listJson items) ↔ ∀ t ∈ items, t.Ordered := by
  rw [Json.canonical_array_iff, listJson_eq_map, List.forall_mem_map]
  simp only [canonical_toJson_iff]

end Write

/-! ### Depth -/

section Depth

variable {json : Json} {d : ℕ}

/-- It is enough to compare what stands under the tags. -/
lemma depth_le_of_payload {id offset : UInt64} {value : Payload Term} {name : String}
    {written : Json} (h : json.Spells ⟨id, offset, value⟩)
    (hvalue : payloadJson value = .object [(name, written)])
    (hwritten : ∀ tag inner, Json.SpellsPayload Json.Spells tag inner value →
      written.depth ≤ inner.depth) :
    (toJson ⟨id, offset, value⟩).depth ≤ json.depth := by
  obtain ⟨tag, inner, hpayload, hdepth, -⟩ := exists_spellsPayload h
  have hterm : (toJson ⟨id, offset, value⟩).depth = written.depth + 2 := by
    simp [toJson, hvalue, Json.depth, Json.membersDepth, Json.ofWord]
  have := hwritten tag inner hpayload
  omega

lemma depth_listJson_le {items : List Term} (h : Json.SpellsList Json.Spells json items)
    (ih : ∀ t ∈ items, ∀ json : Json, json.Spells t → t.toJson.depth ≤ json.depth) :
    (Json.array (listJson items)).depth ≤ json.depth := by
  obtain ⟨h⟩ := h
  rw [Json.depth, Json.depth, Nat.succ_le_succ_iff, Json.itemsDepth_le_iff, listJson_eq_map,
    List.forall_mem_map]
  intro t ht
  obtain ⟨item, hi, hspells⟩ := forall₂_exists_left h ht
  exact (ih t ht item hspells).trans (Json.depth_le_itemsDepth hi)

lemma depth_fieldsJson_le {fields : List (String × Term)}
    (h : Json.SpellsTable Json.Spells json fields)
    (ih : ∀ e ∈ fields, ∀ json : Json, json.Spells e.2 → e.2.toJson.depth ≤ json.depth) :
    (Json.object (fieldsJson fields)).depth ≤ json.depth := by
  obtain ⟨h⟩ := h
  rw [Json.depth, Json.depth, Nat.succ_le_succ_iff, Json.membersDepth_le_iff, fieldsJson_eq_map,
    List.forall_mem_map]
  intro e he
  obtain ⟨m, hm, -, hspells⟩ := forall₂_exists_left (spellsEntries_iff.mp h) he
  exact (ih e he m.2 hspells).trans (Json.depth_le_membersDepth hm)

lemma depth_dictionary_le {fields : List (String × Term)}
    (h : Json.SpellsDictionary Json.Spells json fields)
    (ih : ∀ e ∈ fields, ∀ json : Json, json.Spells e.2 → e.2.toJson.depth ≤ json.depth) :
    (Json.object [("fields", .object (fieldsJson fields))]).depth ≤ json.depth := by
  obtain ⟨hlookup, htable⟩ := h
  rw [Json.depth_only]
  exact (Nat.succ_le_succ (depth_fieldsJson_le htable ih)).trans (Json.depth_lt_of_lookup hlookup)

lemma depth_numericJson_le {n : Numeric} (h : json.SpellsNumeric n) :
    n.toJson.depth ≤ json.depth := by
  cases h with
  | integer => rw [Numeric.toJson, Json.depth_only, Json.depth_only]; exact Nat.le_refl _
  | float => rw [Numeric.toJson, Json.depth_only, Json.depth_only, depth_doubleJson]; omega

lemma depth_handleJson_le {members : List (String × Json)} {handle : Handle Term}
    (h : Json.SpellsOption Json.Spells (members.lookup "constructor") handle.constructor)
    (ih : ∀ t ∈ handle.constructor, ∀ json : Json, json.Spells t →
      t.toJson.depth ≤ json.depth) :
    (handleJson handle).depth ≤ (Json.object members).depth := by
  obtain ⟨id, constructor, repr, classRepr, classId⟩ := handle
  have hpos := Json.depth_object_pos members
  have hconstructor : ∀ t ∈ constructor, t.toJson.depth < (Json.object members).depth := by
    rintro t rfl
    obtain ⟨json, hlookup, hspells⟩ := exists_of_spellsOption h
    exact (ih t rfl json hspells).trans_lt (Json.depth_lt_of_lookup hlookup)
  have htext : ∀ text, (Json.ofOption .string text).depth < (Json.object members).depth :=
    fun text => depth_ofOption text ▸ hpos
  rw [handleJson]
  refine Json.depth_object_le ?_
  simp only [List.forall_mem_append, List.forall_mem_cons, forall_mem_memberOf,
    constructorJson_eq_map, Option.forall_mem_map]
  exact ⟨fun _ _ => hpos, htext classRepr, hconstructor, hpos, htext repr, List.forall_mem_nil _⟩

/-- **No tree that spells a term is nested less deep than the tree that is written for it.** -/
lemma depth_toJson_le {t : Term} (h : json.Spells t) : t.toJson.depth ≤ json.depth := by
  induction t generalizing json with
  | string | boolean | var => exact depth_le_of_payload h rfl fun _ _ _ => Nat.zero_le _
  | number id offset n =>
    refine depth_le_of_payload h rfl ?_
    rintro _ _ (_ | _ | hn)
    exact depth_numericJson_le hn
  | list id offset items ih =>
    refine depth_le_of_payload h rfl fun _ _ hpayload => ?_
    cases hpayload with
    | list hitems => exact depth_listJson_le hitems fun t ht _ => ih t ht
  | dictionary id offset fields ih =>
    refine depth_le_of_payload h rfl fun _ _ hpayload => ?_
    cases hpayload with
    | dictionary hfields => exact depth_dictionary_le hfields fun e he _ => ih e he
  | external id offset handle ih =>
    refine depth_le_of_payload h rfl fun _ _ hpayload => ?_
    cases hpayload with
    | external _ _ hconstructor => exact depth_handleJson_le hconstructor fun t ht _ => ih t ht
  | call id offset name args kwargs hargs hkwargs =>
    refine depth_le_of_payload h rfl fun _ _ hpayload => ?_
    cases hpayload with
    | @call members _ json _ _ _ hlookup hitems hfields =>
      have hpos := Json.depth_object_pos members
      have hlist := depth_listJson_le hitems fun t ht _ => hargs t ht
      have hkw : ∀ fields ∈ kwargs,
          (Json.object (fieldsJson fields)).depth < (Json.object members).depth := by
        rintro fields rfl
        obtain ⟨json', hfound, htable⟩ := exists_of_spellsOption hfields
        exact (depth_fieldsJson_le htable fun e he _ => hkwargs fields rfl e he).trans_lt
          (Json.depth_lt_of_lookup hfound)
      refine Json.depth_object_le ?_
      simp only [List.forall_mem_cons, List.forall_mem_append, forall_mem_memberOf,
        kwargsJson_eq_map, Option.forall_mem_map]
      exact ⟨hlist.trans_lt (Json.depth_lt_of_lookup hlookup), hkw, hpos, List.forall_mem_nil _⟩
  | expression id offset operator args ih =>
    refine depth_le_of_payload h rfl fun _ _ hpayload => ?_
    cases hpayload with
    | @expression members _ json _ _ hlookup hitems =>
      have hpos := Json.depth_object_pos members
      have hlist := depth_listJson_le hitems fun t ht _ => ih t ht
      refine Json.depth_object_le ?_
      simp only [List.forall_mem_cons]
      exact ⟨hlist.trans_lt (Json.depth_lt_of_lookup hlookup), hpos, List.forall_mem_nil _⟩
  | pattern id offset tag fields ih =>
    rcases tag with _ | tag
    · refine depth_le_of_payload h rfl fun _ _ hpayload => ?_
      cases hpayload with
      | @barePattern json _ hfields =>
        rw [Json.depth_only, Json.depth_only _ json]
        exact Nat.succ_le_succ (depth_dictionary_le hfields fun e he _ => ih e he)
    · refine depth_le_of_payload h rfl fun _ _ hpayload => ?_
      cases hpayload with
      | @taggedPattern members _ json _ _ hlookup hfields =>
        have hpos := Json.depth_object_pos members
        have hdictionary := depth_dictionary_le hfields fun e he _ => ih e he
        rw [Json.depth_only, Json.depth_only]
        refine Nat.succ_le_succ (Json.depth_object_le ?_)
        simp only [List.forall_mem_cons]
        exact ⟨hdictionary.trans_lt (Json.depth_lt_of_lookup hlookup), hpos,
          List.forall_mem_nil _⟩

end Depth

/-! ### Texts -/

lemma ofJson_of_spells {json : Json} {t : Term} (h : json.Spells t) : ofJson json = .ok t :=
  (ofJson_eq_ok_of_below (readsBelow json.depth)).mpr h

lemma spells_of_ofJson {json : Json} {t : Term} (h : ofJson json = .ok t) : json.Spells t :=
  (ofJson_eq_ok_of_below (readsBelow json.depth)).mp h

section Texts

variable [Json.Library]

lemma parse_eq_ok {text : String} {t : Term} :
    parse text = .ok t ↔ ∃ json, Json.Library.read text = .ok json ∧ json.Spells t := by
  unfold parse
  rcases Json.Library.read text with message | json
  · simp
  · simp only [Except.ok.injEq, exists_eq_left']
    exact ⟨spells_of_ofJson, ofJson_of_spells⟩

variable [Json.LawfulLibrary]

/-- **A term is read back from its text**, unless it is nested too deep or holds a double that the
library does not keep. -/
lemma parse_print_append {t : Term} (hordered : t.Ordered)
    (hdepth : t.toJson.depth ≤ Json.maxDepth) (hkept : t.toJson.Kept) (blanks : String)
    (hblanks : blanks.toList.all Json.isBlank = true) :
    parse (t.print ++ blanks) = .ok t := by
  have hread := Json.LawfulLibrary.read_write hdepth hkept blanks hblanks
  rw [canonical_toJson hordered] at hread
  exact parse_eq_ok.mpr ⟨t.toJson, hread, spells_toJson t⟩

lemma parse_print {t : Term} (hordered : t.Ordered) (hdepth : t.toJson.depth ≤ Json.maxDepth)
    (hkept : t.toJson.Kept) : parse t.print = .ok t := by
  have hread := parse_print_append hordered hdepth hkept "" rfl
  rwa [String.append_empty] at hread

/-- What is read from a text is in order, and no deeper than the tree that stands in the text. -/
lemma ordered_of_parse {text : String} {t : Term} (h : parse text = .ok t) :
    t.Ordered ∧ t.toJson.depth ≤ Json.maxDepth := by
  obtain ⟨json, hread, hspells⟩ := parse_eq_ok.mp h
  exact ⟨ordered_of_spells hspells (Json.LawfulLibrary.canonical_of_read hread),
    (depth_toJson_le hspells).trans (Json.LawfulLibrary.depth_of_read hread)⟩

end Texts

end HostBridge.Term
