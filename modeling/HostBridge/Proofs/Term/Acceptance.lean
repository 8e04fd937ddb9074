import HostBridge.Proofs.Json.Depth
import HostBridge.Proofs.Table
import HostBridge.Proofs.Term.Grammar
import HostBridge.Proofs.Term.RoundTrip

/-!
The reader accepts exactly the trees that the grammar gives a term, and reads that term.

Each function of the reader answers as a clause of the grammar says, given that terms nested
less deep are read as the grammar says; so the induction is on the depth of the tree.
-/

namespace HostBridge

/-! ### Members -/

namespace Json

lemma getString_eq_ok {context text : String} {json : Json} :
    json.getString context = .ok text ↔ json = .string text := by
  cases json <;> simp [getString]

lemma getBoolean_eq_ok {context : String} {value : Bool} {json : Json} :
    json.getBoolean context = .ok value ↔ json = .boolean value := by
  cases json <;> simp [getBoolean]

lemma getString_eq_ok_iff_spells {context text : String} {json : Json} :
    json.getString context = .ok text ↔ json.SpellsText text := by
  rw [getString_eq_ok]
  constructor
  · rintro rfl; exact .intro text
  · rintro ⟨⟩; rfl

lemma getMember_eq_ok {context key : String} {members : List (String × Json)} {json : Json} :
    getMember context key members = .ok json ↔ members.lookup key = some json := by
  unfold getMember
  rcases members.lookup key with _ | json' <;> simp

lemma getMember_cons (context key : String) (m : String × Json) (rest : List (String × Json)) :
    getMember context key (m :: rest) =
      if m.1 = key then .ok m.2 else getMember context key rest := by
  rw [getMember, Table.lookup_cons]
  by_cases h : m.1 = key
  · rw [if_pos h, if_pos h]
  · rw [if_neg h, if_neg h]; rfl

lemma getTagged_eq_ok {context tag : String} {json payload : Json} :
    json.getTagged context = .ok (tag, payload) ↔ json = .object [(tag, payload)] := by
  constructor
  · intro h
    unfold getTagged at h
    split at h <;> cases h
    rfl
  · rintro rfl; rfl

lemma getOptional_eq_ok {β : Type} {get : Json → Except TermError β} {R : Json → β → Prop}
    {o : Option Json} {b : Option β} (hget : ∀ json ∈ o, ∀ b, get json = .ok b ↔ R json b)
    (hnull : ∀ b, ¬ R .null b) : getOptional get o = .ok b ↔ SpellsOption R o b := by
  rcases o with _ | json
  · constructor
    · intro h; cases h; exact .absent
    · rintro ⟨⟩; rfl
  · by_cases hj : json = .null
    · subst hj
      constructor
      · intro h; cases h; exact .null
      · intro h
        cases h with
        | null => rfl
        | present hb => exact absurd hb (hnull _)
    · have hread : getOptional get (some json) = (get json).map some := by
        cases json <;> first | rfl | exact absurd rfl hj
      rw [hread, Result.map_eq_ok]
      constructor
      · rintro ⟨c, hc, rfl⟩; exact .present ((hget json rfl c).mp hc)
      · intro h
        cases h with
        | null => exact absurd rfl hj
        | present hb => exact ⟨_, (hget json rfl _).mpr hb, rfl⟩

/-! ### Numbers -/

lemma getWord_eq_ok {context : String} {json : Json} {word : UInt64} :
    json.getWord context = .ok word ↔ json.SpellsWord word := by
  constructor
  · intro h
    cases json with
    | number n =>
      cases n with
      | integer n inRange =>
        by_cases hn : 0 ≤ n
        · simp only [getWord, Number.word?, if_pos hn] at h
          cases h
          have hlt : n.toNat < 2 ^ 64 := by omega
          exact .intro (by rw [UInt64.toNat_ofNat_of_lt' hlt, Int.toNat_of_nonneg hn])
        · simp only [getWord, Number.word?, if_neg hn] at h
          cases h
      | float x => cases h
    | _ => cases h
  · rintro ⟨rfl⟩
    exact getWord_ofWord context word

end Json

namespace Numeric

lemma ofInteger_eq_ok {n : Json.Number} {value : Numeric} :
    ofInteger n = .ok value ↔
      ∃ k inRange, ∃ i : Int32, n = .integer k inRange ∧ k = i.toInt ∧ value = .integer i := by
  constructor
  · intro h
    cases n with
    | float x => cases h
    | integer k inRange =>
      unfold ofInteger Json.Number.signed? at h
      by_cases hsigned : k < 0x8000000000000000
      · simp only [if_pos hsigned] at h
        by_cases hk : -0x80000000 ≤ k ∧ k < 0x80000000
        · rw [if_pos hk] at h
          cases h
          exact ⟨k, inRange, _, rfl, (Int32.toInt_ofInt_of_le hk.1 hk.2).symm, rfl⟩
        · rw [if_neg hk] at h
          cases h
      · simp only [if_neg hsigned] at h
        cases h
  · rintro ⟨k, inRange, i, rfl, rfl, rfl⟩
    exact ofInteger_ofInt32 i

lemma ofFloat_eq_ok {json : Json} {value : Numeric} :
    ofFloat json = .ok value ↔ ∃ x, json.SpellsFloat x ∧ value = .float x := by
  constructor
  · intro h
    unfold ofFloat at h
    split at h <;> cases h
    · exact ⟨_, .infinity, rfl⟩
    · exact ⟨_, .negativeInfinity, rfl⟩
    · exact ⟨_, .nan, rfl⟩
    · exact ⟨_, .number _, rfl⟩
  · rintro ⟨x, ⟨⟩, rfl⟩ <;> rfl

lemma ofJson_eq_ok {json : Json} {value : Numeric} :
    ofJson json = .ok value ↔ json.SpellsNumeric value := by
  constructor
  · intro h
    obtain ⟨⟨tag, payload⟩, htag, hread⟩ := Result.bind_eq_ok.mp h
    obtain rfl := Json.getTagged_eq_ok.mp htag
    dsimp only at hread
    by_cases hinteger : tag = "Integer"
    · subst hinteger
      cases payload with
      | number n =>
        obtain ⟨k, inRange, i, rfl, hk, rfl⟩ := ofInteger_eq_ok.mp hread
        exact .integer hk
      | _ => cases hread
    · rw [if_neg hinteger] at hread
      by_cases hfloat : tag = "Float"
      · subst hfloat
        obtain ⟨x, hx, rfl⟩ := ofFloat_eq_ok.mp hread
        exact .float hx
      · rw [if_neg hfloat] at hread
        cases hread
  · intro h
    cases h with
    | integer hk => exact ofInteger_eq_ok.mpr ⟨_, _, _, rfl, hk, rfl⟩
    | float hx => exact ofFloat_eq_ok.mpr ⟨_, hx, rfl⟩

end Numeric

namespace Term

/-! ### Members that hold terms

The reader passes over the members of an object; what it finds is what a lookup finds. -/

lemma valueMember_eq (members : List (String × Json)) :
    valueMember members = Json.getMember "Term" "value" members >>= taggedPayload := by
  induction members with
  | nil => rfl
  | cons m rest ih => rw [valueMember, Json.getMember_cons, ih]; split <;> rfl

lemma argsMember_eq (place context : String) (members : List (String × Json)) :
    argsMember place context members = Json.getMember place "args" members >>= listOf context := by
  induction members with
  | nil => rfl
  | cons m rest ih => rw [argsMember, Json.getMember_cons, ih]; split <;> rfl

lemma patternMember_eq (members : List (String × Json)) :
    patternMember members = Json.getMember "Pattern.Instance" "fields" members >>=
      dictionaryOf "Pattern.Instance.fields" := by
  induction members with
  | nil => rfl
  | cons m rest ih => rw [patternMember, Json.getMember_cons, ih]; split <;> rfl

lemma fieldsMember_eq (context : String) (members : List (String × Json)) :
    fieldsMember context members = Json.getMember context "fields" members >>= tableOf context := by
  induction members with
  | nil => rfl
  | cons m rest ih => rw [fieldsMember, Json.getMember_cons, ih]; split <;> rfl

lemma constructorMember_eq (members : List (String × Json)) :
    constructorMember members = Json.getOptional ofJson (members.lookup "constructor") := by
  induction members with
  | nil => rfl
  | cons m rest ih =>
    obtain ⟨key, json⟩ := m
    by_cases h : key = "constructor"
    · subst h
      cases json <;> simp [constructorMember, Json.getOptional]
    · rw [constructorMember_cons_of_ne h, ih, Table.lookup_cons, if_neg h]

lemma kwargsMember_eq (members : List (String × Json)) :
    kwargsMember members = Json.getOptional (tableOf "Call.kwargs") (members.lookup "kwargs") := by
  induction members with
  | nil => rfl
  | cons m rest ih =>
    obtain ⟨key, json⟩ := m
    by_cases h : key = "kwargs"
    · subst h
      cases json <;> simp [kwargsMember, Json.getOptional]
    · have hpass : kwargsMember ((key, json) :: rest) = kwargsMember rest := by
        cases json <;> simp [kwargsMember, h]
      rw [hpass, ih, Table.lookup_cons, if_neg h]

lemma operatorOf_eq_ok {name : String} {operator : Operator} :
    operatorOf name = .ok operator ↔ operator.name = name := by
  unfold operatorOf
  constructor
  · intro h
    split at h
    · rename_i hop; cases h; exact Operator.name_of_ofName? hop
    · cases h
  · rintro rfl; simp

/-! ### Lists and tables of terms -/

/-- On trees nested less deep the reader does what the grammar says. -/
def ReadsBelow (depth : Nat) : Prop :=
  ∀ json : Json, json.depth < depth → ∀ t, ofJson json = .ok t ↔ json.Spells t

lemma ReadsBelow.mono {d d' : Nat} (h : ReadsBelow d) (hle : d' ≤ d) : ReadsBelow d' :=
  fun json hjson => h json (by omega)

lemma ReadsBelow.lookup {members : List (String × Json)} {key : String} {json : Json}
    (h : ReadsBelow (Json.object members).depth) (hlookup : members.lookup key = some json) :
    ReadsBelow json.depth :=
  h.mono (Nat.le_of_lt (Json.depth_lt_of_lookup hlookup))

lemma ReadsBelow.only {key : String} {json : Json}
    (h : ReadsBelow (Json.object [(key, json)]).depth) : ReadsBelow json.depth :=
  h.lookup List.lookup_cons_self

lemma listOf_eq_ok {context : String} {json : Json} {ts : List Term}
    (h : ReadsBelow json.depth) :
    listOf context json = .ok ts ↔ Json.SpellsList Json.Spells json ts := by
  cases json with
  | array items =>
    have hitems : ∀ item ∈ items, ∀ t, ofJson item = .ok t ↔ item.Spells t :=
      fun item hi => h item (Json.depth_lt_of_mem_array hi)
    rw [listOf, listItems_eq_mapM, Result.mapM_eq_ok_of hitems]
    constructor
    · exact .intro
    · rintro ⟨hts⟩; exact hts
  | _ => refine ⟨fun h => ?_, fun h => ?_⟩ <;> cases h

lemma spellsEntries_iff {R : Json → Term → Prop} {members : List (String × Json)}
    {fields : List (String × Term)} :
    Json.SpellsEntries R members fields ↔ List.Forall₂ (Table.Corresponds R) members fields := by
  constructor
  · intro h
    induction h with
    | nil => exact .nil
    | cons ht _ ih => exact .cons ⟨rfl, ht⟩ ih
  · intro h
    induction h with
    | nil => exact .nil
    | @cons m e _ _ he _ ih =>
      obtain ⟨key, json⟩ := m
      obtain ⟨key', t⟩ := e
      obtain ⟨rfl, ht⟩ := he
      exact .cons ht ih

lemma tableEntries_eq_ok {members : List (String × Json)} {fields : List (String × Term)}
    (h : ∀ m ∈ members, ∀ t, ofJson m.2 = .ok t ↔ m.2.Spells t) :
    tableEntries members = .ok fields ↔ Json.SpellsEntries Json.Spells members fields := by
  rw [tableEntries_eq_mapM, spellsEntries_iff]
  refine Result.mapM_eq_ok_of fun m hm e => ?_
  rw [Result.onValue_eq_ok, h m hm, Table.Corresponds]

lemma tableOf_eq_ok {context : String} {json : Json} {fields : List (String × Term)}
    (h : ReadsBelow json.depth) :
    tableOf context json = .ok fields ↔ Json.SpellsTable Json.Spells json fields := by
  cases json with
  | object members =>
    rw [tableOf, tableEntries_eq_ok fun m hm => h m.2 (Json.depth_lt_of_mem_object hm)]
    constructor
    · exact .intro
    · rintro ⟨hfields⟩; exact hfields
  | _ => refine ⟨fun h => ?_, fun h => ?_⟩ <;> cases h

lemma dictionaryOf_eq_ok {context : String} {json : Json} {fields : List (String × Term)}
    (h : ReadsBelow json.depth) :
    dictionaryOf context json = .ok fields ↔ Json.SpellsDictionary Json.Spells json fields := by
  cases json with
  | object members =>
    rw [dictionaryOf, fieldsMember_eq, Result.bind_eq_ok]
    constructor
    · rintro ⟨json, hm, hfields⟩
      have hlookup := Json.getMember_eq_ok.mp hm
      exact .intro hlookup ((tableOf_eq_ok (h.lookup hlookup)).mp hfields)
    · rintro ⟨hlookup, hfields⟩
      exact ⟨_, Json.getMember_eq_ok.mpr hlookup, (tableOf_eq_ok (h.lookup hlookup)).mpr hfields⟩
  | _ => refine ⟨fun h => ?_, fun h => ?_⟩ <;> cases h

/-! ### Payloads -/

section Members

variable {members : List (String × Json)} (h : ReadsBelow (Json.object members).depth)
include h

lemma payload_external_eq_ok {p : Payload Term} :
    payload .external (.object members) = .ok p ↔
      Json.SpellsPayload Json.Spells .external (.object members) p := by
  have hconstructor : ∀ {c}, constructorMember members = .ok c ↔
      Json.SpellsOption Json.Spells (members.lookup "constructor") c := by
    intro c
    rw [constructorMember_eq]
    refine Json.getOptional_eq_ok (fun json hj t => ?_) ?_
    · exact h json (Json.depth_lt_of_lookup hj) t
    · rintro b ⟨⟩
  have hword : ∀ {context o n}, Json.getOptional (Json.getWord context) o = .ok n ↔
      Json.SpellsOption Json.SpellsWord o n :=
    Json.getOptional_eq_ok (fun _ _ _ => Json.getWord_eq_ok) (by rintro b ⟨⟩)
  have htext : ∀ {context o s}, Json.getOptional (Json.getString context) o = .ok s ↔
      Json.SpellsOption Json.SpellsText o s :=
    Json.getOptional_eq_ok (fun _ _ _ => Json.getString_eq_ok_iff_spells) (by rintro b ⟨⟩)
  simp only [payload, Result.bind_eq_ok, Json.getMember_eq_ok, Json.getWord_eq_ok, hconstructor,
    hword, htext]
  constructor
  · rintro ⟨idJson, hid, id, hw, constructor, hc, classId, hci, repr, hr, classRepr, hcr, hp⟩
    cases hp
    exact .external hid hw hc hr hcr hci
  · intro hs
    cases hs with
    | external hid hw hc hr hcr hci =>
      exact ⟨_, hid, _, hw, _, hc, _, hci, _, hr, _, hcr, rfl⟩

lemma payload_call_eq_ok {p : Payload Term} :
    payload .call (.object members) = .ok p ↔
      Json.SpellsPayload Json.Spells .call (.object members) p := by
  have hkwargs : ∀ {kw}, kwargsMember members = .ok kw ↔
      Json.SpellsOption (Json.SpellsTable Json.Spells) (members.lookup "kwargs") kw := by
    intro kw
    rw [kwargsMember_eq]
    refine Json.getOptional_eq_ok (fun json hj fields => tableOf_eq_ok (h.lookup hj)) ?_
    rintro b ⟨⟩
  simp only [payload, argsMember_eq, Result.bind_eq_ok, Json.getMember_eq_ok,
    Json.getString_eq_ok, hkwargs]
  constructor
  · rintro ⟨_, hname, name, rfl, args, ⟨json, hargs, hts⟩, kwargs, hkw, hp⟩
    cases hp
    exact .call hname hargs ((listOf_eq_ok (h.lookup hargs)).mp hts) hkw
  · intro hs
    cases hs with
    | call hname hargs hts hkw =>
      exact ⟨_, hname, _, rfl, _, ⟨_, hargs, (listOf_eq_ok (h.lookup hargs)).mpr hts⟩, _, hkw, rfl⟩

lemma payload_expression_eq_ok {p : Payload Term} :
    payload .expression (.object members) = .ok p ↔
      Json.SpellsPayload Json.Spells .expression (.object members) p := by
  simp only [payload, argsMember_eq, Result.bind_eq_ok, Json.getMember_eq_ok,
    Json.getString_eq_ok, operatorOf_eq_ok]
  constructor
  · rintro ⟨_, hname, _, rfl, operator, rfl, args, ⟨json, hargs, hts⟩, hp⟩
    cases hp
    exact .expression hname hargs ((listOf_eq_ok (h.lookup hargs)).mp hts)
  · intro hs
    cases hs with
    | expression hname hargs hts =>
      exact ⟨_, hname, _, rfl, _, rfl, _, ⟨_, hargs, (listOf_eq_ok (h.lookup hargs)).mpr hts⟩, rfl⟩

lemma payload_taggedPattern_eq_ok {p : Payload Term} :
    payload .pattern (.object [("Instance", .object members)]) = .ok p ↔
      ∃ tag json fields, members.lookup "tag" = some (.string tag) ∧
        members.lookup "fields" = some json ∧
        Json.SpellsDictionary Json.Spells json fields ∧ p = .pattern (some tag) fields := by
  simp only [payload, patternMember_eq, Result.bind_eq_ok, Json.getMember_eq_ok,
    Json.getString_eq_ok]
  constructor
  · rintro ⟨_, htag, tag, rfl, fields, ⟨json, hjson, hfields⟩, hp⟩
    cases hp
    exact ⟨tag, json, fields, htag, hjson, (dictionaryOf_eq_ok (h.lookup hjson)).mp hfields, rfl⟩
  · rintro ⟨tag, json, fields, htag, hjson, hfields, rfl⟩
    exact ⟨_, htag, tag, rfl, fields,
      ⟨json, hjson, (dictionaryOf_eq_ok (h.lookup hjson)).mpr hfields⟩, rfl⟩

end Members

lemma payload_pattern_eq_ok {json : Json} {p : Payload Term} (h : ReadsBelow json.depth) :
    payload .pattern json = .ok p ↔ Json.SpellsPayload Json.Spells .pattern json p := by
  constructor
  · intro hp
    unfold payload at hp
    split at hp
    -- every other object, and whatever is no object, is refused
    all_goals try contradiction
    · obtain ⟨tag, json, fields, htag, hjson, hfields, rfl⟩ :=
        (payload_taggedPattern_eq_ok h.only).mp hp
      exact .taggedPattern htag hjson hfields
    · obtain ⟨fields, hfields, rfl⟩ := Result.map_eq_ok.mp hp
      exact .barePattern ((dictionaryOf_eq_ok h.only).mp hfields)
  · rintro (_ | _ | _ | _ | _ | _ | _ | _ | _ | ⟨htag, hjson, hfields⟩ | hfields)
    · exact (payload_taggedPattern_eq_ok h.only).mpr ⟨_, _, _, htag, hjson, hfields, rfl⟩
    · rw [payload, (dictionaryOf_eq_ok h.only).mpr hfields, Except.map]

lemma payload_list_eq (json : Json) : payload .list json = (listOf "List" json).map .list := by
  cases json <;> rfl

lemma payload_dictionary_eq (json : Json) :
    payload .dictionary json = (dictionaryOf "Dictionary" json).map .dictionary := by
  cases json <;> rfl

lemma payload_eq_ok {tag : Tag} {json : Json} {p : Payload Term} (h : ReadsBelow json.depth) :
    payload tag json = .ok p ↔ Json.SpellsPayload Json.Spells tag json p := by
  cases tag with
  | string =>
    rw [payload, Result.map_eq_ok]
    constructor
    · rintro ⟨s, hs, rfl⟩; rw [Json.getString_eq_ok.mp hs]; exact .string s
    · rintro ⟨⟩; exact ⟨_, rfl, rfl⟩
  | boolean =>
    rw [payload, Result.map_eq_ok]
    constructor
    · rintro ⟨b, hb, rfl⟩; rw [Json.getBoolean_eq_ok.mp hb]; exact .boolean b
    · rintro ⟨⟩; exact ⟨_, rfl, rfl⟩
  | number =>
    rw [payload, Result.map_eq_ok]
    constructor
    · rintro ⟨n, hn, rfl⟩; exact .number (Numeric.ofJson_eq_ok.mp hn)
    · rintro ⟨hn⟩; exact ⟨_, Numeric.ofJson_eq_ok.mpr ‹_›, rfl⟩
  | list =>
    rw [payload_list_eq, Result.map_eq_ok]
    constructor
    · rintro ⟨ts, hts, rfl⟩; exact .list ((listOf_eq_ok h).mp hts)
    · rintro ⟨⟩; exact ⟨_, (listOf_eq_ok h).mpr ‹_›, rfl⟩
  | dictionary =>
    rw [payload_dictionary_eq, Result.map_eq_ok]
    constructor
    · rintro ⟨fields, hf, rfl⟩; exact .dictionary ((dictionaryOf_eq_ok h).mp hf)
    · rintro ⟨⟩; exact ⟨_, (dictionaryOf_eq_ok h).mpr ‹_›, rfl⟩
  | external =>
    cases json with
    | object members => exact payload_external_eq_ok h
    | _ => refine ⟨fun h => ?_, fun h => ?_⟩ <;> cases h
  | call =>
    cases json with
    | object members => exact payload_call_eq_ok h
    | _ => refine ⟨fun h => ?_, fun h => ?_⟩ <;> cases h
  | var =>
    rw [payload, Result.map_eq_ok]
    constructor
    · rintro ⟨s, hs, rfl⟩; rw [Json.getString_eq_ok.mp hs]; exact .var s
    · rintro ⟨⟩; exact ⟨_, rfl, rfl⟩
  | expression =>
    cases json with
    | object members => exact payload_expression_eq_ok h
    | _ => refine ⟨fun h => ?_, fun h => ?_⟩ <;> cases h
  | pattern => exact payload_pattern_eq_ok h

/-! ### Terms -/

lemma spellsTag_iff {name : String} {tag : Tag} : Json.SpellsTag name tag ↔ tag.name = name := by
  constructor
  · rintro ⟨⟩ <;> rfl
  · rintro rfl
    cases tag <;> constructor

lemma taggedPayload_eq_ok {json : Json} {p : Payload Term} :
    taggedPayload json = .ok p ↔ ∃ name tag inner, json = .object [(name, inner)] ∧
      Json.SpellsTag name tag ∧ payload tag inner = .ok p := by
  constructor
  · intro h
    unfold taggedPayload at h
    split at h
    · split at h
      · rename_i htag
        exact ⟨_, _, _, rfl, spellsTag_iff.mpr (Tag.name_of_ofName? htag), h⟩
      · cases h
    · cases h
    · cases h
  · rintro ⟨name, tag, inner, rfl, htag, h⟩
    rw [← spellsTag_iff.mp htag, taggedPayload_name, h]

lemma provenance_eq_ok {key : String} {members : List (String × Json)} {word : UInt64} :
    provenance key members = .ok word ↔ Json.SpellsProvenance (members.lookup key) word := by
  unfold provenance
  rcases members.lookup key with _ | json
  · constructor
    · rintro ⟨⟩; exact .absent
    · rintro ⟨⟩; rfl
  · constructor
    · intro h; exact .present (Json.getWord_eq_ok.mp h)
    · rintro ⟨⟩; exact Json.getWord_eq_ok.mpr ‹_›

lemma ofJson_eq_ok_of_below {json : Json} {t : Term} (h : ReadsBelow json.depth) :
    ofJson json = .ok t ↔ json.Spells t := by
  cases json with
  | object members =>
    simp only [ofJson, valueMember_eq, Result.bind_eq_ok, Json.getMember_eq_ok, provenance_eq_ok,
      taggedPayload_eq_ok]
    constructor
    · rintro ⟨id, hid, offset, hoffset, p, ⟨_, hvalue, name, tag, inner, rfl, htag, hp⟩, ht⟩
      cases ht
      exact .intro hid hoffset hvalue htag ((payload_eq_ok (h.lookup hvalue).only).mp hp)
    · rintro ⟨hid, hoffset, hvalue, htag, hp⟩
      exact ⟨_, hid, _, hoffset, _,
        ⟨_, hvalue, _, _, _, rfl, htag, (payload_eq_ok (h.lookup hvalue).only).mpr hp⟩, rfl⟩
  | _ => refine ⟨fun h => ?_, fun h => ?_⟩ <;> cases h

lemma readsBelow (depth : Nat) : ReadsBelow depth := by
  induction depth with
  | zero => exact fun json h => absurd h (Nat.not_lt_zero _)
  | succ depth ih =>
    exact fun json h t => ofJson_eq_ok_of_below (ih.mono (Nat.le_of_lt_succ h))

/--
**Acceptance**: the reader answers with a term exactly if the tree spells it, whatever other
members the objects in the tree have.
-/
theorem ofJson_eq_ok_iff (json : Json) (t : Term) : ofJson json = .ok t ↔ json.Spells t :=
  ofJson_eq_ok_of_below (readsBelow json.depth)

end Term

end HostBridge
