import HostBridge.Proofs.Step
import HostBridge.Proofs.Term.Induction
import HostBridge.Term.Printer
import HostBridge.Term.Reader

/-!
Reading a term back from the tree that it is written as.

The reader inverts the writer member by member: ids, numbers and optional members first, then
lists and tables of terms by what holds of their items, and last the terms themselves by
induction.
-/

namespace HostBridge

/-! ### Numbers -/

namespace Json

@[simp] lemma word?_ofWord (n : UInt64) : (Number.ofWord n).word? = some n := by
  simp [Number.ofWord, Number.word?]

@[simp] lemma getWord_ofWord (context : String) (n : UInt64) :
    (ofWord n).getWord context = .ok n := by
  simp [ofWord, getWord]

@[simp] lemma signed?_ofInt32 (n : Int32) : (Number.ofInt32 n).signed? = some n.toInt := by
  have hlt := n.toInt_lt
  simp only [Number.ofInt32, Number.signed?]
  rw [if_pos (by omega)]

end Json

namespace Numeric

lemma ofInteger_ofInt32 (n : Int32) : ofInteger (.ofInt32 n) = .ok (.integer n) := by
  have hle := n.le_toInt
  have hlt := n.toInt_lt
  simp only [ofInteger, Json.signed?_ofInt32]
  rw [if_pos ⟨by omega, by omega⟩, Int32.ofInt_toInt]

/-- Each double is written so that it is read back, the three that are no numbers by name. -/
lemma ofFloat_toJson (x : Double) : ofFloat x.toJson = .ok (.float x) := by
  rcases x with _ | negative | x
  · rfl
  · cases negative <;> rfl
  · rfl

lemma ofJson_of_toJson (n : Numeric) : ofJson n.toJson = .ok n := by
  cases n with
  | integer n => exact ofInteger_ofInt32 n
  | float x => exact ofFloat_toJson x

end Numeric

namespace Term

/-! ### Lists and tables of terms -/

lemma listJson_eq_map (items : List Term) : listJson items = items.map toJson := by
  induction items with
  | nil => rfl
  | cons t rest ih => rw [listJson, ih, List.map_cons]

lemma fieldsJson_eq_map (fields : List (String × Term)) :
    fieldsJson fields = fields.map fun e => (e.1, toJson e.2) := by
  induction fields with
  | nil => rfl
  | cons e rest ih => rw [fieldsJson, ih, List.map_cons]

lemma listItems_eq_mapM (items : List Json) : listItems items = items.mapM ofJson := by
  induction items with
  | nil => rfl
  | cons json rest ih => rw [listItems, ih, List.mapM_cons]; rfl

lemma tableEntries_eq_mapM (members : List (String × Json)) :
    tableEntries members = members.mapM (onValue ofJson) := by
  induction members with
  | nil => rfl
  | cons m rest ih =>
    obtain ⟨key, json⟩ := m
    rw [tableEntries, ih, List.mapM_cons, onValue]
    cases ofJson json <;> rfl

lemma listItems_listJson {items : List Term} (h : ∀ t ∈ items, ofJson t.toJson = .ok t) :
    listItems (listJson items) = .ok items := by
  rw [listItems_eq_mapM, Result.mapM_eq_ok, listJson_eq_map, List.forall₂_map_left_iff,
    List.forall₂_same]
  exact h

lemma tableEntries_fieldsJson {fields : List (String × Term)}
    (h : ∀ e ∈ fields, ofJson e.2.toJson = .ok e.2) :
    tableEntries (fieldsJson fields) = .ok fields := by
  rw [tableEntries_eq_mapM, Result.mapM_eq_ok, fieldsJson_eq_map, List.forall₂_map_left_iff,
    List.forall₂_same]
  exact fun e he => Result.onValue_eq_ok.mpr ⟨rfl, h e he⟩

/-! ### Members -/

/-- A payload is read by its tag. -/
lemma taggedPayload_name (tag : Tag) (json : Json) :
    taggedPayload (.object [(tag.name, json)]) = payload tag json := by
  simp [taggedPayload]

@[simp] lemma operatorOf_name (op : Operator) : operatorOf op.name = .ok op := by
  simp [operatorOf]

/-- What a writer makes of a value that may be absent is never null if it is there. -/
lemma getOptional_map {β : Type} {get : Json → Except TermError β} {write : β → Json}
    (hget : ∀ b, get (write b) = .ok b) (hnull : ∀ b, write b ≠ .null) (value : Option β) :
    Json.getOptional get (value.map write) = .ok value := by
  rcases value with _ | b
  · rfl
  · have hb := hget b
    rw [Option.map_some]
    generalize hj : write b = json at hb
    have hne : json ≠ .null := hj ▸ hnull b
    cases json <;> simp_all [Json.getOptional, Except.map]

lemma getOptional_ofOption_string (context : String) (text : Option String) :
    Json.getOptional (Json.getString context) (some (.ofOption .string text)) = .ok text := by
  cases text <;> rfl

lemma toJson_ne_null (t : Term) : t.toJson ≠ .null := by
  obtain ⟨id, offset, value⟩ := t
  rw [toJson]
  exact Json.noConfusion

lemma constructorMember_cons_self {t : Term} (h : ofJson t.toJson = .ok t)
    (rest : List (String × Json)) :
    constructorMember (("constructor", t.toJson) :: rest) = .ok (some t) := by
  generalize hj : t.toJson = json at h
  have hne : json ≠ .null := hj ▸ toJson_ne_null t
  cases json <;> simp_all [constructorMember, Except.map]

lemma constructorMember_cons_of_ne {key : String} (h : key ≠ "constructor") (json : Json)
    (rest : List (String × Json)) :
    constructorMember ((key, json) :: rest) = constructorMember rest := by
  cases json <;> simp [constructorMember, h]

@[simp] lemma lookup_memberOf (key other : String) (json : Option Json) :
    (memberOf key json).lookup other = if other = key then json else none := by
  rcases json with _ | json
  · simp [memberOf]
  · by_cases h : other = key
    · simp [memberOf, h]
    · have hne : (other == key) = false := by simpa using h
      simp [memberOf, List.lookup_cons, hne, h]

lemma constructorMember_memberOf {key : String} (h : key ≠ "constructor") (json : Option Json)
    (rest : List (String × Json)) :
    constructorMember (memberOf key json ++ rest) = constructorMember rest := by
  rcases json with _ | json
  · rfl
  · exact constructorMember_cons_of_ne h json rest

lemma fieldsMember_fieldsJson (context : String) {fields : List (String × Term)}
    (h : ∀ e ∈ fields, ofJson e.2.toJson = .ok e.2) :
    fieldsMember context [("fields", .object (fieldsJson fields))] = .ok fields := by
  rw [fieldsMember, if_pos rfl, tableOf, tableEntries_fieldsJson h]

/-! ### Payloads -/

section Payloads

attribute [local simp] payload

/-- A handle is read from its members, wherever they stand. -/
lemma payload_external {members : List (String × Json)} {handle : Handle Term} {json : Json}
    (hid : members.lookup "instance_id" = some json)
    (hword : json.getWord "ExternalInstance.instance_id" = .ok handle.id)
    (hconstructor : constructorMember members = .ok handle.constructor)
    (hclassId : Json.getOptional (Json.getWord "ExternalInstance.class_id")
      (members.lookup "class_id") = .ok handle.classId)
    (hrepr : Json.getOptional (Json.getString "ExternalInstance.repr")
      (members.lookup "repr") = .ok handle.repr)
    (hclassRepr : Json.getOptional (Json.getString "ExternalInstance.class_repr")
      (members.lookup "class_repr") = .ok handle.classRepr) :
    payload .external (.object members) = .ok (.external handle) := by
  simp only [payload, Json.getMember, hid, hword, hconstructor, hclassId, hrepr, hclassRepr,
    bind, Except.bind]

lemma payload_handleJson {handle : Handle Term}
    (h : ∀ t ∈ handle.constructor, ofJson t.toJson = .ok t) :
    payload .external (handleJson handle) = .ok (.external handle) := by
  obtain ⟨id, constructor, repr, classRepr, classId⟩ := handle
  rw [handleJson]
  have hword := Json.getWord_ofWord "ExternalInstance.instance_id" id
  refine payload_external ?_ hword ?_ ?_ ?_ ?_
  · simp [List.lookup_append, List.lookup_cons]
  · -- the members before the constructor are passed over
    rw [constructorMember_memberOf (by decide), constructorMember_cons_of_ne (by decide)]
    rcases constructor with _ | t
    · simp [memberOf, constructorJson, constructorMember_cons_of_ne, constructorMember]
    · exact constructorMember_cons_self (h t rfl) _
  · have hread := getOptional_map (Json.getWord_ofWord "ExternalInstance.class_id")
      (fun n => Json.noConfusion) classId
    simpa [List.lookup_append, List.lookup_cons] using hread
  · have hread := getOptional_ofOption_string "ExternalInstance.repr" repr
    simpa [List.lookup_append, List.lookup_cons] using hread
  · have hread := getOptional_ofOption_string "ExternalInstance.class_repr" classRepr
    simpa [List.lookup_append, List.lookup_cons] using hread

lemma payload_call {name : String} {args : List Term} {kwargs : Option (List (String × Term))}
    (hargs : ∀ t ∈ args, ofJson t.toJson = .ok t)
    (hkwargs : ∀ fields ∈ kwargs, ∀ e ∈ fields, ofJson e.2.toJson = .ok e.2) :
    taggedPayload (payloadJson (.call name args kwargs)) = .ok (.call name args kwargs) := by
  have hitems := listItems_listJson hargs
  rw [payloadJson]
  refine (taggedPayload_name .call _).trans ?_
  rcases kwargs with _ | fields
  · simp [memberOf, kwargsJson, Json.getMember, List.lookup_cons, Json.getString,
      argsMember, listOf, kwargsMember, hitems, bind, Except.bind]
  · have htable := tableEntries_fieldsJson (hkwargs fields rfl)
    simp [memberOf, kwargsJson, Json.getMember, List.lookup_cons, Json.getString,
      argsMember, listOf, kwargsMember, tableOf, hitems, htable, bind, Except.bind, Except.map]

lemma payload_pattern {tag : Option String} {fields : List (String × Term)}
    (h : ∀ e ∈ fields, ofJson e.2.toJson = .ok e.2) :
    taggedPayload (payloadJson (.pattern tag fields)) = .ok (.pattern tag fields) := by
  rcases tag with _ | tag
  · have hfields := fieldsMember_fieldsJson "Pattern.Dictionary" h
    rw [payloadJson]
    refine (taggedPayload_name .pattern _).trans ?_
    simp [dictionaryOf, hfields, Except.map]
  · have hfields := fieldsMember_fieldsJson "Pattern.Instance.fields" h
    rw [payloadJson]
    refine (taggedPayload_name .pattern _).trans ?_
    simp [Json.getMember, List.lookup_cons, Json.getString, patternMember, dictionaryOf, hfields,
      bind, Except.bind]

end Payloads

/-! ### Terms -/

/-- A term is read back if its payload is. -/
lemma ofJson_toJson_of_payload {value : Payload Term}
    (h : taggedPayload (payloadJson value) = .ok value) (id offset : UInt64) :
    ofJson (toJson ⟨id, offset, value⟩) = .ok ⟨id, offset, value⟩ := by
  simp [toJson, ofJson, provenance, List.lookup_cons, valueMember, h, bind, Except.bind]

/-- **Round trip**: the reader recovers every term from the tree that the writer makes of it. -/
theorem ofJson_toJson (t : Term) : ofJson t.toJson = .ok t := by
  induction t with
  | string id offset s => exact ofJson_toJson_of_payload rfl id offset
  | boolean id offset b => exact ofJson_toJson_of_payload rfl id offset
  | number id offset n =>
    refine ofJson_toJson_of_payload ?_ id offset
    refine (taggedPayload_name .number _).trans ?_
    rw [payload, Numeric.ofJson_of_toJson, Except.map]
  | list id offset items ih =>
    refine ofJson_toJson_of_payload ?_ id offset
    rw [payloadJson]
    refine (taggedPayload_name .list _).trans ?_
    rw [payload, listItems_listJson ih, Except.map]
  | dictionary id offset fields ih =>
    refine ofJson_toJson_of_payload ?_ id offset
    rw [payloadJson]
    refine (taggedPayload_name .dictionary _).trans ?_
    rw [payload, fieldsMember_fieldsJson _ ih, Except.map]
  | external id offset handle ih =>
    refine ofJson_toJson_of_payload ?_ id offset
    rw [payloadJson]
    exact (taggedPayload_name .external _).trans (payload_handleJson ih)
  | call id offset name args kwargs hargs hkwargs =>
    exact ofJson_toJson_of_payload (payload_call hargs hkwargs) id offset
  | var id offset name => exact ofJson_toJson_of_payload rfl id offset
  | expression id offset operator args ih =>
    refine ofJson_toJson_of_payload ?_ id offset
    rw [payloadJson]
    refine (taggedPayload_name .expression _).trans ?_
    simp [payload, Json.getMember, List.lookup_cons, Json.getString, argsMember, listOf,
      listItems_listJson ih, bind, Except.bind]
  | pattern id offset tag fields ih => exact ofJson_toJson_of_payload (payload_pattern ih) id offset

end Term

end HostBridge
