import HostBridge.Event.Basic
import HostBridge.Proofs.Json.Exact
import HostBridge.Proofs.Term.Text

/-!
Events survive the wire.

The writer lists the fields of an event as they are declared, a canonical tree lists them by their
keys, and the reader finds each under its key, wherever that stands. What is said here of a field
is said once for each of the four shapes that fields have, through what the writer makes of what
has been read: it is read as what was read, it is nested no deeper, and it is canonical if what was
read is.
-/

namespace HostBridge.Event

/-- The terms in the fields of an event. -/
def terms : Event → List Term
  | makeExternal _ constructor => [constructor]
  | isa _ subject _ => [subject]
  | isSubclass .. | isSubspecializer .. => []
  | operation _ _ args => args

/-- The keys of every table in the event ascend. -/
def Ordered (e : Event) : Prop := ∀ t ∈ e.terms, t.Ordered

/-! ### What is written of what is read -/

/-- In a field of the shape, one tree is what the writer makes of what is read from the other. -/
def Shape.Rewrites (json written : Json) : Shape → Prop
  | word => ∃ n, readWord json = .ok n ∧ Json.ofWord n = written
  | text => ∃ s, readText json = .ok s ∧ Json.string s = written
  | term => ∃ t, readTerm json = .ok t ∧ t.toJson = written
  | terms => ∃ ts, readTerms json = .ok ts ∧ Json.array (Term.listJson ts) = written

section Rewrites

variable {json written : Json} {shape : Shape}

lemma readWord_ofWord (n : UInt64) : readWord (.ofWord n) = .ok n := by
  have hword : Json.Number.word? (.integer n.toNat ⟨by omega, by have := n.toNat_lt; omega⟩) =
      some n := Json.word?_ofWord n
  simp only [readWord, Json.ofWord, Json.Number.ofWord, hword]

lemma readText_string (s : String) : readText (.string s) = .ok s := rfl

lemma readTerm_eq_ok {t : Term} : readTerm json = .ok t ↔ json.Spells t :=
  Result.mapError_eq_ok.trans ⟨Term.spells_of_ofJson, Term.ofJson_of_spells⟩

lemma readTerm_toJson (t : Term) : readTerm t.toJson = .ok t :=
  readTerm_eq_ok.mpr (Term.spells_toJson t)

lemma readTerms_eq_ok {ts : List Term} :
    readTerms json = .ok ts ↔ Json.SpellsList Json.Spells json ts := by
  have hitems : ∀ items, readTerms (.array items) = .ok ts ↔
      List.Forall₂ Json.Spells items ts := by
    intro items
    rw [readTerms, Result.mapError_eq_ok, Term.listItems_eq_mapM]
    exact Result.mapM_eq_ok_of fun json _ t => ⟨Term.spells_of_ofJson, Term.ofJson_of_spells⟩
  constructor
  · intro h
    cases json with
    | array items => exact .intro ((hitems items).mp h)
    | null | boolean | number | string | object => cases h
  · rintro ⟨h⟩
    exact (hitems _).mpr h

lemma readTerms_listJson (ts : List Term) : readTerms (.array (Term.listJson ts)) = .ok ts :=
  readTerms_eq_ok.mpr (Term.spellsList_listJson fun t _ => Term.spells_toJson t)

/-- What is written is read as what was read. -/
lemma Shape.Rewrites.self (h : shape.Rewrites json written) :
    shape.Rewrites written written := by
  cases shape with
  | word => obtain ⟨n, -, rfl⟩ := h; exact ⟨n, readWord_ofWord n, rfl⟩
  | text => obtain ⟨s, -, rfl⟩ := h; exact ⟨s, readText_string s, rfl⟩
  | term => obtain ⟨t, -, rfl⟩ := h; exact ⟨t, readTerm_toJson t, rfl⟩
  | terms => obtain ⟨ts, -, rfl⟩ := h; exact ⟨ts, readTerms_listJson ts, rfl⟩

lemma Shape.Rewrites.check (h : shape.Rewrites json written) : shape.check json = .ok () := by
  cases shape <;> obtain ⟨b, hread, -⟩ := h <;> exact Result.map_eq_ok.mpr ⟨b, hread, rfl⟩

lemma Shape.Rewrites.depth_le (h : shape.Rewrites json written) :
    written.depth ≤ json.depth := by
  cases shape with
  | word => obtain ⟨n, -, rfl⟩ := h; exact Nat.zero_le _
  | text => obtain ⟨s, -, rfl⟩ := h; exact Nat.zero_le _
  | term =>
    obtain ⟨t, hread, rfl⟩ := h
    exact Term.depth_toJson_le (readTerm_eq_ok.mp hread)
  | terms =>
    obtain ⟨ts, hread, rfl⟩ := h
    exact Term.depth_listJson_le (readTerms_eq_ok.mp hread) fun t _ json => Term.depth_toJson_le

lemma Shape.Rewrites.canonical (h : shape.Rewrites json written)
    (hjson : json.canonical = json) : written.canonical = written := by
  cases shape with
  | word => obtain ⟨n, -, rfl⟩ := h; rfl
  | text => obtain ⟨s, -, rfl⟩ := h; rfl
  | term =>
    obtain ⟨t, hread, rfl⟩ := h
    exact Term.canonical_toJson (Term.ordered_of_spells (readTerm_eq_ok.mp hread) hjson)
  | terms =>
    obtain ⟨ts, hread, rfl⟩ := h
    have hordered := Term.ordered_of_spellsList hjson (readTerms_eq_ok.mp hread)
      fun t _ json => Term.ordered_of_spells
    exact Term.canonical_listJson fun t ht => Term.canonical_toJson (hordered t ht)

/-- Where everything that is written is read back, no two values are written as the same tree. -/
lemma exists_read_iff {β : Type} {read : Json → Except String β} {write : β → Json}
    (hback : ∀ b, read (write b) = .ok b) (b : β) :
    (∃ c, read json = .ok c ∧ write c = write b) ↔ read json = .ok b := by
  refine ⟨?_, fun h => ⟨b, h, rfl⟩⟩
  rintro ⟨c, hread, hsame⟩
  have hc := hback c
  rw [hsame, hback] at hc
  rwa [← hc] at hread

lemma rewrites_word (n : UInt64) :
    Shape.word.Rewrites json (.ofWord n) ↔ readWord json = .ok n :=
  exists_read_iff readWord_ofWord n

lemma rewrites_text (s : String) :
    Shape.text.Rewrites json (.string s) ↔ readText json = .ok s :=
  exists_read_iff readText_string s

lemma rewrites_term (t : Term) : Shape.term.Rewrites json t.toJson ↔ readTerm json = .ok t :=
  exists_read_iff readTerm_toJson t

lemma rewrites_terms (ts : List Term) :
    Shape.terms.Rewrites json (.array (Term.listJson ts)) ↔ readTerms json = .ok ts :=
  exists_read_iff readTerms_listJson ts

end Rewrites

/-! ### Fields -/

section Fields

variable {e : Event} {kind : Kind} {members : List (String × Json)}

lemma nodup_keys_fieldsJson (e : Event) : (Table.keys e.fieldsJson).Nodup := by
  have hkeys : Table.keys e.fieldsJson = Table.keys e.kind.fields := by cases e <;> rfl
  have hkind : ∀ kind : Kind, (Table.keys kind.fields).Nodup := by
    intro kind; cases kind <;> decide
  rw [hkeys]
  exact hkind e.kind

lemma readField_eq_ok {β : Type} {key : String} {read : Json → Except String β} {b : β} :
    readField key read members = .ok b ↔ ∃ json, members.lookup key = some json ∧
      read json = .ok b := by
  unfold readField
  cases members.lookup key <;> simp

lemma kind_of_ofMembers (h : ofMembers members kind = .ok e) : e.kind = kind := by
  cases kind <;> simp only [ofMembers, Result.bind_eq_ok] at h
  case makeExternal => obtain ⟨_, -, _, -, h⟩ := h; cases h; rfl
  case isSubspecializer => obtain ⟨_, -, _, -, _, -, _, -, h⟩ := h; cases h; rfl
  all_goals obtain ⟨_, -, _, -, _, -, h⟩ := h; cases h; rfl

/-- The members hold something of which the field would be written. -/
def Holds (members : List (String × Json)) (kind : Kind) (field : String × Json) : Prop :=
  ∃ shape json, kind.fields.lookup field.1 = some shape ∧
    members.lookup field.1 = some json ∧ shape.Rewrites json field.2

/-- **An event is read from the members that hold its fields.** -/
lemma ofMembers_eq_ok :
    ofMembers members e.kind = .ok e ↔ ∀ field ∈ e.fieldsJson, Holds members e.kind field := by
  cases e <;>
    simp [ofMembers, kind, fieldsJson, Kind.fields, Holds, Result.bind_eq_ok, readField_eq_ok,
      rewrites_word, rewrites_text, rewrites_term, rewrites_terms, List.lookup_cons]

/-- What is written in a field is what is read from it. -/
lemma exists_rewrites {field : String × Json} (h : field ∈ e.fieldsJson) :
    ∃ shape, e.kind.fields.lookup field.1 = some shape ∧ shape.Rewrites field.2 field.2 := by
  have hall : ∀ field ∈ e.fieldsJson, Holds e.fieldsJson e.kind field := by
    rw [← ofMembers_eq_ok]
    cases e <;>
      simp [ofMembers, kind, fieldsJson, Result.bind_eq_ok, readField_eq_ok, List.lookup_cons,
        readWord_ofWord, readText_string, readTerm_toJson, readTerms_listJson]
  obtain ⟨shape, json, hshape, -, hrewrites⟩ := hall field h
  exact ⟨shape, hshape, hrewrites.self⟩

lemma checkMembers_eq_ok {fields : List (String × Shape)} :
    checkMembers fields members = .ok () ↔ ∀ member ∈ members, ∀ shape,
      fields.lookup member.1 = some shape → shape.check member.2 = .ok () := by
  induction members with
  | nil => simp [checkMembers]
  | cons member rest ih =>
    obtain ⟨key, json⟩ := member
    rw [List.forall_mem_cons, ← ih, checkMembers]
    rcases fields.lookup key with _ | shape
    · simp [Result.bind_eq_ok]
    · rw [Result.bind_eq_ok]
      constructor
      · rintro ⟨_, hshape, hrest⟩
        exact ⟨fun shape' h => Option.some.inj h ▸ hshape, hrest⟩
      · rintro ⟨hshape, hrest⟩
        exact ⟨(), hshape shape rfl, hrest⟩

/-- The event is read from its fields in any order. -/
lemma ofPayload_eq_ok_of_mem (hmembers : ∀ member ∈ members, member ∈ e.fieldsJson)
    (hfields : ∀ field ∈ e.fieldsJson, members.lookup field.1 = some field.2) :
    ofPayload e.kind (.object members) = .ok e := by
  refine Result.bind_eq_ok.mpr ⟨(), ?_, ?_⟩
  · rw [checkMembers_eq_ok]
    intro member hm shape hshape
    obtain ⟨shape', hshape', hrewrites⟩ := exists_rewrites (hmembers member hm)
    rw [hshape, Option.some.injEq] at hshape'
    subst hshape'
    exact hrewrites.check
  · rw [ofMembers_eq_ok]
    intro field hf
    obtain ⟨shape, hshape, hrewrites⟩ := exists_rewrites hf
    exact ⟨shape, field.2, hshape, hfields field hf, hrewrites⟩

end Fields

/-! ### Trees -/

section Trees

variable {e : Event} {json : Json}

lemma Kind.ofName?_eq_some {name : String} {kind : Kind} :
    Kind.ofName? name = some kind ↔ kind.name = name := by
  constructor
  · intro h
    simpa using List.find?_some h
  · rintro rfl
    exact Kind.ofName?_name kind

lemma ofJson_eq_ok : ofJson json = .ok e ↔
    ∃ members, json = .object [(e.kind.name, .object members)] ∧
      ofPayload e.kind (.object members) = .ok e := by
  constructor
  · intro h
    obtain ⟨⟨tag, payload⟩, htag, hread⟩ := Result.bind_eq_ok.mp h
    obtain rfl := Json.getTagged_eq_ok.mp htag
    dsimp only at hread
    split at hread
    · cases hread
    rename_i kind hkind
    obtain rfl := Kind.ofName?_eq_some.mp hkind
    have hpayload := Result.mapError_eq_ok.mp hread
    cases payload with
    | object members =>
      obtain ⟨_, -, hmembers⟩ := Result.bind_eq_ok.mp hpayload
      obtain rfl := kind_of_ofMembers hmembers
      exact ⟨members, rfl, hpayload⟩
    | null | boolean | number | string | array => cases hpayload
  · rintro ⟨members, rfl, h⟩
    refine Result.bind_eq_ok.mpr ⟨_, Json.getTagged_eq_ok.mpr rfl, ?_⟩
    simp only [Kind.ofName?_name, h, Except.mapError]

/-- An event is in order if everything in its fields is canonical. -/
lemma ordered_iff : e.Ordered ↔ ∀ field ∈ e.fieldsJson, field.2.canonical = field.2 := by
  have hword : ∀ n, (Json.ofWord n).canonical = .ofWord n := fun _ => rfl
  have htext : ∀ s, (Json.string s).canonical = .string s := fun _ => rfl
  cases e <;>
    simp [Ordered, terms, fieldsJson, hword, htext, Term.canonical_toJson_iff,
      Term.canonical_listJson_iff]

lemma canonical_toJson (h : e.Ordered) :
    e.toJson.canonical = .object [(e.kind.name, .object (Table.ofList e.fieldsJson))] := by
  have hfields : Json.canonicalMembers e.fieldsJson = e.fieldsJson := by
    rw [Json.canonicalMembers_eq_map, Json.map_eq_self_iff]
    exact fun field hf => Prod.ext rfl (ordered_iff.mp h field hf)
  rw [toJson, Json.canonical, Json.canonicalMembers, Json.canonicalMembers, Json.canonical, hfields]
  rfl

lemma ofJson_declared (e : Event) : ofJson e.toJson = .ok e := by
  refine ofJson_eq_ok.mpr ⟨e.fieldsJson, rfl, ofPayload_eq_ok_of_mem (fun _ => id) ?_⟩
  exact fun field hf => Table.lookup_of_mem (nodup_keys_fieldsJson e) hf

lemma ofJson_canonical (h : e.Ordered) : ofJson e.toJson.canonical = .ok e := by
  refine ofJson_eq_ok.mpr ⟨_, canonical_toJson h, ofPayload_eq_ok_of_mem ?_ ?_⟩
  · exact fun _ => Table.mem_of_mem_ofList
  · exact fun field hf => Table.lookup_ofList_of_mem (nodup_keys_fieldsJson e) hf

/-- What is written of an event is nested no deeper than the tree of which it was read. -/
lemma depth_toJson_le (h : ofJson json = .ok e) : e.toJson.depth ≤ json.depth := by
  obtain ⟨members, rfl, hpayload⟩ := ofJson_eq_ok.mp h
  obtain ⟨_, -, hmembers⟩ := Result.bind_eq_ok.mp hpayload
  rw [toJson, Json.depth_only, Json.depth_only, Nat.succ_le_succ_iff]
  refine Json.depth_object_le fun field hf => ?_
  obtain ⟨shape, json, -, hlookup, hrewrites⟩ := ofMembers_eq_ok.mp hmembers field hf
  exact hrewrites.depth_le.trans_lt (Json.depth_lt_of_lookup hlookup)

lemma ordered_of_ofJson (h : ofJson json = .ok e) (hjson : json.canonical = json) :
    e.Ordered := by
  obtain ⟨members, rfl, hpayload⟩ := ofJson_eq_ok.mp h
  obtain ⟨_, -, hmembers⟩ := Result.bind_eq_ok.mp hpayload
  have hcanonical := (Json.canonical_object_iff.mp hjson).2 _ List.mem_cons_self
  refine ordered_iff.mpr fun field hf => ?_
  obtain ⟨shape, json, -, hlookup, hrewrites⟩ := ofMembers_eq_ok.mp hmembers field hf
  exact hrewrites.canonical (Json.canonical_of_lookup hcanonical hlookup)

end Trees

/-! ### Texts -/

section Texts

variable [Json.Library] {e : Event} {text : String}

lemma parse_eq_ok :
    parse text = .ok e ↔ ∃ json, Json.Library.read text = .ok json ∧ ofJson json = .ok e := by
  unfold parse
  rcases Json.Library.read text with message | json <;> simp

variable [Json.LawfulLibrary]

lemma parse_print (hordered : e.Ordered) (hdepth : e.toJson.depth ≤ Json.maxDepth)
    (hkept : e.toJson.Kept) : parse e.print = .ok e := by
  have hread := Json.LawfulLibrary.read_write hdepth hkept "" rfl
  rw [String.append_empty] at hread
  exact parse_eq_ok.mpr ⟨e.toJson.canonical, hread, ofJson_canonical hordered⟩

/-- What is read from a text is in order, and no deeper than the tree that stands in the text. -/
lemma ordered_of_parse (h : parse text = .ok e) :
    e.Ordered ∧ ∃ json, Json.Library.read text = .ok json ∧ e.toJson.depth ≤ json.depth := by
  obtain ⟨json, hread, hjson⟩ := parse_eq_ok.mp h
  have hcanonical := Json.LawfulLibrary.canonical_of_read hread
  exact ⟨ordered_of_ofJson hjson hcanonical, json, hread, depth_toJson_le hjson⟩

end Texts

/--
**Events survive the wire.** Every event is read back from its tree, with its fields as they are
declared or as a canonical tree lists them. Whatever lawful library reads and writes the texts, an
event whose doubles it keeps is read back from its text, unless that is nested too deep. Of an
event that was read from a text the text is nested no deeper than the tree of the text that was
read, so it is accepted again, and it is read as the event.
-/
theorem wire_round_trip [Json.Library] [Json.LawfulLibrary] :
    (∀ e : Event, ofJson e.toJson = .ok e) ∧
    (∀ e : Event, e.Ordered → ofJson e.toJson.canonical = .ok e) ∧
    (∀ e : Event, e.Ordered → e.toJson.depth ≤ Json.maxDepth → e.toJson.Kept →
      parse e.print = .ok e) ∧
    (∀ text e, parse text = .ok e → e.Ordered ∧
      (∃ json, Json.Library.read text = .ok json ∧ e.toJson.depth ≤ json.depth) ∧
      (e.toJson.Kept → parse e.print = .ok e)) := by
  refine ⟨ofJson_declared, fun e => ofJson_canonical, fun e => parse_print, fun text e h => ?_⟩
  obtain ⟨hordered, json, hread, hdepth⟩ := ordered_of_parse h
  have hlimit := Json.LawfulLibrary.depth_of_read hread
  exact ⟨hordered, ⟨json, hread, hdepth⟩, parse_print hordered (hdepth.trans hlimit)⟩

/-- Is a half equal to the fourth instance, of which nothing else is known? -/
def halfQuestion : Event :=
  .operation 7 "Eq" [.ofHost (.number (.float (.finite ⟨false, ⟨0x3FE0000000000000, by decide⟩⟩))),
    .ofHost (.external ⟨4, none, none, none, none⟩)]

/-- The question is asked in another order than that of its keys, and survives. -/
theorem wire_round_trip_question :
    halfQuestion.Ordered ∧ halfQuestion.toJson.depth = 6 ∧
    halfQuestion.toJson.doubles.length = 1 ∧ halfQuestion.toJson.Kept ∧
    Table.keys halfQuestion.fieldsJson = ["call_id", "operator", "args"] ∧
    ofJson halfQuestion.toJson.canonical = .ok halfQuestion ∧
    parse halfQuestion.print = .ok halfQuestion ∧
    ∃ json, Json.Library.read halfQuestion.print = .ok json ∧ 6 ≤ json.depth := by
  obtain ⟨-, hcanonical, hprint, hparse⟩ := wire_round_trip
  have hordered : halfQuestion.Ordered := by
    refine List.forall_mem_cons.mpr ⟨.number 0 0 _, List.forall_mem_singleton.mpr ?_⟩
    exact .external 0 0 fun t ht => (by cases ht)
  have hdepth : halfQuestion.toJson.depth = 6 := by decide
  have hkept := Json.exact_kept halfQuestion.toJson
  have hread := hprint halfQuestion hordered (by rw [hdepth]; decide) hkept
  obtain ⟨-, ⟨json, hjson, hle⟩, hagain⟩ := hparse _ _ hread
  exact ⟨hordered, hdepth, rfl, hkept, rfl, hcanonical _ hordered, hagain hkept, json, hjson,
    hdepth ▸ hle⟩

end HostBridge.Event
