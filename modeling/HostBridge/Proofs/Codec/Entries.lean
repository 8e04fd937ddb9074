import HostBridge.Proofs.Codec.Traversal
import HostBridge.Proofs.Fields
import HostBridge.Proofs.Value.Visits

/-!
Maps and dictionaries with the same entries.

A map is sent pair by pair in its own order and a dictionary by ascending keys. Where all objects
have ids already, encoding issues none, so what becomes of an entry does not depend on the entries
before it, and the order makes no difference to the term.
-/

namespace HostBridge

variable {α : Type}

namespace Value

/-- Entries as the pairs of a map. -/
def textPairs (entries : List (String × Value α)) : List (Value α × Value α) :=
  entries.map fun e => (.string e.1, e.2)

lemma textEntries?_textPairs (entries : List (String × Value α)) :
    textEntries? (textPairs entries) = some entries := by
  induction entries with
  | nil => rfl
  | cons e rest ih =>
    rw [textPairs, List.map_cons, textEntries?]
    exact congrArg (Option.map _) ih

lemma textEntries?_eq_none {pairs : List (Value α × Value α)}
    (h : ∃ e ∈ pairs, e.1.isText = false) : textEntries? pairs = none := by
  obtain ⟨e, he, htext⟩ := h
  induction pairs with
  | nil => cases he
  | cons f rest ih =>
    obtain ⟨k, v⟩ := f
    rcases List.mem_cons.mp he with rfl | hrest
    · cases k <;> first | rfl | cases htext
    · cases k with
      | string key => rw [textEntries?, ih hrest]; rfl
      | _ => rfl

end Value

namespace Codec

variable {c : Codec α} {s : Instances α} {v : Value α}

/-! ### Objects that have ids -/

/-- Every object as which something in the value is sent has an id. -/
def Cached (c : Codec α) (s : Instances α) (v : Value α) : Prop :=
  ∀ o ∈ v.objects c.nil, ∃ id, s.idOf? o = some id

lemma keeps_register {o : Object α} (h : ∃ id, s.idOf? o = some id) :
    Step.Keeps s (Step.widen (Instances.register o)) := by
  obtain ⟨id, hid⟩ := h
  rw [Step.Keeps, Step.left_widen]
  exact Step.left_of_ok (Instances.register_cached hid)

/-- Where all objects have ids, encoding adds nothing, whether it succeeds or fails. -/
lemma keeps_encode (h : c.Cached s v) : Step.Keeps s (c.encode v) :=
  closed_encode c (Step.closed_keeps s) (fun _ => keeps_register) v
    (fun hnil => h _ (Value.mem_objects.mpr ⟨_, hnil, rfl⟩))
    fun _ ho => h _ (Value.mem_objects.mpr ⟨_, ho, rfl⟩)

variable {entries : List (String × Value α)}

lemma keeps_entries (h : ∀ e ∈ entries, c.Cached s e.2) :
    ∀ e ∈ entries, Step.Keeps s (onValue (encode c) e) := fun e he =>
  (Step.closed_keeps s).onValue (keeps_encode (h e he))

/-- There, an entry is sent as it is sent on its own. -/
lemma encodeFields_eq_ok (h : ∀ e ∈ entries, c.Cached s e.2) {ts : List (String × Term)}
    {s' : Instances α} :
    encodeFields c entries s = .ok ts s' ↔ s' = s ∧
      List.Forall₂ (Table.Corresponds fun v t => c.encode v s = .ok t s) entries ts := by
  simp only [encodeFields_eq_mapM, Step.mapM_eq_ok_of_keeps (keeps_entries h), Step.onValue_eq_ok]
  rfl

lemma keeps_encodeFields (h : ∀ e ∈ entries, c.Cached s e.2) :
    Step.Keeps s (encodeFields c entries) := by
  rw [encodeFields_eq_mapM]
  exact (Step.closed_keeps s).mapM (keeps_entries h)

/-! ### Maps and dictionaries -/

/-- A map with text for keys is sent as the table of its entries, which are sent in its order. -/
lemma encode_textPairs (c : Codec α) (entries : List (String × Value α)) :
    c.encode (.map (Value.textPairs entries)) = (do
      let ts ← encodeFields c entries
      pure (.ofHost (.dictionary (Table.ofList ts)))) := by
  rw [encode, encodePairs_eq_mapM, Value.textPairs, List.mapM_map, encodeFields_eq_mapM]
  rfl

lemma cached_ofList (h : ∀ e ∈ entries, c.Cached s e.2) :
    ∀ e ∈ Table.ofList entries, c.Cached s e.2 := fun e he => h e (Table.mem_of_mem_ofList he)

/-- If the entries can be sent in one order they can be sent in the order of the keys. -/
lemma encodeFields_ofList (h : ∀ e ∈ entries, c.Cached s e.2) {ts : List (String × Term)}
    (hts : encodeFields c entries s = .ok ts s) :
    encodeFields c (Table.ofList entries) s = .ok (Table.ofList ts) s := by
  have hall := ((encodeFields_eq_ok h).mp hts).2
  exact (encodeFields_eq_ok (cached_ofList h)).mpr ⟨rfl, Table.forall₂_ofList hall⟩

/-- If they can be sent in the order of the keys they can be sent in any order. -/
lemma exists_encodeFields_of_ofList (hkeys : (Table.keys entries).Nodup)
    (h : ∀ e ∈ entries, c.Cached s e.2) {us : List (String × Term)}
    (hus : encodeFields c (Table.ofList entries) s = .ok us s) :
    ∃ ts, encodeFields c entries s = .ok ts s := by
  have hall := ((encodeFields_eq_ok (cached_ofList h)).mp hus).2
  have heach : ∀ e ∈ entries, ∃ f, Table.Corresponds (fun v t => c.encode v s = .ok t s) e f := by
    intro e he
    obtain ⟨f, -, hf⟩ := forall₂_exists_left hall.flip ((Table.ofList_perm hkeys).mem_iff.mpr he)
    exact ⟨f, hf⟩
  obtain ⟨ts, hts⟩ := exists_forall₂ heach
  exact ⟨ts, (encodeFields_eq_ok h).mpr ⟨rfl, hts⟩⟩

/-- A map and the dictionary of its entries are sent as one term. -/
lemma encode_textPairs_eq_ok_iff (hkeys : (Table.keys entries).Nodup)
    (h : ∀ e ∈ entries, c.Cached s e.2) {t : Term} {s' : Instances α} :
    c.encode (.map (Value.textPairs entries)) s = .ok t s' ↔
      c.encode (.dictionary (Table.ofList entries)) s = .ok t s' := by
  have hdictionary : c.encode (.dictionary (Table.ofList entries)) s = .ok t s' ↔
      ∃ us, encodeFields c (Table.ofList entries) s = .ok us s' ∧
        .ofHost (.dictionary us) = t := Step.bind_pure_eq_ok
  rw [encode_textPairs, Step.bind_pure_eq_ok, hdictionary]
  constructor
  · rintro ⟨ts, hts, rfl⟩
    obtain rfl := (keeps_encodeFields h).eq_of_ok hts
    exact ⟨Table.ofList ts, encodeFields_ofList h hts, rfl⟩
  · rintro ⟨us, hus, rfl⟩
    obtain rfl := (keeps_encodeFields (cached_ofList h)).eq_of_ok hus
    obtain ⟨ts, hts⟩ := exists_encodeFields_of_ofList hkeys h hus
    have hsame := encodeFields_ofList h hts
    rw [hus] at hsame
    cases hsame
    exact ⟨ts, hts, rfl⟩

/--
**Maps and dictionaries with the same entries are encoded alike.** Where every object in the values
has an id, a map whose keys are distinct texts, in whatever order, and the dictionary of its
entries are both sent, as one and the same term, or neither is; and the table stays as it is. A
native table whose keys are converted to distinct texts is this dictionary, which has every entry.
With a key that is converted to anything else it is the map of all its pairs, which is never sent.
-/
theorem encode_map_as_dictionary (c : Codec α) :
    (∀ (s : Instances α) (entries : List (String × Value α)), (Table.keys entries).Nodup →
      (∀ e ∈ entries, c.Cached s e.2) →
      (∀ t s', c.encode (.map (Value.textPairs entries)) s = .ok t s' ↔
        c.encode (.dictionary (Table.ofList entries)) s = .ok t s') ∧
      Step.left (c.encode (.map (Value.textPairs entries))) s = s ∧
      Step.left (c.encode (.dictionary (Table.ofList entries))) s = s) ∧
    (∀ entries : List (String × Value α), (Table.keys entries).Nodup →
      Value.ofPairs (Value.textPairs entries) = .dictionary (Table.ofList entries) ∧
      (Table.ofList entries).Perm entries) ∧
    (∀ pairs : List (Value α × Value α), (∃ e ∈ pairs, e.1.isText = false) →
      Value.ofPairs pairs = .map pairs ∧
      ∀ s, ∃ e s', c.encode (Value.ofPairs pairs) s = .error e s') := by
  refine ⟨fun s entries hkeys h => ?_, fun entries hkeys => ?_, fun pairs hpairs => ?_⟩
  · refine ⟨fun t s' => encode_textPairs_eq_ok_iff hkeys h, ?_, ?_⟩
    · rw [encode_textPairs]
      exact (keeps_encodeFields h).bind fun _ => rfl
    · exact (keeps_encodeFields (cached_ofList h)).bind fun _ => rfl
  · have htext := Value.textEntries?_textPairs entries
    refine ⟨?_, Table.ofList_perm hkeys⟩
    rw [Value.ofPairs, htext]
  · have hnone := Value.textEntries?_eq_none hpairs
    have hmap : Value.ofPairs pairs = .map pairs := by rw [Value.ofPairs, hnone]
    refine ⟨hmap, fun s => ?_⟩
    rw [hmap]
    rcases hencode : c.encode (.map pairs) s with ⟨t, s'⟩ | ⟨e, s'⟩
    · obtain ⟨ts, hts, -⟩ := Step.bind_pure_eq_ok.mp hencode
      obtain ⟨entries, hentries, -⟩ := encodeFields_of_encodePairs hts
      rw [hnone] at hentries
      cases hentries
    · exact ⟨e, s', rfl⟩

/-- Pairs out of order, with an absent value and with an object deeper down. -/
theorem encode_map_as_dictionary_unsorted :
    let c : Codec Unit := ⟨.empty, ⟨0, .nil⟩, false, false⟩
    let o : Object Unit := ⟨1, .classHandle "Post"⟩
    let s : Instances Unit := (Instances.empty.bind c.nil 0).bind o 1
    let entries : List (String × Value Unit) := [("b", .nil), ("a", .list [.object o])]
    ∃ t, c.encode (.map (Value.textPairs entries)) s = .ok t s ∧
      c.encode (.dictionary (Table.ofList entries)) s = .ok t s ∧
      Value.ofPairs (Value.textPairs entries) = .dictionary (Table.ofList entries) := by
  intro c o s entries
  have hkeys : (Table.keys entries).Nodup := by simp [entries, Table.keys]
  have hcached : ∀ e ∈ entries, c.Cached s e.2 := by
    intro e he p hp
    rcases List.mem_pair.mp he with rfl | rfl
    · obtain rfl := List.mem_singleton.mp hp
      exact ⟨0, rfl⟩
    · obtain rfl := List.mem_singleton.mp hp
      exact ⟨1, rfl⟩
  obtain ⟨hencode, hpairs, -⟩ := encode_map_as_dictionary c
  refine ⟨_, rfl, ?_, (hpairs entries hkeys).1⟩
  exact ((hencode s entries hkeys hcached).1 _ s).mp rfl

end Codec

end HostBridge
