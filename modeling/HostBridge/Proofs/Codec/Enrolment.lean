import HostBridge.Proofs.Codec.Places
import HostBridge.Proofs.Codec.RoundTrip
import HostBridge.Proofs.Codec.Visits

/-!
The objects of a value that is sent.

Encoding enrols the objects of the value that the table does not know yet, and no others; in the
term each object stands under its own id.
-/

namespace HostBridge

variable {α : Type}

/-- The object as which the value has something at a place. -/
def Value.sentAt? (nilObject : Object α) (v : Value α) (place : Place) : Option (Object α) :=
  (v.at? place).bind (sentAs? nilObject)

/-- The id in the handle that the term has at a place. -/
def Term.idAt? (t : Term) (place : Place) : Option InstanceId :=
  (t.at? place).bind fun t =>
    match t.value with
    | .external handle => some handle.id
    | _ => none

namespace Codec

variable {c : Codec α} {s s' : Instances α} {v : Value α} {t : Term}

/-- What is sent as an object is a handle with the object's id. -/
lemma encode_of_sentAs {o : Object α} (ho : v.sentAs? c.nil = some o)
    (h : c.encode v s = .ok t s') :
    ∃ handle, t = .ofHost (.external handle) ∧ s'.idOf? o = some handle.id := by
  have hreference : ∀ {repr classRepr}, encodeReference o repr classRepr s = .ok t s' →
      ∃ handle, t = .ofHost (.external handle) ∧ s'.idOf? o = some handle.id := by
    intro repr classRepr h
    obtain ⟨id, hid, rfl⟩ := Step.bind_pure_eq_ok.mp h
    exact ⟨_, rfl, Instances.idOf_of_register (Step.widen_eq_ok.mp hid)⟩
  cases v with
  | nil => cases ho; exact hreference h
  | object p =>
    cases ho
    exact hreference (encodeObject_eq_ok h)
  | _ => cases ho

lemma idAt?_of_encode {o : Object α} {place : Place} (h : c.encode v s = .ok t s')
    (ho : v.sentAt? c.nil place = some o) :
    ∃ i, t.idAt? place = some i ∧ s'.idOf? o = some i := by
  obtain ⟨w, hw, hwo⟩ := Option.bind_eq_some_iff.mp ho
  have hrel := encode_at? h place
  rw [hw] at hrel
  obtain ⟨u, hu, s₁, s₂, -, hencode, hafter⟩ := option_rel_some_left.mp hrel
  obtain ⟨handle, rfl, hid⟩ := encode_of_sentAs hwo hencode
  refine ⟨handle.id, ?_, (Instances.extends_of_registers hafter).idOf hid⟩
  rw [Term.idAt?, hu]; rfl

/--
**What encoding does to the table.** Every binding is kept, and the objects in the value that had
no id are bound, each where it first occurs in the order of a traversal, to the ids from the next
one onward without a gap; nothing else is bound. In the term there is a handle wherever the value
has an object or the absent value, which counts as the nil object, and two of these handles have
one id exactly if they come from the same object.
-/
theorem encode_enrols (hs : s.Reachable) (h : c.encode v s = .ok t s') :
    s.Enrols s' (s.newcomers (v.objects c.nil)) ∧
    ∀ place place' o o', v.sentAt? c.nil place = some o → v.sentAt? c.nil place' = some o' →
      ∃ i i', t.idAt? place = some i ∧ t.idAt? place' = some i' ∧
        s'.idOf? o = some i ∧ s'.idOf? o' = some i' ∧ (i = i' ↔ o.same o' = true) := by
  have hs' : s'.Reachable := Instances.reachable_of_registers (registers_encode h) hs
  have henrols : s.Enrols s' (s.newcomers (v.objects c.nil)) := by
    rcases encode_cases (c := c) hs v with
      ⟨-, t', s'', hok, henrols⟩ | ⟨before, x, after, e, s'', -, -, -, herror, -⟩
    · rw [h] at hok; cases hok; exact henrols
    · rw [h] at herror; cases herror
  refine ⟨henrols, fun place place' o o' ho ho' => ?_⟩
  obtain ⟨i, hi, hid⟩ := idAt?_of_encode h ho
  obtain ⟨i', hi', hid'⟩ := idAt?_of_encode h ho'
  refine ⟨i, i', hi, hi', hid, hid', ?_, fun hsame => ?_⟩
  · rintro rfl
    obtain ⟨p, hp, hsame⟩ := hs'.object_of_idOf hid
    obtain ⟨q, hq, hsame'⟩ := hs'.object_of_idOf hid'
    rw [hp] at hq; cases hq
    rw [Object.same_comm] at hsame
    exact Object.same_trans hsame hsame'
  · rw [s'.idOf?_congr hsame, hid'] at hid
    exact (Option.some.inj hid).symm

/-- An object with an id, and a pair that is overwritten by a later one with the same key. -/
theorem encode_enrols_overwritten :
    let c : Codec Unit := ⟨.empty, ⟨0, .nil⟩, false, false⟩
    let o : Object Unit := ⟨1, .classHandle "Post"⟩
    let p : Object Unit := ⟨2, .classHandle "User"⟩
    let s : Instances Unit := Instances.empty.bind o 1
    let v : Value Unit := .list [.map [(.string "a", .object p), (.string "a", .nil)], .object o,
      .object p]
    ∃ t s', c.encode v s = .ok t s' ∧ s.Enrols s' [p, c.nil] ∧
      t.idAt? [.item 0, .entry "a"] ≠ t.idAt? [.item 2] := by
  intro c o p s v
  have hs : s.Reachable := ⟨[.register o], rfl⟩
  refine ⟨_, _, rfl, ?_⟩
  obtain ⟨henrols, hid⟩ := encode_enrols (c := c) (v := v) hs rfl
  refine ⟨henrols, ?_⟩
  have hlast : v.sentAt? c.nil [.item 0, .entry "a"] = some c.nil := by
    simp [v, Value.sentAt?, Value.at?, Place.follow, Value.items, Value.entries,
      Value.textEntries?, Table.ofList, Table.insert, Value.sentAs?]
  obtain ⟨i, i', hi, hi', -, -, hiff⟩ := hid [.item 0, .entry "a"] [.item 2] c.nil p hlast rfl
  have hother : c.nil.same p ≠ true := by simp [c, p, Object.same]
  rw [hi, hi']
  exact fun h => hother (hiff.mp (Option.some.inj h))

end Codec

end HostBridge
