import HostBridge.Proofs.Codec.Traversal
import HostBridge.Proofs.Value.Places

/-!
What the codec does at each place.

What a term is read as has at each place what the term at that place is read as, and nothing else
where the term has nothing. The term of a value has at each place the term of what the value has
there, as it was encoded on the way to the term of the whole.
-/

namespace HostBridge.Codec

variable {α : Type} {c : Codec α}

/-! ### Reading -/

section Read

variable {table : Instances α} {t : Term} {w : Value α}

lemma decodeResolved_step (h : c.decodeResolved table t = .ok w) :
    List.Forall₂ (fun t w => c.decodeResolved table t = .ok w) t.items w.items ∧
    List.Forall₂ (Table.Corresponds fun t w => c.decodeResolved table t = .ok w)
      t.entries w.entries := by
  obtain ⟨v, hv, hw⟩ := c.decodeResolved_eq_ok.mp h
  obtain ⟨id, offset, payload⟩ := t
  cases payload with
  | string | boolean | var => cases hv; cases hw; exact ⟨.nil, .nil⟩
  | number n => cases n <;> cases hv <;> cases hw <;> exact ⟨.nil, .nil⟩
  | external handle =>
    cases hv
    obtain ⟨o, -, rfl⟩ := resolveHandle_eq_ok.mp hw
    split <;> exact ⟨.nil, .nil⟩
  | list items =>
    obtain ⟨vs, hvs, rfl⟩ := Result.map_eq_ok.mp hv
    obtain ⟨ws, hws, rfl⟩ := Result.map_eq_ok.mp hw
    exact ⟨decodeResolved_items.mp ⟨vs, hvs, hws⟩, .nil⟩
  | dictionary fields =>
    obtain ⟨vs, hvs, rfl⟩ := Result.map_eq_ok.mp hv
    obtain ⟨ws, hws, rfl⟩ := Result.map_eq_ok.mp hw
    exact ⟨.nil, decodeResolved_entries.mp ⟨vs, hvs, hws⟩⟩
  | call name args kwargs =>
    obtain ⟨vs, hvs, hv⟩ := Result.bind_eq_ok.mp hv
    obtain ⟨kvs, hkvs, hv⟩ := Result.bind_eq_ok.mp hv
    cases hv
    obtain ⟨ws, hws, hw⟩ := Result.bind_eq_ok.mp hw
    obtain ⟨kws, hkws, hw⟩ := Result.bind_eq_ok.mp hw
    cases hw
    refine ⟨decodeResolved_items.mp ⟨vs, hvs, hws⟩, ?_⟩
    cases kwargs with
    | none => cases hkvs; cases hkws; exact .nil
    | some fields =>
      obtain ⟨fvs, hfvs, rfl⟩ := Result.map_eq_ok.mp hkvs
      obtain ⟨fws, hfws, rfl⟩ := Result.map_eq_ok.mp hkws
      exact decodeResolved_entries.mp ⟨fvs, hfvs, hfws⟩
  | expression operator args =>
    rw [decodeTerm] at hv
    split at hv
    · obtain ⟨vs, hvs, rfl⟩ := Result.map_eq_ok.mp hv
      obtain ⟨ws, hws, rfl⟩ := Result.map_eq_ok.mp hw
      exact ⟨decodeResolved_items.mp ⟨vs, hvs, hws⟩, .nil⟩
    · cases hv
  | pattern tag fields =>
    obtain ⟨vs, hvs, rfl⟩ := Result.map_eq_ok.mp hv
    obtain ⟨ws, hws, rfl⟩ := Result.map_eq_ok.mp hw
    exact ⟨.nil, decodeResolved_entries.mp ⟨vs, hvs, hws⟩⟩

/-- At each place, what the whole is read as has what the part is read as. -/
lemma decodeResolved_at? (h : c.decodeResolved table t = .ok w) (place : Place) :
    Option.Rel (fun t w => c.decodeResolved table t = .ok w) (t.at? place) (w.at? place) :=
  place.follow_rel (fun h => (decodeResolved_step h).1) (fun h => (decodeResolved_step h).2) h

/-- A term is read as the absent value if it is a handle of the nil object. -/
lemma decodeResolved_eq_nil : c.decodeResolved table t = .ok .nil ↔
    ∃ id offset handle o, t = ⟨id, offset, .external handle⟩ ∧
      table.object? handle.id = some o ∧ o.same c.nil = true := by
  rw [c.decodeResolved_eq_ok]
  constructor
  · rintro ⟨v, hv, hnil⟩
    obtain ⟨id, offset, payload⟩ := t
    cases payload with
    | external handle =>
      cases hv
      obtain ⟨o, ho, hread⟩ := resolveHandle_eq_ok.mp hnil
      refine ⟨id, offset, handle, o, rfl, ho, ?_⟩
      split at hread
      · assumption
      · cases hread
    | string | boolean | var => cases hv; cases hnil
    | number n => cases n <;> cases hv <;> cases hnil
    | list | dictionary | pattern =>
      obtain ⟨vs, -, rfl⟩ := Result.map_eq_ok.mp hv
      obtain ⟨ws, -, hw⟩ := Result.map_eq_ok.mp hnil
      cases hw
    | call =>
      obtain ⟨vs, -, hv⟩ := Result.bind_eq_ok.mp hv
      obtain ⟨kvs, -, hv⟩ := Result.bind_eq_ok.mp hv
      cases hv
      obtain ⟨ws, -, hw⟩ := Result.bind_eq_ok.mp hnil
      obtain ⟨kws, -, hw⟩ := Result.bind_eq_ok.mp hw
      cases hw
    | expression =>
      rw [decodeTerm] at hv
      split at hv
      · obtain ⟨vs, -, rfl⟩ := Result.map_eq_ok.mp hv
        obtain ⟨ws, -, hw⟩ := Result.map_eq_ok.mp hnil
        cases hw
      · cases hv
  · rintro ⟨id, offset, handle, o, rfl, ho, hsame⟩
    exact ⟨.reference handle, rfl, resolveHandle_eq_ok.mpr ⟨o, ho, by rw [if_pos hsame]⟩⟩

end Read

/-! ### Encoding -/

section Encode

variable {s s' : Instances α} {v : Value α} {t : Term}

lemma encode_step (h : c.encode v s = .ok t s') :
    List.Forall₂ (c.EncodedWithin s s') v.items t.items ∧
    List.Forall₂ (Table.Corresponds (c.EncodedWithin s s')) v.entries t.entries := by
  cases v with
  | nil =>
    obtain ⟨id, -, rfl⟩ := Step.bind_pure_eq_ok.mp h
    exact ⟨.nil, .nil⟩
  | object o =>
    obtain ⟨id, -, rfl⟩ := Step.bind_pure_eq_ok.mp (encodeObject_eq_ok h)
    exact ⟨.nil, .nil⟩
  | boolean | integer | float | string | reference | var =>
    obtain ⟨rfl, -⟩ := Step.pure_eq_ok.mp h
    exact ⟨.nil, .nil⟩
  | list items =>
    obtain ⟨ts, hts, rfl⟩ := Step.bind_pure_eq_ok.mp h
    exact ⟨encodedWithin_items hts, .nil⟩
  | dictionary fields =>
    obtain ⟨ts, hts, rfl⟩ := Step.bind_pure_eq_ok.mp h
    exact ⟨.nil, encodedWithin_entries hts⟩
  | map pairs =>
    obtain ⟨ts, hts, rfl⟩ := Step.bind_pure_eq_ok.mp h
    obtain ⟨entries, hentries, hencode⟩ := encodeFields_of_encodePairs hts
    refine ⟨.nil, ?_⟩
    rw [Value.entries, hentries, Option.getD_some]
    exact Table.forall₂_ofList (encodedWithin_entries hencode)
  | predicate name args kwargs =>
    obtain ⟨ts, s₁, hts, h⟩ := Step.bind_eq_ok.mp h
    obtain ⟨kts, hkts, rfl⟩ := Step.bind_pure_eq_ok.mp h
    -- the arguments are encoded before the keyword arguments, which only register objects
    refine ⟨(encodedWithin_items hts).imp fun _ _ hvt =>
      hvt.mono .refl (registers_encodeKwargs hkts), ?_⟩
    cases kwargs with
    | none =>
      obtain ⟨rfl, -⟩ := Step.pure_eq_ok.mp hkts
      exact .nil
    | some fields =>
      obtain ⟨fts, hfts, rfl⟩ := Step.bind_pure_eq_ok.mp hkts
      exact (encodedWithin_entries hfts).imp fun _ _ hef =>
        ⟨hef.1, hef.2.mono (registers_encodeList hts) .refl⟩
  | expression operator args =>
    obtain ⟨ts, hts, rfl⟩ := Step.bind_pure_eq_ok.mp h
    exact ⟨encodedWithin_items hts, .nil⟩
  | pattern tag fields =>
    obtain ⟨ts, hts, rfl⟩ := Step.bind_pure_eq_ok.mp h
    exact ⟨.nil, encodedWithin_entries hts⟩

/-- At each place, the term of the whole has the term of the part. -/
lemma encode_at? (h : c.encode v s = .ok t s') (place : Place) :
    Option.Rel (c.EncodedWithin s s') (v.at? place) (t.at? place) := by
  have hroot : c.EncodedWithin s s' v t := ⟨s, s', .refl, h, .refl⟩
  refine place.follow_rel (fun hvt => ?_) (fun hvt => ?_) hroot <;>
    obtain ⟨s₁, s₂, h₁, ht, h₂⟩ := hvt
  · exact (encode_step ht).1.imp fun _ _ hvt => hvt.mono h₁ h₂
  · exact (encode_step ht).2.imp fun _ _ hef => ⟨hef.1, hef.2.mono h₁ h₂⟩

end Encode

end HostBridge.Codec
