import HostBridge.Proofs.Instances.Freshness
import Mathlib.Data.List.Pairwise

/-!
Requests of the engine to bind ids, in any order.

A request depends on other requests only through what is bound to its id, the first id of its
object, and the next id. The first two are no concern of a request for another id and another
object, and the next id only ever moves past the largest id that has been bound. So requests for
distinct ids and objects can change places.
-/

namespace HostBridge.Instances

variable {α : Type}

/-! ### The next id -/

/-- How many ids lie below the next one, and so will not be issued any more. -/
def passed : Option InstanceId → Nat
  | some n => n.toNat
  | none => UInt64.size

lemma passed_injective {m n : Option InstanceId} (h : passed m = passed n) : m = n := by
  have hlt := UInt64.toNat_lt_size
  rcases m with _ | m <;> rcases n with _ | n <;> simp only [passed] at h
  · rfl
  · have hn := hlt n; omega
  · have hm := hlt m; omega
  · rw [UInt64.toNat_inj.mp h]

/-- A binding passes the ids up to its own. -/
lemma passed_nextPast (next : Option InstanceId) (id : InstanceId) :
    passed (nextPast next id) = max (passed next) (id.toNat + 1) := by
  have hlt := UInt64.toNat_lt_size id
  rcases next with _ | n
  · simp only [nextPast, passed]; omega
  by_cases hle : n ≤ id
  · have hnat := UInt64.le_iff_toNat_le.mp hle
    rw [nextPast, if_pos hle]
    by_cases hid : id = .greatest
    · subst hid
      rw [next?_greatest]
      rw [toNat_greatest] at hnat ⊢
      simp only [passed]
      have hsize : UInt64.size = 2 ^ 64 := rfl
      omega
    · obtain ⟨m, hm, hval⟩ := next?_of_ne hid
      rw [hm]
      simp only [passed]
      omega
  · have hnat : ¬ n.toNat ≤ id.toNat := fun h => hle (UInt64.le_iff_toNat_le.mpr h)
    rw [nextPast, if_neg hle]
    simp only [passed]
    omega

lemma nextPast_comm (next : Option InstanceId) (i j : InstanceId) :
    nextPast (nextPast next i) j = nextPast (nextPast next j) i := by
  apply passed_injective
  simp only [passed_nextPast]
  omega

/-! ### Two requests -/

variable {s : Instances α} {o p : Object α} {i j : InstanceId}

lemma bind_comm (s : Instances α) (hids : i ≠ j) (hobjects : o.same p = false) :
    (s.bind o i).bind p j = (s.bind p j).bind o i := by
  have haddress : o.address ≠ p.address := by simpa [Object.same] using hobjects
  have hbyId := Table.insert_comm hids o p s.byId
  have hfirstId := Table.insertNew_comm haddress i j s.firstId
  have hnext := nextPast_comm s.next i j
  simp only [bind, hbyId, hfirstId, hnext]

/-- A request is granted or refused by what is bound to its id. -/
lemma left_registerWithId (s : Instances α) (o : Object α) (i : InstanceId) :
    Step.left (registerWithId o i) s = if s.has i then s else s.bind o i := by
  rcases registerWithId_cases o i s with ⟨p, hp, hr⟩ | ⟨hfree, hr⟩
  · have hhas : s.has i = true := has_iff.mpr ⟨p, hp⟩
    rw [Step.left, hr, if_pos hhas]
    cases p.same o <;> rfl
  · have hhas : s.has i = false := has_eq_false hfree
    rw [Step.left_of_ok hr, hhas]
    rfl

/-! ### Requests one after another -/

/-- What is answered to a request to bind an id. -/
def reply (s : Instances α) (b : Binding α) : Except InstanceError Unit :=
  match registerWithId b.2 b.1 s with
  | .ok () _ => .ok ()
  | .error e _ => .error e

/-- The table that a request leaves. -/
def afterRequest (s : Instances α) (b : Binding α) : Instances α :=
  (Action.registerWithId b.2 b.1).after s

/-- The table that requests leave, one after another. -/
def afterRequests (s : Instances α) (bs : List (Binding α)) : Instances α :=
  bs.foldl afterRequest s

/-- What is answered to requests made one after another, each beside its answer. -/
def replies (s : Instances α) : List (Binding α) → List (Binding α × Except InstanceError Unit)
  | [] => []
  | b :: rest => (b, s.reply b) :: (s.afterRequest b).replies rest

/-- Two bindings of distinct ids to distinct objects. -/
def Apart (b c : Binding α) : Prop := b.1 ≠ c.1 ∧ b.2.same c.2 = false

instance : Std.Symm (@Apart α) :=
  ⟨fun _ _ h => ⟨h.1.symm, by rw [Object.same_comm]; exact h.2⟩⟩

variable {b c : Binding α}

lemma afterRequest_eq (s : Instances α) (b : Binding α) :
    s.afterRequest b = if s.has b.1 then s else s.bind b.2 b.1 :=
  left_registerWithId s b.2 b.1

/-- Nothing is bound to an id by a request for another. -/
lemma object?_afterRequest (s : Instances α) {i : InstanceId} (h : i ≠ b.1) :
    (s.afterRequest b).object? i = s.object? i := by
  rw [afterRequest_eq]
  split
  · rfl
  · rw [object?_bind, if_neg h]

/-- **One step**: two requests for distinct ids and objects can change places. -/
lemma afterRequest_comm (h : Apart b c) (s : Instances α) :
    (s.afterRequest b).afterRequest c = (s.afterRequest c).afterRequest b := by
  have hb : (s.afterRequest c).has b.1 = s.has b.1 := by
    rw [has, object?_afterRequest s h.1, has]
  have hc : (s.afterRequest b).has c.1 = s.has c.1 := by
    rw [has, object?_afterRequest s h.1.symm, has]
  rw [afterRequest_eq (s.afterRequest b), hc, afterRequest_eq (s.afterRequest c), hb,
    afterRequest_eq, afterRequest_eq]
  cases s.has b.1 <;> cases s.has c.1
  · exact bind_comm s h.1 h.2
  all_goals rfl

/-- The answer hangs on what is bound to the id, and on nothing else. -/
lemma reply_congr {s' : Instances α} (h : s.object? b.1 = s'.object? b.1) :
    s.reply b = s'.reply b := by
  unfold reply registerWithId
  rw [h]
  rcases s'.object? b.1 with _ | p
  · rfl
  · cases hsame : p.same b.2 <;> simp [hsame]

/-- **The run**: each request is answered as if it were the only one. -/
lemma replies_eq_map {bs : List (Binding α)} (hids : (bs.map (·.1)).Nodup) (s : Instances α) :
    s.replies bs = bs.map fun b => (b, s.reply b) := by
  induction bs generalizing s with
  | nil => rfl
  | cons b rest ih =>
    obtain ⟨hb, hrest⟩ := List.nodup_cons.mp hids
    have hreply : ∀ c ∈ rest, (c, (s.afterRequest b).reply c) = (c, s.reply c) := by
      intro c hc
      have hne : c.1 ≠ b.1 := fun he => hb (List.mem_map.mpr ⟨c, hc, he⟩)
      rw [reply_congr (object?_afterRequest s hne)]
    rw [replies, ih hrest, List.map_cons, List.map_congr_left hreply]

/--
**The order of requests does not matter.** Ids that the engine has chosen are bound to objects,
each id once and each object once. In whatever order this is done, each request is granted, or
refused in the same words, and the tables and the next id are the same in the end. Ids and objects
may have been bound before, and the greatest id may be among them.
-/
theorem requests_in_any_order {bs bs' : List (Binding α)} (hperm : bs.Perm bs')
    (hapart : bs.Pairwise Apart) (s : Instances α) :
    (s.replies bs).Perm (s.replies bs') ∧ s.afterRequests bs = s.afterRequests bs' := by
  have hids : (bs.map (·.1)).Nodup := List.pairwise_map.mpr (hapart.imp fun h => h.1)
  have hids' : (bs'.map (·.1)).Nodup := (hperm.map (·.1)).nodup_iff.mp hids
  constructor
  · rw [replies_eq_map hids, replies_eq_map hids']
    exact hperm.map _
  · refine hperm.foldl_eq' (fun b hb c hc s => ?_) s
    by_cases heq : b = c
    · rw [heq]
    · exact afterRequest_comm (hapart.forall hb hc heq) s

/-- The greatest id before and after another, an id that is taken, and an object that has an id. -/
theorem requests_in_any_order_greatest :
    let o : Object Unit := ⟨1, .classHandle "Post"⟩
    let p : Object Unit := ⟨2, .classHandle "User"⟩
    let q : Object Unit := ⟨3, .classHandle "Tag"⟩
    let s : Instances Unit := Instances.empty.bind o 1
    let bs : List (Binding Unit) := [(.greatest, p), (1, q), (7, o)]
    (s.replies bs).Perm (s.replies bs.reverse) ∧ s.afterRequests bs = s.afterRequests bs.reverse ∧
      s.reply (1, q) = .error (.taken 1 o.repr q.repr) ∧ (s.afterRequests bs).next = none := by
  intro o p q s bs
  have hapart : bs.Pairwise Apart := by
    simp [bs, Apart, o, p, q, Object.same, InstanceId.greatest]
  obtain ⟨hreplies, hafter⟩ := requests_in_any_order bs.reverse_perm.symm hapart s
  exact ⟨hreplies, hafter, rfl, rfl⟩

end HostBridge.Instances
