import HostBridge.Proofs.Link.Registration
import Mathlib.Data.List.Flatten

/-!
What reaches the caller of the messages that an engine hands out.

A reading asks the engine for messages until it has none left or fails. A reading that fails answers
with the failure alone: what the engine had handed out before in that reading is gone, and no later
reading returns it. All other messages arrive, once each and in order.
-/

namespace HostBridge.Link

variable {σ α query : Type} [Engine σ query]

/-! ### One reading -/

/-- What an engine hands out in one reading, and the failure that ended it if one did. -/
structure Exchange where
  handed : List String
  failure : Option EngineError
deriving DecidableEq, Repr

/-- The engine is asked until it has no message left or fails, which leads to the last state. -/
inductive Drains : σ → Exchange → σ → Prop
  | done {s s'} (h : EngineCalls.nextMessage s = .ok none s') : Drains s ⟨[], none⟩ s'
  | failed {s s' e} (h : EngineCalls.nextMessage s = .error e s') : Drains s ⟨[], some e⟩ s'
  | handed {s s₁ s' message x} (h : EngineCalls.nextMessage s = .ok (some message) s₁)
    (rest : Drains s₁ x s') : Drains s ⟨message :: x.handed, x.failure⟩ s'

/-- An engine is never asked without end, because each message leaves fewer of them. -/
lemma exists_drains (s : σ) : ∃ x s', Drains s x s' := by
  induction s using drain.induct with
  | case1 s s' h => exact ⟨_, s', .done h⟩
  | case2 s message s' h messages s'' _ ih | case3 s message s' h e s'' _ ih =>
    obtain ⟨x, s'', hx⟩ := ih
    exact ⟨_, s'', .handed h hx⟩
  | case4 s e s' h => exact ⟨_, s', .failed h⟩

section Drain

variable {s s' : σ}

lemma drain_of_done (h : EngineCalls.nextMessage s = .ok none s') : drain s = .ok [] s' := by
  rw [drain]; split <;> simp_all

lemma drain_of_failed {e : EngineError} (h : EngineCalls.nextMessage s = .error e s') :
    drain s = .error e s' := by
  rw [drain]; split <;> simp_all

lemma drain_of_handed {message : String} (h : EngineCalls.nextMessage s = .ok (some message) s') :
    drain s = match drain s' with
      | .ok messages s'' => .ok (message :: messages) s''
      | .error e s'' => .error e s'' := by
  rw [drain]
  split
  · rename_i hnone; cases h.symm.trans hnone
  · rename_i hsome; cases h.symm.trans hsome; rfl
  · rename_i herror; cases h.symm.trans herror

/-- A reading returns all that was handed out, or the failure and nothing of it. -/
lemma drain_of_drains {x : Exchange} (h : Drains s x s') :
    drain s = match x.failure with
      | none => .ok x.handed s'
      | some e => .error e s' := by
  induction h with
  | done h => exact drain_of_done h
  | failed h => exact drain_of_failed h
  | @handed s s₁ s' message x h _ ih =>
    rw [drain_of_handed h, ih]
    rcases x.failure with _ | e <;> rfl

end Drain

/-! ### One reading after the other -/

/-- What the caller learns of an exchange. -/
def Exchange.answer (x : Exchange) : Except Error (List String) :=
  match x.failure with
  | none => .ok x.handed
  | some e => .error (.engine e)

/-- The engine's side of one reading after the other. -/
inductive Exchanges : σ → List Exchange → σ → Prop
  | nil {s} : Exchanges s [] s
  | cons {s s₁ s' x xs} (h : Drains s x s₁) (rest : Exchanges s₁ xs s') : Exchanges s (x :: xs) s'

/-- The answers to so many readings in a row, and the link that they leave. -/
def readings : ℕ → Link σ α → List (Except Error (List String)) × Link σ α
  | 0, l => ([], l)
  | n + 1, l =>
    match messages l with
    | .ok received l' => (.ok received :: (readings n l').1, (readings n l').2)
    | .error e l' => (.error e :: (readings n l').1, (readings n l').2)

/-- The messages in an answer. -/
def delivered : Except Error (List String) → List String
  | .ok messages => messages
  | .error _ => []

variable {l : Link σ α}

lemma readings_succ_of_drains {s' : σ} {x : Exchange} (h : Drains l.engine x s') (n : ℕ) :
    readings (n + 1) l =
      (x.answer :: (readings n { l with engine := s' }).1,
        (readings n { l with engine := s' }).2) := by
  have hdrain := drain_of_drains h
  rcases hx : x.failure with _ | e
  · rw [hx] at hdrain
    simp only [readings, messages, onEngine_of_ok hdrain, Exchange.answer, hx]
  · rw [hx] at hdrain
    simp only [readings, messages, onEngine_of_error hdrain, Exchange.answer, hx]

/-- Readings answer exchange by exchange, and touch nothing of the link but its engine. -/
lemma readings_of_exchanges {s' : σ} {xs : List Exchange} (h : Exchanges l.engine xs s') :
    readings xs.length l = (xs.map Exchange.answer, { l with engine := s' }) := by
  generalize hs : l.engine = s at h
  induction h generalizing l with
  | nil => subst hs; rfl
  | cons hx _ ih =>
    subst hs
    rw [List.length_cons, readings_succ_of_drains hx, ih rfl]
    rfl

/-- The engine has its side of any number of readings. -/
lemma exists_exchanges (n : ℕ) (s : σ) :
    ∃ xs s', xs.length = n ∧ Exchanges s xs s' := by
  induction n generalizing s with
  | zero => exact ⟨[], s, rfl, .nil⟩
  | succ n ih =>
    obtain ⟨x, s₁, hx⟩ := exists_drains s
    obtain ⟨xs, s', hlength, hxs⟩ := ih s₁
    exact ⟨x :: xs, s', congrArg _ hlength, .cons hx hxs⟩

/-- An exchange that failed delivers nothing. -/
lemma flatMap_delivered (xs : List Exchange) :
    (xs.map Exchange.answer).flatMap delivered =
      (xs.filter (·.failure.isNone)).flatMap (·.handed) := by
  induction xs with
  | nil => rfl
  | cons x rest ih =>
    rw [List.map_cons, List.flatMap_cons, ih, List.filter_cons]
    rcases hx : x.failure with _ | e <;> simp [Exchange.answer, delivered, hx]

/-- What is left of a list is too short to make up for something in front of it. -/
lemma eq_append_iff_of_sublist {front kept rest : List String} (h : kept.Sublist rest) :
    kept = front ++ rest ↔ front = [] ∧ kept = rest := by
  constructor
  · rintro rfl
    have hlength := h.length_le
    rw [List.length_append] at hlength
    have hfront : front = [] := List.eq_nil_of_length_eq_zero (by omega)
    rw [hfront]
    exact ⟨rfl, rfl⟩
  · rintro ⟨rfl, rfl⟩
    rfl

/-- All that was handed out is delivered if no exchange failed after handing something out. -/
lemma flatMap_delivered_eq_iff (xs : List Exchange) :
    (xs.map Exchange.answer).flatMap delivered = xs.flatMap (·.handed) ↔
      ∀ x ∈ xs, x.failure.isSome → x.handed = [] := by
  rw [flatMap_delivered]
  induction xs with
  | nil => simp
  | cons x rest ih =>
    rw [List.filter_cons, List.flatMap_cons, List.forall_mem_cons, ← ih]
    rcases hx : x.failure with _ | e
    · simp
    · have hkept : ((rest.filter (·.failure.isNone)).flatMap (·.handed)).Sublist
          (rest.flatMap (·.handed)) := List.filter_sublist.flatMap _
      simp [eq_append_iff_of_sublist hkept]

/--
**A reading that fails loses what it was handed.** Any number of readings of a link goes with as
many exchanges at its engine. Each reading answers with what the engine handed out in its exchange,
or with the failure that ended it, and of the link only the engine changes. So the caller receives,
in order and once each, the messages of the exchanges that did not fail. These are all the messages
exactly if no exchange failed after a message.
-/
theorem readings_deliver (n : ℕ) (l : Link σ α) :
    ∃ xs s', xs.length = n ∧ Exchanges l.engine xs s' ∧
      readings n l = (xs.map Exchange.answer, { l with engine := s' }) ∧
      (readings n l).1.flatMap delivered = (xs.filter (·.failure.isNone)).flatMap (·.handed) ∧
      ((readings n l).1.flatMap delivered = xs.flatMap (·.handed) ↔
        ∀ x ∈ xs, x.failure.isSome → x.handed = []) := by
  obtain ⟨xs, s', rfl, hxs⟩ := exists_exchanges n l.engine
  have hreadings := readings_of_exchanges hxs
  refine ⟨xs, s', rfl, hxs, hreadings, ?_, ?_⟩
  · rw [hreadings]
    exact flatMap_delivered xs
  · rw [hreadings]
    exact flatMap_delivered_eq_iff xs

/-! ### A message that is lost -/

/-- An engine that answers from a script when it is asked for messages, and has no other use. -/
structure Scripted where
  answers : List (Except EngineError (Option String))

instance : Engine Scripted Unit where
  load _ := pure ()
  clearRules := pure ()
  registerConstant _ _ := pure ()
  registerAncestry _ _ := pure ()
  newQuery _ _ := pure ()
  newQueryFromTerm _ _ := pure ()
  nextMessage s :=
    match s.answers with
    | [] => .ok none s
    | .ok message :: rest => .ok message ⟨rest⟩
    | .error e :: rest => .error e ⟨rest⟩
  waiting s := s.answers.length
  waiting_nextMessage {s s' message} h := by
    rcases s with ⟨_ | ⟨_ | _, rest⟩⟩ <;> cases h
    exact Nat.lt_succ_self _
  buildFilterPlan _ _ _ _ := pure ""

/-- The message that the engine hands out before it fails is in no answer, now or later. -/
theorem readings_lose_message :
    let failure : EngineError := .rejected "next_message" "rejected"
    let engine : Scripted := ⟨[.ok (some "a"), .error failure, .ok none]⟩
    let l : Link Scripted Unit := .new engine {}
    ∃ xs, Exchanges engine xs ⟨[]⟩ ∧ xs.flatMap (·.handed) = ["a"] ∧
      (readings xs.length l).1 = [.error (.engine failure), .ok []] ∧
      (readings xs.length l).1.flatMap delivered ≠ xs.flatMap (·.handed) := by
  intro failure engine l
  have hxs : Exchanges engine [⟨["a"], some failure⟩, ⟨[], none⟩] ⟨[]⟩ :=
    .cons (.handed rfl (.failed rfl)) (.cons (.done rfl) .nil)
  have hreadings := readings_of_exchanges (l := l) hxs
  refine ⟨_, hxs, rfl, congrArg Prod.fst hreadings, ?_⟩
  rw [hreadings]
  exact (List.cons_ne_nil _ _).symm

end HostBridge.Link
