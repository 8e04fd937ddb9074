import HostBridge.Term.Basic
import Mathlib.Tactic.Lemma

/-!
Induction on terms: what holds of a term whenever it holds of the terms directly inside it holds
of every term.
-/

namespace HostBridge.Term

@[induction_eliminator]
theorem induction {motive : Term → Prop}
    (string : ∀ id offset s, motive ⟨id, offset, .string s⟩)
    (boolean : ∀ id offset b, motive ⟨id, offset, .boolean b⟩)
    (number : ∀ id offset n, motive ⟨id, offset, .number n⟩)
    (list : ∀ id offset items, (∀ t ∈ items, motive t) → motive ⟨id, offset, .list items⟩)
    (dictionary : ∀ id offset fields, (∀ e ∈ fields, motive e.2) →
      motive ⟨id, offset, .dictionary fields⟩)
    (external : ∀ id offset handle, (∀ t ∈ handle.constructor, motive t) →
      motive ⟨id, offset, .external handle⟩)
    (call : ∀ id offset name args kwargs, (∀ t ∈ args, motive t) →
      (∀ fields ∈ kwargs, ∀ e ∈ fields, motive e.2) →
      motive ⟨id, offset, .call name args kwargs⟩)
    (var : ∀ id offset name, motive ⟨id, offset, .var name⟩)
    (expression : ∀ id offset operator args, (∀ t ∈ args, motive t) →
      motive ⟨id, offset, .expression operator args⟩)
    (pattern : ∀ id offset tag fields, (∀ e ∈ fields, motive e.2) →
      motive ⟨id, offset, .pattern tag fields⟩)
    (t : Term) : motive t := by
  refine @Term.rec
    motive
    (fun value => ∀ id offset, motive ⟨id, offset, value⟩)
    (fun items => ∀ t ∈ items, motive t)
    (fun fields => ∀ e ∈ fields, motive e.2)
    (fun handle => ∀ t ∈ handle.constructor, motive t)
    (fun kwargs => ∀ fields ∈ kwargs, ∀ e ∈ fields, motive e.2)
    (fun entry => motive entry.2)
    (fun constructor => ∀ t ∈ constructor, motive t)
    ?term ?string ?boolean ?number ?list ?dictionary ?external ?call ?var ?expression ?pattern
    ?noItems ?item ?noFields ?field ?handle ?noKwargs ?kwargs ?entry ?noConstructor ?constructor t
  case term => intro id offset value h; exact h id offset
  case string => intro s id offset; exact string id offset s
  case boolean => intro b id offset; exact boolean id offset b
  case number => intro n id offset; exact number id offset n
  case list => intro items h id offset; exact list id offset items h
  case dictionary => intro fields h id offset; exact dictionary id offset fields h
  case external => intro handle h id offset; exact external id offset handle h
  case call => intro name args kwargs h h' id offset; exact call id offset name args kwargs h h'
  case var => intro name id offset; exact var id offset name
  case expression => intro op args h id offset; exact expression id offset op args h
  case pattern => intro tag fields h id offset; exact pattern id offset tag fields h
  case noItems => intro t ht; cases ht
  case item =>
    intro t rest h ih t' ht'
    rcases List.mem_cons.mp ht' with rfl | hm
    · exact h
    · exact ih t' hm
  case noFields => intro e he; cases he
  case field =>
    intro e rest h ih e' he'
    rcases List.mem_cons.mp he' with rfl | hm
    · exact h
    · exact ih e' hm
  case handle => intro id constructor repr classRepr classId h; exact h
  case noKwargs => intro fields h; cases h
  case kwargs => intro fields h fields' he; cases he; exact h
  case entry => intro key t h; exact h
  case noConstructor => intro t h; cases h
  case constructor => intro t h t' he; cases he; exact h

end HostBridge.Term
