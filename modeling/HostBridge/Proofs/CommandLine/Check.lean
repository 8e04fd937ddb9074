import HostBridge.CommandLine.Run
import HostBridge.Proofs.Codec.Refusal
import HostBridge.Proofs.Json.Exact
import HostBridge.Proofs.Term.Text

/-!
Canonical text is stable.

The line that `check` prints is the text of the term that it has read, and a line break. A library
that keeps the doubles of the term reads the line as the term, so each command makes the same of it
as of the text that was read, and `check` prints it once more. That `decode` accepts it does not
follow: it accepts no expression unless it is told to. What a log adds to the standard output is no
part of the line.
-/

namespace HostBridge.CommandLine

section Commands

variable [Json.Library] {config : Config} {acceptExpression : Bool} {text line : String} {t : Term}

lemma line_check_eq_ok :
    (answer .check config acceptExpression text).line = .ok line ↔
      ∃ t, Term.parse text = .ok t ∧ line = t.print ++ "\n" := by
  unfold answer
  rcases Term.parse text with e | t
  · simp
  · simp [eq_comm]

/-- The commands make the same of texts of one term. -/
lemma answer_congr {text' : String} (h : Term.parse text = Term.parse text') (verb : Verb)
    (config : Config) (acceptExpression : Bool) :
    answer verb config acceptExpression text = answer verb config acceptExpression text' := by
  rw [answer, h, answer]

/-- What `check` makes of a term is the same in all sessions. -/
lemma answer_check_config (config' : Config) (acceptExpression' : Bool) :
    answer .check config' acceptExpression' text = answer .check config acceptExpression text := by
  unfold answer
  split <;> rfl

/-- Of a text of a term `decode` refuses nothing but expressions. -/
lemma line_decode_eq_error (hparse : Term.parse text = .ok t) {e : Error}
    (h : (answer .decode config acceptExpression text).line = .error e) :
    (config.acceptExpression || acceptExpression) = false ∧ e = .term .expressionNotAllowed := by
  rw [answer, hparse] at h
  rcases Result.bind_eq_error.mp h with h | ⟨v, -, h⟩
  · obtain ⟨⟨haccept, -⟩, rfl⟩ := Codec.decode_eq_error_iff.mp h
    rw [← acceptExpression_session]
    exact ⟨haccept, rfl⟩
  · cases h

/-- The line that `check` prints is read as the term that was read. -/
lemma parse_line [Json.LawfulLibrary] (hparse : Term.parse text = .ok t)
    (hkept : t.toJson.Kept) : Term.parse (t.print ++ "\n") = .ok t := by
  obtain ⟨hordered, hdepth⟩ := Term.ordered_of_parse hparse
  exact Term.parse_print_append hordered hdepth hkept "\n" (by decide)

end Commands

/--
**Canonical text is stable**, whatever lawful library reads and writes it. A term whose tables are
in order, whose tree is nested no deeper than a library allows and whose doubles the library keeps
is read back from its text, and every term that is read from a text has the first two properties.
What `check` prints is the line of a term that was read. If the library keeps the doubles of the
term, then `check` accepts the line and makes the same of it as of the text, and so does `decode`:
it accepts the line if it accepts expressions, and refuses nothing but an expression if it does
not.
-/
theorem canonical_text_stable [Json.Library] [Json.LawfulLibrary] :
    (∀ t : Term, t.Ordered → t.toJson.depth ≤ Json.maxDepth → t.toJson.Kept →
      Term.parse t.print = .ok t) ∧
    (∀ text t, Term.parse text = .ok t → t.Ordered ∧ t.toJson.depth ≤ Json.maxDepth) ∧
    (∀ config accept text line, (answer .check config accept text).line = .ok line →
      ∃ t, Term.parse text = .ok t ∧ line = t.print ++ "\n" ∧ (t.toJson.Kept →
        ∀ config' accept',
          answer .check config' accept' line = answer .check config accept text ∧
          answer .decode config' accept' line = answer .decode config' accept' text ∧
          ((config'.acceptExpression || accept') = true →
            ∃ shown, (answer .decode config' accept' line).line = .ok shown) ∧
          ∀ e, (answer .decode config' accept' line).line = .error e →
            e = .term .expressionNotAllowed)) := by
  refine ⟨fun t => Term.parse_print, fun text t => Term.ordered_of_parse, ?_⟩
  intro config accept text line hcheck
  obtain ⟨t, hparse, rfl⟩ := line_check_eq_ok.mp hcheck
  refine ⟨t, hparse, rfl, fun hkept config' accept' => ?_⟩
  have hline := parse_line hparse hkept
  have hsame := hline.trans hparse.symm
  refine ⟨?_, answer_congr hsame .decode config' accept', fun haccept => ?_, fun e he => ?_⟩
  · rw [answer_congr hsame]
    exact answer_check_config config' accept'
  · rcases hdecode : (answer .decode config' accept' (t.print ++ "\n")).line with e | shown
    · obtain ⟨hrefuse, -⟩ := line_decode_eq_error hline hdecode
      rw [haccept] at hrefuse
      cases hrefuse
    · exact ⟨shown, rfl⟩
  · exact (line_decode_eq_error hline he).2

/-- An equation between a variable and a number. -/
def equation : Term :=
  .ofHost (.expression .unify [.ofHost (.var "x"), .ofHost (.number (.integer 1))])

lemma equation_ordered : equation.Ordered := by
  refine .expression 0 0 .unify fun t ht => ?_
  simp only [List.mem_cons, List.not_mem_nil, or_false] at ht
  rcases ht with rfl | rfl
  · exact .var 0 0 "x"
  · exact .number 0 0 (.integer 1)

lemma equation_depth : equation.toJson.depth ≤ Json.maxDepth := by
  decide

lemma equation_kept : equation.toJson.Kept := Json.exact_kept equation.toJson

/-- The line that `check` prints of the equation is not accepted by `decode`. -/
theorem check_output_refused :
    (answer .check {} false equation.print).line = .ok (equation.print ++ "\n") ∧
    (answer .decode {} false (equation.print ++ "\n")).line =
      .error (.term .expressionNotAllowed) := by
  have hparse := Term.parse_print equation_ordered equation_depth equation_kept
  refine ⟨line_check_eq_ok.mpr ⟨equation, hparse, rfl⟩, ?_⟩
  rw [answer, parse_line hparse equation_kept]
  rfl

/-- The text of the equation is stable, and `decode` shows it if it accepts expressions. -/
theorem canonical_text_stable_equation :
    equation.Ordered ∧ equation.toJson.depth ≤ Json.maxDepth ∧ equation.toJson.Kept ∧
    Term.parse equation.print = .ok equation ∧
    ∃ line, (answer .check {} false equation.print).line = .ok line ∧
      answer .check {} false line = answer .check {} false equation.print ∧
      (answer .decode {} true line).line = .ok "Unify(x, 1) (expression)\n" := by
  obtain ⟨hread, -, hcheck⟩ := canonical_text_stable
  have hparse := hread equation equation_ordered equation_depth equation_kept
  have hprinted : (answer .check {} false equation.print).line = .ok (equation.print ++ "\n") :=
    line_check_eq_ok.mpr ⟨equation, hparse, rfl⟩
  obtain ⟨t, hsame, -, hstable⟩ := hcheck {} false equation.print _ hprinted
  obtain rfl : equation = t := Except.ok.inj (hparse.symm.trans hsame)
  obtain ⟨hagain, -⟩ := hstable equation_kept {} false
  obtain ⟨-, hdecode, -⟩ := hstable equation_kept {} true
  refine ⟨equation_ordered, equation_depth, equation_kept, hparse, _, hprinted, hagain, ?_⟩
  rw [hdecode, answer, hparse]
  rfl

end HostBridge.CommandLine
