import AgentScript.Proofs.Script.Enclosure

/-!
# Errors are unbalanced braces

The errors that reading a script reports are the braces without a counterpart in its skeleton, one
error for each: closing braces that close nothing, and opening braces that nothing closes
(`perm_errors`).  A script is therefore faulty exactly if its braces are not balanced
(`isFaulty_eq_false_iff`).
-/

namespace AgentScript.Script

variable {text : String}

/-- The braces of a script that have no counterpart, as findings. -/
def unbalanced (text : String) : List Finding :=
  (matching (braces text)).strays.map (⟨·, .strayBrace⟩) ++
    (matching (braces text)).unclosed.map OpenBrace.neverClosed

lemma unbalanced_eq_nil_iff : unbalanced text = [] ↔ balanced (braces text) = true := by
  rw [unbalanced, List.append_eq_nil_iff, List.map_eq_nil_iff, List.map_eq_nil_iff, balanced,
    beq_iff_eq]
  constructor
  · rintro ⟨hstrays, hunclosed⟩
    generalize matching (braces text) = m at hstrays hunclosed ⊢
    cases m
    cases hstrays
    cases hunclosed
    rfl
  · intro h
    rw [h]
    exact ⟨rfl, rfl⟩

/-- What is found as an error is what is unbalanced. -/
lemma errorFindings_reading (h : HasPlainTools text) :
    (reading text).errorFindings = unbalanced text :=
  ((Reading.follows_scriptLines h).finish (scriptLines text).length).2.2.2

/-- **Errors are unbalanced braces**, each reported once and on its line. -/
theorem perm_errors (h : HasPlainTools text) :
    ((outline text).diagnostics.filter Diagnostic.isError).Perm
      ((unbalanced text).map Finding.toDiagnostic) := by
  have hperm := (perm_diagnostics (reading text)).filter Diagnostic.isError
  rw [List.filter_map] at hperm
  rwa [← errorFindings_reading h]

/-- The diagnostics of a script are ordered by line. -/
theorem pairwise_diagnostics (text : String) :
    (outline text).diagnostics.Pairwise fun d d' => d.line ≤ d'.line := by
  have hsorted : (reading text).diagnostics.Pairwise fun d d' => decide (d.line ≤ d'.line) = true :=
    List.pairwise_mergeSort
    (fun a b c hab hbc => by rw [decide_eq_true_eq] at *; omega)
    (fun a b => by rw [Bool.or_eq_true, decide_eq_true_eq, decide_eq_true_eq]; omega)
    ((reading text).findings.map Finding.toDiagnostic)
  exact hsorted.imp of_decide_eq_true

/-- A script is free of errors exactly if its braces are balanced. -/
theorem isFaulty_eq_false_iff (h : HasPlainTools text) :
    (outline text).isFaulty = false ↔ balanced (braces text) = true := by
  have hperm := perm_errors h
  rw [← unbalanced_eq_nil_iff, Outline.isFaulty, List.any_eq_false, ← List.filter_eq_nil_iff]
  constructor
  · intro hnil
    rw [hnil] at hperm
    exact List.map_eq_nil_iff.1 (List.nil_perm.1 hperm)
  · intro hnil
    rw [hnil] at hperm
    exact List.perm_nil.1 hperm

end AgentScript.Script
