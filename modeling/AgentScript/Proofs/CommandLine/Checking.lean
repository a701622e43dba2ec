import AgentScript.Proofs.CommandLine.Runs
import AgentScript.Proofs.Graph.Forest
import AgentScript.Proofs.Script.Balance

/-!
# What the command that checks a script decides

The command reports what reading the script finds and what the graph of its outline leaves out, and
it fails if there is an error among these.  The graph of an outline is a forest in which nothing that
is found is an error (`any_isError_lint_layout`), so the exit code is decided by the braces of the
script.
-/

namespace AgentScript

open Script

/-- The graph of an outline has no errors. -/
theorem any_isError_lint_layout (text : String) :
    (layout (outline text)).lint.any Diagnostic.isError = false := by
  rw [List.any_eq_false]
  intro d hd
  obtain ⟨c, hc, rfl⟩ := List.mem_map.1 hd
  obtain ⟨n, -, field, -, rfl⟩ := (wellRead_outline text).isBadValue_of_mem_causes hc
  exact Bool.false_ne_true

namespace CommandLine

/-- A script is checked to be faulty exactly if reading it finds an error. -/
lemma faulty_checkResult (text : String) :
    (checkResult (outline text)).faulty = (outline text).isFaulty := by
  rw [checkResult, List.any_append, any_isError_lint_layout, Bool.or_false, Outline.isFaulty]

/-- What the braces of a script say about its errors, and about the exit code of checking it. -/
structure JudgedByBraces (text : String) : Prop where
  /-- The braces are those that masking leaves. -/
  skeleton : braceChars text = maskedBraces text
  /-- One error for every closing brace without an opening one and for every opening brace without a
  closing one, each on the line of its brace; and no other error. -/
  errors : ((outline text).diagnostics.filter Diagnostic.isError).Perm
    ((unbalanced text).map Finding.toDiagnostic)
  ordered : (outline text).diagnostics.Pairwise fun d d' => d.line ≤ d'.line
  faulty : (outline text).isFaulty = true ↔ balanced (braces text) = false
  /-- Any command line that asks for a check of the text, from a file or from the standard input, and
  whose output can be written, exits with `1` for unbalanced braces and with `0` for balanced ones. -/
  exit_code : ∀ (d : Directory) (args : List String) (r : Request), read args = .ok (.run r) →
    r.command = .check → d.source r.input = .ok text.toUTF8 → d.takes r.output = true →
    (d.run args).1 = if balanced (braces text) then 0 else 1

/-- **Errors are exactly the unbalanced braces.** -/
theorem judged_by_braces (text : String) (h : HasPlainTools text) : JudgedByBraces text := by
  have hfaulty := isFaulty_eq_false_iff h
  refine ⟨braceChars_eq text, perm_errors h, pairwise_diagnostics text, ?_,
    fun d args r hread hcheck hsource htakes => ?_⟩
  · rw [← Bool.not_eq_false, hfaulty, Bool.not_eq_true]
  · have hresult : r.command.result text = .ok (checkResult (outline text)) := by
      rw [hcheck]
      rfl
    rw [Directory.run_eq_run_serve hread, Directory.run_serve hsource htakes hresult]
    dsimp only
    rw [faulty_checkResult]
    cases hbalanced : balanced (braces text) with
    | true => rw [hfaulty.2 hbalanced]; rfl
    | false =>
      have hnot : (outline text).isFaulty = true := by
        rw [← Bool.not_eq_false, hfaulty, hbalanced]
        exact Bool.false_ne_true
      rw [hnot]
      rfl

/-- A script with a closing brace too many and an agent that is never closed; braces in a literal
and in a comment do not count. -/
def lopsidedText : String := "\x7d\nagent A \x7b\n  description: \"\x7b\" // \x7b\n"

theorem judged_by_braces_lopsidedText :
    HasPlainTools lopsidedText ∧ JudgedByBraces lopsidedText ∧
      unbalanced lopsidedText = [⟨1, .strayBrace⟩, ⟨2, .neverClosed (.agent "A") 2⟩] ∧
      read ["check"] = .ok (.run ⟨.check, none, none⟩) ∧
      (({ input := lopsidedText.toUTF8 } : Directory).run ["check"]).1 = 1 :=
  have h : HasPlainTools lopsidedText := by decide +kernel
  have hjudged := judged_by_braces lopsidedText h
  have hread : read ["check"] = .ok (.run ⟨.check, none, none⟩) := by decide +kernel
  have hunbalanced : balanced (braces lopsidedText) = false := by decide +kernel
  ⟨h, hjudged, by decide +kernel, hread,
    (hjudged.exit_code _ _ _ hread rfl rfl rfl).trans (by rw [hunbalanced]; rfl)⟩

end CommandLine

end AgentScript
