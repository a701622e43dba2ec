import AgentScript.Proofs.Graph.Census
import AgentScript.Proofs.Script.Balance
import Mathlib.Data.List.Pairwise

/-!
# Diagnostics in the order of lines

The diagnostics of a script are its findings, ordered by line, where findings on one line keep the
order in which they were made.  This determines the list: two lists that are ordered by a key and have
the same elements of each key, in the same order, are equal (`eq_of_filter_key_eq`).  So findings may
be selected before they are ordered or after it (`filter_sortedBy`), and what is found last, on the
last line, comes last (`sortedBy_append`).

The two kinds of error are told apart by their messages (`Diagnostic.saysNeverClosed`,
`Diagnostic.saysStray`).
-/

namespace AgentScript

/-! ## Ordering by a key -/

section Key

variable {α : Type} (key : α → Nat)

/-- The elements of a list in the order of their keys. -/
def sortedBy (l : List α) : List α := l.mergeSort fun a b => key a ≤ key b

variable {key} {l l' : List α} {n : Nat}

lemma le_key_trans (a b c : α) (hab : decide (key a ≤ key b) = true)
    (hbc : decide (key b ≤ key c) = true) : decide (key a ≤ key c) = true := by
  rw [decide_eq_true_eq] at *
  exact Nat.le_trans hab hbc

lemma le_key_total (a b : α) : (decide (key a ≤ key b) || decide (key b ≤ key a)) = true := by
  rw [Bool.or_eq_true, decide_eq_true_eq, decide_eq_true_eq]
  exact Nat.le_total _ _

lemma sortedBy_perm (l : List α) : (sortedBy key l).Perm l := List.mergeSort_perm l _

lemma pairwise_sortedBy (l : List α) : (sortedBy key l).Pairwise (key · ≤ key ·) := by
  have hsorted : (sortedBy key l).Pairwise fun a b => decide (key a ≤ key b) = true :=
    List.pairwise_mergeSort le_key_trans le_key_total l
  exact hsorted.imp of_decide_eq_true

/-- Elements with one key keep their order. -/
lemma filter_key_sortedBy (l : List α) (n : Nat) :
    (sortedBy key l).filter (key · = n) = l.filter (key · = n) := by
  have hequal : (l.filter (key · = n)).Pairwise fun a b => decide (key a ≤ key b) = true := by
    apply List.pairwise_of_forall_mem_list
    intro a ha b hb
    rw [decide_eq_true_eq, of_decide_eq_true (List.mem_filter.1 ha).2,
      of_decide_eq_true (List.mem_filter.1 hb).2]
  have hsublist : (l.filter (key · = n)).Sublist (sortedBy key l) :=
    List.sublist_mergeSort le_key_trans le_key_total hequal List.filter_sublist
  have hfilter := hsublist.filter (key · = n)
  rw [List.filter_filter] at hfilter
  simp only [Bool.and_self] at hfilter
  exact (hfilter.eq_of_length ((sortedBy_perm l).filter _).length_eq.symm).symm

/-- Lists that are ordered by their keys are told apart by the elements of some key. -/
theorem eq_of_filter_key_eq (h : l.Pairwise (key · ≤ key ·)) (h' : l'.Pairwise (key · ≤ key ·))
    (hfilter : ∀ n, l.filter (key · = n) = l'.filter (key · = n)) : l = l' := by
  have hmem : ∀ a, a ∈ l ↔ a ∈ l' := by
    intro a
    have hkey := congrArg (a ∈ ·) (hfilter (key a))
    simpa using hkey
  induction l generalizing l' with
  | nil =>
    cases l' with
    | nil => rfl
    | cons b l' => exact absurd ((hmem b).2 List.mem_cons_self) List.not_mem_nil
  | cons a l ih =>
    cases l' with
    | nil => exact absurd ((hmem a).1 List.mem_cons_self) List.not_mem_nil
    | cons b l' =>
      rw [List.pairwise_cons] at h h'
      -- Each of the two heads has the least key.
      have hkey : key a = key b := by
        apply Nat.le_antisymm
        · rcases List.mem_cons.1 ((hmem b).2 List.mem_cons_self) with rfl | hb
          · exact Nat.le_refl _
          · exact h.1 b hb
        · rcases List.mem_cons.1 ((hmem a).1 List.mem_cons_self) with rfl | ha
          · exact Nat.le_refl _
          · exact h'.1 a ha
      have hhead := hfilter (key a)
      rw [List.filter_cons_of_pos (by simp), List.filter_cons_of_pos (by simp [hkey]),
        List.cons.injEq] at hhead
      obtain ⟨rfl, -⟩ := hhead
      have htail : ∀ n, l.filter (key · = n) = l'.filter (key · = n) := by
        intro n
        have hn := hfilter n
        rw [List.filter_cons, List.filter_cons] at hn
        split_ifs at hn
        · exact (List.cons.inj hn).2
        · exact hn
      rw [ih h.2 h'.2 htail fun c => ?_]
      have hc := congrArg (c ∈ ·) (htail (key c))
      simpa using hc

/-- Selecting and ordering may be done in either order. -/
theorem filter_sortedBy (p : α → Bool) (l : List α) :
    (sortedBy key l).filter p = sortedBy key (l.filter p) := by
  refine eq_of_filter_key_eq ((pairwise_sortedBy l).filter p) (pairwise_sortedBy _) fun n => ?_
  rw [filter_key_sortedBy, List.filter_comm, filter_key_sortedBy, List.filter_comm]

/-- What has the greatest key and comes last stays last. -/
theorem sortedBy_append (h : ∀ a ∈ l, key a ≤ n) (h' : ∀ a ∈ l', key a = n) :
    sortedBy key (l ++ l') = sortedBy key l ++ l' := by
  have hsorted : (sortedBy key l ++ l').Pairwise (key · ≤ key ·) := by
    refine List.pairwise_append.2 ⟨pairwise_sortedBy l, ?_, fun a ha b hb => ?_⟩
    · apply List.pairwise_of_forall_mem_list
      intro a ha b hb
      rw [h' a ha, h' b hb]
    · rw [h' b hb]
      exact h a ((sortedBy_perm l).mem_iff.1 ha)
  refine eq_of_filter_key_eq (pairwise_sortedBy _) hsorted fun n => ?_
  rw [filter_key_sortedBy, List.filter_append, List.filter_append, filter_key_sortedBy]

end Key

/-! ## Errors by their messages -/

namespace Diagnostic

/-- The error that an opening brace is never closed. -/
def saysNeverClosed (d : Diagnostic) : Bool :=
  d.isError && " is never closed".toList.isSuffixOf d.message.toList

/-- The error that a closing brace closes nothing. -/
def saysStray (d : Diagnostic) : Bool :=
  d.isError && d.message == "unexpected '\x7d' with no open block"

end Diagnostic

namespace Script

def Cause.isNeverClosed : Cause → Bool
  | .neverClosed _ _ => true
  | _ => false

def Cause.isStray : Cause → Bool
  | .strayBrace => true
  | _ => false

namespace Finding

lemma isError_toDiagnostic (f : Finding) :
    f.toDiagnostic.isError = (f.cause.isNeverClosed || f.cause.isStray) := by
  obtain ⟨line, cause⟩ := f
  cases cause <;> rfl

lemma saysNeverClosed_toDiagnostic (f : Finding) :
    f.toDiagnostic.saysNeverClosed = f.cause.isNeverClosed := by
  rw [Diagnostic.saysNeverClosed, isError_toDiagnostic]
  obtain ⟨line, cause⟩ := f
  cases cause with
  | neverClosed opener opened =>
    exact List.isSuffixOf_iff_suffix.2 (Cause.neverClosed opener opened).ending_suffix
  | strayBrace =>
    have hending : " is never closed".toList.isSuffixOf Cause.strayBrace.message.toList = false := by
      decide
    exact (Bool.true_and _).trans hending
  | _ => rfl

lemma saysStray_toDiagnostic (f : Finding) : f.toDiagnostic.saysStray = f.cause.isStray := by
  rw [Diagnostic.saysStray, isError_toDiagnostic]
  obtain ⟨line, cause⟩ := f
  cases cause with
  | neverClosed opener opened =>
    have hne : (Cause.neverClosed opener opened).message ≠
        "unexpected '\x7d' with no open block" := by
      intro heq
      have hsuffix : " is never closed".toList <:+
          (Cause.neverClosed opener opened).message.toList :=
        (Cause.neverClosed opener opened).ending_suffix
      rw [heq] at hsuffix
      exact absurd hsuffix (by decide)
    exact beq_eq_false_iff_ne.2 hne
  | strayBrace => rfl
  | _ => rfl

end Finding

/-! ## Which findings are reported -/

namespace Reading

variable {p : Diagnostic → Bool} {q : Finding → Bool}

/-- The diagnostics of one kind are the findings of that kind, ordered by line. -/
lemma filter_diagnostics (h : ∀ f : Finding, p f.toDiagnostic = q f) (r : Reading) :
    r.diagnostics.filter p =
      sortedBy Diagnostic.line ((r.findings.filter q).map Finding.toDiagnostic) := by
  have hq : p ∘ Finding.toDiagnostic = q := funext h
  rw [← hq, ← List.filter_map]
  exact filter_sortedBy p _

/-- Nothing has been found behind the line. -/
def FoundUpTo (n : Nat) (r : Reading) : Prop := ∀ f ∈ r.findings, f.line ≤ n

variable {r : Reading} {n : Nat}

lemma FoundUpTo.add (h : r.FoundUpTo n) {d : Reading} (hd : d.FoundUpTo n) (cause? : Option Cause) :
    (r.note n cause? ++ d).FoundUpTo n := by
  intro f hf
  rw [findings_append, findings_note, List.mem_append, List.mem_append] at hf
  rcases hf with (hf | hf) | hf
  · exact h f hf
  · obtain ⟨cause, -, rfl⟩ := List.mem_map.1 (by rwa [Option.toList_map] at hf)
    exact Nat.le_refl n
  · exact hd f hf

lemma foundUpTo_opened (agent? : Option String) (later : List (List Char)) (o : Opening) :
    (opened agent? n later o).FoundUpTo n := by
  intro f hf
  have hline : f.line = n := by
    obtain ⟨header, column, rest⟩ := o
    cases header <;> cases agent? <;> simp [opened] at hf <;> rw [hf]
  exact hline.le

lemma foundUpTo_kept (scope : Scope) : (kept scope).FoundUpTo n := by
  intro f hf
  rw [findings_kept] at hf
  cases hf

lemma FoundUpTo.openOne (h : r.FoundUpTo n) (later : List (List Char)) (o : Opening) :
    (r.openOne n later o).FoundUpTo n := by
  rw [openOne_eq]
  exact h.add (foundUpTo_opened _ later o) _

lemma FoundUpTo.foldl_openOne (h : r.FoundUpTo n) (later : List (List Char)) (os : List Opening) :
    (os.foldl (Reading.openOne n later) r).FoundUpTo n := by
  induction os generalizing r with
  | nil => exact h
  | cons o os ih => exact ih (h.openOne later o)

lemma FoundUpTo.collect (h : r.FoundUpTo n) (segment : List Char) :
    (r.collect segment).FoundUpTo n := by
  rw [Reading.collect]
  split <;> exact h

lemma FoundUpTo.close (h : r.FoundUpTo n) : (r.close n).FoundUpTo n := by
  cases hr : r.scopes with
  | nil =>
    rw [close_eq_of_nil hr]
    have hempty : ({} : Reading).FoundUpTo n := fun _ hf => by cases hf
    have hadd := h.add hempty (some .strayBrace)
    intro f hf
    exact hadd f (List.mem_append_left _ hf)
  | cons scope outer =>
    rw [close_eq_of_cons hr]
    exact FoundUpTo.add (r := r.pop) h (foundUpTo_kept scope) _

lemma FoundUpTo.body (h : r.FoundUpTo n) (segment cs : List Char) :
    (Reading.body n segment cs r).FoundUpTo n := by
  refine body_induction (P := fun r => r.FoundUpTo n) ?_ ?_ ?_ h segment cs
  · exact fun _ segment hr => hr.collect segment
  · exact fun _ hr => hr
  · exact fun _ hr => hr.close

/-- Reading some lines finds nothing behind them. -/
lemma FoundUpTo.linesFrom (h : r.FoundUpTo n) (ls : List (List Char)) :
    (Reading.linesFrom (n + 1) ls r).FoundUpTo (n + ls.length) := by
  induction ls generalizing n r with
  | nil => exact h
  | cons text later ih =>
    have hnext : r.FoundUpTo (n + 1) := fun f hf => Nat.le_succ_of_le (h f hf)
    rw [Reading.linesFrom, List.length_cons, ← Nat.add_assoc, Nat.add_right_comm]
    exact ih ((hnext.foldl_openOne later _).body [] _)

end Reading

end Script

end AgentScript
