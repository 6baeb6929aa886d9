import LintRelay.Proofs.Extension
import LintRelay.Proofs.Reencoding
import Mathlib.Data.List.TakeWhile
/-! Output with a preamble. Whoever skips a preamble reads what can be read without skipping just
the same, and fails as before where there is no text to skip in; and in front of a bracket any text
without one makes no difference, since the issues start at the first bracket wherever it stands. -/
namespace LintRelay

namespace Outcome

open Json

theorem payload?_trim {front : List Char} (hfront : '[' ∉ front) (rest : List Char) :
    payload? true (Text.trim (front ++ '[' :: rest)) = some ('[' :: Text.trimEnd rest) := by
  have hpass : (Text.trimStart front).dropWhile (· != '[') = [] := by
    rw [List.dropWhile_eq_nil_iff]
    intro c hc
    have hne : c ≠ '[' := by
      rintro rfl
      exact hfront ((List.dropWhile_sublist _).mem hc)
    simpa using hne
  rw [Text.trim_append_cons (by decide), payload?, if_pos rfl,
    List.dropWhile_append_cons (by decide), hpass, List.nil_append]

/-- Text with a bracket is read from its first bracket on. -/
theorem decode_skipping {o : Outcome} (h : o.exitCode = 0) {front rest : List Char}
    (ht : o.stdout = Utf8.encode (front ++ '[' :: rest)) (hfront : '[' ∉ front) :
    o.decode true =
      match parseList ('[' :: Text.trimEnd rest) with
      | .ok values => .ok (.issues (values.map Issue.mk))
      | .error f => .error (.output (.notIssues ('[' :: Text.trimEnd rest) f)
          (snippet (front ++ '[' :: rest))) := by
  have hword : Text.trim (front ++ '[' :: rest) ≠ failureWord := by
    intro heq
    have hmem : '[' ∈ failureWord := by
      rw [← heq, Text.trim_append_cons (by decide)]
      simp
    exact absurd hmem (by decide)
  simp only [decode, output_of_encode h ht, bind, Except.bind, payload?_trim hfront, beq_iff_eq,
    hword, if_false]
  cases parseList ('[' :: Text.trimEnd rest) <;> rfl

theorem bracket_of_parseList {text : List Char} {values : List Value}
    (h : parseList (Text.trim text) = .ok values) : ∃ cs, Text.trim text = '[' :: cs := by
  obtain ⟨items, ⟨a, s, b, ha, hs, -, htrim⟩, -, -⟩ := parseList_eq_ok_iff.mp h
  obtain ⟨m, rfl⟩ := array_brackets hs
  cases a with
  | nil => exact ⟨_, htrim⟩
  | cons c a =>
    -- The text was trimmed, so that it does not start with a space.
    have hblank : Text.isBlank c = false := (Text.trimmed_trim text).first c (by rw [htrim]; rfl)
    have hspace : isSpace c = true := ha c List.mem_cons_self
    simp only [isSpace, Bool.or_eq_true, beq_iff_eq] at hspace
    rcases hspace with ((rfl | rfl) | rfl) | rfl <;> exact absurd hblank (by decide)

/-- A verdict that is reached without skipping is reached with it. -/
theorem decode_true_of_verdict {o : Outcome} {verdict : Verdict}
    (h : o.decode false = .ok verdict) : o.decode true = .ok verdict := by
  have hcode : o.exitCode = 0 := by
    by_contra hne
    simp [decode, output_of_exit_ne hne, bind, Except.bind] at h
  rcases decode_of_exit_zero hcode with ⟨text, -, ht, -⟩ | ⟨defect, hd⟩
  · rw [decode_of_encode hcode ht] at h
    split at h
    · next hword =>
      simpa [decode, output_of_encode hcode ht, hword, bind, Except.bind, pure, Except.pure] using h
    · cases hp : parseList (Text.trim text) with
      | error f => simp [hp] at h
      | ok values =>
        obtain ⟨cs, hcs⟩ := bracket_of_parseList hp
        rw [hp] at h
        rw [hcs] at hp
        exact (decode_of_bracket true hcode ht hcs hp).trans h
  · rw [hd] at h
    cases h

theorem decode_of_output_error {o : Outcome} {failure : Failure} (h : o.output = .error failure)
    (skip : Bool) : o.decode skip = .error failure := by
  simp [decode, h, bind, Except.bind]

/-- A failure that is not about the content of the text comes from having no text. -/
theorem output_eq_error_of_decode {o : Outcome} {failure : Failure}
    (h : o.decode false = .error failure)
    (hcontent : ∀ payload fault quoted, failure ≠ .output (.notIssues payload fault) quoted) :
    o.output = .error failure := by
  cases hout : o.output with
  | error e =>
    have hsame := (decode_of_output_error hout false).symm.trans h
    rw [Except.error.inj hsame]
  | ok text =>
    simp only [decode, hout, bind, Except.bind, payload?, Bool.false_eq_true, if_false,
      beq_iff_eq] at h
    split at h
    · cases h
    · cases hp : parseList (Text.trim text) with
      | ok values =>
        rw [hp] at h
        cases h
      | error f =>
        rw [hp] at h
        exact absurd (Except.error.inj h).symm (hcontent _ _ _)

/-- Skipping a preamble extends the protocol and removes nothing but the preamble. Verdicts stay,
and so do failures of a process that did not end well or wrote no text; and text without a bracket
in front of text with one changes neither the issues nor what is wrong with them. -/
theorem decode_skipping_preamble :
    (∀ o : Outcome,
      (∀ verdict, o.decode false = .ok verdict → o.decode true = .ok verdict) ∧
      (∀ code stderr, o.decode false = .error (.exit code stderr) →
        o.decode true = .error (.exit code stderr)) ∧
      (∀ defect quoted, o.decode false = .error (.output (.notUtf8 defect) quoted) →
        o.decode true = .error (.output (.notUtf8 defect) quoted))) ∧
    ∀ (preamble text : String) (stderr : Bytes), '[' ∉ preamble.toList → '[' ∈ text.toList →
      (∃ found,
        decode true ⟨0, Bytes.ofString (preamble ++ text), stderr⟩ = .ok (.issues found) ∧
        decode true ⟨0, Bytes.ofString text, stderr⟩ = .ok (.issues found)) ∨
      ∃ defect quoted quoted',
        decode true ⟨0, Bytes.ofString (preamble ++ text), stderr⟩ =
          .error (.output defect quoted) ∧
        decode true ⟨0, Bytes.ofString text, stderr⟩ = .error (.output defect quoted') := by
  refine ⟨fun o => ⟨fun verdict => decode_true_of_verdict, fun code stderr h => ?_,
    fun defect quoted h => ?_⟩, fun preamble text stderr hpreamble htext => ?_⟩
  · exact decode_of_output_error (output_eq_error_of_decode h (by simp)) true
  · exact decode_of_output_error (output_eq_error_of_decode h (by simp)) true
  · obtain ⟨front, rest, hsplit, hfront⟩ := List.eq_append_cons_of_mem htext
    have hboth : '[' ∉ preamble.toList ++ front := by simp [hpreamble, hfront]
    have hshort := decode_skipping (o := ⟨0, Bytes.ofString text, stderr⟩) rfl
      (by rw [Bytes.ofString, hsplit]) hfront
    have hlong := decode_skipping (o := ⟨0, Bytes.ofString (preamble ++ text), stderr⟩) rfl
      (by rw [Bytes.ofString, String.toList_append, hsplit, List.append_assoc]) hboth
    cases hp : parseList ('[' :: Text.trimEnd rest) with
    | ok values =>
      rw [hp] at hshort hlong
      exact Or.inl ⟨_, hlong, hshort⟩
    | error f =>
      rw [hp] at hshort hlong
      exact Or.inr ⟨_, _, _, hlong, hshort⟩

def twoIssues : List Value := [.object [("line", .number "1")], .number "7"]

def twoIssuesText : String := "[\x7b\"line\":1\x7d,7] \n"

theorem decode_skipping_preamble_build :
    decode false ⟨0, Bytes.ofString twoIssuesText, []⟩ = .ok (.issues (twoIssues.map Issue.mk)) ∧
      decode true ⟨0, Bytes.ofString twoIssuesText, []⟩ = .ok (.issues (twoIssues.map Issue.mk)) ∧
      '[' ∉ "Building...\n".toList ∧ '[' ∈ twoIssuesText.toList ∧
      decode true ⟨0, Bytes.ofString ("Building...\n" ++ twoIssuesText), []⟩ =
        .ok (.issues (twoIssues.map Issue.mk)) := by
  have hstorable : StorableItems twoIssues :=
    ⟨⟨by decide, by decide, ⟨by decide, by decide⟩, trivial⟩, ⟨by decide, by decide⟩, trivial⟩
  have hblanks : ∀ c ∈ [' ', '\n'], Text.isBlank c = true := List.all_eq_true.mp (by decide)
  have hstrict : decode false ⟨0, Bytes.ofString twoIssuesText, []⟩ =
      .ok (.issues (twoIssues.map Issue.mk)) :=
    decode_of_treeText false hstorable (by decide)
      (compact_text blanks_nil (.array twoIssues) hstorable) hblanks []
  have hlenient := (decode_skipping_preamble.1 _).1 _ hstrict
  have hpreamble : '[' ∉ "Building...\n".toList := by decide
  have htext : '[' ∈ twoIssuesText.toList := by decide
  refine ⟨hstrict, hlenient, hpreamble, htext, ?_⟩
  rcases decode_skipping_preamble.2 _ _ [] hpreamble htext with ⟨found, hlong, hshort⟩ |
    ⟨_, _, _, -, hshort⟩
  · rw [hlong, ← hshort, hlenient]
  · rw [hlenient] at hshort
    cases hshort

end Outcome
end LintRelay
