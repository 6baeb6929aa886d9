import LintRelay.Proofs.Json.Record
import LintRelay.Report
/-! Positions as they are shown. A dash stands for a number that is not known and it also stands
between the start and the end, yet a position can be read in one way only: in each of its parts the
first character tells a dash from a number, and no digit follows a number. The blank behind a
position then tells whether an end is shown, whatever text comes after it. -/
namespace LintRelay

open Json

/-- One part of a position: a number, or a dash where it is not known. -/
def partText : Option Nat → List Char
  | some n => Nat.toDigits 10 n
  | none => ['-']

theorem toList_positionText (line column : Option Nat) :
    (positionText line column).toList = partText line ++ ':' :: partText column := by
  cases line <;> cases column <;> simp [positionText, partText]

/-- The digits of a number end where no digit follows. -/
theorem toDigits_append_inj {n m : Nat} {s t : List Char} (hs : startsWithDigit s = false)
    (ht : startsWithDigit t = false) (h : Nat.toDigits 10 n ++ s = Nat.toDigits 10 m ++ t) :
    n = m ∧ s = t := by
  have hdigits : Nat.toDigits 10 n = Nat.toDigits 10 m := by
    rw [← takeWhile_digits (digits_toDigits n).2 hs, h, takeWhile_digits (digits_toDigits m).2 ht]
  refine ⟨?_, ?_⟩
  · rw [← digitsValue_toDigits n, hdigits, digitsValue_toDigits]
  · rw [hdigits] at h
    exact List.append_cancel_left h

theorem toDigits_append_ne_dash (n : Nat) (s t : List Char) :
    Nat.toDigits 10 n ++ s ≠ '-' :: t := by
  intro h
  have hdigit : startsWithDigit ('-' :: t) = true := by
    rw [← h]
    exact startsWithDigit_digits (digits_toDigits n) s
  have hdash : startsWithDigit ('-' :: t) = false := rfl
  rw [hdash] at hdigit
  contradiction

theorem partText_append_inj {a b : Option Nat} {s t : List Char}
    (hs : startsWithDigit s = false) (ht : startsWithDigit t = false)
    (h : partText a ++ s = partText b ++ t) : a = b ∧ s = t := by
  cases a with
  | none =>
    cases b with
    | none => exact ⟨rfl, List.append_cancel_left h⟩
    | some m => exact absurd h.symm (toDigits_append_ne_dash m t s)
  | some n =>
    cases b with
    | none => exact absurd h (toDigits_append_ne_dash n s t)
    | some m =>
      obtain ⟨hnumber, hrest⟩ := toDigits_append_inj hs ht h
      exact ⟨congrArg some hnumber, hrest⟩

theorem positionText_append_inj {line line' column column' : Option Nat} {s t : List Char}
    (hs : startsWithDigit s = false) (ht : startsWithDigit t = false)
    (h : (positionText line column).toList ++ s = (positionText line' column').toList ++ t) :
    line = line' ∧ column = column' ∧ s = t := by
  simp only [toList_positionText, List.append_assoc, List.cons_append] at h
  obtain ⟨hline, hbehind⟩ := partText_append_inj rfl rfl h
  obtain ⟨hcolumn, hrest⟩ := partText_append_inj hs ht (List.cons.inj hbehind).2
  exact ⟨hline, hcolumn, hrest⟩

namespace Issue

/-- The end of an issue as it is shown behind the start. -/
def endText (i : Issue) : List Char :=
  if i.endLine?.isSome || i.endColumn?.isSome then
    '-' :: (positionText i.endLine? i.endColumn?).toList
  else []

theorem toList_position (i : Issue) :
    i.position.toList = (positionText i.line? i.column?).toList ++ i.endText := by
  rw [position, endText]
  split <;> simp

/-- What stands behind the start, a dash or a blank, tells whether an end is shown. -/
theorem endText_append_inj {i j : Issue} {s t : List Char}
    (h : i.endText ++ ' ' :: s = j.endText ++ ' ' :: t) :
    i.endLine? = j.endLine? ∧ i.endColumn? = j.endColumn? ∧ s = t := by
  rw [endText, endText] at h
  split at h <;> split at h
  · obtain ⟨hline, hcolumn, hrest⟩ := positionText_append_inj rfl rfl (List.cons.inj h).2
    exact ⟨hline, hcolumn, (List.cons.inj hrest).2⟩
  · exact absurd (List.cons.inj h).1 (by decide)
  · exact absurd (List.cons.inj h).1 (by decide)
  · next hi hj =>
    simp only [Bool.or_eq_true, not_or, Bool.not_eq_true, Option.isSome_eq_false_iff,
      Option.isNone_iff_eq_none] at hi hj
    exact ⟨hi.1.trans hj.1.symm, hi.2.trans hj.2.symm, (List.cons.inj h).2⟩

theorem startsWithDigit_endText (i : Issue) (s : List Char) :
    startsWithDigit (i.endText ++ ' ' :: s) = false := by
  rw [endText]
  split <;> rfl

/-- Issues that are shown alike lie at the same place: the numbers of start and end are the same,
and the same of them are missing. -/
theorem place_of_summary_eq {i j : Issue} (h : i.summary = j.summary) :
    i.line? = j.line? ∧ i.column? = j.column? ∧ i.endLine? = j.endLine? ∧
      i.endColumn? = j.endColumn? := by
  have hchars := congrArg String.toList h
  simp only [summary, String.toList_append, toList_position, List.append_assoc] at hchars
  obtain ⟨hline, hcolumn, hbehind⟩ := positionText_append_inj (startsWithDigit_endText i _)
    (startsWithDigit_endText j _) hchars
  obtain ⟨hendLine, hendColumn, -⟩ := endText_append_inj hbehind
  exact ⟨hline, hcolumn, hendLine, hendColumn⟩

def nesting : Issue :=
  ⟨.object [("Message", .string "deep nesting"), ("Line", .number "2"), ("EndLine", .number "9")]⟩

/-- The same place and the same message in other words: the severity is a dash, and the column is no
number. -/
def nestingAgain : Issue :=
  ⟨.object [("severity", .string "-"), ("end_line", .number "9"), ("column", .string "7"),
    ("line", .number "2"), ("message", .string "deep nesting")]⟩

theorem place_of_summary_eq_nesting :
    nesting.summary = "2:--9:- - deep nesting" ∧ nesting.summary = nestingAgain.summary ∧
      nesting.line? = nestingAgain.line? ∧ nesting.column? = nestingAgain.column? ∧
      nesting.endLine? = nestingAgain.endLine? ∧ nesting.endColumn? = nestingAgain.endColumn? := by
  have hsame : nesting.summary = nestingAgain.summary := by decide
  exact ⟨by decide, hsame, place_of_summary_eq hsame⟩

end Issue
end LintRelay
