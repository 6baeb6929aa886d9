import LintRelay.Proofs.Json.Printer
import LintRelay.Report
import Mathlib.Data.List.Basic
/-! The lines of a report. A value on one line has no line break in it, whatever its strings hold;
so an issue without a message stays on its line. Severity and message are shown as they came, and
each line break in them starts one line more. -/
namespace LintRelay

def Text.lines (s : String) : List String := (s.toList.splitOn '\n').map String.ofList

theorem Text.lines_append (s t : String) : lines (s ++ "\n" ++ t) = lines s ++ lines t := by
  rw [lines, String.toList_append, String.toList_append, List.append_assoc]
  exact (congrArg (List.map String.ofList) (List.splitOn_append_cons_self _ _)).trans
    List.map_append

theorem Text.lines_of_not_mem {s : String} (h : '\n' ∉ s.toList) : lines s = [s] := by
  simp [lines, List.splitOn_eq_singleton h]

theorem Text.length_lines (s : String) : (lines s).length = s.toList.count '\n' + 1 := by
  rw [lines, List.length_map]
  induction s.toList with
  | nil => rfl
  | cons c cs ih =>
    rw [List.splitOn_cons_eq_if_modifyHead, List.count_cons]
    split
    · rw [List.length_cons, ih]
    · rw [List.length_modifyHead, ih]

namespace Json

/-! ### Values on one line -/

theorem newline_not_mem_of_numberText {token : List Char} (h : NumberText token) :
    '\n' ∉ token := by
  have hdigit : ∀ {ds : List Char}, (∀ d ∈ ds, d.isDigit = true) → '\n' ∉ ds := by
    intro ds hds hmem
    exact absurd (hds '\n' hmem) (by decide)
  have hwhole : ∀ {w : List Char}, WholeText w → '\n' ∉ w := by
    intro w hw
    cases hw with
    | zero => decide
    | digits hd _ hds => exact hdigit (List.forall_mem_cons.mpr ⟨hd, hds⟩)
  have hfraction : ∀ {f : List Char}, FractionText f → '\n' ∉ f := by
    intro f hf
    cases hf with
    | absent => decide
    | present hds => exact List.not_mem_cons_of_ne_of_not_mem (by decide) (hdigit hds.2)
  have hexponent : ∀ {x : List Char}, ExponentText x → '\n' ∉ x := by
    intro x hx
    cases hx with
    | absent => decide
    | unsigned he hds =>
      exact List.not_mem_cons_of_ne_of_not_mem (by rcases he with rfl | rfl <;> decide)
        (hdigit hds.2)
    | signed he hs hds =>
      refine List.not_mem_cons_of_ne_of_not_mem (by rcases he with rfl | rfl <;> decide) ?_
      exact List.not_mem_cons_of_ne_of_not_mem (by rcases hs with rfl | rfl <;> decide)
        (hdigit hds.2)
  cases h with
  | positive hw hf hx => simp [hwhole hw, hfraction hf, hexponent hx]
  | negative hw hf hx => simp [hwhole hw, hfraction hf, hexponent hx]

/-- Line breaks inside a string are escaped. -/
theorem newline_not_mem_writeString (s : String) : '\n' ∉ writeString s := by
  have hchar : ∀ c, '\n' ∉ writeChar c := by
    refine forall_char_of_low (by decide) fun c hc => ?_
    rw [← Mark.text_ofChar]
    rcases Mark.ofChar_high hc with ⟨-, h⟩ | ⟨-, h⟩ | ⟨-, -, h⟩
    · rw [h]; decide
    · rw [h]; decide
    · rw [h, Mark.text, List.mem_singleton]
      rintro rfl
      exact absurd hc (by decide)
  have hchars : '\n' ∉ s.toList.flatMap writeChar := by
    rw [List.mem_flatMap]
    rintro ⟨c, -, hc⟩
    exact hchar c hc
  simp [writeString, hchars]

namespace Value

mutual

theorem newline_not_mem_compact (v : Value) (h : v.Tokens) : '\n' ∉ v.compact := by
  match v with
  | .null => decide
  | .bool true => decide
  | .bool false => decide
  | .number _ => exact newline_not_mem_of_numberText h
  | .string s => exact newline_not_mem_writeString s
  | .array items =>
    have hitems := newline_not_mem_compactItems items h
    simp [compact, hitems]
  | .object members =>
    have hmembers := newline_not_mem_compactMembers members h
    simp [compact, hmembers]

theorem newline_not_mem_compactItems (vs : List Value) (h : TokensItems vs) :
    '\n' ∉ compactItems vs := by
  match vs with
  | [] => decide
  | [v] => exact newline_not_mem_compact v h.1
  | v :: w :: vs =>
    have hhead := newline_not_mem_compact v h.1
    have htail := newline_not_mem_compactItems (w :: vs) h.2
    simp [compactItems, hhead, htail]

theorem newline_not_mem_compactMembers (ms : List (String × Value)) (h : TokensMembers ms) :
    '\n' ∉ compactMembers ms := by
  match ms with
  | [] => decide
  | [(k, v)] =>
    have hkey := newline_not_mem_writeString k
    have hvalue := newline_not_mem_compact v h.1
    simp [compactMembers, hkey, hvalue]
  | (k, v) :: m :: ms =>
    have hkey := newline_not_mem_writeString k
    have hvalue := newline_not_mem_compact v h.1
    have htail := newline_not_mem_compactMembers (m :: ms) h.2
    simp [compactMembers, hkey, hvalue, htail]

end

end Value
end Json

/-! ### Issues and reports -/

/-- What an issue shows as it came: its severity and its message. -/
def Issue.quoted (i : Issue) : List Char :=
  (i.severity?.getD "").toList ++ (i.message?.getD "").toList

theorem newline_not_mem_toDigits (n : Nat) : '\n' ∉ Nat.toDigits 10 n := by
  intro hmem
  exact absurd (Nat.isDigit_of_mem_toDigits (by decide) (by decide) hmem) (by decide)

theorem newline_not_mem_positionText (line column : Option Nat) :
    '\n' ∉ (positionText line column).toList := by
  cases line <;> cases column <;> simp [positionText, newline_not_mem_toDigits]

theorem Issue.newline_not_mem_position (i : Issue) : '\n' ∉ i.position.toList := by
  have hstart := newline_not_mem_positionText i.line? i.column?
  have hend := newline_not_mem_positionText i.endLine? i.endColumn?
  rw [position]
  split <;> simp [hstart, hend]

/-- The line breaks of an issue are those of its severity and its message. -/
theorem Issue.count_summary {i : Issue} (h : i.value.Tokens) :
    i.summary.toList.count '\n' = i.quoted.count '\n' := by
  have hposition := List.count_eq_zero.mpr i.newline_not_mem_position
  have hvalue := List.count_eq_zero.mpr (i.value.newline_not_mem_compact h)
  cases hs : i.severity? <;> cases hm : i.message? <;>
    simp [summary, quoted, Json.Value.compactText, hs, hm, hposition, hvalue, List.count_append]

theorem lines_foldl (issues : List Issue) (text : String) :
    Text.lines (issues.foldl (fun text i => text ++ "\n   " ++ i.summary) text) =
      Text.lines text ++ issues.flatMap fun i => Text.lines ("   " ++ i.summary) := by
  induction issues generalizing text with
  | nil => simp
  | cons i issues ih =>
    have hstart : text ++ "\n   " ++ i.summary = text ++ "\n" ++ ("   " ++ i.summary) := by
      simp [String.ext_iff]
    rw [List.foldl_cons, ih, hstart, Text.lines_append, List.append_assoc, List.flatMap_cons]

def heading (target : String) (count : Nat) : String :=
  "📄 " ++ target ++ ": " ++ toString count ++ " issue(s)"

theorem newline_not_mem_heading {target : String} (h : '\n' ∉ target.toList) (count : Nat) :
    '\n' ∉ (heading target count).toList := by
  simp [heading, h, newline_not_mem_toDigits]

/-- The heading, and then each issue from the start of a line on. -/
theorem lines_report_eq {target : String} (htarget : '\n' ∉ target.toList) {issues : List Issue}
    (hissues : issues ≠ []) :
    Text.lines (report target issues) =
      heading target issues.length :: issues.flatMap fun i => Text.lines ("   " ++ i.summary) := by
  have hreport : report target issues =
      issues.foldl (fun text i => text ++ "\n   " ++ i.summary) (heading target issues.length) := by
    simp [report, heading, hissues]
  rw [hreport, lines_foldl, Text.lines_of_not_mem (newline_not_mem_heading htarget _)]
  rfl

theorem length_lines_summary {i : Issue} (h : i.value.Tokens) :
    (Text.lines ("   " ++ i.summary)).length = 1 + i.quoted.count '\n' := by
  rw [Text.length_lines, ← i.count_summary h]
  simp [Nat.add_comm]

theorem length_flatMap_lines {issues : List Issue} (h : ∀ i ∈ issues, i.value.Tokens) :
    (issues.flatMap fun i => Text.lines ("   " ++ i.summary)).length =
      issues.length + (issues.flatMap Issue.quoted).count '\n' := by
  induction issues with
  | nil => rfl
  | cons i issues ih =>
    obtain ⟨hi, hrest⟩ := List.forall_mem_cons.mp h
    simp only [List.flatMap_cons, List.length_append, List.count_append, List.length_cons,
      length_lines_summary hi, ih hrest]
    omega

theorem lines_summary {i : Issue} (h : i.value.Tokens) (hquoted : '\n' ∉ i.quoted) :
    Text.lines ("   " ++ i.summary) = ["   " ++ i.summary] := by
  have hsummary : '\n' ∉ i.summary.toList := by
    rw [← List.count_eq_zero, i.count_summary h, List.count_eq_zero]
    exact hquoted
  exact Text.lines_of_not_mem (by simp [hsummary])

/-- A report has a line for its heading, one for each issue, and one more for each line break in the
severities and messages that it shows. So it has one line for each issue exactly if there is no line
break in those. -/
theorem lines_report {target : String} (htarget : '\n' ∉ target.toList) {issues : List Issue}
    (hissues : issues ≠ []) (htokens : ∀ i ∈ issues, i.value.Tokens) :
    (Text.lines (report target issues)).length =
        1 + issues.length + (issues.flatMap Issue.quoted).count '\n' ∧
      (Text.lines (report target issues) =
          heading target issues.length :: issues.map (fun i => "   " ++ i.summary) ↔
        ∀ i ∈ issues, '\n' ∉ i.quoted) := by
  have hlength : (Text.lines (report target issues)).length =
      1 + issues.length + (issues.flatMap Issue.quoted).count '\n' := by
    rw [lines_report_eq htarget hissues, List.length_cons, length_flatMap_lines htokens]
    omega
  refine ⟨hlength, fun hlines i hi hbreak => ?_, fun hquoted => ?_⟩
  · rw [hlines, List.length_cons, List.length_map] at hlength
    have hnone : (issues.flatMap Issue.quoted).count '\n' = 0 := by omega
    exact List.count_eq_zero.mp hnone (List.mem_flatMap.mpr ⟨i, hi, hbreak⟩)
  · have hone : issues.flatMap (fun i => Text.lines ("   " ++ i.summary)) =
        issues.map fun i => "   " ++ i.summary := by
      rw [List.map_eq_flatMap]
      exact List.flatMap_congr fun i hi => lines_summary (htokens i hi) (hquoted i hi)
    rw [lines_report_eq htarget hissues, hone]

/-- An issue without a message, with line breaks in a key and in a string. -/
def unnamed : Issue := ⟨.object [("a\nb", .string "c\nd"), ("line", .number "3")]⟩

def twoLines : Issue := ⟨.object [("message", .string "a\nb")]⟩

theorem lines_report_unnamed :
    (∀ i ∈ [unnamed, twoLines], i.value.Tokens) ∧
      (Text.lines (report "F.cs" [unnamed, twoLines])).length = 4 ∧
      Text.lines (report "F.cs" [unnamed]) =
        ["📄 F.cs: 1 issue(s)", "   3:- - \x7b\"a\\nb\":\"c\\nd\",\"line\":3\x7d"] := by
  have htarget : '\n' ∉ "F.cs".toList := by decide
  have hthree : Json.NumberText "3".toList := by decide
  have hunnamed : unnamed.value.Tokens := ⟨trivial, hthree, trivial⟩
  have htokens : ∀ i ∈ [unnamed, twoLines], i.value.Tokens := by
    simp [hunnamed, show twoLines.value.Tokens from ⟨trivial, trivial⟩]
  refine ⟨htokens, (lines_report htarget (by simp) htokens).1, ?_⟩
  exact (lines_report htarget (by simp) (by simpa using hunnamed)).2.mpr (by decide)

theorem report_message_broken :
    '\n' ∉ "F.cs".toList ∧ twoLines.value.Tokens ∧
      Text.lines (report "F.cs" [twoLines]) = ["📄 F.cs: 1 issue(s)", "   -:- - a", "b"] :=
  ⟨by decide, ⟨trivial, trivial⟩, by decide⟩

end LintRelay
