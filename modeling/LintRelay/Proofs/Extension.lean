import LintRelay.Extension
import LintRelay.Proofs.General
import LintRelay.Proofs.Lowercase
/-! The form in which extensions are compared. It is not final in general: a dot in front may hide
blanks and more dots. On a text without dots, such as the extension of a path, it is. -/
namespace LintRelay
namespace Text

/-- Texts with no blank at either end. -/
structure Trimmed (cs : List Char) : Prop where
  first : ∀ c, cs.head? = some c → isBlank c = false
  last : ∀ c, cs.getLast? = some c → isBlank c = false

theorem dropWhile_isBlank_of_first {cs : List Char}
    (h : ∀ c, cs.head? = some c → isBlank c = false) : cs.dropWhile isBlank = cs := by
  cases cs with
  | nil => rfl
  | cons c cs => simp [h c rfl]

theorem trimEnd_of_last {cs : List Char}
    (h : ∀ c, cs.getLast? = some c → isBlank c = false) : trimEnd cs = cs := by
  have hend : cs.reverse.dropWhile isBlank = cs.reverse :=
    dropWhile_isBlank_of_first (by simpa using h)
  rw [trimEnd, hend, List.reverse_reverse]

theorem Trimmed.trim_eq {cs : List Char} (h : Trimmed cs) : trim cs = cs := by
  have hstart : trimStart cs = cs := dropWhile_isBlank_of_first h.first
  rw [trim, hstart, trimEnd_of_last h.last]

theorem first_dropWhile_isBlank (cs : List Char) (c : Char)
    (h : (cs.dropWhile isBlank).head? = some c) : isBlank c = false := by
  have hfirst := List.head?_dropWhile_not isBlank cs
  rw [h] at hfirst
  simpa using hfirst

theorem exists_trimEnd_append (cs : List Char) : ∃ w, cs = trimEnd cs ++ w := by
  refine ⟨(cs.reverse.takeWhile isBlank).reverse, ?_⟩
  rw [trimEnd, ← List.reverse_append, List.takeWhile_append_dropWhile, List.reverse_reverse]

theorem trimmed_trim (cs : List Char) : Trimmed (trim cs) := by
  constructor
  · intro c hc
    obtain ⟨w, hw⟩ := exists_trimEnd_append (trimStart cs)
    apply first_dropWhile_isBlank cs c
    change (trimStart cs).head? = some c
    rw [hw, List.head?_append, ← trim, hc]
    rfl
  · intro c hc
    apply first_dropWhile_isBlank (trimStart cs).reverse c
    simpa [trim, trimEnd] using hc

theorem trim_append_cons {b : Char} (hb : isBlank b = false) (front rest : List Char) :
    trim (front ++ b :: rest) = trimStart front ++ b :: trimEnd rest := by
  have hend : (trimStart front ++ b :: rest).reverse.dropWhile isBlank =
      rest.reverse.dropWhile isBlank ++ b :: (trimStart front).reverse := by
    rw [List.reverse_append, List.reverse_cons, List.append_assoc, List.singleton_append,
      List.dropWhile_append_cons hb]
  rw [trim, trimStart, List.dropWhile_append_cons hb, ← trimStart, trimEnd, hend]
  simp [trimEnd]

theorem mem_of_mem_trim {cs : List Char} {c : Char} (h : c ∈ trim cs) : c ∈ cs := by
  have hstart : c ∈ trimStart cs := by
    obtain ⟨w, hw⟩ := exists_trimEnd_append (trimStart cs)
    rw [hw]
    exact List.mem_append_left w h
  exact (List.dropWhile_sublist isBlank).mem hstart

theorem first_lowerPieces {before cs : List Char} {d : Char}
    (h : (lowerPieces before cs).head? = some d) :
    ∃ before' c after, cs.head? = some c ∧ d ∈ lowerPiece before' c after := by
  cases cs with
  | nil => simp [lowerPieces] at h
  | cons c cs =>
    refine ⟨before, c, cs, rfl, ?_⟩
    obtain ⟨a, as, ha⟩ := List.exists_cons_of_ne_nil (lowerPiece_ne_nil before c cs)
    rw [lowerPieces, ha] at h
    rw [ha, ← Option.some.inj h]
    exact List.mem_cons_self

theorem last_lowerPieces {before cs : List Char} {d : Char}
    (h : (lowerPieces before cs).getLast? = some d) :
    ∃ before' c after, cs.getLast? = some c ∧ d ∈ lowerPiece before' c after := by
  induction cs generalizing before with
  | nil => simp [lowerPieces] at h
  | cons c cs ih =>
    cases cs with
    | nil =>
      refine ⟨before, c, [], rfl, ?_⟩
      rw [lowerPieces, lowerPieces, List.append_nil] at h
      exact List.mem_of_getLast? h
    | cons e es =>
      have hne : lowerPieces (c :: before) (e :: es) ≠ [] := by
        simp [lowerPieces, lowerPiece_ne_nil]
      rw [lowerPieces, List.getLast?_append, List.getLast?_eq_some_getLast hne, Option.some_or,
        ← List.getLast?_eq_some_getLast hne] at h
      obtain ⟨before', c', after, hc', hd⟩ := ih h
      exact ⟨before', c', after, by simpa using hc', hd⟩

/-- Lower case leaves no blank at the ends of a trimmed text. -/
theorem Trimmed.lowercaseChars {cs : List Char} (h : Trimmed cs) :
    Trimmed (lowercaseChars cs) := by
  rw [lowercaseChars_eq]
  constructor
  · intro d hd
    obtain ⟨_, c, _, hc, hpiece⟩ := first_lowerPieces hd
    exact (of_mem_lowerPiece hpiece).2.1 (h.first c hc)
  · intro d hd
    obtain ⟨_, c, _, hc, hpiece⟩ := last_lowerPieces hd
    exact (of_mem_lowerPiece hpiece).2.1 (h.last c hc)

end Text

theorem Bytes.text?_eq_some_iff {bs : Bytes} {x : String} :
    bs.text? = some x ↔ bs = Bytes.ofString x := by
  have hread : bs.text? = some x ↔ Utf8.decode bs = .ok x.toList := by
    rw [Bytes.text?]
    cases Utf8.decode bs with
    | ok cs => simp [String.ext_iff]
    | error d => simp
  rw [hread, Utf8.decode_eq_ok_iff, Bytes.ofString]

theorem Bytes.text?_ofString (x : String) : (Bytes.ofString x).text? = some x :=
  text?_eq_some_iff.mpr rfl

/-- The extension of a path is the part of its name behind the last dot. -/
theorem Path.of_extension? {p : Path} {x : Bytes} (h : p.extension? = some x) :
    dot ∉ x ∧ ∃ name, p.fileName? = some name ∧ x <:+ name := by
  simp only [extension?, Option.bind_eq_bind, Option.bind_eq_some_iff] at h
  obtain ⟨name, hname, hafter⟩ := h
  split at hafter
  · cases hafter
  · obtain rfl := Option.some.inj hafter
    refine ⟨?_, name, hname, ?_⟩
    · rw [List.mem_reverse]
      intro hmem
      simpa using List.all_eq_true.mp List.all_takeWhile _ hmem
    · have hend := (List.takeWhile_prefix (· != dot) (l := name.reverse)).reverse
      rwa [List.reverse_reverse] at hend

namespace Extension

theorem dropWhile_dot_of_not_mem {cs : List Char} (h : '.' ∉ cs) :
    (cs.dropWhile fun c => c == '.') = cs := by
  cases cs with
  | nil => rfl
  | cons c cs =>
    have hc : c ≠ '.' := by
      rintro rfl
      exact h List.mem_cons_self
    simp [hc]

theorem normalize_of_dot_not_mem {s : String} (h : '.' ∉ s.toList) :
    normalize s = String.ofList (Text.lowercaseChars (Text.trim s.toList)) := by
  rw [normalize, dropWhile_dot_of_not_mem fun hdot => h (Text.mem_of_mem_trim hdot)]

/-- A form does not start with a dot, has no blank at its end and does not change in lower case. -/
theorem normalize_spec (e : String) :
    (normalize e).toList.head? ≠ some '.' ∧
      (∀ c, (normalize e).toList.getLast? = some c → Text.isBlank c = false) ∧
      ∀ c ∈ (normalize e).toList, Text.Settled c := by
  rw [normalize, String.toList_ofList]
  refine ⟨fun hdot => ?_, fun d hd => ?_, fun _ => Text.settled_of_mem_lowercaseChars⟩
  · rw [Text.lowercaseChars_eq] at hdot
    obtain ⟨_, c, _, hc, hpiece⟩ := Text.first_lowerPieces hdot
    have hfirst := List.head?_dropWhile_not (· == '.') (Text.trim e.toList)
    rw [hc, ← (Text.of_mem_lowerPiece hpiece).2.2 (by decide)] at hfirst
    exact absurd hfirst (by decide)
  · rw [Text.lowercaseChars_eq] at hd
    obtain ⟨_, c, _, hc, hpiece⟩ := Text.last_lowerPieces hd
    have hlast : (Text.trim e.toList).getLast? = some c := by
      obtain ⟨front, hfront⟩ := List.dropWhile_suffix (l := Text.trim e.toList) (· == '.')
      rw [← hfront, List.getLast?_append, hc, Option.some_or]
    exact (Text.of_mem_lowerPiece hpiece).2.1 ((Text.trimmed_trim e.toList).last c hlast)

/-- All that a second pass does to a form is to drop blanks and then dots in front. -/
theorem toList_normalize_normalize (e : String) :
    (normalize (normalize e)).toList =
      (((normalize e).toList.dropWhile Text.isBlank).dropWhile fun c => c == '.') := by
  obtain ⟨-, hlast, hsettled⟩ := normalize_spec e
  have hsuffix := List.dropWhile_suffix (l := (normalize e).toList) Text.isBlank
  have htrim : Text.trim (normalize e).toList = (normalize e).toList.dropWhile Text.isBlank := by
    refine Text.trimEnd_of_last fun c hc => hlast c ?_
    obtain ⟨front, hfront⟩ := hsuffix
    rw [← hfront, List.getLast?_append, ← Text.trimStart, hc, Option.some_or]
  rw [normalize, String.toList_ofList, htrim]
  apply Text.lowercaseChars_of_settled
  intro c hc
  exact hsettled c (hsuffix.subset ((List.dropWhile_sublist _).subset hc))

/-- A form is its own form if and only if no blank stands in front of it. -/
theorem normalize_normalize_iff {e : String} :
    normalize (normalize e) = normalize e ↔
      (normalize e).toList.head?.any Text.isBlank = false := by
  rw [String.ext_iff, toList_normalize_normalize]
  have hdot := (normalize_spec e).1
  cases hform : (normalize e).toList with
  | nil => simp
  | cons c cs =>
    rw [hform] at hdot
    rw [List.head?_cons, Option.any_some]
    constructor
    · intro hsame
      rw [Bool.eq_false_iff]
      intro hblank
      -- With a blank in front, what is left is shorter.
      rw [List.dropWhile_cons_of_pos hblank] at hsame
      have hshorter := ((List.dropWhile_sublist (· == '.')).trans
        (List.dropWhile_sublist Text.isBlank (l := cs))).length_le
      rw [hsame, List.length_cons] at hshorter
      omega
    · intro hblank
      have hc : c ≠ '.' := by simpa using hdot
      simp [hblank, hc]

theorem head_normalize_of_dot_not_mem {s : String} (h : '.' ∉ s.toList) :
    (normalize s).toList.head?.any Text.isBlank = false := by
  rw [normalize_of_dot_not_mem h, String.toList_ofList]
  have htrimmed := (Text.trimmed_trim s.toList).lowercaseChars
  cases hfirst : (Text.lowercaseChars (Text.trim s.toList)).head? with
  | none => rfl
  | some c => exact htrimmed.first c hfirst

theorem normalize_normalize {s : String} (h : '.' ∉ s.toList) :
    normalize (normalize s) = normalize s :=
  normalize_normalize_iff.mpr (head_normalize_of_dot_not_mem h)

/-- With a dot in front, the form need not be its own form. -/
example : normalize ". .cs" = " .cs" ∧ normalize " .cs" = "cs" := by decide

theorem written?_eq_some_iff {p : Path} {x : String} :
    written? p = some x ↔ p.extension? = some (Bytes.ofString x) := by
  cases he : p.extension? with
  | none => simp [written?, he]
  | some bs => simp [written?, he, Bytes.text?_eq_some_iff]

/-- No dot is in the extension of a path. -/
theorem dot_not_mem_of_extension? {p : Path} {x : String}
    (h : p.extension? = some (Bytes.ofString x)) : '.' ∉ x.toList := by
  intro hdot
  exact (Path.of_extension? h).1 ((Utf8.mem_encode_iff (by decide)).mpr hdot)

end Extension
end LintRelay
