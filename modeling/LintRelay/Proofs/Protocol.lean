import LintRelay.Outcome
import LintRelay.Proofs.Json.Reader
import LintRelay.Proofs.Utf8
/-! The analyzer protocol: what each outcome of a process is read as. The exit code comes first, then
the word for failure, then the array of issues; whatever is none of these breaks the protocol. -/
namespace LintRelay
namespace Outcome

open Json

theorem output_of_exit_ne {o : Outcome} (h : o.exitCode ≠ 0) :
    o.output = .error (.exit o.exitCode o.stderr.display) := by
  simp [output, success, h]

theorem output_of_encode {o : Outcome} (h : o.exitCode = 0) {text : List Char}
    (ht : o.stdout = Utf8.encode text) : o.output = .ok text := by
  simp [output, success, h, ht, Utf8.decode_encode]

theorem output_of_not_text {o : Outcome} (h : o.exitCode = 0)
    (ht : ∀ text, o.stdout ≠ Utf8.encode text) :
    ∃ d, o.output = .error (.output (.notUtf8 d) (snippet (Utf8.lossy o.stdout))) := by
  obtain ⟨d, hd⟩ := Utf8.decode_eq_error_of_forall_ne ht
  exact ⟨d, by simp [output, success, h, hd]⟩

/-- Output that is text gives a verdict by what is left of it between its blanks. -/
theorem decode_of_encode {o : Outcome} (h : o.exitCode = 0) {text : List Char}
    (ht : o.stdout = Utf8.encode text) :
    o.decode false =
      if Text.trim text = failureWord then .ok .analysisFailed
      else
        match parseList (Text.trim text) with
        | .ok values => .ok (.issues (values.map Issue.mk))
        | .error f => .error (.output (.notIssues (Text.trim text) f) (snippet text)) := by
  simp only [decode, output_of_encode h ht, bind, Except.bind, payload?, Bool.false_eq_true, if_false,
    beq_iff_eq]
  split
  · rfl
  · cases parseList (Text.trim text) <;> rfl

theorem not_parseList_failureWord {values : List Value} : parseList failureWord ≠ .ok values := by
  have hrefused : (parseList failureWord).toOption = none := by decide
  intro h
  simp [h] at hrefused

theorem map_mk_eq_iff {values : List Value} {found : List Issue} :
    values.map Issue.mk = found ↔ values = found.map Issue.value := by
  constructor
  · rintro rfl
    simp [Function.comp_def]
  · rintro rfl
    simp [Function.comp_def]

theorem decode_eq_analysisFailed_iff {o : Outcome} (h : o.exitCode = 0) {text : List Char}
    (ht : o.stdout = Utf8.encode text) :
    o.decode false = .ok .analysisFailed ↔ Text.trim text = failureWord := by
  rw [decode_of_encode h ht]
  split
  · next heq => simp [heq]
  · next hne => cases parseList (Text.trim text) <;> simp [hne]

theorem decode_eq_issues_iff_parseList {o : Outcome} (h : o.exitCode = 0) {text : List Char}
    (ht : o.stdout = Utf8.encode text) (found : List Issue) :
    o.decode false = .ok (.issues found) ↔
      parseList (Text.trim text) = .ok (found.map Issue.value) := by
  rw [decode_of_encode h ht]
  split
  · next heq =>
    rw [heq]
    simp [not_parseList_failureWord]
  · cases parseList (Text.trim text) with
    | error f => simp
    | ok values => simp [map_mk_eq_iff]

theorem decode_eq_exact_iff_faithful {o : Outcome} (h : o.exitCode = 0) {text : List Char}
    (ht : o.stdout = Utf8.encode text) {items : List Tree} {values : List Value}
    (hitems : ArrayText Blanks items (Text.trim text))
    (hdepth : (Tree.array items).depth ≤ maxDepth) (hvalues : itemValues? .exact items = some values) :
    o.decode false = .ok (.issues (values.map Issue.mk)) ↔ FaithfulItems items := by
  have hread := parseList_text hitems
  rw [if_pos hdepth] at hread
  rw [decode_eq_issues_iff_parseList h ht, ← map_mk_eq_iff.mp (Eq.refl (values.map Issue.mk)),
    ← itemValues_stored_iff_faithful items hvalues, ← hread]
  cases parseList (Text.trim text) <;> simp

/-- A process that ended well is read as a verdict, or else its output is quoted in a failure. -/
theorem decode_of_exit_zero {o : Outcome} (h : o.exitCode = 0) :
    (∃ text verdict, o.stdout = Utf8.encode text ∧ o.decode false = .ok verdict) ∨
      ∃ defect, o.decode false =
        .error (.output defect (String.ofList ((Utf8.lossy o.stdout).take 256))) := by
  by_cases htext : ∃ text, o.stdout = Utf8.encode text
  · obtain ⟨text, ht⟩ := htext
    have hlossy : Utf8.lossy o.stdout = text := by rw [ht, Utf8.lossy_encode]
    cases hd : o.decode false with
    | ok verdict => exact Or.inl ⟨text, verdict, ht, rfl⟩
    | error e =>
      rw [decode_of_encode h ht] at hd
      split at hd
      · simp at hd
      · cases hp : parseList (Text.trim text) with
        | ok values => simp [hp] at hd
        | error f =>
          rw [hp] at hd
          obtain rfl := Except.error.inj hd
          exact Or.inr ⟨_, by rw [hlossy]; rfl⟩
  · obtain ⟨d, hd⟩ := output_of_not_text h (fun text ht => htext ⟨text, ht⟩)
    exact Or.inr ⟨.notUtf8 d, by simp [decode, hd, bind, Except.bind, snippet, snippetLength]⟩

/-- The protocol. A process that failed is a failure with its code and all it wrote to stderr. Of
one that ended well, text that is the word for failure between blanks says so, and text of an array
not too deep between blanks gives the stored values of its items; these are the exact values if and
only if the items are faithful. Everything else is a failure that quotes the output. -/
theorem decode_follows_protocol (o : Outcome) :
    (o.exitCode ≠ 0 →
      o.decode false = .error (.exit o.exitCode (String.ofList (Utf8.lossy o.stderr)))) ∧
    (o.exitCode = 0 → ∀ text, o.stdout = Utf8.encode text →
      (o.decode false = .ok .analysisFailed ↔ Text.trim text = ['e', 'r', 'r']) ∧
      (∀ found, o.decode false = .ok (.issues found) ↔
        ∃ items, ArrayText Blanks items (Text.trim text) ∧ (Tree.array items).depth ≤ 127 ∧
          itemValues? .stored items = some (found.map Issue.value)) ∧
      (∀ items values, ArrayText Blanks items (Text.trim text) → (Tree.array items).depth ≤ 127 →
        itemValues? .exact items = some values →
        (o.decode false = .ok (.issues (values.map Issue.mk)) ↔ FaithfulItems items))) ∧
    (o.exitCode = 0 →
      (∃ text verdict, o.stdout = Utf8.encode text ∧ o.decode false = .ok verdict) ∨
      ∃ defect, o.decode false =
        .error (.output defect (String.ofList ((Utf8.lossy o.stdout).take 256)))) := by
  refine ⟨fun h => ?_, fun h text ht => ⟨?_, ?_, ?_⟩, decode_of_exit_zero⟩
  · simp [decode, output_of_exit_ne h, bind, Except.bind, Bytes.display]
  · exact decode_eq_analysisFailed_iff h ht
  · intro found
    rw [decode_eq_issues_iff_parseList h ht, parseList_eq_ok_iff]
    rfl
  · intro items values hitems hdepth hvalues
    exact decode_eq_exact_iff_faithful h ht hitems hdepth hvalues

/-- An array of one object whose only member is a number under the number key. -/
def numberKeyText : List Char := ("[\x7b\"" ++ numberKey ++ "\":5\x7d]").toList

/-- The text is an array in the grammar, yet its exact value is not what is read. -/
theorem decode_numberKey_not_exact :
    ∃ items values, ArrayText Blanks items (Text.trim numberKeyText) ∧
      (Tree.array items).depth ≤ 127 ∧ itemValues? .exact items = some values ∧
      Outcome.decode false ⟨0, Utf8.encode numberKeyText, []⟩ ≠
        .ok (.issues (values.map Issue.mk)) := by
  let key := numberKey.toList.map Mark.plain
  let items := [Tree.object [(key, .number ['5'])]]
  have hkey : ∀ m ∈ key, m.Valid := by
    intro m hm
    obtain ⟨c, hc, rfl⟩ := List.mem_map.mp hm
    have hplain : (numberKey.toList.all fun d =>
        decide (0x20 ≤ d.toNat ∧ d ≠ '"' ∧ d ≠ '\\')) = true := by decide
    exact of_decide_eq_true (List.all_eq_true.mp hplain c hc)
  have hfive : NumberText ['5'] := by decide
  have hobject : ValueText Blanks (.object [(key, .number ['5'])]) _ :=
    .object (.one blanks_nil hkey blanks_nil blanks_nil (.number hfive) blanks_nil)
  have hitems : ArrayText Blanks items (Text.trim numberKeyText) :=
    ⟨[], _, [], blanks_nil, .array (.one blanks_nil hobject blanks_nil), blanks_nil, by decide⟩
  have hvalues : itemValues? .exact items = some [.object [(numberKey, .number "5")]] := by
    rfl
  refine ⟨items, _, hitems, by decide, hvalues, fun h => ?_⟩
  have hfaithful := (decode_eq_exact_iff_faithful rfl rfl hitems (by decide) hvalues).mp h
  exact absurd hfaithful.1.1 (by decide)

end Outcome
end LintRelay
