import LintRelay.Lint
import LintRelay.Proofs.Json.Canonical
import LintRelay.Proofs.Protocol
/-! Issues that were read, written and read again. Whatever was read as issues is read back
unchanged from either way of writing it, and from the file of issues. A canonical text comes back
as it was if and only if its numbers are kept as they stand and no object is taken for a number. -/
namespace LintRelay
namespace Outcome

open Json

theorem trim_brackets (m : List Char) {w : List Char} (hw : ∀ c ∈ w, Text.isBlank c = true) :
    Text.trim ('[' :: (m ++ ']' :: w)) = '[' :: (m ++ [']']) := by
  have hstart : Text.trimStart ('[' :: (m ++ ']' :: w)) = '[' :: (m ++ ']' :: w) := by
    simp [Text.trimStart, show Text.isBlank '[' = false by decide]
  have hend : (w.reverse ++ (']' :: (m.reverse ++ ['[']))).dropWhile Text.isBlank =
      ']' :: (m.reverse ++ ['[']) := by
    rw [List.dropWhile_append_of_pos (by simpa using hw)]
    simp [show Text.isBlank ']' = false by decide]
  rw [Text.trim, hstart, Text.trimEnd]
  simp only [List.reverse_cons, List.reverse_append, List.append_assoc, List.cons_append,
    List.nil_append] at hend ⊢
  rw [hend]
  simp

theorem decode_of_payload {skip : Bool} {o : Outcome} (h : o.exitCode = 0) {text payload : List Char}
    (ht : o.stdout = Utf8.encode text) (hword : Text.trim text ≠ failureWord)
    (hpayload : payload? skip (Text.trim text) = some payload) {values : List Value}
    (hp : parseList payload = .ok values) :
    o.decode skip = .ok (.issues (values.map Issue.mk)) := by
  simp [decode, output_of_encode h ht, hword, hpayload, hp, bind, Except.bind, pure, Except.pure]

/-- Text of an array is read alike whether or not a preamble may be skipped. -/
theorem decode_of_bracket (skip : Bool) {o : Outcome} (h : o.exitCode = 0) {text cs : List Char}
    (ht : o.stdout = Utf8.encode text) (htrim : Text.trim text = '[' :: cs)
    {values : List Value} (hp : parseList ('[' :: cs) = .ok values) :
    o.decode skip = .ok (.issues (values.map Issue.mk)) := by
  have hpayload : payload? skip (Text.trim text) = some ('[' :: cs) := by
    cases skip <;> simp [htrim, payload?]
  have hword : Text.trim text ≠ failureWord := by
    simp [htrim, failureWord]
  exact decode_of_payload h ht hword hpayload hp

theorem parseList_of_decode_issues {skip : Bool} {o : Outcome} {found : List Issue}
    (h : o.decode skip = .ok (.issues found)) :
    ∃ t, parseList t = .ok (found.map Issue.value) := by
  obtain ⟨text, -, hverdict⟩ := Except.bind_eq_ok.mp h
  dsimp only at hverdict
  split at hverdict
  · simp [pure, Except.pure] at hverdict
  · split at hverdict
    · simp [throw, throwThe, MonadExceptOf.throw] at hverdict
    · next payload _ =>
      split at hverdict
      · next values hp =>
        obtain rfl : values.map Issue.mk = found := by simpa [pure, Except.pure] using hverdict
        exact ⟨payload, by rw [hp, ← map_mk_eq_iff.mp (Eq.refl (values.map Issue.mk))]⟩
      · simp [throw, throwThe, MonadExceptOf.throw] at hverdict

theorem storable_of_parseList {t : List Char} {values : List Value}
    (h : parseList t = .ok values) :
    StorableItems values ∧ (Tree.array (treesOf values)).depth ≤ maxDepth := by
  obtain ⟨items, ⟨a, s, b, -, hs, -, -⟩, hdepth, hvalues⟩ := parseList_eq_ok_iff.mp h
  have hvalue : (Tree.array items).value? .stored = some (.array values) := by
    simp [Tree.value?, hvalues]
  obtain ⟨hstorable, hle⟩ := storable_of_text _ hs hvalue
  exact ⟨hstorable, Nat.le_trans hle hdepth⟩

theorem parseList_of_treeText {values : List Value} (hstorable : StorableItems values)
    (hdepth : (Tree.array (treesOf values)).depth ≤ maxDepth) {s : List Char}
    (hs : ValueText Blanks (Tree.ofValue (.array values)) s) : parseList s = .ok values :=
  parseList_eq_ok_iff.mpr ⟨treesOf values, ⟨[], s, [], blanks_nil, hs, blanks_nil, by simp⟩, hdepth,
    itemValues?_treesOf values hstorable⟩

theorem array_brackets {gap : List Char → Prop} {items : List Tree} {s : List Char}
    (h : ValueText gap (.array items) s) : ∃ m, s = '[' :: (m ++ [']']) := by
  cases h with
  | emptyArray _ => exact ⟨_, rfl⟩
  | array _ => exact ⟨_, rfl⟩

/-- Storable values are read back from any text of their tree, with blanks after it. -/
theorem decode_of_treeText (skip : Bool) {values : List Value}
    (hstorable : StorableItems values)
    (hdepth : (Tree.array (treesOf values)).depth ≤ maxDepth) {s w : List Char}
    (hs : ValueText Blanks (Tree.ofValue (.array values)) s)
    (hw : ∀ c ∈ w, Text.isBlank c = true) (stderr : Bytes) :
    decode skip ⟨0, Utf8.encode (s ++ w), stderr⟩ = .ok (.issues (values.map Issue.mk)) := by
  have hp := parseList_of_treeText hstorable hdepth hs
  obtain ⟨m, rfl⟩ := array_brackets hs
  refine decode_of_bracket skip rfl rfl ?_ hp
  simpa using trim_brackets m hw

/-- Issues that were read are read back unchanged from one line, from indented text, and from the
bytes that are written to a file of issues. -/
theorem decode_reencoded {skip : Bool} {o : Outcome} {found : List Issue}
    (h : o.decode skip = .ok (.issues found)) (again : Bool) (stderr : Bytes) :
    decode again ⟨0, Bytes.ofString (issuesJson found).compactText, stderr⟩ =
      .ok (.issues found) ∧
    decode again ⟨0, Bytes.ofString (issuesJson found).prettyText, stderr⟩ =
      .ok (.issues found) ∧
    ∀ path, ∃ bytes,
      Lint.writeIssues path found =
        Act.because (.issuesUnwritten path) (Act.writePath path bytes) ∧
      bytes = Bytes.ofString ((issuesJson found).prettyText ++ "\n") ∧
      decode again ⟨0, bytes, stderr⟩ = .ok (.issues found) := by
  obtain ⟨t, ht⟩ := parseList_of_decode_issues h
  obtain ⟨hstorable, hdepth⟩ := storable_of_parseList ht
  have hfound : (found.map Issue.value).map Issue.mk = found := map_mk_eq_iff.mpr rfl
  have hcompact := compact_text blanks_nil (.array (found.map Issue.value)) hstorable
  have hpretty := pretty_text 0 (.array (found.map Issue.value)) hstorable
  refine ⟨?_, ?_, fun path => ⟨_, rfl, rfl, ?_⟩⟩
  · have hread := decode_of_treeText again hstorable hdepth hcompact (w := []) (by simp) stderr
    rw [hfound] at hread
    simpa [Bytes.ofString, Value.compactText, issuesJson] using hread
  · have hread := decode_of_treeText again hstorable hdepth hpretty (w := []) (by simp) stderr
    rw [hfound] at hread
    simpa [Bytes.ofString, Value.prettyText, Value.pretty, issuesJson] using hread
  · have hblank : ∀ c ∈ ['\n'], Text.isBlank c = true := by
      intro c hc
      rw [List.mem_singleton.mp hc]
      rfl
    have hread := decode_of_treeText again hstorable hdepth hpretty hblank stderr
    rw [hfound] at hread
    simpa [Lint.issuesText, Bytes.ofString, Value.prettyText, Value.pretty, issuesJson] using hread

theorem decode_reencoded_after_preamble :
    decode true ⟨0, Bytes.ofString "x [1E5,[-0]]\n", []⟩ =
      .ok (.issues [⟨.number "1e+5"⟩, ⟨.array [.number "-0"]⟩]) ∧
    decode false ⟨0, Bytes.ofString "[1e+5,[-0]]", []⟩ =
      .ok (.issues [⟨.number "1e+5"⟩, ⟨.array [.number "-0"]⟩]) := by
  have hnumber : NumberText ['1', 'E', '5'] := by decide
  have hzero : NumberText ['-', '0'] := by decide
  have hitems : ArrayText Blanks [.number ['1', 'E', '5'], .array [.number ['-', '0']]]
      "[1E5,[-0]]".toList :=
    ⟨[], _, [], blanks_nil, .array (.cons blanks_nil (.number hnumber) blanks_nil
      (.one blanks_nil (.array (.one blanks_nil (.number hzero) blanks_nil)) blanks_nil)),
      blanks_nil, by decide⟩
  have hparse : parseList "[1E5,[-0]]".toList =
      .ok [.number "1e+5", .array [.number "-0"]] :=
    parseList_eq_ok_iff.mpr ⟨_, hitems, by decide, rfl⟩
  have h : decode true ⟨0, Bytes.ofString "x [1E5,[-0]]\n", []⟩ =
      .ok (.issues [⟨.number "1e+5"⟩, ⟨.array [.number "-0"]⟩]) :=
    decode_of_payload rfl rfl (by decide) (by decide) hparse
  have htext : (issuesJson [⟨.number "1e+5"⟩, ⟨.array [.number "-0"]⟩]).compactText =
      "[1e+5,[-0]]" := by decide
  refine ⟨h, ?_⟩
  rw [← htext]
  exact (decode_reencoded h false []).1

theorem decode_of_noGap {items : List Tree} {text : String}
    (h : ValueText NoGap (.array items) text.toList)
    (hdepth : (Tree.array items).depth ≤ maxDepth) (stderr : Bytes) (found : List Issue) :
    decode false ⟨0, Bytes.ofString text, stderr⟩ = .ok (.issues found) ↔
      itemValues? .stored items = some (found.map Issue.value) := by
  have hblanks := h.blanks_of_noGap
  have htrim : Text.trim text.toList = text.toList := by
    obtain ⟨m, hm⟩ := array_brackets h
    rw [hm]
    simpa using trim_brackets m (w := []) (by simp)
  have hread := parseList_text
    (show ArrayText Blanks items text.toList from
      ⟨[], text.toList, [], blanks_nil, hblanks, blanks_nil, by simp⟩)
  rw [if_pos hdepth] at hread
  rw [decode_eq_issues_iff_parseList rfl rfl, htrim, ← hread]
  cases parseList text.toList <;> simp

/-- A canonical text of an array is read and written again as it was if and only if its items are
faithful. -/
theorem decode_canonical_unchanged_iff {items : List Tree} {text : String}
    (h : ValueText NoGap (.array items) text.toList) (hcanonical : (Tree.array items).Canonical)
    (hdepth : (Tree.array items).depth ≤ 127) (stderr : Bytes) :
    (∃ found, decode false ⟨0, Bytes.ofString text, stderr⟩ = .ok (.issues found) ∧
      (issuesJson found).compactText = text) ↔ (Tree.array items).Faithful := by
  obtain ⟨u, hu, hcompact⟩ := exact_of_canonical _ h hcanonical
  rw [← Tree.stored_eq_iff_faithful _ hu]
  obtain ⟨values, hvalues, rfl⟩ := Option.map_eq_some_iff.mp hu
  constructor
  · rintro ⟨found, hfound, htext⟩
    have hstored : (Tree.array items).value? .stored = some (issuesJson found) := by
      simp [Tree.value?, (decode_of_noGap h hdepth stderr found).mp hfound, issuesJson]
    have hsame : (issuesJson found).compact ++ [] = (Value.array values).compact ++ [] := by
      rw [hcompact, ← htext]
      simp [Value.compactText]
    have hend : EndsNumber [] := by simp [EndsNumber]
    obtain ⟨heq, -⟩ := compact_cancel _ h hcanonical hstored hu hend hend hsame
    rw [hstored, heq]
  · intro hstored
    refine ⟨values.map Issue.mk, (decode_of_noGap h hdepth stderr _).mpr ?_, ?_⟩
    · obtain ⟨xs, hxs, heq⟩ := Option.map_eq_some_iff.mp hstored
      obtain rfl : xs = values := Value.array.inj heq
      rw [hxs, ← map_mk_eq_iff.mp (Eq.refl (xs.map Issue.mk))]
    · have hjson : issuesJson (values.map Issue.mk) = .array values := by
        simp [issuesJson, Function.comp_def]
      rw [hjson, Value.compactText, hcompact, String.ofList_toList]

/-- A fraction is kept with its last zero, under whatever name. -/
theorem decode_fraction_unchanged :
    ∃ items, ValueText NoGap (.array items) "[\x7b\"a\":1.50\x7d]".toList ∧
      (Tree.array items).Canonical ∧ (Tree.array items).depth ≤ 127 ∧
      (Tree.array items).Faithful ∧
      ∃ found, decode false ⟨0, Bytes.ofString "[\x7b\"a\":1.50\x7d]", []⟩ = .ok (.issues found) ∧
        (issuesJson found).compactText = "[\x7b\"a\":1.50\x7d]" := by
  let items := [Tree.object [(marksOf ['a'], .number ['1', '.', '5', '0'])]]
  have hnumber : NumberText ['1', '.', '5', '0'] := by decide
  have hobject : ValueText NoGap (.object [(marksOf ['a'], .number ['1', '.', '5', '0'])]) _ :=
    .object (.one noGap_nil (valid_marksOf _) noGap_nil noGap_nil (.number hnumber) noGap_nil)
  have hitems : ValueText NoGap (.array items) "[\x7b\"a\":1.50\x7d]".toList :=
    .array (.one noGap_nil hobject noGap_nil)
  have hcanonical : (Tree.array items).Canonical :=
    ⟨⟨by decide, ⟨['a'], rfl⟩, trivial, trivial⟩, trivial⟩
  have hkept : keptToken ['1', '.', '5', '0'] = ['1', '.', '5', '0'] := by decide
  have hfaithful : (Tree.array items).Faithful :=
    ⟨⟨by decide, fun _ => hkept, by decide, trivial⟩, trivial⟩
  exact ⟨items, hitems, hcanonical, by decide, hfaithful,
    (decode_canonical_unchanged_iff hitems hcanonical (by decide) []).mpr hfaithful⟩

/-- An exponent is respelled, so that a canonical text does not come back as it was. -/
theorem decode_exponent_respelled :
    ∃ items, ValueText NoGap (.array items) "[1E5]".toList ∧ (Tree.array items).Canonical ∧
      (Tree.array items).depth ≤ 127 ∧
      ∃ found, decode false ⟨0, Bytes.ofString "[1E5]", []⟩ = .ok (.issues found) ∧
        (issuesJson found).compactText = "[1e+5]" := by
  have hnumber : NumberText ['1', 'E', '5'] := by decide
  have hitems : ValueText NoGap (.array [.number ['1', 'E', '5']]) "[1E5]".toList :=
    .array (.one noGap_nil (.number hnumber) noGap_nil)
  refine ⟨_, hitems, ⟨trivial, trivial⟩, by decide, [⟨.number "1e+5"⟩], ?_, by decide⟩
  exact (decode_of_noGap hitems (by decide) [] _).mpr rfl

end Outcome
end LintRelay
