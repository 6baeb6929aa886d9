import LintRelay.CommandLine
import LintRelay.Proofs.Extension
import LintRelay.Proofs.Json.Record
import Mathlib.Data.List.Nodup
import Mathlib.Data.List.TakeWhile
/-! Command lines that are written, and what is read from them. An option stands by its word or by
its letter, and its value is attached or comes next; whatever the order, reading gives each setting
its value. -/
namespace LintRelay.CommandLine

/-! ### What has been given -/

namespace State

variable {st : State} {s : Setting} {v : Bytes} {given : List (Setting × Bytes)} {ended : Bool}
  {positionals : List Setting}

theorem value?_eq_some_iff (h : (st.given.map Prod.fst).Nodup) :
    st.value? s = some v ↔ (s, v) ∈ st.given := by
  rw [value?, Option.map_eq_some_iff]
  constructor
  · rintro ⟨⟨s', v'⟩, hfind, rfl⟩
    obtain rfl : s' = s := by simpa using List.find?_some hfind
    exact List.mem_of_find?_eq_some hfind
  · intro hmem
    cases hfind : st.given.find? fun g => g.1 == s with
    | none => exact absurd (List.find?_eq_none.mp hfind _ hmem) (by simp)
    | some g =>
      have hkey : g.1 = s := by simpa using List.find?_some hfind
      have hg : g = (s, v) :=
        List.inj_on_of_nodup_map h (List.mem_of_find?_eq_some hfind) hmem hkey
      exact ⟨g, rfl, by rw [hg]⟩

theorem value?_of_perm (hperm : st.given.Perm given) (hnodup : (given.map Prod.fst).Nodup) :
    st.value? s = some v ↔ (s, v) ∈ given := by
  rw [value?_eq_some_iff ((hperm.map Prod.fst).nodup_iff.mpr hnodup), hperm.mem_iff]

theorem has_eq_false (h : s ∉ st.given.map Prod.fst) : st.has s = false := by
  have hfind : (st.given.find? fun g => g.1 == s) = none := by
    refine List.find?_eq_none.mpr fun g hg heq => h ?_
    exact List.mem_map.mpr ⟨g, hg, by simpa using heq⟩
  simp [has, value?, hfind]

theorem record_of_new (hnew : s ∉ st.given.map Prod.fst) (hcheck : s.check v = .ok ()) :
    st.record s v = .ok { st with given := st.given ++ [(s, v)], awaiting := false } := by
  rw [record, has_eq_false hnew, hcheck]
  rfl

/-- Once the pending option is settled, this has been given; no value is awaited. -/
structure Holds (st : State) (given : List (Setting × Bytes)) (ended : Bool)
    (positionals : List Setting) : Prop where
  settle : st.settle = .ok
    { given := given, pending := none, awaiting := false, trailing := ended,
      positionals := positionals }
  awaiting : st.awaiting = false
  trailing : st.trailing = ended
  positionals : st.positionals = positionals

theorem holds_of_settled :
    Holds { given := given, trailing := ended, positionals := positionals } given ended
      positionals :=
  ⟨rfl, rfl, rfl, rfl⟩

theorem holds_of_pending (hnew : s ∉ given.map Prod.fst) (hcheck : s.check v = .ok ()) :
    Holds
      { given := given, pending := some (s, some v), trailing := ended, positionals := positionals }
      (given ++ [(s, v)]) ended positionals :=
  ⟨record_of_new hnew hcheck, rfl, rfl, rfl⟩

theorem settle_endOptions (st : State) :
    settle { st with trailing := true, awaiting := false } =
      st.settle.map fun st => { st with trailing := true, awaiting := false } := by
  obtain ⟨given, pending, awaiting, trailing, positionals⟩ := st
  rcases pending with - | ⟨s, - | v⟩
  · rfl
  · rfl
  · by_cases hhas : (given.find? fun g => g.1 == s).isSome = true
    · simp [settle, record, has, value?, hhas, bind, Except.bind, Except.map, throw, throwThe,
        MonadExceptOf.throw]
    · cases hcheck : s.check v <;>
        simp [settle, record, has, value?, hhas, hcheck, bind, Except.bind, Except.map, pure,
          Except.pure]

namespace Holds

theorem flag (h : st.Holds given ended positionals) (hnew : s ∉ given.map Prod.fst)
    (hhelp : s ≠ .help) :
    ∃ st', st.flag s = .ok st' ∧ st'.Holds (given ++ [(s, [])]) ended positionals := by
  refine ⟨_, ?_, holds_of_settled⟩
  have hhas : State.has { given := given, trailing := ended, positionals := positionals } s =
      false := has_eq_false hnew
  rw [State.flag, h.settle]
  simp only [bind, Except.bind, beq_eq_false_iff_ne.mpr hhelp, hhas, Bool.false_eq_true, if_false]
  rfl

theorem attach (h : st.Holds given ended positionals) (hnew : s ∉ given.map Prod.fst)
    (hcheck : s.check v = .ok ()) :
    ∃ st', st.attach s v = .ok st' ∧ st'.Holds (given ++ [(s, v)]) ended positionals := by
  refine ⟨_, ?_, holds_of_settled⟩
  rw [State.attach, h.settle]
  exact record_of_new hnew hcheck

theorem await (h : st.Holds given ended positionals) (hnew : s ∉ given.map Prod.fst)
    (hcheck : s.check v = .ok ()) :
    ∃ st' st'', st.await s = .ok st' ∧ readPlain st' v = .ok st'' ∧
      st''.Holds (given ++ [(s, v)]) ended positionals := by
  have hawait : st.await s = .ok
      { given := given, pending := some (s, none), awaiting := true, trailing := ended,
        positionals := positionals } := by
    rw [State.await, h.settle]
    rfl
  exact ⟨_, _, hawait, rfl, holds_of_pending hnew hcheck⟩

theorem positional (h : st.Holds given ended (s :: positionals)) (hnew : s ∉ given.map Prod.fst)
    (hcheck : s.check v = .ok ()) :
    ∃ st', readPlain st v = .ok st' ∧ st'.Holds (given ++ [(s, v)]) ended positionals := by
  refine ⟨_, ?_, holds_of_pending hnew hcheck⟩
  simp only [readPlain, h.awaiting, h.positionals, h.settle]
  rfl

theorem endOptions (h : st.Holds given ended positionals) :
    Holds { st with trailing := true, awaiting := false } given true positionals := by
  refine ⟨?_, rfl, rfl, h.positionals⟩
  rw [settle_endOptions, h.settle]
  rfl

end Holds
end State

/-! ### Options and their names -/

/-- A name of an option: its word after two dashes, or its letter after one. -/
inductive Opt.Named (o : Opt) : Bytes → Prop
  | word : o.Named (dash :: dash :: Bytes.ofString o.word)
  | letter {l : Char} (h : o.letter = some l) : o.Named [dash, UInt8.ofNat l.toNat]

/-- The arguments that give a setting its value: a flag, an option with the value attached to its
word, or an option with a value next to it that does not look like an option. -/
inductive Written (sub : Subcommand) : Setting × Bytes → List Bytes → Prop
  | flag {o : Opt} {name : Bytes} (ho : o ∈ sub.options) (hflag : o.takesValue = false)
      (hname : o.Named name) : Written sub (o.setting, []) [name]
  | attached {o : Opt} {v : Bytes} (ho : o ∈ sub.options) (htakes : o.takesValue = true) :
      Written sub (o.setting, v) [dash :: dash :: (Bytes.ofString o.word ++ equals :: v)]
  | apart {o : Opt} {name v : Bytes} (ho : o ∈ sub.options) (htakes : o.takesValue = true)
      (hname : o.Named name) (hplain : v.head? ≠ some dash) :
      Written sub (o.setting, v) [name, v]

/-- An option is found by its names, and these are not taken for anything else. -/
structure Subcommand.Finds (sub : Subcommand) (o : Opt) : Prop where
  byWord : sub.byWord? (Bytes.ofString o.word) = some o
  byLetter : ∀ l, o.letter = some l →
    sub.byLetter? (UInt8.ofNat l.toNat) = some o ∧ UInt8.ofNat l.toNat ≠ dash
  word_ne : Bytes.ofString o.word ≠ []
  equals_not_mem : equals ∉ Bytes.ofString o.word

variable {sub : Subcommand} {o : Opt} {st : State} {v : Bytes}

theorem finds_of_mem (hsub : sub ∈ subcommands) (ho : o ∈ sub.options) : sub.Finds o := by
  simp only [subcommands, List.mem_cons, List.not_mem_nil, or_false] at hsub
  rcases hsub with rfl | rfl | rfl <;>
    simp only [lint, analyzers, init, helpOption, List.mem_cons, List.not_mem_nil, or_false] at ho
  · rcases ho with rfl | rfl | rfl | rfl | rfl | rfl <;>
      exact ⟨rfl, by rintro _ ⟨⟩; exact ⟨rfl, by decide⟩, by decide, by decide⟩
  · rcases ho with rfl | rfl | rfl <;>
      exact ⟨rfl, by rintro _ ⟨⟩ <;> exact ⟨rfl, by decide⟩, by decide, by decide⟩
  · rcases ho with rfl | rfl | rfl <;>
      exact ⟨rfl, by rintro _ ⟨⟩ <;> exact ⟨rfl, by decide⟩, by decide, by decide⟩

theorem Subcommand.Finds.ne_equals (h : sub.Finds o) :
    ∀ b ∈ Bytes.ofString o.word, (b != equals) = true := by
  intro b hb
  rw [bne_iff_ne]
  rintro rfl
  exact h.equals_not_mem hb

theorem readWord_alone (h : sub.Finds o) :
    readWord sub st (Bytes.ofString o.word) =
      if o.takesValue then st.await o.setting else st.flag o.setting := by
  have htake : (Bytes.ofString o.word).takeWhile (· != equals) = Bytes.ofString o.word :=
    List.takeWhile_eq_self_iff.mpr h.ne_equals
  simp [readWord, htake, h.byWord]

theorem readWord_attached (h : sub.Finds o) (htakes : o.takesValue = true) :
    readWord sub st (Bytes.ofString o.word ++ equals :: v) = st.attach o.setting v := by
  have htake : (Bytes.ofString o.word ++ equals :: v).takeWhile (· != equals) =
      Bytes.ofString o.word := by
    rw [List.takeWhile_append_of_pos h.ne_equals, List.takeWhile_cons_of_neg (by simp),
      List.append_nil]
  simp [readWord, htake, h.byWord, htakes]

theorem readLetters_alone {l : UInt8} (ho : sub.byLetter? l = some o) :
    readLetters sub st [l] =
      if o.takesValue then st.await o.setting else st.flag o.setting := by
  simp only [readLetters, ho]
  split
  · rfl
  · cases st.flag o.setting <;> rfl

theorem readArg_named (h : sub.Finds o) {name : Bytes} (hname : o.Named name)
    (htrailing : st.trailing = false) :
    readArg sub st name = if o.takesValue then st.await o.setting else st.flag o.setting := by
  cases hname with
  | word =>
    obtain ⟨b, bs, hword⟩ := List.exists_cons_of_ne_nil h.word_ne
    rw [← readWord_alone h, hword]
    simp [readArg, htrailing]
  | @letter l hl =>
    obtain ⟨hfound, hdash⟩ := h.byLetter l hl
    rw [← readLetters_alone hfound]
    simp [readArg, htrailing, hdash]

theorem readArg_attached (h : sub.Finds o) (htakes : o.takesValue = true)
    (htrailing : st.trailing = false) :
    readArg sub st (dash :: dash :: (Bytes.ofString o.word ++ equals :: v)) =
      st.attach o.setting v := by
  obtain ⟨b, bs, hword⟩ := List.exists_cons_of_ne_nil h.word_ne
  rw [← readWord_attached h htakes, hword]
  simp [readArg, htrailing]

theorem readArg_plain (h : st.trailing = true ∨ v.head? ≠ some dash) :
    readArg sub st v = readPlain st v := by
  rcases v with - | ⟨a, - | ⟨b, - | ⟨c, rest⟩⟩⟩
  · simp [readArg]
  · simp [readArg]
  · rcases h with htrailing | hplain
    · simp [readArg, htrailing]
    · simp [readArg, show a ≠ dash by simpa using hplain]
  · rcases h with htrailing | hplain
    · simp [readArg, htrailing]
    · simp [readArg, show a ≠ dash by simpa using hplain]

theorem readArgs_cons {arg : Bytes} {st' : State} (h : readArg sub st arg = .ok st')
    (args : List Bytes) : readArgs sub st (arg :: args) = readArgs sub st' args := by
  rw [readArgs, h]

/-! ### Reading what was written -/

variable {given items : List (Setting × Bytes)} {positionals : List Setting}

theorem not_mem_of_nodup_append {e : Setting × Bytes}
    (h : ((given ++ e :: items).map Prod.fst).Nodup) : e.1 ∉ given.map Prod.fst := by
  intro hmem
  rw [List.map_append, List.nodup_append] at h
  exact h.2.2 _ hmem _ (by simp) rfl

/-- An entry that can be given: not a request for help, and with a value that passes its check
where one is taken. -/
structure Subcommand.Accepts (sub : Subcommand) (e : Setting × Bytes) : Prop where
  ne_help : e.1 ≠ .help
  check : ∀ o ∈ sub.options, o.takesValue = true → o.setting = e.1 → e.1.check e.2 = .ok ()

theorem readArgs_written (hsub : sub ∈ subcommands) {e : Setting × Bytes} {args : List Bytes}
    (hwritten : Written sub e args) (haccepts : sub.Accepts e)
    (h : st.Holds given false positionals) (hnew : e.1 ∉ given.map Prod.fst) :
    ∃ st', st'.Holds (given ++ [e]) false positionals ∧
      ∀ rest, readArgs sub st (args ++ rest) = readArgs sub st' rest := by
  cases hwritten with
  | flag ho hflag hname =>
    obtain ⟨st', hrun, hst'⟩ := h.flag hnew haccepts.ne_help
    have hread := readArg_named (finds_of_mem hsub ho) hname h.trailing
    rw [hflag, if_neg Bool.false_ne_true, hrun] at hread
    exact ⟨st', hst', readArgs_cons hread⟩
  | attached ho htakes =>
    obtain ⟨st', hrun, hst'⟩ := h.attach hnew (haccepts.check _ ho htakes rfl)
    refine ⟨st', hst', readArgs_cons ?_⟩
    rw [readArg_attached (finds_of_mem hsub ho) htakes h.trailing, hrun]
  | apart ho htakes hname hplain =>
    obtain ⟨st', st'', hrun, hvalue, hst''⟩ := h.await hnew (haccepts.check _ ho htakes rfl)
    have hread := readArg_named (finds_of_mem hsub ho) hname h.trailing
    rw [htakes, if_pos rfl, hrun] at hread
    refine ⟨st'', hst'', fun rest => ?_⟩
    rw [List.cons_append, readArgs_cons hread, List.cons_append,
      readArgs_cons ((readArg_plain (Or.inr hplain)).trans hvalue), List.nil_append]

theorem readArgs_flatten (hsub : sub ∈ subcommands) {lines : List (List Bytes)}
    (hlines : List.Forall₂ (Written sub) items lines) (haccepts : ∀ e ∈ items, sub.Accepts e)
    (h : st.Holds given false positionals) (hnodup : ((given ++ items).map Prod.fst).Nodup) :
    ∃ st', st'.Holds (given ++ items) false positionals ∧
      ∀ rest, readArgs sub st (lines.flatten ++ rest) = readArgs sub st' rest := by
  induction hlines generalizing st given with
  | nil => exact ⟨st, by rwa [List.append_nil], fun rest => rfl⟩
  | @cons e args items lines hwritten hlines ih =>
    obtain ⟨st₁, hst₁, hread⟩ := readArgs_written hsub hwritten (haccepts e (by simp)) h
      (not_mem_of_nodup_append hnodup)
    have hassoc : given ++ [e] ++ items = given ++ e :: items := by simp
    obtain ⟨st₂, hst₂, hrest⟩ :=
      ih (fun e' he' => haccepts e' (by simp [he'])) hst₁ (by rwa [hassoc])
    refine ⟨st₂, by rwa [hassoc] at hst₂, fun rest => ?_⟩
    rw [List.flatten_cons, List.append_assoc, hread, hrest]

/-- After the last option the arguments are taken for the positionals, in their order. -/
theorem readArgs_trailing (sub : Subcommand) {values : List Bytes}
    (hchecks : List.Forall₂ (fun s v => Setting.check s v = .ok ()) positionals values)
    (h : st.Holds given true positionals)
    (hnodup : ((given ++ positionals.zip values).map Prod.fst).Nodup) :
    readArgs sub st values = .ok
      { given := given ++ positionals.zip values, pending := none, awaiting := false,
        trailing := true, positionals := [] } := by
  induction hchecks generalizing st given with
  | nil => rw [readArgs, h.settle, List.zip_nil_left, List.append_nil]
  | @cons s v positionals values hcheck hchecks ih =>
    obtain ⟨st', hread, hst'⟩ := h.positional (not_mem_of_nodup_append hnodup) hcheck
    have hassoc : given ++ [(s, v)] ++ positionals.zip values =
        given ++ (s :: positionals).zip (v :: values) := by simp
    rw [readArgs_cons ((readArg_plain (Or.inl h.trailing)).trans hread),
      ih hst' (by rwa [hassoc]), hassoc]

/-- All arguments of a subcommand: options, two dashes, and the positionals. -/
theorem readArgs_line (hsub : sub ∈ subcommands) {lines : List (List Bytes)} {values : List Bytes}
    (hlines : List.Forall₂ (Written sub) items lines) (haccepts : ∀ e ∈ items, sub.Accepts e)
    (hchecks : List.Forall₂ (fun s v => Setting.check s v = .ok ()) sub.positionals values)
    (hnodup : ((items ++ sub.positionals.zip values).map Prod.fst).Nodup) :
    ∃ st, readArgs sub { positionals := sub.positionals }
        (lines.flatten ++ [dash, dash] :: values) = .ok st ∧
      st.given = items ++ sub.positionals.zip values := by
  have hitems : (([] ++ items).map Prod.fst).Nodup := by
    rw [List.map_append, List.nodup_append] at hnodup
    exact hnodup.1
  have hstart : State.Holds { positionals := sub.positionals } [] false sub.positionals :=
    State.holds_of_settled
  obtain ⟨st, hst, hread⟩ := readArgs_flatten hsub hlines haccepts hstart hitems
  have hdashes : readArg sub st [dash, dash] =
      .ok { st with trailing := true, awaiting := false } := by
    rw [readArg, if_neg (by simp [hst.trailing])]
    rfl
  have htrailing := readArgs_trailing sub hchecks hst.endOptions hnodup
  exact ⟨_, by rw [hread, readArgs_cons hdashes, htrailing], rfl⟩

/-! ### Linting -/

/-- The options that are chosen for linting. -/
structure Chosen where
  config : Option Path := none
  format : Option OutputFormat := none
  output : Option Path := none
  timeout : Option UInt64 := none
  dryRun : Bool := false

namespace Chosen

def entries (c : Chosen) : List (Setting × Bytes) :=
  (c.config.map fun path => (.config, path.bytes)).toList ++
  (c.format.map fun format => (.format, Bytes.ofString format.name)).toList ++
  (c.output.map fun path => (.output, path.bytes)).toList ++
  (c.timeout.map fun seconds => (.timeout, Bytes.ofString (toString seconds))).toList ++
  if c.dryRun then [(.dryRun, [])] else []

theorem nodup_entries (c : Chosen) (file id : Bytes) :
    ((c.entries ++ lint.positionals.zip [file, id]).map Prod.fst).Nodup := by
  obtain ⟨config, format, output, timeout, dryRun⟩ := c
  cases config <;> cases format <;> cases output <;> cases timeout <;> cases dryRun <;>
    simp [entries, lint]

end Chosen

theorem wordValue?_toString (n : UInt64) : wordValue? (toString n) = some n := by
  have hdigits : ∀ d ∈ Nat.toDigits 10 n.toNat, d.isDigit = true :=
    fun d hd => Nat.isDigit_of_mem_toDigits (by decide) (by decide) hd
  have hword : n.toNat ≤ Json.maxWord := Nat.le_of_lt_succ n.toNat_lt
  have hvalue := Json.digitsValue_toDigits n.toNat
  rw [wordValue?, Json.toList_toString]
  cases hcs : Nat.toDigits 10 n.toNat with
  | nil => exact absurd hcs Nat.toDigits_ne_nil
  | cons d ds =>
    rw [hcs] at hdigits hvalue
    have hplus : d ≠ '+' := by
      rintro rfl
      exact absurd (hdigits '+' List.mem_cons_self) (by decide)
    have hall : (d :: ds).all Char.isDigit = true := List.all_eq_true.mpr hdigits
    split
    · next cs hcons => exact absurd (List.cons.inj hcons).1 hplus
    · rw [hall, hvalue, decide_eq_true hword, UInt64.ofNat_toNat]
      rfl

theorem OutputFormat.ofName?_name (format : OutputFormat) :
    ofName? (Bytes.ofString format.name) = some format := by
  cases format <;> rfl

theorem lint_mem_subcommands : lint ∈ subcommands := List.mem_cons_self

namespace Chosen

variable {c : Chosen} {file : Bytes} {id : String}

theorem accepts_of_mem (hconfig : ∀ path, c.config = some path → path.isEmpty = false)
    (houtput : ∀ path, c.output = some path → path.isEmpty = false) :
    ∀ e ∈ c.entries, lint.Accepts e := by
  intro e he
  simp only [entries, List.mem_append, Option.mem_toList, Option.map_eq_some_iff] at he
  rcases he with (((⟨path, hpath, rfl⟩ | ⟨format, -, rfl⟩) | ⟨path, hpath, rfl⟩) |
    ⟨seconds, -, rfl⟩) | hdry
  · refine ⟨by simp, fun o _ _ _ => ?_⟩
    have hempty : path.bytes.isEmpty = false := hconfig path hpath
    simp [Setting.check, hempty]
  · refine ⟨by simp, fun o _ _ _ => ?_⟩
    simp [Setting.check, OutputFormat.ofName?_name]
  · refine ⟨by simp, fun o _ _ _ => ?_⟩
    have hempty : path.bytes.isEmpty = false := houtput path hpath
    simp [Setting.check, hempty]
  · refine ⟨by simp, fun o _ _ _ => ?_⟩
    simp [Setting.check, Bytes.text?_ofString, wordValue?_toString]
  · split at hdry
    · obtain rfl := List.mem_singleton.mp hdry
      refine ⟨by simp, fun o ho htakes hsetting => ?_⟩
      -- The flag takes no value, so that nothing is checked.
      simp only [lint, helpOption, List.mem_cons, List.not_mem_nil, or_false] at ho
      rcases ho with rfl | rfl | rfl | rfl | rfl | rfl <;> simp at htakes hsetting
    · cases hdry

section Given

variable (h : st.given.Perm (c.entries ++ lint.positionals.zip [file, Bytes.ofString id]))

include h

theorem value?_eq_some_iff {s : Setting} :
    st.value? s = some v ↔ (s, v) ∈ c.entries ++ lint.positionals.zip [file, Bytes.ofString id] :=
  State.value?_of_perm h (nodup_entries c _ _)

theorem value?_file : st.value? .file = some file := by
  rw [value?_eq_some_iff h]
  simp [lint]

theorem value?_id : st.value? .id = some (Bytes.ofString id) := by
  rw [value?_eq_some_iff h]
  simp [lint]

theorem value?_config : st.value? .config = c.config.map fun path => path.bytes := by
  ext v
  rw [value?_eq_some_iff h]
  simp [entries, lint]

theorem lintOptions_eq :
    lintOptions st file =
      { file := ⟨file⟩, id := id, config := c.config, format := c.format.getD .text,
        output := c.output, timeout := c.timeout, dryRun := c.dryRun } := by
  have hformat : st.value? .format = c.format.map fun format => Bytes.ofString format.name := by
    ext v
    rw [value?_eq_some_iff h]
    simp [entries, lint]
  have houtput : st.value? .output = c.output.map fun path => path.bytes := by
    ext v
    rw [value?_eq_some_iff h]
    simp [entries, lint]
  have htimeout : st.value? .timeout =
      c.timeout.map fun seconds => Bytes.ofString (toString seconds) := by
    ext v
    rw [value?_eq_some_iff h]
    simp [entries, lint]
  have hdry : st.has .dryRun = c.dryRun := by
    have hflag : st.value? .dryRun = if c.dryRun then some [] else none := by
      ext v
      rw [value?_eq_some_iff h]
      cases hd : c.dryRun <;> simp [entries, lint, hd, eq_comm]
    rw [State.has, hflag]
    cases c.dryRun <;> rfl
  have htext : st.text .id = id := by
    simp [State.text, value?_id h, Bytes.text?_ofString]
  have hseconds :
      ((st.value? .timeout).bind fun _ => wordValue? (st.text .timeout)) = c.timeout := by
    rw [State.text, htimeout]
    cases c.timeout with
    | none => rfl
    | some seconds => simp [Bytes.text?_ofString, wordValue?_toString]
  have hnamed : (st.value? .format).bind OutputFormat.ofName? = c.format := by
    rw [hformat]
    cases c.format with
    | none => rfl
    | some format => simp [OutputFormat.ofName?_name]
  have hpaths : st.path? .config = c.config ∧ st.path? .output = c.output := by
    simp [State.path?, value?_config h, houtput, Function.comp_def]
  simp only [lintOptions, htext, hpaths, hnamed, hseconds, hdry]

/-- The variable stands in for a configuration that is not chosen. -/
theorem exists_readVariable {named : Option Bytes}
    (hnamed : ∀ v, named = some v → v.isEmpty = false) :
    ∃ st', readVariable lint named st = .ok st' ∧
      st'.given.Perm ({ c with config := c.config.or (named.map Path.mk) }.entries ++
        lint.positionals.zip [file, Bytes.ofString id]) := by
  have hvalue := value?_config h
  obtain ⟨config, format, output, timeout, dryRun⟩ := c
  cases named with
  | none => exact ⟨st, rfl, by simpa using h⟩
  | some v =>
    cases config with
    | some path =>
      have hhas : st.has .config = true := by simp [State.has, hvalue]
      exact ⟨st, by simp [readVariable, hhas], h⟩
    | none =>
      have hhas : st.has .config = false := by simp [State.has, hvalue]
      have hcheck : Setting.check .config v = .ok () := by simp [Setting.check, hnamed v rfl]
      refine ⟨{ st with given := st.given ++ [(.config, v)], awaiting := false }, ?_, ?_⟩
      · simp [readVariable, State.record, hhas, hcheck, lint, bind, Except.bind, pure, Except.pure]
      · exact (h.append_right _).trans (List.perm_append_singleton _ _)

end Given

theorem exists_written {e : Setting × Bytes} (he : e ∈ c.entries) :
    ∃ args, Written lint e args := by
  simp only [entries, List.mem_append, Option.mem_toList, Option.map_eq_some_iff] at he
  rcases he with (((⟨path, -, rfl⟩ | ⟨format, -, rfl⟩) | ⟨path, -, rfl⟩) |
    ⟨seconds, -, rfl⟩) | hdry
  · exact ⟨_, .attached (o := ⟨.config, some 'c', "config", true⟩) (by simp [lint]) rfl⟩
  · exact ⟨_, .attached (o := ⟨.format, some 'f', "format", true⟩) (by simp [lint]) rfl⟩
  · exact ⟨_, .attached (o := ⟨.output, some 'o', "output", true⟩) (by simp [lint]) rfl⟩
  · exact ⟨_, .attached (o := ⟨.timeout, some 't', "timeout", true⟩) (by simp [lint]) rfl⟩
  · split at hdry
    · obtain rfl := List.mem_singleton.mp hdry
      exact ⟨_, .flag (o := ⟨.dryRun, some 'd', "dry-run", false⟩) (by simp [lint]) rfl .word⟩
    · cases hdry

theorem exists_lines {items : List (Setting × Bytes)} (hitems : ∀ e ∈ items, e ∈ c.entries) :
    ∃ lines, List.Forall₂ (Written lint) items lines := by
  induction items with
  | nil => exact ⟨[], .nil⟩
  | cons e items ih =>
    obtain ⟨args, hargs⟩ := exists_written (hitems e List.mem_cons_self)
    obtain ⟨lines, hlines⟩ := ih fun e' he' => hitems e' (List.mem_cons_of_mem e he')
    exact ⟨args :: lines, .cons hargs hlines⟩

end Chosen

theorem parse_lint {name : String} (hname : name ∈ lint.names) (named : Option Bytes)
    (args : List Bytes) :
    parse named (Bytes.ofString name :: args) =
      (readSubcommand lint named args).map fun st =>
        .lint (lintOptions st ((st.value? .file).getD [])) := by
  simp only [lint, List.mem_cons, List.not_mem_nil, or_false] at hname
  rcases hname with rfl | rfl <;>
  · change (readSubcommand lint named args >>= _) = _
    cases readSubcommand lint named args <;> rfl

/-- A lint as it is written: the subcommand by one of its names, the options that are chosen, each
once and in any order, two dashes, and then the target and the id, which may be anything. Each
option can be written, and reading gives back what was chosen; the configuration is the chosen one,
or else the one that the environment names. -/
theorem parse_written {c : Chosen} {items : List (Setting × Bytes)} {named : Option Bytes}
    {name : String} {file : Path} (id : String) (hitems : items.Perm c.entries)
    (hname : name ∈ lint.names) (hfile : file.isEmpty = false)
    (hconfig : ∀ path, c.config = some path → path.isEmpty = false)
    (houtput : ∀ path, c.output = some path → path.isEmpty = false)
    (hnamed : ∀ v, named = some v → v.isEmpty = false) :
    (∃ lines, List.Forall₂ (Written lint) items lines) ∧
    ∀ lines, List.Forall₂ (Written lint) items lines →
      parse named (Bytes.ofString name ::
          (lines.flatten ++ [[dash, dash], file.bytes, Bytes.ofString id])) =
        .ok (.lint
          { file := file, id := id, config := c.config.or (named.map Path.mk),
            format := c.format.getD .text, output := c.output, timeout := c.timeout,
            dryRun := c.dryRun }) := by
  refine ⟨Chosen.exists_lines fun e => hitems.mem_iff.mp, fun lines hlines => ?_⟩
  have hchecks : List.Forall₂ (fun s v => Setting.check s v = .ok ()) lint.positionals
      [file.bytes, Bytes.ofString id] := by
    have hempty : file.bytes.isEmpty = false := hfile
    exact .cons (by simp [Setting.check, hempty])
      (.cons (by simp [Setting.check, Bytes.text?_ofString]) .nil)
  have hgiven := hitems.append_right (lint.positionals.zip [file.bytes, Bytes.ofString id])
  obtain ⟨st₀, hread, hst₀⟩ := readArgs_line lint_mem_subcommands hlines
    (fun e he => Chosen.accepts_of_mem hconfig houtput e (hitems.mem_iff.mp he)) hchecks
    ((hgiven.map Prod.fst).nodup_iff.mpr (c.nodup_entries _ _))
  rw [← hst₀] at hgiven
  obtain ⟨st, hvariable, hst⟩ := Chosen.exists_readVariable hgiven hnamed
  have hfound : lint.positionals.all st.has = true := by
    simp [lint, State.has, Chosen.value?_file hst, Chosen.value?_id hst]
  rw [parse_lint hname, readSubcommand, hread]
  simp only [bind, Except.bind, hvariable, hfound, if_true, pure, Except.pure, Except.map,
    Chosen.value?_file hst, Option.getD_some, Chosen.lintOptions_eq hst]

/-- All options at once, the path of the configuration one that looks like an option. -/
def everything : Chosen where
  config := some (.ofString "-x=y")
  format := some .json
  output := some (.ofString "out")
  timeout := some 5
  dryRun := true

/-- Options in another order, and a target and an id that look like options themselves. -/
theorem parse_written_everything :
    parse (some (Bytes.ofString "env.json"))
        (["l", "-t", "5", "-d", "--config=-x=y", "-o", "out", "--format", "json", "--",
          "--dry-run", "-1"].map Bytes.ofString) =
      .ok (.lint
        { file := .ofString "--dry-run", id := "-1", config := some (.ofString "-x=y"),
          format := .json, output := some (.ofString "out"), timeout := some 5,
          dryRun := true }) := by
  have hitems : [(Setting.timeout, Bytes.ofString "5"), (.dryRun, []),
      (.config, Bytes.ofString "-x=y"), (.output, Bytes.ofString "out"),
      (.format, Bytes.ofString "json")].Perm everything.entries := by decide +kernel
  have hwritten := parse_written "-1" hitems (by decide : "l" ∈ lint.names)
    (by decide : (Path.ofString "--dry-run").isEmpty = false) (by rintro _ ⟨⟩; decide)
    (by rintro _ ⟨⟩; decide)
    (by rintro _ ⟨⟩; decide : ∀ v, some (Bytes.ofString "env.json") = some v → v.isEmpty = false)
  exact hwritten.2 _
    (.cons (.apart (o := ⟨.timeout, some 't', "timeout", true⟩) (by simp [lint]) rfl
        (.letter rfl) (by decide)) <|
      .cons (.flag (o := ⟨.dryRun, some 'd', "dry-run", false⟩) (by simp [lint]) rfl
        (.letter rfl)) <|
      .cons (.attached (o := ⟨.config, some 'c', "config", true⟩) (by simp [lint]) rfl) <|
      .cons (.apart (o := ⟨.output, some 'o', "output", true⟩) (by simp [lint]) rfl
        (.letter rfl) (by decide)) <|
      .cons (.apart (o := ⟨.format, some 'f', "format", true⟩) (by simp [lint]) rfl
        .word (by decide)) .nil)

end LintRelay.CommandLine
