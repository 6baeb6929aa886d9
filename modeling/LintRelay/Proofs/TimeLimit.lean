import LintRelay.Proofs.Command
import LintRelay.Proofs.Routing
/-! The time limit of the command line. Every configuration that linting takes is valid. A limit for all
of its analyzers keeps it so unless the limit is zero, leaves each file with its analyzer, and is the
limit of every command. -/
namespace LintRelay

namespace Analyzer

theorem forms_withTimeoutSecs (a : Analyzer) (t : UInt64) : (a.withTimeoutSecs t).forms = a.forms :=
  rfl

/-- Of an analyzer that can be used, zero is the only limit that makes a difference to that. -/
theorem Usable.withTimeoutSecs_iff {a : Analyzer} (h : a.Usable) (t : UInt64) :
    (a.withTimeoutSecs t).Usable ↔ t ≠ 0 := by
  constructor
  · intro hlimited hzero
    exact hlimited.timeout (congrArg some hzero)
  · intro hpositive
    exact ⟨h.name, h.command, h.extensions, fun hzero => hpositive (Option.some.inj hzero), h.forms⟩

theorem timeout_commandFor (a : Analyzer) (r : Request) :
    (a.commandFor r).timeout = a.timeoutSecs.map fun n => .ofSeconds n.toNat := by
  rw [a.commandFor_eq, timeout]

end Analyzer

namespace Config

variable {c : Config}

theorem forms_map_withTimeoutSecs (as : List Analyzer) (t : UInt64) :
    forms (as.map (·.withTimeoutSecs t)) = forms as := by
  simp only [forms, List.flatMap_map, Analyzer.forms_withTimeoutSecs]

/-- A valid configuration stays valid under every limit but zero. -/
theorem validate_withTimeoutSecs_iff (h : c.validate = .ok ()) (t : UInt64) :
    (c.withTimeoutSecs t).validate = .ok () ↔ t ≠ 0 := by
  obtain ⟨hne, husable, hnodup⟩ := validate_eq_ok_iff.mp h
  rw [validate_eq_ok_iff, withTimeoutSecs]
  constructor
  · rintro ⟨-, hlimited, -⟩
    obtain ⟨a, as, has⟩ := List.exists_cons_of_ne_nil hne
    have ha : a ∈ c.analyzers := by rw [has]; exact List.mem_cons_self
    exact ((husable a ha).withTimeoutSecs_iff t).mp (hlimited _ (List.mem_map_of_mem ha))
  · intro hpositive
    refine ⟨by simpa using hne, fun b hb => ?_, ?_⟩
    · obtain ⟨a, ha, rfl⟩ := List.mem_map.mp hb
      exact ((husable a ha).withTimeoutSecs_iff t).mpr hpositive
    · rwa [forms_map_withTimeoutSecs]

theorem validate_withTimeoutSecs_zero (h : c.validate = .ok ()) :
    ∃ a as, c.analyzers = a :: as ∧
      (c.withTimeoutSecs 0).validate = .error (.zeroTimeout a.name) := by
  obtain ⟨hne, husable, -⟩ := validate_eq_ok_iff.mp h
  obtain ⟨a, as, has⟩ := List.exists_cons_of_ne_nil hne
  have ha : a.Usable := husable a (by rw [has]; exact List.mem_cons_self)
  have hcheck : checkAnalyzer [] (a.withTimeoutSecs 0) = .error (.zeroTimeout a.name) := by
    simp [checkAnalyzer, Analyzer.withTimeoutSecs, ha.name, ha.command, ha.extensions]
  refine ⟨a, as, has, ?_⟩
  simp [validate, withTimeoutSecs, has, checkAnalyzers, hcheck]

theorem analyzerFor?_withTimeoutSecs (c : Config) (t : UInt64) (p : Path) :
    (c.withTimeoutSecs t).analyzerFor? p = (c.analyzerFor? p).map (·.withTimeoutSecs t) :=
  analyzerFor?_map (·.withTimeoutSecs t) (fun _ => rfl) c p

end Config

namespace Lint

open CommandLine

variable {options : LintOptions} {c : Config} {t : UInt64}

theorem limited_of_none (h : options.timeout = none) (c : Config) : limited options c = c := by
  rw [limited, h]

theorem limited_of_some (h : options.timeout = some t) (c : Config) :
    limited options c = c.withTimeoutSecs t := by
  rw [limited, h]

theorem timeout_of_limited (h : options.timeout = some t) {a : Analyzer}
    (ha : a ∈ (limited options c).analyzers) (r : Request) :
    (a.commandFor r).timeout = some (.ofSeconds t.toNat) := by
  rw [limited_of_some h] at ha
  obtain ⟨a₀, -, rfl⟩ := List.mem_map.mp ha
  rw [Analyzer.timeout_commandFor]
  rfl

/-- What a run under a limit starts has that limit. -/
theorem timeout_of_started {runner : Runner} (hquiet : runner.Quiet) (h : options.timeout = some t)
    (w : World) :
    ((run runner options).run w).2.started = w.started ∨
      ∃ command, ((run runner options).run w).2.started = w.started ++ [command] ∧
        command.timeout = some (.ofSeconds t.toNat) := by
  rcases started_run hquiet options w with hnothing | ⟨a, r, stdin, hrouted, hone⟩
  · exact Or.inl hnothing
  · obtain ⟨c, hreaches⟩ := routed?_eq_some_iff.mp hrouted
    obtain ⟨x, hx⟩ := Option.bind_eq_some_iff.mp hreaches.routed
    have ha : a ∈ (limited options c).analyzers := List.mem_of_find?_eq_some hx.2
    exact Or.inr ⟨_, hone, timeout_of_limited h ha r⟩

/-- Every configuration that the command line works with is valid, whether it was named, found or is
built in, and so without a limit of the command line there is always a dispatcher for it. With a limit
there is one exactly if the limit is not zero; zero is refused in the name of the first analyzer. Each
file goes to the analyzer that it went to before, now with the limit, and the limit is that of every
command that is made or started. -/
theorem config_holds_under_limit {explicit : Option Path} {start : Path} {w : World}
    (h : ((Config.inForce explicit start).run w).1 = .ok c) :
    c.validate = .ok () ∧
    (∀ options : LintOptions, options.timeout = none →
      ∃ d, Dispatcher.make (limited options c) = .ok d ∧ d.config = c) ∧
    ∀ (options : LintOptions) (t : UInt64), options.timeout = some t →
      ((∃ d, Dispatcher.make (limited options c) = .ok d) ↔ t ≠ 0) ∧
      (t = 0 → ∃ a as, c.analyzers = a :: as ∧
        Dispatcher.make (limited options c) = .error (.config (.zeroTimeout a.name))) ∧
      (∀ p, (limited options c).analyzerFor? p =
        (c.analyzerFor? p).map fun a => { a with timeoutSecs := some t }) ∧
      (∀ a ∈ (limited options c).analyzers, ∀ r,
        (a.commandFor r).timeout = some (.ofSeconds t.toNat)) ∧
      ∀ runner : Runner, runner.Quiet →
        ((run runner options).run w).2.started = w.started ∨
          ∃ command, ((run runner options).run w).2.started = w.started ++ [command] ∧
            command.timeout = some (.ofSeconds t.toNat) := by
  have hvalid := Config.validate_of_inForce h
  refine ⟨hvalid, fun options hnone => ?_, fun options t hsome =>
    ⟨?_, fun hzero => ?_, fun p => ?_, fun a ha r => timeout_of_limited hsome ha r,
      fun runner hquiet => timeout_of_started hquiet hsome w⟩⟩
  · rw [limited_of_none hnone]
    exact ⟨⟨c, hvalid⟩, Dispatcher.make_eq_ok hvalid, rfl⟩
  · simp only [limited_of_some hsome, Dispatcher.make_eq_ok_iff]
    rw [← Config.validate_withTimeoutSecs_iff hvalid t]
    constructor
    · rintro ⟨d, hlimited, -⟩
      exact hlimited
    · intro hlimited
      exact ⟨⟨_, hlimited⟩, hlimited, rfl⟩
  · obtain ⟨a, as, has, herror⟩ := Config.validate_withTimeoutSecs_zero hvalid
    refine ⟨a, as, has, ?_⟩
    rw [limited_of_some hsome, hzero, Dispatcher.make_eq_error herror]
  · rw [limited_of_some hsome, Config.analyzerFor?_withTimeoutSecs]
    rfl

/-- Two analyzers, the first with a limit of its own. -/
def pairConfig (source : Path) : Config where
  analyzers := [
    { name := "a", extensions := ["cs"], command := "a", timeoutSecs := some 9 },
    { name := "b", extensions := ["py"], command := "b" }]
  source := some source

def withPair : World where
  files := ⟨[([Bytes.ofString "techlint.json"], .file (Bytes.ofString
      ("\x7b\"analyzers\":[\x7b\"name\":\"a\",\"extensions\":[\"cs\"],\"command\":\"a\"," ++
        "\"timeout_secs\":9\x7d,\x7b\"name\":\"b\",\"extensions\":[\"py\"]," ++
        "\"command\":\"b\"\x7d]\x7d"))),
    ([Bytes.ofString "src"], .directory),
    ([Bytes.ofString "src", Bytes.ofString "m.py"], .file [])]⟩

def underLimit (t : UInt64) : LintOptions where
  file := .ofString "src/m.py"
  id := "1"
  timeout := some t

/-- Seven seconds are the limit of both analyzers, and none of them can do with zero. -/
theorem config_holds_under_limit_pair :
    ((Config.inForce none (.ofString "/src")).run withPair).1 =
        .ok (pairConfig (.ofString "/techlint.json")) ∧
      (limited (underLimit 7) (pairConfig (.ofString "/techlint.json"))).analyzerFor?
          (.ofString "/src/m.py") =
        some { name := "b", extensions := ["py"], command := "b", timeoutSecs := some 7 } ∧
      (∃ d, Dispatcher.make (limited (underLimit 7) (pairConfig (.ofString "/techlint.json"))) =
        .ok d) ∧
      Dispatcher.make (limited (underLimit 0) (pairConfig (.ofString "/techlint.json"))) =
        .error (.config (.zeroTimeout "a")) := by
  have hgoverning : Config.governing withPair.files withPair.cwd (.ofString "/src") =
      .ok (pairConfig (.ofString "/techlint.json")) := by
    decide +kernel
  have hload : ((Config.inForce none (.ofString "/src")).run withPair).1 =
      .ok (pairConfig (.ofString "/techlint.json")) := by
    rw [Config.fst_run_inForce_none, hgoverning]
    rfl
  have hroute : (pairConfig (.ofString "/techlint.json")).analyzerFor? (.ofString "/src/m.py") =
      some { name := "b", extensions := ["py"], command := "b" } := by
    decide +kernel
  obtain ⟨-, -, hlimit⟩ := config_holds_under_limit hload
  obtain ⟨hmade, -, hsame, -⟩ := hlimit (underLimit 7) 7 rfl
  obtain ⟨-, hrefused, -⟩ := hlimit (underLimit 0) 0 rfl
  obtain ⟨a, as, has, hzero⟩ := hrefused rfl
  obtain ⟨rfl, -⟩ := List.cons.inj has
  exact ⟨hload, by rw [hsame, hroute]; rfl, hmade.mpr (by decide), hzero⟩

end Lint
end LintRelay
