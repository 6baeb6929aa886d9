import LintRelay.Dispatch
/-! What becomes of a request. It is routed, the command is built and fed, the runner is called once,
and what it leaves behind is decoded; apart from that only notes go to the log. The runner is not
called if there is no analyzer for the file, or if the file is to be fed and cannot be read. -/
namespace LintRelay

def World.noted (w : World) (notes : List Event) : World := { w with log := w.log ++ notes }

@[simp] theorem World.noted_nil (w : World) : w.noted [] = w := by
  rw [noted, List.append_nil]

@[simp] theorem World.noted_noted (w : World) (notes more : List Event) :
    (w.noted notes).noted more = w.noted (notes ++ more) := by
  simp only [noted, List.append_assoc]

@[simp] theorem World.started_noted (w : World) (notes : List Event) :
    (w.noted notes).started = w.started := rfl

theorem Act.run_log_noted {ε : Type} (e : Event) (w : World) :
    (log e : Act ε Unit).run w = (.ok (), w.noted [e]) := rfl

theorem Extension.note_run {ε : Type} (p : Path) (w : World) :
    ∃ notes, (note p : Act ε _).run w = (.ok (ofPath? p), w.noted notes) := by
  rw [note]
  cases written? p with
  | none => exact ⟨[], by simp⟩
  | some extension => exact ⟨_, rfl⟩

theorem Config.route_run {ε : Type} (c : Config) (p : Path) (w : World) :
    ∃ notes, (c.route p : Act ε _).run w = (.ok (c.analyzerFor? p), w.noted notes) := by
  obtain ⟨notes, hnote⟩ := @Extension.note_run ε p w
  exact ⟨notes, by rw [route, Act.run_bind, hnote]; rfl⟩

theorem Request.eq_of_make {path : Path} {id : String} {r : Request}
    (h : Request.make path id = .ok r) : r = ⟨path, id⟩ := by
  rw [make] at h
  split at h
  · cases h
  · split at h
    · cases h
    · exact (Except.ok.inj h).symm

theorem Outcome.read_run (o : Outcome) (skipPreamble : Bool) (w : World) :
    ∃ notes, (o.read skipPreamble).run w = (o.decode skipPreamble, w.noted notes) := by
  rw [read]
  cases o.preambleSize? skipPreamble with
  | none => exact ⟨[], by simp⟩
  | some size => exact ⟨_, rfl⟩

namespace Runner

/-- One call of the runner: it fails, or what it leaves behind is decoded and noted. -/
def call (runner : Runner) (command : Command) (skipPreamble : Bool) (after : List Event)
    (w : World) : Except Failure Verdict × World :=
  match (runner.run command).run { w with started := w.started ++ [command] } with
  | (.error e, w') => (.error e, w')
  | (.ok o, w') => (o.decode skipPreamble, w'.noted after)

/-- Commands are handed to this runner, and it hands on none itself. -/
def Quiet (runner : Runner) : Prop :=
  ∀ command w, ((runner.run command).run w).2.started = w.started

theorem Quiet.started_call {runner : Runner} (h : runner.Quiet) (command : Command)
    (skipPreamble : Bool) (after : List Event) (w : World) :
    (runner.call command skipPreamble after w).2.started = w.started ++ [command] := by
  have hrun := h command { w with started := w.started ++ [command] }
  rw [call]
  split
  · next hresult => rwa [hresult] at hrun
  · next hresult =>
    rw [hresult] at hrun
    exact hrun

end Runner

namespace Analyzer

variable {a : Analyzer} {r : Request} {w : World}

theorem judge_run (a : Analyzer) (r : Request) (o : Outcome) (w : World) :
    ∃ notes, (a.judge r o).run w = (o.decode a.skipPreamble, w.noted notes) := by
  obtain ⟨notes, hread⟩ := o.read_run a.skipPreamble w
  rw [judge, Act.run_bind, hread]
  cases o.decode a.skipPreamble with
  | error e => exact ⟨notes, rfl⟩
  | ok v =>
    refine ⟨notes ++ [a.noteVerdict r v], ?_⟩
    simp only [Act.run_bind, Act.run_log_noted, Act.run_pure, World.noted_noted]

/-- What an analyzer is fed in a world: nothing, or the content of the file. -/
def Fed (a : Analyzer) (w : World) (p : Path) (stdin : Option Bytes) : Prop :=
  match a.transport with
  | .path => stdin = none
  | .stdin => ∃ content, w.files.read w.cwd p = .ok content ∧ stdin = some content

/-- The file is to be fed to the analyzer, and reading it fails. -/
def Unfed (a : Analyzer) (w : World) (p : Path) (e : IoError) : Prop :=
  a.transport = .stdin ∧ w.files.read w.cwd p = .error e

theorem unfed_or_fed (a : Analyzer) (w : World) (p : Path) :
    (∃ e, a.Unfed w p e) ∨ ∃ stdin, a.Fed w p stdin := by
  cases htransport : a.transport with
  | path => exact Or.inr ⟨none, by simp [Fed, htransport]⟩
  | stdin =>
    cases hread : w.files.read w.cwd p with
    | error e => exact Or.inl ⟨e, htransport, hread⟩
    | ok content => exact Or.inr ⟨some content, by simp [Fed, htransport, hread]⟩

theorem not_fed_of_unfed {p : Path} {e : IoError} {stdin : Option Bytes} (h : a.Unfed w p e) :
    ¬ a.Fed w p stdin := by
  obtain ⟨htransport, hread⟩ := h
  simp [Fed, htransport, hread]

theorem feed_run_of_unfed {e : IoError} (h : a.Unfed w r.path e) :
    (a.feed r).run w = (.error (.io e), w) := by
  obtain ⟨htransport, hread⟩ := h
  simp only [feed, htransport, Act.run_bind, Act.run_because, Act.run_readPath, hread]
  rfl

theorem feed_run_of_fed {stdin : Option Bytes} (h : a.Fed w r.path stdin) :
    ∃ notes, (a.feed r).run w = (.ok { a.commandFor r with stdin := stdin }, w.noted notes) := by
  cases htransport : a.transport with
  | path =>
    obtain rfl : stdin = none := by simpa [Fed, htransport] using h
    exact ⟨[], by simp only [feed, htransport, Act.run_pure, World.noted_nil]; rfl⟩
  | stdin =>
    obtain ⟨content, hread, rfl⟩ : ∃ content, w.files.read w.cwd r.path = .ok content ∧
        stdin = some content := by simpa [Fed, htransport] using h
    refine ⟨[.streaming content.length r.path], ?_⟩
    simp only [feed, htransport, Act.run_bind, Act.run_because, Act.run_readPath, hread]
    rfl

/-- The runner is called with the command that was fed, and what it gives is decoded. -/
theorem invoke_run_of_fed {stdin : Option Bytes} (h : a.Fed w r.path stdin) (runner : Runner) :
    ∃ before after, (a.invoke runner r).run w =
      runner.call { a.commandFor r with stdin := stdin } a.skipPreamble after (w.noted before) := by
  obtain ⟨notes, hfeed⟩ := feed_run_of_fed h
  generalize { a.commandFor r with stdin := stdin } = command at hfeed ⊢
  let before := notes ++ [.invoking a.name runner.name command.line]
  cases hstart : (runner.start command).run (w.noted before) with
  | mk result w' =>
    have hrun : (runner.run command).run
        { w.noted before with started := (w.noted before).started ++ [command] } =
          (result, w') := hstart
    cases result with
    | error e =>
      refine ⟨before, [], ?_⟩
      simp only [invoke, Act.run_bind, hfeed, Act.run_log_noted, World.noted_noted, Runner.call, hrun]
      rw [hstart]
    | ok o =>
      obtain ⟨after, hjudge⟩ := a.judge_run r o w'
      refine ⟨before, after, ?_⟩
      simp only [invoke, Act.run_bind, hfeed, Act.run_log_noted, World.noted_noted, Runner.call, hrun]
      rw [hstart]
      exact hjudge

theorem commandFor_eq (a : Analyzer) (r : Request) :
    a.commandFor r =
      { program := a.command, args := a.args.map Bytes.ofString ++ [r.path.bytes, Bytes.ofString r.id],
        workingDir := a.workingDir, env := a.env.vars, timeout := a.timeout, stdin := none } := by
  simp [commandFor, baseCommand, Command.withArg]

end Analyzer

namespace Dispatcher

variable {d : Dispatcher} {p : Path} {w : World}

theorem make_eq_ok {c : Config} (h : c.validate = .ok ()) : make c = .ok ⟨c, h⟩ := by
  rw [make]
  split
  · rfl
  · next hfail =>
    rw [h] at hfail
    cases hfail

theorem select_run_of_eq_none (h : d.config.analyzerFor? p = none) (w : World) :
    ∃ notes, (d.select p).run w = (.error (.unsupported p), w.noted notes) := by
  obtain ⟨notes, hroute⟩ := @Config.route_run Failure d.config p w
  refine ⟨notes, ?_⟩
  simp only [select, analyzerFor, Act.run_bind, hroute, h, Act.run_throw]

theorem select_run_of_eq_some {a : Analyzer} (h : d.config.analyzerFor? p = some a) (w : World) :
    ∃ notes, (d.select p).run w = (.ok a, w.noted notes) := by
  obtain ⟨notes, hroute⟩ := @Config.route_run Failure d.config p w
  refine ⟨notes ++ [.routing p a.name], ?_⟩
  simp only [select, analyzerFor, Act.run_bind, hroute, h, Act.run_pure, Act.run_log_noted,
    World.noted_noted]

theorem dispatch_run_of_eq_none (d : Dispatcher) (r : Request)
    (h : d.config.analyzerFor? r.path = none) (runner : Runner) (w : World) :
    ∃ notes, (d.dispatch runner r).run w = (.error (.unsupported r.path), w.noted notes) := by
  obtain ⟨notes, hselect⟩ := select_run_of_eq_none h w
  exact ⟨notes, by rw [dispatch, Act.run_bind, hselect]⟩

theorem dispatch_run_of_unfed (d : Dispatcher) (r : Request) {a : Analyzer} {e : IoError}
    (h : d.config.analyzerFor? r.path = some a) (hunfed : a.Unfed w r.path e) (runner : Runner) :
    ∃ notes, (d.dispatch runner r).run w = (.error (.io e), w.noted notes) := by
  obtain ⟨notes, hselect⟩ := select_run_of_eq_some h w
  have hfeed : (a.feed r).run (w.noted notes) = (.error (.io e), w.noted notes) :=
    Analyzer.feed_run_of_unfed hunfed
  refine ⟨notes, ?_⟩
  simp only [dispatch, Act.run_bind, hselect, Analyzer.invoke, hfeed]

theorem dispatch_run_of_fed (d : Dispatcher) (r : Request) {a : Analyzer} {stdin : Option Bytes}
    (h : d.config.analyzerFor? r.path = some a) (hfed : a.Fed w r.path stdin) (runner : Runner) :
    ∃ before after, (d.dispatch runner r).run w =
      runner.call { a.commandFor r with stdin := stdin } a.skipPreamble after (w.noted before) := by
  obtain ⟨notes, hselect⟩ := select_run_of_eq_some h w
  have hfed' : a.Fed (w.noted notes) r.path stdin := hfed
  obtain ⟨before, after, hinvoke⟩ := Analyzer.invoke_run_of_fed hfed' runner
  refine ⟨notes ++ before, after, ?_⟩
  rw [dispatch, Act.run_bind, hselect]
  simpa using hinvoke

/-- With a runner that hands on no commands itself, at most one command is started, and none only if
there is no analyzer or nothing to feed it. -/
theorem started_dispatch {runner : Runner} (hquiet : runner.Quiet) (d : Dispatcher) (r : Request)
    (w : World) :
    (((d.dispatch runner r).run w).2.started = w.started ∧
        (d.config.analyzerFor? r.path = none ∨
          ∃ a e, d.config.analyzerFor? r.path = some a ∧ a.Unfed w r.path e)) ∨
      ∃ a stdin, d.config.analyzerFor? r.path = some a ∧ a.Fed w r.path stdin ∧
        ((d.dispatch runner r).run w).2.started =
          w.started ++ [{ a.commandFor r with stdin := stdin }] := by
  cases h : d.config.analyzerFor? r.path with
  | none =>
    obtain ⟨notes, hrun⟩ := d.dispatch_run_of_eq_none r h runner w
    exact Or.inl ⟨by rw [hrun]; rfl, Or.inl rfl⟩
  | some a =>
    rcases a.unfed_or_fed w r.path with ⟨e, hunfed⟩ | ⟨stdin, hfed⟩
    · obtain ⟨notes, hrun⟩ := d.dispatch_run_of_unfed r h hunfed runner
      exact Or.inl ⟨by rw [hrun]; rfl, Or.inr ⟨a, e, rfl, hunfed⟩⟩
    · obtain ⟨before, after, hrun⟩ := d.dispatch_run_of_fed r h hfed runner
      refine Or.inr ⟨a, stdin, rfl, hfed, ?_⟩
      rw [hrun, hquiet.started_call, World.started_noted]

/-- What a dispatcher does with a request: it routes the path, builds the command, feeds it and
decodes what the runner gives. Each way to stop early is one case. -/
theorem dispatch_stages {c : Config} {path : Path} {id : String} {r : Request}
    (hc : c.validate = .ok ()) (hr : Request.make path id = .ok r) (runner : Runner) (w : World) :
    make c = .ok ⟨c, hc⟩ ∧
      (c.analyzerFor? path = none → ∃ notes,
        (dispatch ⟨c, hc⟩ runner r).run w = (.error (.unsupported path), w.noted notes)) ∧
      (∀ a e, c.analyzerFor? path = some a → a.transport = .stdin →
        w.files.read w.cwd path = .error e → ∃ notes,
          (dispatch ⟨c, hc⟩ runner r).run w = (.error (.io e), w.noted notes)) ∧
      (∀ a stdin, c.analyzerFor? path = some a → a.Fed w path stdin →
        ∃ command before after,
          command = { program := a.command,
                      args := a.args.map Bytes.ofString ++ [path.bytes, Bytes.ofString id],
                      workingDir := a.workingDir, env := a.env.vars, timeout := a.timeout,
                      stdin := stdin } ∧
            { command with stdin := none } = a.commandFor r ∧
            (dispatch ⟨c, hc⟩ runner r).run w =
              runner.call command a.skipPreamble after (w.noted before)) ∧
      (runner.Quiet →
        (((dispatch ⟨c, hc⟩ runner r).run w).2.started = w.started ∨
            ∃ command, ((dispatch ⟨c, hc⟩ runner r).run w).2.started = w.started ++ [command]) ∧
          (((dispatch ⟨c, hc⟩ runner r).run w).2.started = w.started ↔
            c.analyzerFor? path = none ∨ ∃ a e, c.analyzerFor? path = some a ∧
              a.transport = .stdin ∧ w.files.read w.cwd path = .error e)) := by
  obtain rfl : r = ⟨path, id⟩ := Request.eq_of_make hr
  refine ⟨make_eq_ok hc, fun hnone => dispatch_run_of_eq_none ⟨c, hc⟩ ⟨path, id⟩ hnone runner w,
    fun a e ha htransport hread =>
      dispatch_run_of_unfed ⟨c, hc⟩ ⟨path, id⟩ ha ⟨htransport, hread⟩ runner,
    fun a stdin ha hfed => ?_, fun hquiet => ?_⟩
  · obtain ⟨before, after, hrun⟩ := dispatch_run_of_fed ⟨c, hc⟩ ⟨path, id⟩ ha hfed runner
    refine ⟨{ a.commandFor ⟨path, id⟩ with stdin := stdin }, before, after, ?_, ?_, hrun⟩
    · rw [a.commandFor_eq]
    · rw [a.commandFor_eq]
  · rcases started_dispatch hquiet ⟨c, hc⟩ ⟨path, id⟩ w with ⟨hstarted, hstop⟩ |
      ⟨a, stdin, ha, hfed, hstarted⟩
    · exact ⟨Or.inl hstarted, fun _ => hstop, fun _ => hstarted⟩
    · refine ⟨Or.inr ⟨_, hstarted⟩, fun hsame => ?_, fun hstop => ?_⟩
      · rw [hstarted] at hsame
        exact absurd (List.append_right_eq_self.mp hsame) (List.cons_ne_nil _ _)
      · -- What was fed was read, so none of the ways to stop was taken.
        rcases hstop with hnone | ⟨a', e, ha', htransport, hread⟩
        · exact absurd (ha.symm.trans hnone) (by simp)
        · obtain rfl : a = a' := Option.some.inj (ha.symm.trans ha')
          exact absurd hfed (Analyzer.not_fed_of_unfed ⟨htransport, hread⟩)

def reader : Analyzer where
  name := "reader"
  extensions := ["py"]
  command := "reader"
  args := ["--stdin"]
  transport := .stdin

def oneFile : World where
  files := ⟨[([Bytes.ofString "m.py"], .file (Bytes.ofString "x"))]⟩

theorem dispatch_stages_reader :
    ∃ hc : Config.validate ⟨[reader], none⟩ = .ok (),
      (∃ before after,
        (dispatch ⟨⟨[reader], none⟩, hc⟩ (.scripted (.ok {})) ⟨.ofString "m.py", "7"⟩).run oneFile =
          (Runner.scripted (.ok {})).call
            { program := "reader", args := ["--stdin", "m.py", "7"].map Bytes.ofString,
              stdin := some (Bytes.ofString "x") } false after (oneFile.noted before)) ∧
      ∃ notes,
        (dispatch ⟨⟨[reader], none⟩, hc⟩ (.scripted (.ok {})) ⟨.ofString "n.py", "7"⟩).run oneFile =
          (.error (.io .noEntry), oneFile.noted notes) := by
  have hc : Config.validate ⟨[reader], none⟩ = .ok () := rfl
  have hroute : ∀ p ∈ [Path.ofString "m.py", Path.ofString "n.py"],
      Config.analyzerFor? ⟨[reader], none⟩ p = some reader := by decide +kernel
  refine ⟨hc, ?_, ?_⟩
  · obtain ⟨-, -, -, hfed, -⟩ := dispatch_stages hc
      (rfl : Request.make (.ofString "m.py") "7" = .ok _) (.scripted (.ok {})) oneFile
    obtain ⟨command, before, after, rfl, -, hrun⟩ := hfed reader (some (Bytes.ofString "x"))
      (hroute _ (by simp)) ⟨_, rfl, rfl⟩
    exact ⟨before, after, hrun⟩
  · obtain ⟨-, -, hunfed, -, -⟩ := dispatch_stages hc
      (rfl : Request.make (.ofString "n.py") "7" = .ok _) (.scripted (.ok {})) oneFile
    exact hunfed reader .noEntry (hroute _ (by simp)) rfl rfl

end Dispatcher
end LintRelay
