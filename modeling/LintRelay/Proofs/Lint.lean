import LintRelay.ChildProcess
import LintRelay.Proofs.Dispatch
import LintRelay.Proofs.Governing
import LintRelay.Proofs.Unread
/-! How linting a file ends. Before an analyzer is involved, nothing is left behind but notes. A dry
run then shows the command and stops. Otherwise the request is dispatched, and the verdict decides
the exit code, what is printed and whether issues are written. -/
namespace LintRelay

theorem Act.run_bind_eq_ok {ε α β : Type} {act : Act ε α} {f : α → Act ε β} {w w' : World} {b : β} :
    (act >>= f).run w = (.ok b, w') ↔
      ∃ a w₁, act.run w = (.ok a, w₁) ∧ (f a).run w₁ = (.ok b, w') := by
  rw [run_bind]
  cases act.run w with
  | mk result w₁ => cases result <;> simp

theorem Act.run_because_eq_ok {ε δ α : Type} {f : ε → δ} {act : Act ε α} {w w' : World} {a : α} :
    (because f act).run w = (.ok a, w') ↔ act.run w = (.ok a, w') := by
  rw [run_because]
  cases act.run w with
  | mk result w₁ => cases result <;> simp [Except.mapError]

/-- An action that leaves nothing behind but notes in the log. -/
def Act.OnlyNotes {ε α : Type} (act : Act ε α) : Prop :=
  ∀ w, ∃ notes, (act.run w).2 = w.noted notes

namespace Act.OnlyNotes

variable {ε δ α β : Type}

theorem pure (a : α) : (Pure.pure a : Act ε α).OnlyNotes := fun w => ⟨[], by simp⟩

theorem ofExcept (e : Except ε α) : (Act.ofExcept e).OnlyNotes := fun w => ⟨[], by simp⟩

theorem readPath (p : Path) : (Act.readPath p).OnlyNotes := fun w => ⟨[], by simp⟩

theorem log (e : Event) : (Act.log e : Act ε Unit).OnlyNotes := fun _ => ⟨[e], rfl⟩

theorem because (f : ε → δ) {act : Act ε α} (h : act.OnlyNotes) :
    (Act.because f act).OnlyNotes := fun w => h w

theorem bind {act : Act ε α} {f : α → Act ε β} (h : act.OnlyNotes) (hf : ∀ a, (f a).OnlyNotes) :
    (act >>= f).OnlyNotes := by
  intro w
  obtain ⟨notes, hact⟩ := h w
  rw [Act.run_bind]
  cases hrun : act.run w with
  | mk result w' =>
    obtain rfl : w' = w.noted notes := by simpa [hrun] using hact
    cases result with
    | error e => exact ⟨notes, rfl⟩
    | ok a =>
      obtain ⟨more, hmore⟩ := hf a (w.noted notes)
      exact ⟨notes ++ more, by rw [← World.noted_noted]; exact hmore⟩

end Act.OnlyNotes

namespace Config

theorem onlyNotes_load (path : Path) : (load path).OnlyNotes :=
  .bind (.because _ (.readPath path)) fun data =>
    .bind (.ofExcept (ofFile path data)) fun c => .bind (.log _) fun _ => .pure c

theorem onlyNotes_discover (start : Path) : (discover start).OnlyNotes := by
  refine .bind (fun w => ⟨[], (World.noted_nil w).symm⟩) fun found => ?_
  cases found with
  | none => exact .bind (.log _) fun _ => .pure _
  | some path => exact onlyNotes_load path

theorem onlyNotes_inForce (explicit : Option Path) (start : Path) :
    (inForce explicit start).OnlyNotes := by
  cases explicit with
  | none => exact .because _ (onlyNotes_discover start)
  | some path => exact .bind (.log _) fun _ => .because _ (onlyNotes_load path)

end Config

namespace Runner

/-- A runner that reaches nothing of the world but the files and the log: what a child process
prints comes back as its outcome. -/
def Contained (runner : Runner) : Prop :=
  ∀ command w, ∃ files log,
    ((runner.run command).run w).2 = { w with files := files, log := log }

/-- What lies between two worlds is at most one run of a command: none was started and the files are
as they were, or one was started and they are as its run left them. All else but the log is the
same. -/
structure Leaves (runner : Runner) (w after : World) : Prop where
  rest : after = { w with files := after.files, log := after.log, started := after.started }
  child : after.started = w.started ∧ after.files = w.files ∨
    ∃ command before, after.started = w.started ++ [command] ∧ before.files = w.files ∧
      before.cwd = w.cwd ∧ after.files = ((runner.run command).run before).2.files

variable {runner : Runner} {w after : World}

theorem Leaves.noted_left {notes : List Event} (h : runner.Leaves (w.noted notes) after) :
    runner.Leaves w after := ⟨h.rest, h.child⟩

theorem leaves_noted (runner : Runner) (w : World) (notes : List Event) :
    runner.Leaves w (w.noted notes) := ⟨rfl, Or.inl ⟨rfl, rfl⟩⟩

theorem contained_scripted (answer : Except Failure Outcome) : (scripted answer).Contained :=
  fun _ w => ⟨w.files, w.log, rfl⟩

theorem Contained.leaves_call (h : runner.Contained) (command : Command) (skipPreamble : Bool)
    (notes : List Event) (w : World) :
    runner.Leaves w (runner.call command skipPreamble notes w).2 := by
  let before : World := { w with started := w.started ++ [command] }
  obtain ⟨files, log, hrun⟩ := h command before
  cases hresult : (runner.run command).run before with
  | mk result w' =>
    obtain rfl : w' = { before with files := files, log := log } := by simpa [hresult] using hrun
    have hfiles : files = ((runner.run command).run before).2.files := by rw [hresult]
    simp only [call, before] at hresult ⊢
    rw [hresult]
    cases result <;> exact ⟨rfl, Or.inr ⟨command, before, rfl, rfl, rfl, hfiles⟩⟩

end Runner

/-- Child processes change files and nothing else. -/
theorem ChildProcess.contained_runner : runner.Contained := by
  intro command w
  change ∃ files log, ((run command).run w).2 = _
  simp only [run, Act.run_bind, Act.run_log, Act.run_get, Act.run_because, Act.run_ofExcept]
  cases spawn _ command with
  | error e => exact ⟨w.files, _, rfl⟩
  | ok k =>
    simp only [Except.mapError, Act.run_modify]
    split
    · exact ⟨_, _, rfl⟩
    · split
      · exact ⟨_, _, rfl⟩
      · exact ⟨_, _, rfl⟩

theorem Dispatcher.leaves_dispatch {runner : Runner} (hrunner : runner.Contained) (d : Dispatcher)
    (r : Request) (w : World) : runner.Leaves w ((d.dispatch runner r).run w).2 := by
  cases h : d.config.analyzerFor? r.path with
  | none =>
    obtain ⟨notes, hrun⟩ := d.dispatch_run_of_eq_none r h runner w
    rw [hrun]
    exact runner.leaves_noted w notes
  | some a =>
    rcases a.unfed_or_fed w r.path with ⟨e, hunfed⟩ | ⟨stdin, hfed⟩
    · obtain ⟨notes, hrun⟩ := d.dispatch_run_of_unfed r h hunfed runner
      rw [hrun]
      exact runner.leaves_noted w notes
    · obtain ⟨before, after, hrun⟩ := d.dispatch_run_of_fed r h hfed runner
      rw [hrun]
      exact (hrunner.leaves_call _ _ _ _).noted_left

namespace Lint

open CommandLine

/-- All that comes before an analyzer is involved: the target, the configuration in force there with
the time limit of the command line, and the request. -/
def ready (options : LintOptions) : Act Trouble (Dispatcher × Request) := do
  let (path, config) ← prepare options
  let dispatcher ← Act.because .plain (Act.ofExcept (Dispatcher.make (limited options config)))
  let request ← Act.because .plain (Act.ofExcept (Request.make path options.id))
  return (dispatcher, request)

/-- The rest of a dry run. -/
def showCommand (d : Dispatcher) (r : Request) : Act Trouble Nat := do
  let a ← Act.because .plain (d.select r.path)
  Act.print (preview (a.commandFor r))
  return 0

/-- The rest of any other run. -/
def lintReady (runner : Runner) (options : LintOptions) (d : Dispatcher) (r : Request) :
    Act Trouble Nat := do
  Act.log (.linting r.path r.id)
  conclude options (← Act.because (.lint options.file) (d.dispatch runner r))

variable {runner : Runner} {options : LintOptions} {w w' : World} {d : Dispatcher} {r : Request}

theorem run_eq (runner : Runner) (options : LintOptions) (w : World) :
    (run runner options).run w =
      match (ready options).run w with
      | (.ok (d, r), w') =>
        if options.dryRun then (showCommand d r).run w' else (lintReady runner options d r).run w'
      | (.error t, w') => (.error t, w') := by
  simp only [run, ready, Act.run_bind]
  cases (prepare options).run w with
  | mk prepared w' =>
    cases prepared with
    | error t => rfl
    | ok pair =>
      obtain ⟨path, config⟩ := pair
      simp only [Act.run_because, Act.run_ofExcept]
      cases Dispatcher.make (limited options config) with
      | error f => rfl
      | ok d =>
        cases hrequest : Request.make path options.id with
        | error f => rfl
        | ok r =>
          obtain rfl := Request.eq_of_make hrequest
          cases options.dryRun <;> rfl

theorem lintReady_run (runner : Runner) (options : LintOptions) (d : Dispatcher) (r : Request)
    (w : World) :
    (lintReady runner options d r).run w =
      match (d.dispatch runner r).run (w.noted [.linting r.path r.id]) with
      | (.error f, left) => (.error (.lint options.file f), left)
      | (.ok v, left) => (conclude options v).run left := by
  simp only [lintReady, Act.run_bind, Act.run_log_noted, Act.run_because]
  cases (d.dispatch runner r).run (w.noted [.linting r.path r.id]) with
  | mk result left => cases result <;> rfl

theorem path_of_ready (h : (ready options).run w = (.ok (d, r), w')) :
    r.path = Path.absolute w.cwd.path options.file := by
  obtain ⟨⟨target, config⟩, w₁, hprepare, hmake⟩ := Act.run_bind_eq_ok.mp h
  obtain ⟨path, w₂, htarget, hload⟩ := Act.run_bind_eq_ok.mp hprepare
  obtain ⟨loaded, w₃, -, hpair⟩ := Act.run_bind_eq_ok.mp hload
  obtain ⟨d', w₄, -, hrest⟩ := Act.run_bind_eq_ok.mp hmake
  obtain ⟨r', w₅, hrequest, hdone⟩ := Act.run_bind_eq_ok.mp hrest
  obtain ⟨rfl, -, -⟩ := of_target_run htarget
  obtain ⟨rfl, -⟩ := Prod.mk.inj (Except.ok.inj (Prod.mk.inj hpair).1)
  obtain ⟨-, rfl⟩ := Prod.mk.inj (Except.ok.inj (Prod.mk.inj hdone).1)
  rw [Act.run_because_eq_ok, Act.run_ofExcept] at hrequest
  rw [Request.eq_of_make (Prod.mk.inj hrequest).1]

theorem onlyNotes_ready (options : LintOptions) : (ready options).OnlyNotes := by
  have htarget : (target options.file).OnlyNotes := by
    intro w
    rw [target_run]
    refine ⟨[], ?_⟩
    split
    · simp
    · split <;> simp
  have hprepare : (prepare options).OnlyNotes :=
    .bind htarget fun _ => .bind (Config.onlyNotes_inForce _ _) fun _ => .pure _
  exact .bind hprepare fun _ => .bind (.because _ (.ofExcept _)) fun _ =>
    .bind (.because _ (.ofExcept _)) fun _ => .pure _

theorem showCommand_run_of_eq_none (h : d.config.analyzerFor? r.path = none) (w : World) :
    ∃ notes, (showCommand d r).run w = (.error (.plain (.unsupported r.path)), w.noted notes) := by
  obtain ⟨notes, hselect⟩ := Dispatcher.select_run_of_eq_none h w
  refine ⟨notes, ?_⟩
  simp only [showCommand, Act.run_bind, Act.run_because, hselect, Except.mapError]

theorem showCommand_run_of_eq_some {a : Analyzer} (h : d.config.analyzerFor? r.path = some a)
    (w : World) :
    ∃ notes, (showCommand d r).run w =
      (.ok 0, { w.noted notes with stdout := w.stdout ++ preview (a.commandFor r) }) := by
  obtain ⟨notes, hselect⟩ := Dispatcher.select_run_of_eq_some h w
  refine ⟨notes, ?_⟩
  simp only [showCommand, Act.run_bind, Act.run_because, hselect, Except.mapError]
  rfl

/-- What the dispatcher gave and the world it left, if a request came that far. -/
def dispatched? (runner : Runner) (options : LintOptions) (w : World) :
    Option (Except Failure Verdict × World) :=
  match (ready options).run w with
  | (.ok (d, r), w') =>
    if options.dryRun then none
    else some ((d.dispatch runner r).run (w'.noted [.linting r.path r.id]))
  | (.error _, _) => none

/-- The analyzer and the request that a run comes to. -/
def routed? (options : LintOptions) (w : World) : Option (Analyzer × Request) :=
  match (ready options).run w with
  | (.ok (d, r), _) => (d.config.analyzerFor? r.path).map fun a => (a, r)
  | (.error _, _) => none

def issuesBytes (found : List Issue) : Bytes :=
  Bytes.ofString ((issuesJson found).prettyText ++ "\n")

def printed (options : LintOptions) (found : List Issue) (w : World) : World :=
  { w with stdout := w.stdout ++ rendered options.format options.file found }

theorem conclude_run_unasked (h : options.output = none) (found : List Issue) (w : World) :
    (conclude options (.issues found)).run w = (.ok 0, printed options found w) := by
  rw [conclude, h]
  rfl

theorem conclude_run_unwritten {p : Path} {found : List Issue} {e : IoError}
    (h : options.output = some p) (hwrite : w.files.write w.cwd p (issuesBytes found) = .error e) :
    (conclude options (.issues found)).run w =
      (.error (.issuesUnwritten p e), printed options found w) := by
  have hbytes : w.files.write w.cwd p (Bytes.ofString (issuesText found)) = .error e := hwrite
  simp only [conclude, h, Act.run_bind, Act.print, Act.run_modify, writeIssues, Act.run_because,
    Act.run_writePath, hbytes]
  rfl

theorem conclude_run_written {p : Path} {found : List Issue} {files : FileSystem}
    (h : options.output = some p) (hwrite : w.files.write w.cwd p (issuesBytes found) = .ok files) :
    (conclude options (.issues found)).run w =
      (.ok 0, { printed options found w with files := files }.noted
        [.wroteIssues found.length p]) := by
  have hbytes : w.files.write w.cwd p (Bytes.ofString (issuesText found)) = .ok files := hwrite
  simp only [conclude, h, Act.run_bind, Act.print, Act.run_modify, writeIssues, Act.run_because,
    Act.run_writePath, hbytes]
  rfl

theorem run_of_dispatched {result : Except Failure Verdict} {left : World}
    (h : dispatched? runner options w = some (result, left)) :
    options.dryRun = false ∧ (run runner options).run w =
      match result with
      | .error f => (.error (.lint options.file f), left)
      | .ok v => (conclude options v).run left := by
  rw [dispatched?] at h
  rw [run_eq]
  cases hready : (ready options).run w with
  | mk outcome w' =>
    rw [hready] at h
    cases outcome with
    | error t => cases h
    | ok pair =>
      obtain ⟨d, r⟩ := pair
      cases hdry : options.dryRun with
      | true => simp [hdry] at h
      | false =>
        simp only [hdry, Bool.false_eq_true, if_false, Option.some.injEq] at h ⊢
        refine ⟨trivial, ?_⟩
        rw [lintReady_run, h]
        cases result <;> rfl

/-- Up to the verdict, a run leaves behind what the analyzer does and notes. -/
theorem leaves_of_dispatched (hrunner : runner.Contained) {result : Except Failure Verdict}
    {left : World} (h : dispatched? runner options w = some (result, left)) :
    runner.Leaves w left := by
  obtain ⟨notes, hnotes⟩ := onlyNotes_ready options w
  rw [dispatched?] at h
  cases hready : (ready options).run w with
  | mk outcome w' =>
    rw [hready] at h hnotes
    cases outcome with
    | error t => cases h
    | ok pair =>
      obtain ⟨d, r⟩ := pair
      cases hdry : options.dryRun with
      | true => simp [hdry] at h
      | false =>
        simp only [hdry, Bool.false_eq_true, if_false, Option.some.injEq] at h
        have hleaves := d.leaves_dispatch hrunner r (w'.noted [.linting r.path r.id])
        rw [h] at hleaves
        obtain rfl : w' = w.noted notes := hnotes
        exact hleaves.noted_left.noted_left

/-- A run without a dispatch is a dry run that shows a command, or it stops with a reason; only
notes are left besides. -/
theorem run_of_not_dispatched (h : dispatched? runner options w = none) :
    (∃ a r notes, options.dryRun = true ∧ routed? options w = some (a, r) ∧
      (run runner options).run w =
        (.ok 0, { w.noted notes with stdout := w.stdout ++ preview (a.commandFor r) })) ∨
    ∃ t notes, (options.dryRun = true → routed? options w = none) ∧
      (run runner options).run w = (.error t, w.noted notes) := by
  obtain ⟨notes, hnotes⟩ := onlyNotes_ready options w
  rw [run_eq, routed?]
  rw [dispatched?] at h
  cases hready : (ready options).run w with
  | mk outcome w' =>
    rw [hready] at h hnotes
    obtain rfl : w' = w.noted notes := hnotes
    cases outcome with
    | error t => exact Or.inr ⟨t, notes, fun _ => rfl, rfl⟩
    | ok pair =>
      obtain ⟨d, r⟩ := pair
      have hdry : options.dryRun = true := by
        by_contra hne
        simp [hne] at h
      simp only [hdry, if_true]
      cases hroute : d.config.analyzerFor? r.path with
      | none =>
        obtain ⟨more, hshow⟩ := showCommand_run_of_eq_none hroute (w.noted notes)
        exact Or.inr ⟨_, notes ++ more, fun _ => rfl, by rw [hshow, World.noted_noted]⟩
      | some a =>
        obtain ⟨more, hshow⟩ := showCommand_run_of_eq_some hroute (w.noted notes)
        exact Or.inl ⟨a, r, notes ++ more, trivial, rfl, by rw [hshow, World.noted_noted]; rfl⟩

/-- A dry run that comes to an analyzer shows its command. -/
theorem run_of_routed (runner : Runner) {a : Analyzer} (hdry : options.dryRun = true)
    (h : routed? options w = some (a, r)) :
    ((run runner options).run w).1 = .ok 0 ∧
      ((run runner options).run w).2.stdout = w.stdout ++ preview (a.commandFor r) := by
  have hnot : dispatched? runner options w = none := by
    rw [dispatched?]
    split
    · rw [if_pos hdry]
    · rfl
  rcases run_of_not_dispatched hnot with ⟨a', r', notes, -, hrouted, hrun⟩ | ⟨t, notes, hnone, -⟩
  · obtain ⟨rfl, rfl⟩ := Prod.mk.inj (Option.some.inj (h.symm.trans hrouted))
    rw [hrun]
    exact ⟨rfl, rfl⟩
  · rw [hnone hdry] at h
    cases h

/-! ### The accounts of a run -/

/-- The issues are to go to a device. It may be the standard output itself, or keep nothing. -/
def ToDevice (options : LintOptions) (w : World) : Prop :=
  ∃ p device, options.output = some p ∧ w.files.entry? w.cwd p = some (.device device)

/-- What is printed and written when there are issues. The file gets the bytes that are printed in
its format, whatever the format of the run is, and no other place changes. A path that takes not even
an empty file is left as it was. -/
structure Reports (options : LintOptions) (found : List Issue) (left : World)
    (outcome : Except Trouble Nat) (after : World) : Prop where
  text : options.format = .text → ¬ ToDevice options left →
    after.stdout = left.stdout ++ (report options.file.display found ++ "\n")
  json : options.format = .json → ¬ ToDevice options left →
    after.stdout = left.stdout ++ ((issuesJson found).prettyText ++ "\n")
  unasked : options.output = none → outcome = .ok 0 ∧ after.files = left.files
  unwritten : ∀ p e, options.output = some p →
    left.files.write left.cwd p (issuesBytes found) = .error e →
      outcome = .error (.issuesUnwritten p e) ∧
        ∀ e', left.files.write left.cwd p [] = .error e' → after.files = left.files
  written : ∀ p files, options.output = some p →
    left.files.write left.cwd p (issuesBytes found) = .ok files →
      outcome = .ok 0 ∧ after.files = files ∧
        (¬ ToDevice options left →
          after.files.entry? after.cwd p = some (.file (issuesBytes found)))
  frame : ∀ place, after.files.get? place ≠ left.files.get? place →
    ∃ p t, options.output = some p ∧ left.files.resolve left.cwd p = .ok t ∧ place = t.place

theorem reports_conclude (options : LintOptions) (found : List Issue) (left : World) :
    Reports options found left ((conclude options (.issues found)).run left).1
      ((conclude options (.issues found)).run left).2 := by
  have htext : options.format = .text → ¬ ToDevice options left →
      (printed options found left).stdout =
        left.stdout ++ (report options.file.display found ++ "\n") := by
    intro h _
    simp [printed, rendered, h]
  have hjson : options.format = .json → ¬ ToDevice options left →
      (printed options found left).stdout =
        left.stdout ++ ((issuesJson found).prettyText ++ "\n") := by
    intro h _
    simp [printed, rendered, issuesText, h]
  cases hout : options.output with
  | none =>
    rw [conclude_run_unasked hout]
    exact ⟨htext, hjson, fun _ => ⟨rfl, rfl⟩, by simp [hout], by simp [hout],
      fun _ hchanged => absurd rfl hchanged⟩
  | some p =>
    cases hwrite : left.files.write left.cwd p (issuesBytes found) with
    | error e =>
      rw [conclude_run_unwritten hout hwrite]
      refine ⟨htext, hjson, by simp [hout], fun q e' hq he' => ?_, fun q files hq hfiles => ?_,
        fun _ hchanged => absurd rfl hchanged⟩
      · obtain rfl : p = q := Option.some.inj (hout.symm.trans hq)
        obtain rfl : e = e' := Except.error.inj (hwrite.symm.trans he')
        exact ⟨rfl, fun _ _ => rfl⟩
      · obtain rfl : p = q := Option.some.inj (hout.symm.trans hq)
        exact absurd (hwrite.symm.trans hfiles) (by simp)
    | ok files =>
      rw [conclude_run_written hout hwrite]
      refine ⟨htext, hjson, by simp [hout], fun q e hq he => ?_, fun q files' hq hfiles => ?_,
        fun place hchanged => ?_⟩
      · obtain rfl : p = q := Option.some.inj (hout.symm.trans hq)
        exact absurd (hwrite.symm.trans he) (by simp)
      · obtain rfl : p = q := Option.some.inj (hout.symm.trans hq)
        obtain rfl : files = files' := Except.ok.inj (hwrite.symm.trans hfiles)
        exact ⟨rfl, rfl, fun hordinary => FileSystem.entry?_of_write hwrite fun device hdevice =>
          hordinary ⟨p, device, hout, hdevice⟩⟩
      · obtain ⟨t, hresolve, hplace⟩ := FileSystem.get?_of_write hwrite place hchanged
        exact ⟨p, t, hout, hresolve, hplace⟩

theorem Reports.outcome_cases {found : List Issue} {left after : World}
    {outcome : Except Trouble Nat} (h : Reports options found left outcome after) :
    (outcome = .ok 0 ∧ ∀ p, options.output = some p →
      ∃ files, left.files.write left.cwd p (issuesBytes found) = .ok files) ∨
    ∃ p e, outcome = .error (.issuesUnwritten p e) ∧ options.output = some p ∧
      left.files.write left.cwd p (issuesBytes found) = .error e := by
  cases hout : options.output with
  | none => exact Or.inl ⟨(h.unasked hout).1, by simp⟩
  | some p =>
    cases hwrite : left.files.write left.cwd p (issuesBytes found) with
    | error e => exact Or.inr ⟨p, e, (h.unwritten p e hout hwrite).1, rfl, hwrite⟩
    | ok files =>
      refine Or.inl ⟨(h.written p files hout hwrite).1, fun q hq => ?_⟩
      obtain rfl : p = q := Option.some.inj hq
      exact ⟨files, hwrite⟩

/-- The ways in which a run ends: it stops before an analyzer is involved, it shows a command, the
request fails, the file could not be analyzed, or there are issues. -/
inductive Ending (runner : Runner) (options : LintOptions) (w : World) :
    Except Trouble Nat → World → Prop
  | stopped {t : Trouble} {notes : List Event} (hd : dispatched? runner options w = none)
      (hroute : options.dryRun = true → routed? options w = none) :
      Ending runner options w (.error t) (w.noted notes)
  | shown {a : Analyzer} {r : Request} {notes : List Event}
      (hd : dispatched? runner options w = none) (hdry : options.dryRun = true)
      (hroute : routed? options w = some (a, r)) :
      Ending runner options w (.ok 0)
        { w.noted notes with stdout := w.stdout ++ preview (a.commandFor r) }
  | failed {f : Failure} {left : World} (hdry : options.dryRun = false)
      (hd : dispatched? runner options w = some (.error f, left)) :
      Ending runner options w (.error (.lint options.file f)) left
  | unanalyzed {left : World} (hdry : options.dryRun = false)
      (hd : dispatched? runner options w = some (.ok .analysisFailed, left)) :
      Ending runner options w (.ok 2) { left with stderr := left.stderr ++ ("❌ " ++
        options.file.display ++ ": the analyzer could not analyze this file") ++ "\n" }
  | reported {found : List Issue} {left after : World} {outcome : Except Trouble Nat}
      (hdry : options.dryRun = false)
      (hd : dispatched? runner options w = some (.ok (.issues found), left))
      (hreports : Reports options found left outcome after) : Ending runner options w outcome after

theorem run_ends (runner : Runner) (options : LintOptions) (w : World) :
    Ending runner options w ((run runner options).run w).1 ((run runner options).run w).2 := by
  cases hd : dispatched? runner options w with
  | none =>
    rcases run_of_not_dispatched hd with ⟨a, r, notes, hdry, hroute, hrun⟩ |
      ⟨t, notes, hroute, hrun⟩
    · rw [hrun]
      exact .shown hd hdry hroute
    · rw [hrun]
      exact .stopped hd hroute
  | some pair =>
    obtain ⟨result, left⟩ := pair
    obtain ⟨hdry, hrun⟩ := run_of_dispatched hd
    rw [hrun]
    cases result with
    | error f => exact .failed hdry hd
    | ok v =>
      cases v with
      | analysisFailed => exact .unanalyzed hdry hd
      | issues found => exact .reported hdry hd (reports_conclude options found left)

namespace Ending

variable {outcome : Except Trouble Nat} {after : World}

theorem exit_two_iff (h : Ending runner options w outcome after) :
    outcome = .ok 2 ↔ options.dryRun = false ∧
      ∃ left, dispatched? runner options w = some (.ok .analysisFailed, left) := by
  cases h with
  | stopped hd _ => simp [hd]
  | shown hd _ _ => simp [hd]
  | failed _ hd => simp [hd]
  | unanalyzed hdry hd => simp [hdry, hd]
  | reported _ hd hreports =>
    rcases hreports.outcome_cases with ⟨rfl, -⟩ | ⟨p, e, rfl, -, -⟩ <;> simp [hd]

theorem exit_zero_iff (h : Ending runner options w outcome after) :
    outcome = .ok 0 ↔
      (options.dryRun = true ∧ ∃ a r, routed? options w = some (a, r)) ∨
      ∃ found left, dispatched? runner options w = some (.ok (.issues found), left) ∧
        ∀ p, options.output = some p →
          ∃ files, left.files.write left.cwd p (issuesBytes found) = .ok files := by
  cases h with
  | stopped hd hroute =>
    cases hdry : options.dryRun with
    | true => simp [hd, hroute hdry]
    | false => simp [hd]
  | shown hd hdry hroute => simp [hdry, hroute]
  | failed hdry hd => simp [hdry, hd]
  | unanalyzed hdry hd => simp [hdry, hd]
  | reported hdry hd hreports =>
    rcases hreports.outcome_cases with ⟨rfl, hwritten⟩ | ⟨p, e, rfl, hout, hwrite⟩
    · exact ⟨fun _ => Or.inr ⟨_, _, hd, hwritten⟩, fun _ => rfl⟩
    · simp [hdry, hd, hout, hwrite]

theorem code_cases (h : Ending runner options w outcome after) {code : Nat}
    (hcode : outcome = .ok code) : code = 0 ∨ code = 2 := by
  cases h with
  | stopped hd _ => cases hcode
  | shown hd _ _ => exact Or.inl (Except.ok.inj hcode).symm
  | failed _ hd => cases hcode
  | unanalyzed _ hd => exact Or.inr (Except.ok.inj hcode).symm
  | reported _ hd hreports =>
    rcases hreports.outcome_cases with ⟨rfl, -⟩ | ⟨p, e, rfl, -, -⟩
    · exact Or.inl (Except.ok.inj hcode).symm
    · cases hcode

theorem leaves_of_error (h : Ending runner options w outcome after) (hrunner : runner.Contained)
    {t : Trouble} (herror : outcome = .error t)
    (hissues : ∀ found left, dispatched? runner options w ≠ some (.ok (.issues found), left)) :
    runner.Leaves w after := by
  cases h with
  | stopped hd _ => exact runner.leaves_noted w _
  | shown hd _ _ => cases herror
  | failed _ hd => exact leaves_of_dispatched hrunner hd
  | unanalyzed _ hd => cases herror
  | reported _ hd hreports => exact absurd hd (hissues _ _)

theorem reports (h : Ending runner options w outcome after) {found : List Issue} {left : World}
    (hissues : dispatched? runner options w = some (.ok (.issues found), left)) :
    Reports options found left outcome after := by
  cases h with
  | stopped hd _ => simp [hissues] at hd
  | shown hd _ _ => simp [hissues] at hd
  | failed _ hd => simp [hissues] at hd
  | unanalyzed _ hd => simp [hissues] at hd
  | reported _ hd hreports =>
    obtain ⟨rfl, rfl⟩ : found = _ ∧ left = _ := by simpa [hissues] using hd
    exact hreports

theorem complains (h : Ending runner options w outcome after) {left : World}
    (hfailed : dispatched? runner options w = some (.ok .analysisFailed, left)) :
    after = { left with stderr := left.stderr ++ ("❌ " ++ options.file.display ++
      ": the analyzer could not analyze this file") ++ "\n" } := by
  cases h with
  | stopped hd _ => simp [hfailed] at hd
  | shown hd _ _ => simp [hfailed] at hd
  | failed _ hd => simp [hfailed] at hd
  | unanalyzed _ hd =>
    obtain rfl : left = _ := by simpa [hfailed] using hd
    rfl
  | reported _ hd hreports => simp [hfailed] at hd

theorem frame_of_dryRun (h : Ending runner options w outcome after) (hdry : options.dryRun = true) :
    after.started = w.started ∧ after.files = w.files := by
  cases h with
  | stopped hd _ => exact ⟨rfl, rfl⟩
  | shown hd _ _ => exact ⟨rfl, rfl⟩
  | failed hwet _ => simp [hdry] at hwet
  | unanalyzed hwet _ => simp [hdry] at hwet
  | reported hwet _ _ => simp [hdry] at hwet

end Ending

/-- The place of the configuration file that a run takes, if it takes one. -/
def configPlace? (options : LintOptions) (w : World) : Option Location :=
  Config.takenFrom? options.config (searchStart (Path.absolute w.cwd.path options.file)) w

/-- Getting ready reads no file but the configuration. -/
theorem overlooks_ready {place : Location} {old entry : Entry}
    (hold : w.files.get? place = some old) (hfile : old.isFile = true)
    (hentry : entry.isFile = true) (h : configPlace? options w ≠ some place) :
    (ready options).Overlooks (w.files.put place entry) w := by
  have htarget : (target options.file).Overlooks (w.files.put place entry) w := by
    rw [Act.Overlooks, target_run, target_run, FileSystem.isFile_put hold hfile hentry]
    split
    · rfl
    · split <;> rfl
  have hprepare : (prepare options).Overlooks (w.files.put place entry) w := by
    refine .bind htarget fun path w' hpath => ?_
    obtain ⟨rfl, -, rfl⟩ := of_target_run hpath
    exact .bind (Config.overlooks_inForce hold hfile hentry h) fun _ _ _ => .pure _
  exact .bind hprepare fun _ _ _ => .bind (.because _ (.ofExcept _)) fun _ _ _ =>
    .bind (.because _ (.ofExcept _)) fun _ _ _ => .pure _

theorem overlooks_showCommand (d : Dispatcher) (r : Request) (files : FileSystem) (w : World) :
    (showCommand d r).Overlooks files w := by
  have hnote : ∀ w, (Extension.note r.path : Act Failure _).Overlooks files w := by
    intro w
    rw [Extension.note]
    cases Extension.written? r.path with
    | none => rfl
    | some extension => rfl
  have hanalyzer : ∀ w, (d.analyzerFor r.path).Overlooks files w := by
    intro w
    refine .bind (.bind (hnote w) fun _ _ _ => .pure _) fun found _ _ => ?_
    cases found with
    | none => exact .throw _
    | some a => exact .pure a
  have hselect : (d.select r.path).Overlooks files w :=
    .bind (hanalyzer w) fun a _ _ => .bind (.log _) fun _ _ _ => .pure a
  exact .bind (.because _ hselect) fun _ _ _ => .bind (.print _) fun _ _ _ => .pure 0

/-- A dry run reads no file but the configuration. -/
theorem overlooks_dryRun (hdry : options.dryRun = true) {place : Location} {old entry : Entry}
    (hold : w.files.get? place = some old) (hfile : old.isFile = true)
    (hentry : entry.isFile = true) (h : configPlace? options w ≠ some place) (runner : Runner) :
    (run runner options).Overlooks (w.files.put place entry) w := by
  rw [Act.Overlooks, run_eq, run_eq, overlooks_ready hold hfile hentry h]
  cases (ready options).run w with
  | mk outcome w' =>
    cases outcome with
    | error t => rfl
    | ok pair =>
      simp only [hdry, if_true]
      exact overlooks_showCommand pair.1 pair.2 _ w'

theorem run_of_dryRun (hdry : options.dryRun = true) (runner other : Runner) (w : World) :
    (run other options).run w = (run runner options).run w := by
  simp only [run_eq, hdry, if_true]

/-- The exit code, the output and the files after linting agree with what became of the request.
The code is 2 for a file that could not be analyzed, and 0 for a dry run that came to an analyzer
and for issues that were written where they were to be; everything else is an error. Without issues
nothing is printed and no file changes but by the analyzer. A dry run starts nothing, and it reads
no file but the configuration. -/
theorem run_agrees_with_verdict {after : World} {outcome : Except Trouble Nat}
    (hrunner : runner.Contained) (hrun : (run runner options).run w = (outcome, after)) :
    (outcome = .ok 2 ↔ options.dryRun = false ∧
      ∃ left, dispatched? runner options w = some (.ok .analysisFailed, left)) ∧
    (outcome = .ok 0 ↔
      (options.dryRun = true ∧ ∃ a r, routed? options w = some (a, r)) ∨
      ∃ found left, dispatched? runner options w = some (.ok (.issues found), left) ∧
        ∀ p, options.output = some p →
          ∃ files, left.files.write left.cwd p (issuesBytes found) = .ok files) ∧
    (∀ code, outcome = .ok code → code = 0 ∨ code = 2) ∧
    (∀ found left, dispatched? runner options w = some (.ok (.issues found), left) →
      runner.Leaves w left ∧ Reports options found left outcome after) ∧
    (∀ left, dispatched? runner options w = some (.ok .analysisFailed, left) →
      runner.Leaves w left ∧ after = { left with stderr := left.stderr ++ ("❌ " ++
        options.file.display ++ ": the analyzer could not analyze this file") ++ "\n" }) ∧
    (∀ t, outcome = .error t →
      (∀ found left, dispatched? runner options w ≠ some (.ok (.issues found), left)) →
        runner.Leaves w after) ∧
    (options.dryRun = true →
      after.started = w.started ∧ after.files = w.files ∧
      (∀ other, (run other options).run w = (outcome, after)) ∧
      ∀ place old entry, w.files.get? place = some old → old.isFile = true →
        entry.isFile = true → configPlace? options w ≠ some place →
          (run runner options).run { w with files := w.files.put place entry } =
            (outcome, { after with files := w.files.put place entry })) := by
  have hends := run_ends runner options w
  rw [hrun] at hends
  refine ⟨hends.exit_two_iff, hends.exit_zero_iff, fun code => hends.code_cases,
    fun found left hd => ⟨leaves_of_dispatched hrunner hd, hends.reports hd⟩,
    fun left hd => ⟨leaves_of_dispatched hrunner hd, hends.complains hd⟩,
    fun t => hends.leaves_of_error hrunner, fun hdry => ?_⟩
  obtain ⟨hstarted, hfiles⟩ := hends.frame_of_dryRun hdry
  refine ⟨hstarted, hfiles, fun other => (run_of_dryRun hdry runner other w).trans hrun, ?_⟩
  intro place old entry hold hfile hentry hplace
  have hsame := overlooks_dryRun hdry hold hfile hentry hplace runner
  rwa [Act.Overlooks, hrun] at hsame

def oneSource : World where
  files := ⟨[([Bytes.ofString "a.cs"], .file (Bytes.ofString "class A"))]⟩

def toFile : LintOptions where
  file := .ofString "a.cs"
  id := "1"
  output := some (.ofString "out.json")

def sevenFound : Outcome where
  stdout := Bytes.ofString "[7]"

theorem run_agrees_with_verdict_seven :
    (Runner.scripted (.ok sevenFound)).Contained ∧ ¬ ToDevice toFile oneSource ∧
      ∃ after, (run (.scripted (.ok sevenFound)) toFile).run oneSource = (.ok 0, after) ∧
        after.stdout = report "a.cs" [⟨.number "7"⟩] ++ "\n" ∧
        after.files.entry? after.cwd (.ofString "out.json") =
          some (.file (Bytes.ofString "[\n  7\n]\n")) := by
  have hrunner := Runner.contained_scripted (.ok sevenFound)
  obtain ⟨-, -, -, hissues, -, -, -⟩ := run_agrees_with_verdict hrunner
    (rfl : (run (.scripted (.ok sevenFound)) toFile).run oneSource = (_, _))
  have hd : dispatched? (.scripted (.ok sevenFound)) toFile oneSource =
      some (.ok (.issues [⟨.number "7"⟩]), _) := rfl
  have hfree : oneSource.files.entry? oneSource.cwd (.ofString "out.json") = none := by decide
  have hordinary : ∀ w : World, w.files = oneSource.files → w.cwd = oneSource.cwd →
      ¬ ToDevice toFile w := by
    rintro w hfiles hcwd ⟨p, device, hout, hdevice⟩
    obtain rfl : Path.ofString "out.json" = p := Option.some.inj hout
    rw [hfiles, hcwd, hfree] at hdevice
    cases hdevice
  obtain ⟨-, hreports⟩ := hissues _ _ hd
  obtain ⟨houtcome, -, hentry⟩ := hreports.written (.ofString "out.json") _ rfl rfl
  exact ⟨hrunner, hordinary _ rfl rfl, _, Prod.ext houtcome rfl,
    hreports.text rfl (hordinary _ rfl rfl), hentry (hordinary _ rfl rfl)⟩

def ownConfig (command : String) : Bytes :=
  Bytes.ofString ("\x7b\"analyzers\":[\x7b\"name\":\"n\",\"extensions\":[\"json\"]," ++
    "\"command\":\"" ++ command ++ "\"\x7d]\x7d")

def onlyConfig (content : Bytes) : World where
  files := ⟨[([Bytes.ofString ".techlint.json"], .file content)]⟩

def ownTarget : LintOptions where
  file := .ofString ".techlint.json"
  id := "1"
  dryRun := true

def withNull : World where
  files := ⟨[([Bytes.ofString "a.cs"], .file []), ([Bytes.ofString "null"], .device .null)]⟩

/-- Where the target is the configuration, a dry run shows what it holds; and what is written to a
device is not found there. -/
theorem target_shown_and_issues_lost :
    (onlyConfig (ownConfig "two")).files =
        (onlyConfig (ownConfig "one")).files.put [Bytes.ofString ".techlint.json"]
          (.file (ownConfig "two")) ∧
      ((run (.scripted (.ok {})) ownTarget).run (onlyConfig (ownConfig "one"))).2.stdout =
        "one /.techlint.json 1\n" ∧
      ((run (.scripted (.ok {})) ownTarget).run (onlyConfig (ownConfig "two"))).2.stdout =
        "two /.techlint.json 1\n" ∧
      (∃ after, (run (.scripted (.ok sevenFound))
          { toFile with output := some (.ofString "null") }).run withNull = (.ok 0, after) ∧
        after.files.read after.cwd (.ofString "null") = .ok []) :=
  ⟨by decide +kernel, by decide +kernel, by decide +kernel, _, rfl, rfl⟩

end Lint
end LintRelay
