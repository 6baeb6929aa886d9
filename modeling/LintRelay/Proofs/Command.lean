import LintRelay.Proofs.Lint
import LintRelay.Proofs.Loading
/-! The command of a run. Linting comes to an analyzer and a request if there is a target, a
configuration for it that holds with the time limit of the command line, and an analyzer in that
configuration for the target. The command for the two is the only one that is started. -/
namespace LintRelay

theorem Act.fst_run_bind_eq_ok_iff {ε α β : Type} {act : Act ε α} {f : α → Act ε β} {w : World}
    {b : β} :
    ((act >>= f).run w).1 = .ok b ↔
      ∃ a, (act.run w).1 = .ok a ∧ ((f a).run (act.run w).2).1 = .ok b := by
  rw [run_bind]
  cases act.run w with
  | mk result w₁ => cases result <;> simp

theorem Dispatcher.make_eq_ok_iff {c : Config} {d : Dispatcher} :
    make c = .ok d ↔ c.validate = .ok () ∧ d.config = c := by
  constructor
  · intro h
    rw [make] at h
    split at h
    · next hvalid =>
      obtain rfl := Except.ok.inj h
      exact ⟨hvalid, rfl⟩
    · cases h
  · rintro ⟨hvalid, rfl⟩
    exact make_eq_ok hvalid

theorem Dispatcher.make_eq_error {c : Config} {e : ConfigDefect} (h : c.validate = .error e) :
    make c = .error (.config e) := by
  rw [make]
  split
  · next hvalid => exact absurd (hvalid.symm.trans h) (by simp)
  · next hinvalid => rw [Except.error.inj (hinvalid.symm.trans h)]

namespace Lint

open CommandLine

variable {options : LintOptions} {w : World}

theorem fst_run_prepare_eq_ok_iff {path : Path} {c : Config} :
    ((prepare options).run w).1 = .ok (path, c) ↔
      options.file.isEmpty = false ∧ path = Path.absolute w.cwd.path options.file ∧
        w.files.isFile w.cwd path = true ∧
        ((Config.inForce options.config (searchStart path)).run w).1 = .ok c := by
  simp only [prepare, Act.fst_run_bind_eq_ok_iff, target_run, Act.run_pure, Except.ok.injEq,
    Prod.mk.injEq]
  cases hempty : options.file.isEmpty with
  | true => simp
  | false =>
    cases hfile : w.files.isFile w.cwd (Path.absolute w.cwd.path options.file) with
    | true =>
      simp only [Bool.false_eq_true, if_false, if_true, Except.ok.injEq, exists_eq_left', true_and]
      constructor
      · rintro ⟨c', hc, rfl, rfl⟩
        exact ⟨rfl, hfile, hc⟩
      · rintro ⟨rfl, -, hc⟩
        exact ⟨c, hc, rfl, rfl⟩
    | false =>
      simp only [Bool.false_eq_true, if_false, reduceCtorEq, false_and, exists_false, true_and,
        false_iff]
      rintro ⟨rfl, hfound, -⟩
      rw [hfile] at hfound
      cases hfound

/-- What a run comes to: an analyzer, in a configuration, for a request. -/
structure Reaches (options : LintOptions) (w : World) (c : Config) (a : Analyzer) (r : Request) :
    Prop where
  named : options.file.isEmpty = false
  path : r.path = Path.absolute w.cwd.path options.file
  target : w.files.isFile w.cwd r.path = true
  loaded : ((Config.inForce options.config (searchStart r.path)).run w).1 = .ok c
  valid : (limited options c).validate = .ok ()
  request : Request.make r.path options.id = .ok r
  routed : (limited options c).analyzerFor? r.path = some a

theorem fst_run_ready_eq_ok_iff {d : Dispatcher} {r : Request} :
    ((ready options).run w).1 = .ok (d, r) ↔
      ∃ path c, ((prepare options).run w).1 = .ok (path, c) ∧
        Dispatcher.make (limited options c) = .ok d ∧ Request.make path options.id = .ok r := by
  simp only [ready, Act.fst_run_bind_eq_ok_iff, Act.run_because, Except.mapError_eq_ok_iff,
    Act.run_ofExcept, Act.run_pure, Except.ok.injEq, Prod.mk.injEq, Prod.exists]
  constructor
  · rintro ⟨path, c, hprepare, d', hmake, r', hrequest, rfl, rfl⟩
    exact ⟨path, c, hprepare, hmake, hrequest⟩
  · rintro ⟨path, c, hprepare, hmake, hrequest⟩
    exact ⟨path, c, hprepare, d, hmake, r, hrequest, rfl, rfl⟩

theorem routed?_eq_some_iff_ready {a : Analyzer} {r : Request} :
    routed? options w = some (a, r) ↔
      ∃ d, ((ready options).run w).1 = .ok (d, r) ∧ d.config.analyzerFor? r.path = some a := by
  rw [routed?]
  cases (ready options).run w with
  | mk result w' =>
    cases result with
    | error t => simp
    | ok pair =>
      obtain ⟨d, r'⟩ := pair
      simp only [Option.map_eq_some_iff, Prod.mk.injEq, Except.ok.injEq]
      constructor
      · rintro ⟨a', ha, rfl, rfl⟩
        exact ⟨d, ⟨rfl, rfl⟩, ha⟩
      · rintro ⟨d', ⟨rfl, rfl⟩, ha⟩
        exact ⟨a, ha, rfl, rfl⟩

theorem routed?_eq_some_iff {a : Analyzer} {r : Request} :
    routed? options w = some (a, r) ↔ ∃ c, Reaches options w c a r := by
  simp only [routed?_eq_some_iff_ready, fst_run_ready_eq_ok_iff, fst_run_prepare_eq_ok_iff,
    Dispatcher.make_eq_ok_iff]
  constructor
  · rintro ⟨d, ⟨path, c, ⟨hnamed, hpath, hfile, hc⟩, ⟨hvalid, hconfig⟩, hrequest⟩, hroute⟩
    obtain rfl : r = ⟨path, options.id⟩ := Request.eq_of_make hrequest
    exact ⟨c, hnamed, hpath, hfile, hc, hvalid, hrequest, hconfig ▸ hroute⟩
  · rintro ⟨c, h⟩
    exact ⟨⟨limited options c, h.valid⟩, ⟨r.path, c, ⟨h.named, h.path, h.target, h.loaded⟩,
      ⟨h.valid, rfl⟩, h.request⟩, h.routed⟩

/-! ### What is started -/

theorem started_conclude (options : LintOptions) (v : Verdict) (w : World) :
    ((conclude options v).run w).2.started = w.started := by
  cases v with
  | analysisFailed => rfl
  | issues found =>
    cases hout : options.output with
    | none => rw [conclude_run_unasked hout]; rfl
    | some p =>
      cases hwrite : w.files.write w.cwd p (issuesBytes found) with
      | error e => rw [conclude_run_unwritten hout hwrite]; rfl
      | ok files => rw [conclude_run_written hout hwrite]; rfl

variable {runner : Runner}

theorem started_of_dispatched (hquiet : runner.Quiet) {result : Except Failure Verdict} {left : World}
    (h : dispatched? runner options w = some (result, left)) :
    left.started = w.started ∨
      ∃ a r stdin, routed? options w = some (a, r) ∧
        left.started = w.started ++ [{ a.commandFor r with stdin := stdin }] := by
  obtain ⟨notes, hnotes⟩ := onlyNotes_ready options w
  simp only [routed?_eq_some_iff_ready]
  rw [dispatched?] at h
  cases hready : (ready options).run w with
  | mk outcome w' =>
    rw [hready] at h hnotes
    obtain rfl : w' = w.noted notes := hnotes
    cases outcome with
    | error t => cases h
    | ok pair =>
      obtain ⟨d, r⟩ := pair
      cases hdry : options.dryRun with
      | true => simp [hdry] at h
      | false =>
        simp only [hdry, Bool.false_eq_true, if_false, Option.some.injEq] at h
        have hstarted := d.started_dispatch hquiet r ((w.noted notes).noted [.linting r.path r.id])
        rw [h] at hstarted
        rcases hstarted with ⟨hnothing, -⟩ | ⟨a, stdin, ha, -, hone⟩
        · exact Or.inl hnothing
        · exact Or.inr ⟨a, r, stdin, ⟨d, rfl, ha⟩, hone⟩

/-- A run starts nothing, or the one command for the analyzer and the request that it comes to. -/
theorem started_run (hquiet : runner.Quiet) (options : LintOptions) (w : World) :
    ((run runner options).run w).2.started = w.started ∨
      ∃ a r stdin, routed? options w = some (a, r) ∧
        ((run runner options).run w).2.started =
          w.started ++ [{ a.commandFor r with stdin := stdin }] := by
  cases hd : dispatched? runner options w with
  | none =>
    left
    rcases run_of_not_dispatched hd with ⟨a, r, notes, -, -, hrun⟩ | ⟨t, notes, -, hrun⟩
    · rw [hrun]
      rfl
    · rw [hrun]
      rfl
  | some pair =>
    obtain ⟨result, left⟩ := pair
    obtain ⟨-, hrun⟩ := run_of_dispatched hd
    have hleft : ((run runner options).run w).2.started = left.started := by
      rw [hrun]
      cases result with
      | error f => rfl
      | ok v => exact started_conclude options v left
    rw [hleft]
    exact started_of_dispatched hquiet hd

end Lint
end LintRelay
