import LintRelay.Proofs.Lint
/-! How a target is spelled. A relative path and the same path after the current directory's own
are one path from the root, and linting looks at nothing but that; the name that was given appears
only in what is shown. -/
namespace LintRelay

namespace Path

theorem getLast?_joinPieces_concat (ps : List Bytes) {name : Bytes} (h : name ≠ []) :
    (joinPieces (ps ++ [name])).getLast? = name.getLast? := by
  by_cases hps : ps = []
  · rw [hps]
    rfl
  · rw [joinPieces_append hps (by simp), List.getLast?_append, joinPieces,
      List.getLast?_cons_of_ne_nil h, List.getLast?_eq_some_getLast h, Option.some_or]

theorem IsName.ne_nil {name : Bytes} (h : IsName name) : name ≠ [] := by
  rintro rfl
  exact absurd h.idle (by decide)

end Path

namespace Location

variable {place : Location}

theorem getLast?_path_ne_slash (hne : place ≠ []) (h : ∀ name ∈ place, Path.IsName name) :
    place.path.bytes.getLast? ≠ some Path.slash := by
  obtain ⟨front, name, hconcat⟩ := (List.eq_nil_or_concat place).resolve_left hne
  rw [List.concat_eq_append] at hconcat
  have hname : Path.IsName name := h name (by simp [hconcat])
  have hlast : place.path.bytes.getLast? = some (name.getLast hname.ne_nil) := by
    rw [path, if_neg (by simpa using hne), List.getLast?_cons, hconcat,
      Path.getLast?_joinPieces_concat front hname.ne_nil,
      List.getLast?_eq_some_getLast hname.ne_nil, Option.getD_some]
  intro hslash
  rw [hlast] at hslash
  exact hname.slash (Option.some.inj hslash ▸ List.getLast_mem hname.ne_nil)

theorem path_concat (h : ∀ name ∈ place, Path.IsName name) {name : Bytes}
    (hname : Path.IsName name) : Location.path (place ++ [name]) = place.path.join ⟨name⟩ := by
  have hrelative := Path.not_isAbsolute_of_slash_not_mem hname.slash
  by_cases hne : place = []
  · subst hne
    simp [path, Path.join, hrelative, Path.joinPieces, Path.isEmpty]
  · have hlast := getLast?_path_ne_slash hne h
    have hbytes : place.path.bytes = Path.slash :: Path.joinPieces place := by simp [path, hne]
    rw [Path.join, hrelative]
    simp only [Bool.false_eq_true, if_false]
    rw [if_neg (by simp [Path.isEmpty, hbytes] at hlast ⊢; exact hlast), hbytes]
    simp [path, Path.joinPieces_append hne, Path.joinPieces]

theorem foldl_join_root (h : ∀ name ∈ place, Path.IsName name) :
    place.foldl (fun base name => base.join ⟨name⟩) (⟨[Path.slash]⟩ : Path) = place.path := by
  induction place using List.reverseRecOn with
  | nil => rfl
  | append_singleton front name ih =>
    have hfront : ∀ other ∈ front, Path.IsName other := fun other hother =>
      h other (List.mem_append_left _ hother)
    rw [List.foldl_append, ih hfront, path_concat hfront (h name (by simp))]
    rfl

theorem head?_joinPieces_append_ne_slash (hne : place ≠ []) (h : ∀ name ∈ place, Path.IsName name)
    (rest : Bytes) : (Path.joinPieces place ++ rest).head? ≠ some Path.slash := by
  obtain ⟨name, names, rfl⟩ := List.exists_cons_of_ne_nil hne
  have hname : Path.IsName name := h name List.mem_cons_self
  obtain ⟨b, tail, rfl⟩ := List.exists_cons_of_ne_nil hname.ne_nil
  have hb : b ≠ Path.slash := by
    rintro rfl
    exact hname.slash List.mem_cons_self
  cases names <;> simpa [Path.joinPieces] using hb

/-- A relative path after the path of a place: one slash in front, and the end of the path. -/
theorem exists_join_path (h : ∀ name ∈ place, Path.IsName name) {p : Path}
    (hrelative : p.isAbsolute = false) (hempty : p.isEmpty = false) :
    ∃ rest, (place.path.join p).bytes = Path.slash :: rest ∧ rest.head? ≠ some Path.slash ∧
      rest.getLast? = p.bytes.getLast? := by
  have hbytes : p.bytes ≠ [] := by simpa [Path.isEmpty] using hempty
  by_cases hne : place = []
  · subst hne
    refine ⟨p.bytes, by simp [path, Path.join, hrelative], ?_, rfl⟩
    simpa [Path.isAbsolute] using hrelative
  · have hpath : place.path.bytes = Path.slash :: Path.joinPieces place := by simp [path, hne]
    have hlast := getLast?_path_ne_slash hne h
    refine ⟨Path.joinPieces place ++ Path.slash :: p.bytes, ?_,
      head?_joinPieces_append_ne_slash hne h _, ?_⟩
    · rw [Path.join, hrelative]
      simp only [Bool.false_eq_true, if_false]
      rw [if_neg (by simpa [Path.isEmpty, hpath] using hlast), hpath]
      rfl
    · rw [List.getLast?_append, List.getLast?_cons_of_ne_nil hbytes,
        List.getLast?_eq_some_getLast hbytes, Option.some_or]

/-- The path from the root is the same whether or not the current directory is spelled out. -/
theorem absolute_join (h : ∀ name ∈ place, Path.IsName name) {p : Path}
    (hrelative : p.isAbsolute = false) (hempty : p.isEmpty = false) :
    Path.absolute place.path (place.path.join p) = Path.absolute place.path p := by
  obtain ⟨rest, hbytes, hhead, hlast⟩ := exists_join_path h hrelative hempty
  have hne : rest ≠ [] := by
    rintro rfl
    have hbytes : p.bytes ≠ [] := by simpa [Path.isEmpty] using hempty
    exact hbytes (List.getLast?_eq_none_iff.mp hlast.symm)
  have habsolute : (place.path.join p).isAbsolute = true := by simp [Path.isAbsolute, hbytes]
  have hroot : (place.path.join p).hasDoubleRoot = false := by
    obtain ⟨b, tail, rfl⟩ := List.exists_cons_of_ne_nil hne
    have hb : b ≠ Path.slash := by simpa using hhead
    simp [Path.hasDoubleRoot, hbytes, hb]
  have hend : (place.path.join p).bytes.getLast? = p.bytes.getLast? := by
    rw [hbytes, List.getLast?_cons_of_ne_nil hne, hlast]
  have hnames : (place.path.join p).names = place ++ p.names := by
    rw [Path.names_join _ hrelative, names_path h]
  simp only [Path.absolute, habsolute, hroot, hend, hnames, hrelative, if_true, Bool.false_eq_true,
    if_false, List.foldl_append, foldl_join_root h]

end Location

/-! ### Two runs -/

/-- The same trouble with another name for the target. -/
def Trouble.renamed (file : Path) : Trouble → Trouble
  | .unresolved _ source => .unresolved file source
  | .fileNotFound _ => .fileNotFound file
  | .lint _ failure => .lint file failure
  | t => t

/-- Texts that are the same, or differ in a name that stands at one place. -/
def SameButName (name other text text' : String) : Prop :=
  text' = text ∨ ∃ before after, text = before ++ name ++ after ∧ text' = before ++ other ++ after

/-- Two actions do the same, but for the name of the target in the reason to fail. -/
def Act.SameBut {α : Type} (file : Path) (act act' : Act Trouble α) (w : World) : Prop :=
  act'.run w = ((act.run w).1.mapError (Trouble.renamed file), (act.run w).2)

namespace Act.SameBut

variable {ε α β : Type} {file : Path} {w : World}

theorem pure (a : α) : SameBut file (Pure.pure a) (Pure.pure a) w := rfl

theorem log (e : Event) : SameBut file (Act.log e) (Act.log e) w := rfl

theorem print (text : String) : SameBut file (Act.print text) (Act.print text) w := rfl

theorem because {f f' : ε → Trouble} (hf : ∀ e, (f e).renamed file = f' e) (act : Act ε α) :
    SameBut file (Act.because f act) (Act.because f' act) w := by
  rw [SameBut, run_because, run_because]
  cases (act.run w).1 with
  | ok a => rfl
  | error e => simp [Except.mapError, hf]

theorem bind {act act' : Act Trouble α} {f f' : α → Act Trouble β} (h : SameBut file act act' w)
    (hf : ∀ a w', act.run w = (.ok a, w') → SameBut file (f a) (f' a) w') :
    SameBut file (act >>= f) (act' >>= f') w := by
  rw [SameBut, run_bind, run_bind, h]
  cases hrun : act.run w with
  | mk result w' =>
    cases result with
    | error e => rfl
    | ok a => exact hf a w' hrun

end Act.SameBut

/-- Two runs end alike: the same outcome and the same world, but for the name of the target in the
reason to fail and in what is shown. -/
def Respelled {α : Type} (name other : Path) (one two : Except Trouble α × World) : Prop :=
  ∃ stdout stderr,
    two = (one.1.mapError (Trouble.renamed other),
      { one.2 with stdout := stdout, stderr := stderr }) ∧
    SameButName name.display other.display one.2.stdout stdout ∧
    SameButName name.display other.display one.2.stderr stderr

theorem Act.SameBut.respelled {α : Type} {act act' : Act Trouble α} {w : World} {other : Path}
    (h : SameBut other act act' w) (name : Path) :
    Respelled name other (act.run w) (act'.run w) :=
  ⟨_, _, h, Or.inl rfl, Or.inl rfl⟩

theorem Config.inForce_sameBut (explicit : Option Path) (start file : Path) (w : World) :
    Act.SameBut file (inForce explicit start) (inForce explicit start) w := by
  cases explicit with
  | none => exact .because (fun _ => rfl) _
  | some path => exact .bind (.log _) fun _ _ _ => .because (fun _ => rfl) _

theorem exists_report (issues : List Issue) :
    ∃ before after, ∀ target, report target issues = before ++ target ++ after := by
  have hlines : ∀ (issues : List Issue) (text : String),
      issues.foldl (fun text i => text ++ "\n   " ++ i.summary) text =
        text ++ issues.foldl (fun text i => text ++ "\n   " ++ i.summary) "" := by
    intro issues
    induction issues with
    | nil => simp
    | cons i issues ih =>
      intro text
      rw [List.foldl_cons, List.foldl_cons, ih, ih ("" ++ _ ++ _)]
      simp [String.append_assoc]
  cases hempty : issues.isEmpty with
  | true => exact ⟨"✅ ", ": no issues", fun target => by rw [report, if_pos hempty]⟩
  | false =>
    refine ⟨"📄 ", ": " ++ toString issues.length ++ " issue(s)" ++
      issues.foldl (fun text i => text ++ "\n   " ++ i.summary) "", fun target => ?_⟩
    rw [report, if_neg (by simp [hempty]), hlines]
    simp only [String.append_assoc]

namespace Lint

open CommandLine

/-- The same options with the target as a path from the root. -/
def spelledOut (options : LintOptions) (w : World) : LintOptions :=
  { options with file := w.cwd.path.join options.file }

variable {options : LintOptions} {w : World}

theorem rendered_sameButName (format : OutputFormat) (file other : Path) (found : List Issue)
    (text : String) :
    SameButName file.display other.display (text ++ rendered format file found)
      (text ++ rendered format other found) := by
  cases format with
  | json => exact Or.inl rfl
  | text =>
    obtain ⟨before, after, hreport⟩ := exists_report found
    refine Or.inr ⟨text ++ before, after ++ "\n", ?_, ?_⟩
    · simp [rendered, hreport, String.append_assoc]
    · simp [rendered, hreport, String.append_assoc]

theorem conclude_respelled (options : LintOptions) (other : Path) (v : Verdict) (w : World) :
    Respelled options.file other ((conclude options v).run w)
      ((conclude { options with file := other } v).run w) := by
  cases v with
  | analysisFailed =>
    refine ⟨w.stdout, _, rfl, Or.inl rfl, Or.inr ⟨w.stderr ++ "❌ ",
      ": the analyzer could not analyze this file" ++ "\n", ?_, ?_⟩⟩
    · change w.stderr ++ ("❌ " ++ options.file.display ++
        ": the analyzer could not analyze this file") ++ "\n" = _
      simp only [String.append_assoc]
    · simp only [String.append_assoc]
  | issues found =>
    have hprinted := rendered_sameButName options.format options.file other found w.stdout
    cases hout : options.output with
    | none =>
      rw [conclude_run_unasked hout, conclude_run_unasked rfl]
      exact ⟨_, w.stderr, rfl, hprinted, Or.inl rfl⟩
    | some p =>
      cases hwrite : w.files.write w.cwd p (issuesBytes found) with
      | error e =>
        rw [conclude_run_unwritten hout hwrite, conclude_run_unwritten rfl hwrite]
        exact ⟨_, w.stderr, rfl, hprinted, Or.inl rfl⟩
      | ok files =>
        rw [conclude_run_written hout hwrite, conclude_run_written rfl hwrite]
        exact ⟨_, w.stderr, rfl, hprinted, Or.inl rfl⟩

theorem lintReady_respelled (runner : Runner) (options : LintOptions) (other : Path)
    (d : Dispatcher) (r : Request) (w : World) :
    Respelled options.file other ((lintReady runner options d r).run w)
      ((lintReady runner { options with file := other } d r).run w) := by
  rw [lintReady_run, lintReady_run]
  cases (d.dispatch runner r).run (w.noted [.linting r.path r.id]) with
  | mk result left =>
    cases result with
    | error f => exact ⟨left.stdout, left.stderr, rfl, Or.inl rfl, Or.inl rfl⟩
    | ok v => exact conclude_respelled options other v left

theorem showCommand_sameBut (file : Path) (d : Dispatcher) (r : Request) (w : World) :
    Act.SameBut file (showCommand d r) (showCommand d r) w :=
  .bind (.because (fun _ => rfl) _) fun _ _ _ => .bind (.print _) fun _ _ _ => .pure 0

section TwoSpellings

variable (hcwd : ∀ name ∈ w.cwd, Path.IsName name) (hrelative : options.file.isAbsolute = false)
  (hempty : options.file.isEmpty = false)

include hcwd hrelative hempty

theorem prepare_sameBut :
    Act.SameBut (spelledOut options w).file (prepare options) (prepare (spelledOut options w))
      w := by
  have hpath : Path.absolute w.cwd.path (spelledOut options w).file =
      Path.absolute w.cwd.path options.file := Location.absolute_join hcwd hrelative hempty
  have hne : (spelledOut options w).file.isEmpty = false := by
    obtain ⟨rest, hbytes, -, -⟩ := Location.exists_join_path hcwd hrelative hempty
    simp [spelledOut, Path.isEmpty, hbytes]
  have htarget : Act.SameBut (spelledOut options w).file (target options.file)
      (target (spelledOut options w).file) w := by
    rw [Act.SameBut, target_run, target_run, hpath, hne, hempty]
    simp only [Bool.false_eq_true, if_false]
    split <;> rfl
  exact .bind htarget fun path w' _ =>
    .bind (Config.inForce_sameBut _ _ _ _) fun _ _ _ => .pure _

theorem ready_sameBut :
    Act.SameBut (spelledOut options w).file (ready options) (ready (spelledOut options w)) w :=
  .bind (prepare_sameBut hcwd hrelative hempty) fun _ _ _ =>
    .bind (.because (fun _ => rfl) _) fun _ _ _ =>
      .bind (.because (fun _ => rfl) _) fun _ _ _ => .pure _

end TwoSpellings

/-- A relative target and the same target with the current directory spelled out. The configuration
is the same, and so are the dispatcher and the request, of which the path starts at the root; the
two runs end alike, with the same commands started, the same files and the same notes, and the name
of the target is all that may differ in what is shown. -/
theorem run_respelled (hcwd : ∀ name ∈ w.cwd, Path.IsName name)
    (hrelative : options.file.isAbsolute = false) (hempty : options.file.isEmpty = false)
    (runner : Runner) :
    (prepare (spelledOut options w)).run w =
        (((prepare options).run w).1.mapError (Trouble.renamed (spelledOut options w).file),
          ((prepare options).run w).2) ∧
      (∀ d r w', (ready options).run w = (.ok (d, r), w') →
        r.path.isAbsolute = true ∧ (ready (spelledOut options w)).run w = (.ok (d, r), w')) ∧
      Respelled options.file (spelledOut options w).file ((run runner options).run w)
        ((run runner (spelledOut options w)).run w) := by
  have hready := ready_sameBut hcwd hrelative hempty
  refine ⟨prepare_sameBut hcwd hrelative hempty, fun d r w' h => ⟨?_, ?_⟩, ?_⟩
  · rw [path_of_ready h, (Path.absolute_spec _ _).2, Location.isAbsolute_path, Bool.or_true]
  · rw [hready, h]
    rfl
  · rw [run_eq, run_eq, hready]
    cases (ready options).run w with
    | mk result w' =>
      cases result with
      | error t => exact ⟨w'.stdout, w'.stderr, rfl, Or.inl rfl, Or.inl rfl⟩
      | ok pair =>
        have hdry : (spelledOut options w).dryRun = options.dryRun := rfl
        simp only [Except.mapError, hdry]
        split
        · exact (showCommand_sameBut _ _ _ w').respelled _
        · exact lintReady_respelled runner options _ _ _ w'

def inProject : World where
  files := ⟨[([Bytes.ofString "proj"], .directory),
    ([Bytes.ofString "proj", Bytes.ofString "a.cs"], .file (Bytes.ofString "class A"))]⟩
  cwd := [Bytes.ofString "proj"]

def dotted : LintOptions where
  file := .ofString ".//a.cs"
  id := "1"
  output := some (.ofString "out.json")

/-- Both spellings of the source lead to the same issue in the same file. -/
theorem run_respelled_dotted :
    (∀ name ∈ inProject.cwd, Path.IsName name) ∧ dotted.file.isAbsolute = false ∧
      dotted.file.isEmpty = false ∧
      (spelledOut dotted inProject).file = .ofString "/proj/.//a.cs" ∧
      ∃ after stdout stderr,
        (run (.scripted (.ok sevenFound)) dotted).run inProject = (.ok 0, after) ∧
        (run (.scripted (.ok sevenFound)) (spelledOut dotted inProject)).run inProject =
          (.ok 0, { after with stdout := stdout, stderr := stderr }) ∧
        after.files.entry? after.cwd (.ofString "out.json") =
          some (.file (issuesBytes [⟨.number "7"⟩])) ∧
        SameButName ".//a.cs" "/proj/.//a.cs" after.stdout stdout := by
  have hcwd : ∀ name ∈ inProject.cwd, Path.IsName name := by
    intro name hname
    obtain rfl : name = Bytes.ofString "proj" := List.mem_singleton.mp hname
    exact ⟨by decide, by decide, by decide⟩
  obtain ⟨-, -, stdout, stderr, hrun, hshown, -⟩ :=
    run_respelled hcwd (by decide : dotted.file.isAbsolute = false)
      (by decide : dotted.file.isEmpty = false) (.scripted (.ok sevenFound))
  exact ⟨hcwd, by decide, by decide, by decide, _, stdout, stderr, rfl, hrun, rfl, hshown⟩

end Lint
end LintRelay
