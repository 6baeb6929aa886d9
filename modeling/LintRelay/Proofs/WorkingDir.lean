import LintRelay.Proofs.TimeLimit
/-! The working directory of a command. A configuration that was found for a target is named from the
root, whatever the current directory is, and so is the directory of its file. A command made from it
has no working directory, or one that is named from the root as well. -/
namespace LintRelay

namespace Config

variable {p : Path} {c : Config}

theorem exists_parse_of_ofFile {data : Bytes} (h : ofFile p data = .ok c) :
    ∃ text c₀, data.text? = some text ∧ parse text.toList = .ok c₀ ∧
      c = { c₀.anchor p with source := some p } := by
  rw [ofFile] at h
  split at h
  · cases h
  · next text htext =>
    split at h
    · cases h
    · next c₀ hparse =>
      dsimp only at h
      split at h
      · cases h
      · obtain rfl := Except.ok.inj h
        exact ⟨text, c₀, htext, hparse, rfl⟩

/-- Working directories do not count when a file is routed. -/
theorem analyzerFor?_anchor {base : Path} (h : p.parent? = some base) (c : Config)
    (source : Option Path) (path : Path) :
    analyzerFor? { c.anchor p with source := source } path =
      (c.analyzerFor? path).map (·.anchor base) := by
  rw [anchor, h]
  exact analyzerFor?_map (·.anchor base) (fun _ => rfl) c path

theorem exists_parse_of_loaded {fs : FileSystem} {cwd : Location} (h : loaded fs cwd p = .ok c) :
    ∃ base data text c₀, p.parent? = some base ∧ fs.read cwd p = .ok data ∧
      data.text? = some text ∧ parse text.toList = .ok c₀ ∧
      ∀ path, c.analyzerFor? path = (c₀.analyzerFor? path).map (·.anchor base) := by
  rw [loaded] at h
  split at h
  · next data hread =>
    obtain ⟨place, hplace⟩ := FileSystem.resolve_of_read hread (of_ofFile h).1
    obtain ⟨base, hbase⟩ := FileSystem.parent?_of_resolve hplace
    obtain ⟨text, c₀, htext, hparse, rfl⟩ := exists_parse_of_ofFile h
    exact ⟨base, data, text, c₀, hbase, hread, htext, hparse, analyzerFor?_anchor hbase c₀ _⟩
  · cases h

end Config

namespace Analyzer

theorem workingDir_commandFor (a : Analyzer) (r : Request) :
    (a.commandFor r).workingDir = a.workingDir := by
  rw [a.commandFor_eq]

theorem isAbsolute_of_anchor {base dir : Path} {a : Analyzer} (hbase : base.isAbsolute = true)
    (h : (a.anchor base).workingDir = some dir) : dir.isAbsolute = true := by
  rcases Config.exists_of_anchor h with hdir | ⟨dir₀, -, rfl⟩
  · exact hdir
  · rw [Path.isAbsolute_join, hbase, Bool.or_true]

end Analyzer

namespace Lint

open CommandLine

variable {options : LintOptions} {w : World} {c : Config} {a : Analyzer} {r : Request}

/-- The time limit of the command line leaves the working directories alone. -/
theorem exists_of_analyzerFor?_limited {p : Path} (h : (limited options c).analyzerFor? p = some a) :
    ∃ a₀, c.analyzerFor? p = some a₀ ∧ a.workingDir = a₀.workingDir := by
  cases htimeout : options.timeout with
  | none =>
    rw [limited_of_none htimeout] at h
    exact ⟨a, h, rfl⟩
  | some t =>
    rw [limited_of_some htimeout, Config.analyzerFor?_withTimeoutSecs] at h
    obtain ⟨a₀, ha₀, rfl⟩ := Option.map_eq_some_iff.mp h
    exact ⟨a₀, ha₀, rfl⟩

theorem Reaches.isAbsolute_searchStart (h : Reaches options w c a r) :
    r.path.isAbsolute = true ∧ (searchStart r.path).isAbsolute = true := by
  have htarget : (Lint.target options.file).run w = (.ok r.path, w) := by
    rw [target_run, h.named, ← h.path, h.target]
    rfl
  obtain ⟨hne, habsolute, -⟩ := place_of_target htarget
  exact ⟨habsolute, (searchStart_spec hne).2.trans habsolute⟩

theorem Reaches.governing (hnone : options.config = none) (h : Reaches options w c a r) :
    Config.governing w.files w.cwd (searchStart r.path) = .ok c := by
  have hloaded := h.loaded
  rwa [hnone, Config.fst_run_inForce_none, Except.mapError_eq_ok_iff] at hloaded

/-- What a run comes to depends on the path of its target from the root, not on the current
directory. -/
theorem Reaches.of_absolute_eq (hnone : options.config = none) (h : Reaches options w c a r)
    {cwd : Location} {file : Path} (hfile : file.isEmpty = false)
    (hpath : Path.absolute cwd.path file = r.path) :
    Reaches { options with file := file } { w with cwd := cwd } c a r := by
  obtain ⟨habsolute, hstart⟩ := h.isAbsolute_searchStart
  refine ⟨hfile, hpath.symm, ?_, ?_, h.valid, h.request, h.routed⟩
  · rw [← h.target]
    exact FileSystem.isFile_of_isAbsolute habsolute w.files cwd w.cwd
  · change ((Config.inForce options.config (searchStart r.path)).run { w with cwd := cwd }).1 = .ok c
    rw [hnone, Config.fst_run_inForce_none, Except.mapError_eq_ok_iff, ← h.governing hnone]
    exact Config.governing_of_isAbsolute hstart w.files cwd w.cwd

/-- With a configuration that was found for the target, the command has the working directory of the
analyzer in the file, where a relative one is below the directory of the file. -/
theorem Reaches.workingDir_of_found (hnone : options.config = none) (h : Reaches options w c a r)
    {q : Path} (hq : Config.find? (w.files.isFile w.cwd) (searchStart r.path) = some q) :
    ∃ base data text c₀ a₀, q.parent? = some base ∧ base.isAbsolute = true ∧
      w.files.read w.cwd q = .ok data ∧ data.text? = some text ∧
      Config.parse text.toList = .ok c₀ ∧ c₀.analyzerFor? r.path = some a₀ ∧
      (a.commandFor r).workingDir = (a₀.anchor base).workingDir := by
  have hloaded := h.governing hnone
  rw [Config.governing, hq] at hloaded
  obtain ⟨base, data, text, c₀, hbase, hread, htext, hparse, hroute⟩ :=
    Config.exists_parse_of_loaded hloaded
  obtain ⟨a₁, ha₁, hdir⟩ := exists_of_analyzerFor?_limited h.routed
  rw [hroute] at ha₁
  obtain ⟨a₀, ha₀, rfl⟩ := Option.map_eq_some_iff.mp ha₁
  have habsolute : base.isAbsolute = true := by
    rw [Path.isAbsolute_parent? hbase]
    exact Config.isAbsolute_of_find? h.isAbsolute_searchStart.2 hq
  exact ⟨base, data, text, c₀, a₀, hbase, habsolute, hread, htext, hparse, ha₀,
    (a.workingDir_commandFor r).trans hdir⟩

theorem Reaches.workingDir_of_not_found (hnone : options.config = none) (h : Reaches options w c a r)
    (hq : Config.find? (w.files.isFile w.cwd) (searchStart r.path) = none) :
    (a.commandFor r).workingDir = none := by
  have hbuiltIn := h.governing hnone
  rw [Config.governing, hq] at hbuiltIn
  obtain rfl := Except.ok.inj hbuiltIn
  obtain ⟨a₀, ha₀, hdir⟩ := exists_of_analyzerFor?_limited h.routed
  obtain ⟨x, -, hx⟩ := Option.bind_eq_some_iff.mp ha₀
  have hmem : a₀ ∈ Config.builtIn.analyzers := List.mem_of_find?_eq_some hx
  obtain rfl : a₀ = Analyzer.csharp := List.mem_singleton.mp hmem
  exact (a.workingDir_commandFor r).trans hdir

/-- Without a configuration that was named, the command that a run comes to has no working directory,
or one that is named from the root. It is that of the analyzer for the target in the nearest
configuration file, where a relative one is below the directory of that file, which is named from the
root. The command is the only one that the run starts, and what a dry run shows. It stays the same from
every current directory from which the target is reached by the same path from the root. -/
theorem working_dir_from_found_config (hnone : options.config = none)
    (h : routed? options w = some (a, r)) :
    r.path = Path.absolute w.cwd.path options.file ∧
    (∀ dir, (a.commandFor r).workingDir = some dir → dir.isAbsolute = true) ∧
    (Config.find? (w.files.isFile w.cwd) (searchStart r.path) = none →
      (a.commandFor r).workingDir = none) ∧
    (∀ q, Config.find? (w.files.isFile w.cwd) (searchStart r.path) = some q →
      ∃ base data text c₀ a₀, q.parent? = some base ∧ base.isAbsolute = true ∧
        w.files.read w.cwd q = .ok data ∧ data.text? = some text ∧
        Config.parse text.toList = .ok c₀ ∧ c₀.analyzerFor? r.path = some a₀ ∧
        (a.commandFor r).workingDir = a₀.workingDir.map fun dir =>
          if dir.isAbsolute then dir else base.join dir) ∧
    (∀ runner : Runner, runner.Quiet →
      ((run runner options).run w).2.started = w.started ∨
        ∃ stdin, ((run runner options).run w).2.started =
          w.started ++ [{ a.commandFor r with stdin := stdin }]) ∧
    (options.dryRun = true → ∀ runner : Runner,
      ((run runner options).run w).1 = .ok 0 ∧
        ((run runner options).run w).2.stdout = w.stdout ++ preview (a.commandFor r)) ∧
    ∀ (cwd : Location) (file : Path), file.isEmpty = false →
      Path.absolute cwd.path file = r.path →
        routed? { options with file := file } { w with cwd := cwd } = some (a, r) := by
  obtain ⟨c, hreaches⟩ := routed?_eq_some_iff.mp h
  refine ⟨hreaches.path, fun dir hdir => ?_, hreaches.workingDir_of_not_found hnone,
    fun q hq => hreaches.workingDir_of_found hnone hq, fun runner hquiet => ?_,
    fun hdry runner => run_of_routed runner hdry h, fun cwd file hfile hpath => ?_⟩
  · cases hq : Config.find? (w.files.isFile w.cwd) (searchStart r.path) with
    | none =>
      rw [hreaches.workingDir_of_not_found hnone hq] at hdir
      cases hdir
    | some q =>
      obtain ⟨base, data, text, c₀, a₀, -, hbase, -, -, -, -, hworking⟩ :=
        hreaches.workingDir_of_found hnone hq
      exact Analyzer.isAbsolute_of_anchor hbase (hworking.symm.trans hdir)
  · rcases started_run hquiet options w with hnothing | ⟨a', r', stdin, hrouted, hone⟩
    · exact Or.inl hnothing
    · obtain ⟨rfl, rfl⟩ := Prod.mk.inj (Option.some.inj (h.symm.trans hrouted))
      exact Or.inr ⟨stdin, hone⟩
  · exact routed?_eq_some_iff.mpr ⟨c, hreaches.of_absolute_eq hnone hfile hpath⟩

def aboveSource (cwd : Location) : World where
  files := ⟨[([Bytes.ofString "sub"], .directory),
    ([Bytes.ofString "sub", Bytes.ofString "techlint.json"], .file Config.toolsFile),
    ([Bytes.ofString "sub", Bytes.ofString "src"], .directory),
    ([Bytes.ofString "sub", Bytes.ofString "src", Bytes.ofString "a.cs"], .file [])]⟩
  cwd := cwd

def unnamed (file : String) : LintOptions where
  file := .ofString file
  id := "1"

/-- From the directory of the source, and from the root too, the command runs in the directory beside
the configuration. -/
theorem working_dir_from_found_config_above :
    ∃ a r, routed? (unnamed "a.cs") (aboveSource [Bytes.ofString "sub", Bytes.ofString "src"]) =
        some (a, r) ∧
      r.path = .ofString "/sub/src/a.cs" ∧
      (a.commandFor r).workingDir = some (.ofString "/sub/tools") ∧
      routed? (unnamed "sub//src/./a.cs") (aboveSource []) = some (a, r) := by
  let a : Analyzer :=
    { name := "t", extensions := ["cs"], command := "t", workingDir := some (.ofString "/sub/tools") }
  let r : Request := ⟨.ofString "/sub/src/a.cs", "1"⟩
  have hrouted : routed? (unnamed "a.cs")
      (aboveSource [Bytes.ofString "sub", Bytes.ofString "src"]) = some (a, r) := by
    decide +kernel
  obtain ⟨-, -, -, -, -, -, hsame⟩ := working_dir_from_found_config rfl hrouted
  exact ⟨a, r, hrouted, rfl, rfl, hsame [] (.ofString "sub//src/./a.cs") (by decide) (by decide)⟩

end Lint
end LintRelay
