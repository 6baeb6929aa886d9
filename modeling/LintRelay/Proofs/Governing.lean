import LintRelay.Lint
import LintRelay.Proofs.Discovery
/-! Which configuration governs a target. Linting searches from the directory of the target as a path
from the root, which keeps the target's own steps back; the overview searches from a directory as it
was named, and from a relative one it sees nothing above the current directory. -/
namespace LintRelay

namespace Lint

open FileSystem CommandLine

def governor? (w : World) (file : Path) : Option Location :=
  Config.governor? w (searchStart (Path.absolute w.cwd.path file))

variable {w : World} {options : LintOptions} {path : Path}

theorem target_run (file : Path) (w : World) :
    (target file).run w =
      if file.isEmpty then (.error (.unresolved file .emptyPath), w)
      else if w.files.isFile w.cwd (Path.absolute w.cwd.path file) then
        (.ok (Path.absolute w.cwd.path file), w)
      else (.error (.fileNotFound file), w) := by
  rw [target]
  cases file.isEmpty with
  | true => rfl
  | false =>
    simp only [Bool.false_eq_true, if_false, Act.run_bind, Act.run_currentDir, Act.run_isFile]
    cases w.files.isFile w.cwd (Path.absolute w.cwd.path file) <;> rfl

/-- A target is a file at its path from the root. -/
theorem of_target_run {file : Path} {w' : World} (h : (target file).run w = (.ok path, w')) :
    path = Path.absolute w.cwd.path file ∧ w.files.isFile w.cwd path = true ∧ w' = w := by
  rw [target_run] at h
  split at h
  · cases h
  · split at h
    · next hfile =>
      obtain ⟨hpath, rfl⟩ := Prod.mk.inj h
      obtain rfl := Except.ok.inj hpath
      exact ⟨rfl, hfile, rfl⟩
    · cases h

theorem prepare_loads (hnone : options.config = none)
    (htarget : (target options.file).run w = (.ok path, w)) :
    Config.Loads w (Prod.snd <$> prepare options) (governor? w options.file) := by
  obtain ⟨rfl, -, -⟩ := of_target_run htarget
  have hrun : (Prod.snd <$> prepare options).run w =
      (Config.inForce none (searchStart (Path.absolute w.cwd.path options.file))).run w := by
    rw [Act.run_map, prepare, Act.run_bind, htarget]
    simp only [Act.run_bind, hnone, Act.run_pure]
    generalize (Config.inForce none _).run w = result
    obtain ⟨r, w'⟩ := result
    cases r <;> rfl
  have hloads := Config.inForce_loads w (searchStart (Path.absolute w.cwd.path options.file))
  rw [governor?]
  cases hgovernor : Config.governor? w _ with
  | none =>
    rw [hgovernor] at hloads
    obtain ⟨start, hstart⟩ := hloads
    exact ⟨start, hrun.trans hstart⟩
  | some place =>
    rw [hgovernor] at hloads
    obtain ⟨start, q, hplace, hstart⟩ := hloads
    exact ⟨start, q, hplace, hrun.trans hstart⟩

theorem searchStart_spec (h : path.names ≠ []) :
    (searchStart path).names = path.names.dropLast ∧
      (searchStart path).isAbsolute = path.isAbsolute := by
  cases hparent : path.parent? with
  | none => exact absurd (Path.names_of_parent?_eq_none hparent) h
  | some q =>
    rw [searchStart, hparent, Option.getD_some]
    exact ⟨Path.names_parent? hparent, Path.isAbsolute_parent? hparent⟩

/-- A target has a place, in the directory that all names of its path but the last one spell. -/
theorem place_of_target (htarget : (target options.file).run w = (.ok path, w)) :
    path.names ≠ [] ∧ path.isAbsolute = true ∧
      ∃ place, w.files.place? w.cwd path = some place ∧
        place.dropLast = Location.follow [] path.names.dropLast ∧
        Leads w.files [] path.names.dropLast (.found place.dropLast .directory) := by
  obtain ⟨hpath, hfile, -⟩ := of_target_run htarget
  have habsolute : path.isAbsolute = true := by
    rw [hpath, (Path.absolute_spec _ _).2, Location.isAbsolute_path, Bool.or_true]
  obtain ⟨place, entry, hresolve, hentry⟩ := isFile_iff.mp hfile
  have hleads := (resolve_eq_ok_iff.mp hresolve).2
  rw [habsolute, if_pos rfl] at hleads
  have hnot : Target.entry? (.found place entry) ≠ some .directory := by
    intro heq
    rw [Option.some.inj heq] at hentry
    cases hentry
  obtain ⟨front, last, hpieces, hidle, hparent, hfront, hlast⟩ := hleads.exists_leaf hnot
  have hplace : place = Location.follow [] front ++ [last] :=
    ((Leads.name_iff hidle hparent).mp hlast).2.1
  have hnames : path.names = Path.keepNames front ++ [last] := by
    rw [show path.names = Path.keepNames (Path.pieces path.bytes) from rfl, hpieces,
      Path.keepNames_append]
    simp [Path.keepNames, hidle]
  refine ⟨by simp [hnames], habsolute, place, place?_eq_some_iff.mpr ⟨entry, hresolve⟩, ?_⟩
  rw [hplace, hnames, List.dropLast_concat, List.dropLast_concat, Location.follow_keepNames]
  exact ⟨rfl, Leads.keepNames_iff.mpr hfront⟩

/-- No step back comes in when a path is taken from the root. -/
theorem straight_absolute (hw : w.Grounded) {file : Path}
    (h : ∀ step ∈ file.names, Path.isParentName step = false) :
    ∀ step ∈ (Path.absolute w.cwd.path file).names, Path.isParentName step = false := by
  intro step hstep
  rw [(Path.absolute_spec _ _).1, hw.names_path] at hstep
  rcases List.mem_append.mp hstep with hstep | hstep
  · split at hstep
    · cases hstep
    · exact (hw.isName step hstep).parent
  · exact h step hstep

/-- Where the configuration of a target is. The file that is found is in a directory from which the
last names of the target's path lead to the target's directory. If none of them is a step back, the
configuration's directory is the target's or one above it; and that is so for every target that was
named without a step back. -/
theorem config_directory_of_target (hnone : options.config = none)
    (htarget : (target options.file).run w = (.ok path, w)) :
    ∃ place, w.files.place? w.cwd path = some place ∧
      Config.Loads w (Prod.snd <$> prepare options) (governor? w options.file) ∧
      ∀ file, governor? w options.file = some file →
        ∃ dir name rest, name ∈ Config.fileNames ∧ file = dir ++ [Bytes.ofString name] ∧
          rest <:+ path.names.dropLast ∧ place.dropLast = Location.follow dir rest ∧
          ((∀ step ∈ rest, Path.isParentName step = false) → dir <+: place.dropLast) ∧
          (w.Grounded → (∀ step ∈ options.file.names, Path.isParentName step = false) →
            dir <+: place.dropLast) := by
  obtain ⟨hne, habsolute, place, hplace, hdirectory, -⟩ := place_of_target htarget
  refine ⟨place, hplace, prepare_loads hnone htarget, fun file hfile => ?_⟩
  obtain ⟨hpath, -, -⟩ := of_target_run htarget
  obtain ⟨hstart, hroot⟩ := searchStart_spec hne
  rw [governor?, ← hpath] at hfile
  obtain ⟨front, rest, name, hnames, hname, hplaced⟩ := Config.of_governor?_eq_some hfile
  rw [hstart] at hnames
  rw [World.origin, hroot, habsolute, if_pos rfl] at hplaced
  have hfollow : place.dropLast = Location.follow (Location.follow [] front) rest := by
    rw [hdirectory, hnames, Location.follow_append]
  have hin : ∀ step ∈ rest, step ∈ path.names := fun step hstep =>
    List.mem_of_mem_dropLast (hnames ▸ List.mem_append_right front hstep)
  -- Without a step back the rest of the path goes down only.
  have hdown : (∀ step ∈ rest, Path.isParentName step = false) →
      Location.follow [] front <+: place.dropLast := by
    intro hstraight
    rw [hfollow, Location.follow_eq_append fun step hstep =>
      ⟨(Path.of_mem_names (hin step hstep)).2, hstraight step hstep⟩]
    exact List.prefix_append _ _
  refine ⟨_, name, rest, hname, hplaced, ⟨front, hnames.symm⟩, hfollow, hdown, ?_⟩
  intro hgrounded hstraight
  refine hdown fun step hstep => ?_
  have hmem := hin step hstep
  rw [hpath] at hmem
  exact straight_absolute hgrounded hstraight step hmem

/-- A directory with a configuration, one in it where the world is, and one in that with a
configuration of its own. -/
def nested : World where
  files := ⟨[([Bytes.ofString "proj"], .directory),
    ([Bytes.ofString "proj", Bytes.ofString ".techlint.json"], .file []),
    ([Bytes.ofString "proj", Bytes.ofString "sub"], .directory),
    ([Bytes.ofString "proj", Bytes.ofString "sub", Bytes.ofString "a.cs"], .file []),
    ([Bytes.ofString "proj", Bytes.ofString "sub", Bytes.ofString "lib"], .directory),
    ([Bytes.ofString "proj", Bytes.ofString "sub", Bytes.ofString "lib",
      Bytes.ofString "techlint.json"], .file []),
    ([Bytes.ofString "proj", Bytes.ofString "sub", Bytes.ofString "lib", Bytes.ofString "b.cs"],
      .file [])]⟩
  cwd := [Bytes.ofString "proj", Bytes.ofString "sub"]

def roundabout : LintOptions where
  file := .ofString "../sub/a.cs"
  id := "1"

/-- A step back above the configuration does no harm. -/
theorem config_directory_of_roundabout :
    (target roundabout.file).run nested = (.ok (.ofString "/proj/sub/../sub/a.cs"), nested) ∧
      governor? nested roundabout.file =
        some [Bytes.ofString "proj", Bytes.ofString ".techlint.json"] ∧
      ∃ place, nested.files.place? nested.cwd (.ofString "/proj/sub/../sub/a.cs") = some place ∧
        ∀ file, governor? nested roundabout.file = some file →
          ∃ dir name rest, file = dir ++ [Bytes.ofString name] ∧
            place.dropLast = Location.follow dir rest ∧
            ((∀ step ∈ rest, Path.isParentName step = false) → dir <+: place.dropLast) := by
  have htarget : (target roundabout.file).run nested =
      (.ok (.ofString "/proj/sub/../sub/a.cs"), nested) := rfl
  obtain ⟨place, hplace, -, hgoverned⟩ := config_directory_of_target rfl htarget
  refine ⟨htarget, by decide, place, hplace, fun file hfile => ?_⟩
  obtain ⟨dir, name, rest, -, hdir, -, hfollow, hdown, -⟩ := hgoverned file hfile
  exact ⟨dir, name, rest, hdir, hfollow, hdown⟩

/-- A configuration in one directory and a source in the one beside it. -/
def siblings : World where
  files := ⟨[([Bytes.ofString "a"], .directory),
    ([Bytes.ofString "a", Bytes.ofString ".techlint.json"], .file []),
    ([Bytes.ofString "b"], .directory),
    ([Bytes.ofString "b", Bytes.ofString "F.cs"], .file [])]⟩

/-- By way of a directory that is left again, its configuration is taken for a file that is not
below it. -/
theorem config_of_sibling_taken :
    (target (.ofString "a/../b/F.cs")).run siblings = (.ok (.ofString "/a/../b/F.cs"), siblings) ∧
      siblings.files.place? siblings.cwd (.ofString "/a/../b/F.cs") =
        some [Bytes.ofString "b", Bytes.ofString "F.cs"] ∧
      governor? siblings (.ofString "a/../b/F.cs") =
        some [Bytes.ofString "a", Bytes.ofString ".techlint.json"] ∧
      ¬ [Bytes.ofString "a"] <+: [Bytes.ofString "b"] :=
  ⟨rfl, by decide, by decide, by decide⟩

/-! ### The overview -/

theorem searchable_searchStart (htarget : (target options.file).run w = (.ok path, w))
    (hstraight : ∀ step ∈ path.names, Path.isParentName step = false)
    (hroom : Config.HasRoom (searchStart path)) : Config.Searchable w (searchStart path) := by
  obtain ⟨hne, habsolute, place, hplace, hfollow, hleads⟩ := place_of_target htarget
  obtain ⟨hnames, hroot⟩ := searchStart_spec hne
  have hdirectory : ∀ step ∈ (searchStart path).names, Path.isParentName step = false := by
    rw [hnames]
    exact fun step hstep => hstraight step (List.mem_of_mem_dropLast hstep)
  refine ⟨?_, hdirectory, fun hmem => ?_, hroom⟩
  · have heq := hfollow.trans
      (Location.follow_eq_append (hnames ▸ Config.straight_names hdirectory) [])
    rw [World.origin, hroot, habsolute, if_pos rfl, hnames, ← heq]
    exact hleads
  · obtain ⟨entry, hresolve⟩ := place?_eq_some_iff.mp hplace
    obtain ⟨-, hnul, -⟩ := checkPath_eq_ok_iff.mp (resolve_eq_ok_iff.mp hresolve).1
    rw [searchStart] at hmem
    cases hparent : path.parent? with
    | none => exact hne (Path.names_of_parent?_eq_none hparent)
    | some q =>
      rw [hparent, Option.getD_some] at hmem
      exact hnul ((Path.parent?_isPrefix hparent).subset hmem)

theorem names_absolute_join (hw : w.Grounded) {dir : Path} {name : Bytes} (hname : Path.IsName name) :
    (Path.absolute w.cwd.path (dir.join ⟨name⟩)).names = w.origin dir ++ dir.names ++ [name] := by
  rw [(Path.absolute_spec _ _).1, Path.isAbsolute_join,
    Path.not_isAbsolute_of_slash_not_mem hname.slash, Bool.false_or, hw.names_path,
    Path.names_join_name hname, World.origin, List.append_assoc]

/-- Linting a file and the overview at the directory it is in. From a directory that was named from
the root both take the same configuration; from a relative one the overview takes it only if it is in
the current directory or below. Without a directory the overview is that of the current directory's
path from the root. -/
theorem overview_config_of_target_directory {dir : Path} {place : Location} {name : Bytes}
    (hw : w.Grounded) (hdir : w.files.resolve w.cwd dir = .ok (.found place .directory))
    (hstraight : ∀ step ∈ dir.names, Path.isParentName step = false) (hname : Path.IsName name)
    (hfile : options.file = dir.join ⟨name⟩) (hnone : options.config = none)
    (htarget : (target options.file).run w = (.ok path, w)) (hroom : Config.HasRoom dir)
    (hroom' : Config.HasRoom (searchStart path)) :
    Config.Loads w (Prod.snd <$> prepare options) (governor? w options.file) ∧
      Config.Loads w (Config.inForceAt none (some dir)) (Config.governor? w dir) ∧
      (dir.isAbsolute = true → Config.governor? w dir = governor? w options.file) ∧
      (dir.isAbsolute = false → Config.governor? w dir =
        (governor? w options.file).filter fun file => w.cwd.isPrefixOf file) ∧
      (Config.inForceAt none none).run w = (Config.inForceAt none (some w.cwd.path)).run w := by
  obtain ⟨hpath, -, -⟩ := of_target_run htarget
  have hnames : path.names = w.origin dir ++ dir.names ++ [name] := by
    rw [hpath, hfile, names_absolute_join hw hname]
  obtain ⟨hne, habsolute, -⟩ := place_of_target htarget
  obtain ⟨hstart, hroot⟩ := searchStart_spec hne
  have hsteps : ∀ step ∈ path.names, Path.isParentName step = false := by
    rw [hpath]
    refine straight_absolute hw fun step hstep => ?_
    rw [hfile, Path.names_join_name hname, List.mem_append, List.mem_singleton] at hstep
    rcases hstep with hstep | rfl
    · exact hstraight step hstep
    · exact hname.parent
  have hfilter := (searchable_searchStart htarget hsteps hroom').governor?_eq_filter hw
    (Config.searchable_of_resolve hdir hstraight hroom) (hroot.trans habsolute)
    (by rw [hstart, hnames, List.dropLast_concat])
  rw [hpath] at hfilter
  refine ⟨prepare_loads hnone htarget, Config.inForce_loads w dir, fun hd => ?_, fun hd => ?_, rfl⟩
  · rw [hfilter, World.origin, if_pos hd, governor?]
    cases Config.governor? w _ with
    | none => rfl
    | some file => rfl
  · rw [hfilter, World.origin, if_neg (by simp [hd]), governor?]

def inLib : LintOptions where
  file := .ofString "./lib/b.cs"
  id := "1"

theorem overview_config_of_lib :
    nested.Grounded ∧ nested.files.resolve nested.cwd (.ofString "./lib") =
        .ok (.found (nested.cwd ++ [Bytes.ofString "lib"]) .directory) ∧
      inLib.file = (Path.ofString "./lib").join ⟨Bytes.ofString "b.cs"⟩ ∧
      (target inLib.file).run nested = (.ok (.ofString "/proj/sub/lib/b.cs"), nested) ∧
      governor? nested inLib.file =
        some (nested.cwd ++ [Bytes.ofString "lib", Bytes.ofString "techlint.json"]) ∧
      Config.governor? nested (.ofString "./lib") =
        (governor? nested inLib.file).filter fun file => nested.cwd.isPrefixOf file := by
  have hgrounded : nested.Grounded := by decide
  have hdir : nested.files.resolve nested.cwd (.ofString "./lib") =
      .ok (.found (nested.cwd ++ [Bytes.ofString "lib"]) .directory) := rfl
  have hfile : inLib.file = (Path.ofString "./lib").join ⟨Bytes.ofString "b.cs"⟩ := by decide
  have htarget : (target inLib.file).run nested =
      (.ok (.ofString "/proj/sub/lib/b.cs"), nested) := rfl
  obtain ⟨-, -, -, hrelative, -⟩ := overview_config_of_target_directory hgrounded hdir (by decide)
    ⟨by decide, by decide, by decide⟩ hfile rfl htarget (by decide) (by decide)
  exact ⟨hgrounded, hdir, hfile, htarget, by decide, hrelative (by decide)⟩

/-- From a dot the overview does not see the configuration above that linting takes, and that the
overview without a directory takes as well. -/
theorem overview_config_of_dot :
    governor? nested (.ofString "./a.cs") =
        some [Bytes.ofString "proj", Bytes.ofString ".techlint.json"] ∧
      Config.governor? nested nested.cwd.path =
        some [Bytes.ofString "proj", Bytes.ofString ".techlint.json"] ∧
      Config.governor? nested (.ofString ".") = none ∧
      (Config.inForceAt none (some (.ofString "."))).run nested =
        (.ok Config.builtIn, { nested with log := [.noConfig (.ofString ".")] }) :=
  ⟨by decide, by decide, by decide, rfl⟩

end Lint
end LintRelay
