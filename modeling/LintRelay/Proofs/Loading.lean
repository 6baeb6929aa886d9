import LintRelay.Proofs.Discovery
import LintRelay.Proofs.Reload
import LintRelay.Proofs.Search
import Mathlib.Data.List.Find
/-! What finding and loading a configuration gives. It depends on the files and on where relative paths
start, and on nothing else in the world; from a start at the root it depends on the files only. Every
configuration that is obtained in this way is valid. -/
namespace LintRelay

namespace FileSystem

variable {p : Path}

theorem resolve_of_isAbsolute (h : p.isAbsolute = true) (fs : FileSystem) (cwd other : Location) :
    fs.resolve cwd p = fs.resolve other p := by
  rw [resolve, resolve, h, if_pos rfl, if_pos rfl]

theorem isFile_of_isAbsolute (h : p.isAbsolute = true) (fs : FileSystem) (cwd other : Location) :
    fs.isFile cwd p = fs.isFile other p := by
  rw [isFile, isFile, entry?, entry?, resolve_of_isAbsolute h fs cwd other]

theorem read_of_isAbsolute (h : p.isAbsolute = true) (fs : FileSystem) (cwd other : Location) :
    fs.read cwd p = fs.read other p := by
  rw [read, read, resolve_of_isAbsolute h fs cwd other]

end FileSystem

namespace Config

def loaded (fs : FileSystem) (cwd : Location) (path : Path) : Except Failure Config :=
  match fs.read cwd path with
  | .ok data => ofFile path data
  | .error e => .error (.io e)

/-- What a start is governed by: the nearest file above it, or what is built in. -/
def governing (fs : FileSystem) (cwd : Location) (start : Path) : Except Failure Config :=
  match find? (fs.isFile cwd) start with
  | some path => loaded fs cwd path
  | none => .ok builtIn

variable {fs : FileSystem} {cwd : Location} {path start : Path} {c : Config}

theorem fst_run_load (path : Path) (w : World) :
    ((load path).run w).1 = loaded w.files w.cwd path := by
  rw [loaded]
  cases hread : w.files.read w.cwd path with
  | error e =>
    simp only [load, Act.run_bind, Act.run_because, Act.run_readPath, hread, Except.mapError]
  | ok data =>
    simp only [load, Act.run_bind, Act.run_because, Act.run_readPath, hread, Except.mapError,
      Act.run_ofExcept]
    cases ofFile path data <;> rfl

theorem fst_run_discover (start : Path) (w : World) :
    ((discover start).run w).1 = governing w.files w.cwd start := by
  rw [governing, discover, Act.run_bind]
  simp only [search, Act.run_bind, Act.run_get, Act.run_pure]
  cases find? (w.files.isFile w.cwd) start with
  | none => rfl
  | some path => exact fst_run_load path w

theorem fst_run_inForce_some (path start : Path) (w : World) :
    ((inForce (some path) start).run w).1 =
      (loaded w.files w.cwd path).mapError (.configFrom path) := by
  simp only [inForce, Act.run_bind, Act.run_log, Act.run_because, fst_run_load]

theorem fst_run_inForce_none (start : Path) (w : World) :
    ((inForce none start).run w).1 =
      (governing w.files w.cwd start).mapError (.configAbove start) := by
  rw [inForce, Act.run_because, fst_run_discover]

/-! ### Validity -/

theorem validate_builtIn : builtIn.validate = .ok () := rfl

theorem validate_of_loaded (h : loaded fs cwd path = .ok c) : c.validate = .ok () := by
  rw [loaded] at h
  split at h
  · exact (of_ofFile h).2.1
  · cases h

theorem source_of_loaded (h : loaded fs cwd path = .ok c) : c.source = some path := by
  rw [loaded] at h
  split at h
  · obtain ⟨-, -, c₀, hc⟩ := of_ofFile h
    rw [hc]
  · cases h

theorem validate_of_governing (h : governing fs cwd start = .ok c) : c.validate = .ok () := by
  rw [governing] at h
  split at h
  · exact validate_of_loaded h
  · obtain rfl := Except.ok.inj h
    exact validate_builtIn

/-- Whatever the command line works with is valid. -/
theorem validate_of_inForce {explicit : Option Path} {w : World}
    (h : ((inForce explicit start).run w).1 = .ok c) : c.validate = .ok () := by
  cases explicit with
  | none =>
    rw [fst_run_inForce_none, Except.mapError_eq_ok_iff] at h
    exact validate_of_governing h
  | some path =>
    rw [fst_run_inForce_some, Except.mapError_eq_ok_iff] at h
    exact validate_of_loaded h

/-! ### From the root -/

/-- A search looks at no paths but those of configuration files in the directories it passes. -/
theorem find?_congr {isFile other : Path → Bool}
    (h : ∀ d ∈ start.ancestors, ∀ name ∈ fileNames,
      isFile (d.joinName name) = other (d.joinName name)) :
    find? isFile start = find? other start := by
  refine List.findSome?_congr fun d hd => List.find?_congr fun q hq => ?_
  obtain ⟨name, hname, rfl⟩ := List.mem_map.mp hq
  exact h d hd name hname

theorem isAbsolute_joinName (d : Path) {name : String} (h : name ∈ fileNames) :
    (d.joinName name).isAbsolute = d.isAbsolute := by
  rw [Path.joinName, Path.isAbsolute_join, Path.ofString,
    Path.not_isAbsolute_of_slash_not_mem (fileNames_spec h).1.slash, Bool.false_or]

theorem isAbsolute_of_find? {isFile : Path → Bool} (hstart : start.isAbsolute = true)
    (h : find? isFile start = some path) : path.isAbsolute = true := by
  obtain ⟨d, hd, hin⟩ := List.exists_of_findSome?_eq_some h
  obtain ⟨name, hname, rfl⟩ := List.mem_map.mp (List.mem_of_find?_eq_some hin)
  rw [isAbsolute_joinName d hname, (Path.of_mem_ancestors hd).2.2, hstart]

/-- What governs a start at the root does not depend on the current directory. -/
theorem governing_of_isAbsolute (h : start.isAbsolute = true) (fs : FileSystem)
    (cwd other : Location) : governing fs cwd start = governing fs other start := by
  have hfind : find? (fs.isFile cwd) start = find? (fs.isFile other) start := by
    refine find?_congr fun d hd name hname => ?_
    apply FileSystem.isFile_of_isAbsolute
    rw [isAbsolute_joinName d hname, (Path.of_mem_ancestors hd).2.2, h]
  rw [governing, governing, hfind]
  cases hfound : find? (fs.isFile other) start with
  | none => rfl
  | some path =>
    have hpath := isAbsolute_of_find? h hfound
    simp only [loaded, FileSystem.read_of_isAbsolute hpath fs cwd other]

end Config
end LintRelay
