import LintRelay.Config.Store
import LintRelay.Proofs.FileSystem
/-! The search for a configuration file. It looks into the start and then into one parent after the
other. Each parent is a shorter path, so the search ends, and the file that it finds is in the nearest
of these directories that has one. -/
namespace LintRelay

namespace Path

/-- The path that a number of steps to the parent leads to. -/
def up? (p : Path) : Nat → Option Path
  | 0 => some p
  | n + 1 => p.parent?.bind fun q => q.up? n

theorem length_of_up? {p d : Path} {n : Nat} (h : p.up? n = some d) :
    d.bytes.length + n ≤ p.bytes.length := by
  induction n generalizing p with
  | zero =>
    obtain rfl := Option.some.inj h
    exact Nat.le_refl _
  | succ n ih =>
    obtain ⟨q, hq, hd⟩ := Option.bind_eq_some_iff.mp h
    have hlt := parent?_length_lt hq
    have hle := ih hd
    omega

theorem up?_length (p : Path) : p.up? (p.bytes.length + 1) = none := by
  rw [Option.eq_none_iff_forall_ne_some]
  intro d hd
  have hle := length_of_up? hd
  omega

theorem getElem?_ancestors (p : Path) (n : Nat) : p.ancestors[n]? = p.up? n := by
  induction n generalizing p with
  | zero =>
    rw [ancestors_eq]
    rfl
  | succ n ih =>
    rw [ancestors_eq, List.getElem?_cons_succ, up?]
    cases p.parent? with
    | none => rfl
    | some q => exact ih q

theorem mem_ancestors_iff {p d : Path} : d ∈ p.ancestors ↔ ∃ n, p.up? n = some d := by
  simp only [List.mem_iff_getElem?, getElem?_ancestors]

end Path

theorem FileSystem.isFile_eq (fs : FileSystem) (cwd : Location) :
    fs.isFile cwd = fun p => (fs.entry? cwd p).any Entry.isFile := by
  funext p
  rw [isFile]
  cases fs.entry? cwd p with
  | none => rfl
  | some entry => cases entry <;> rfl

namespace Config

/-- How a search upwards ends: with the file in a directory that has one, with whatever the search from
the parent ends with, or without a file where there is no parent. -/
inductive Searches (isFile : Path → Bool) : Path → Option Path → Prop
  | found {d q : Path} (hin : fileIn? isFile d = some q) : Searches isFile d (some q)
  | up {d parent : Path} {r : Option Path} (hin : fileIn? isFile d = none)
      (hparent : d.parent? = some parent) (hrest : Searches isFile parent r) : Searches isFile d r
  | top {d : Path} (hin : fileIn? isFile d = none) (hparent : d.parent? = none) :
      Searches isFile d none

variable {isFile : Path → Bool} {start d q : Path}

theorem find?_eq (isFile : Path → Bool) (d : Path) :
    find? isFile d = (fileIn? isFile d).or (d.parent?.bind (find? isFile)) := by
  rw [find?, Path.ancestors_eq, List.findSome?_cons]
  cases fileIn? isFile d with
  | some q => rfl
  | none => cases d.parent? <;> rfl

theorem searches_find? (isFile : Path → Bool) (d : Path) : Searches isFile d (find? isFile d) := by
  rw [find?_eq]
  cases hin : fileIn? isFile d with
  | some q => exact .found hin
  | none =>
    cases hparent : d.parent? with
    | none => exact .top hin hparent
    | some parent =>
      have hlt := Path.parent?_length_lt hparent
      exact .up hin hparent (searches_find? isFile parent)
termination_by d.bytes.length

theorem Searches.eq_find? {r : Option Path} (h : Searches isFile d r) : r = find? isFile d := by
  induction h with
  | found hin => rw [find?_eq, hin, Option.some_or]
  | up hin hparent _ ih => rw [find?_eq, hin, hparent, Option.none_or, Option.bind_some, ih]
  | top hin hparent => rw [find?_eq, hin, hparent, Option.none_or, Option.bind_none]

/-- In a directory the dotted name counts before the plain one. -/
theorem fileIn?_eq_some_iff :
    fileIn? isFile d = some q ↔
      ∃ name ∈ fileNames, q = d.joinName name ∧ isFile q = true ∧
        (isFile (d.joinName ".techlint.json") = true → name = ".techlint.json") := by
  have hnames : fileIn? isFile d =
      if isFile (d.joinName ".techlint.json") then some (d.joinName ".techlint.json")
      else if isFile (d.joinName "techlint.json") then some (d.joinName "techlint.json")
      else none := by
    simp only [fileIn?, fileNames, List.map_cons, List.map_nil, List.find?_cons, List.find?_nil]
    cases isFile (d.joinName ".techlint.json") <;> cases isFile (d.joinName "techlint.json") <;> rfl
  rw [hnames]
  constructor
  · intro h
    split at h
    · next hdotted =>
      obtain rfl := Option.some.inj h
      exact ⟨".techlint.json", by simp [fileNames], rfl, hdotted, fun _ => rfl⟩
    · next hdotted =>
      split at h
      · next hplain =>
        obtain rfl := Option.some.inj h
        exact ⟨"techlint.json", by simp [fileNames], rfl, hplain, fun h => absurd h hdotted⟩
      · cases h
  · rintro ⟨name, hname, rfl, hfile, hdotted⟩
    have hname' : name = ".techlint.json" ∨ name = "techlint.json" := by simpa [fileNames] using hname
    rcases hname' with rfl | rfl
    · rw [if_pos hfile]
    · rw [if_neg (fun h => absurd (hdotted h) (by decide)), if_pos hfile]

theorem fileIn?_eq_none_iff :
    fileIn? isFile d = none ↔ ∀ name ∈ fileNames, isFile (d.joinName name) = false := by
  simp [fileIn?]

theorem find?_eq_some_iff :
    find? isFile start = some q ↔
      ∃ n d, start.up? n = some d ∧ fileIn? isFile d = some q ∧
        ∀ m < n, ∀ nearer, start.up? m = some nearer → fileIn? isFile nearer = none := by
  simp only [← Path.getElem?_ancestors]
  rw [find?, List.findSome?_eq_some_iff]
  constructor
  · rintro ⟨front, d, rest, hsplit, hin, hfront⟩
    refine ⟨front.length, d, by simp [hsplit], hin, fun m hm nearer hnearer => ?_⟩
    rw [hsplit, List.getElem?_append_left hm] at hnearer
    exact hfront nearer (List.mem_of_getElem? hnearer)
  · rintro ⟨n, d, hd, hin, hnearer⟩
    obtain ⟨hn, rfl⟩ := List.getElem?_eq_some_iff.mp hd
    refine ⟨start.ancestors.take n, _, start.ancestors.drop (n + 1), ?_, hin, fun nearer hmem => ?_⟩
    · rw [List.getElem_cons_drop, List.take_append_drop]
    · obtain ⟨m, hm, rfl⟩ := List.mem_take_iff_getElem.mp hmem
      exact hnearer m (by omega) _ (List.getElem?_eq_getElem _)

theorem find?_eq_none_iff :
    find? isFile start = none ↔ ∀ n d, start.up? n = some d → fileIn? isFile d = none := by
  rw [find?, List.findSome?_eq_none_iff]
  simp only [Path.mem_ancestors_iff, forall_exists_index]
  exact forall_comm

/-- A search ends, whatever the files are, after no more steps upwards than its start has bytes. It
finds a file if and only if the start or a parent of it has one, and then the one in the nearest of
them, under the dotted name if it has both. Only regular files count. -/
theorem search_finds_nearest (start : Path) :
    start.up? (start.bytes.length + 1) = none ∧
    (∀ isFile : Path → Bool,
      (∀ r, Searches isFile start r ↔ r = find? isFile start) ∧
      (∀ q, find? isFile start = some q ↔
        ∃ n d name, start.up? n = some d ∧ name ∈ fileNames ∧ q = d.joinName name ∧
          isFile q = true ∧ (isFile (d.joinName ".techlint.json") = true → name = ".techlint.json") ∧
          ∀ m < n, ∀ nearer, start.up? m = some nearer →
            ∀ name ∈ fileNames, isFile (nearer.joinName name) = false) ∧
      (find? isFile start = none ↔
        ∀ n d, start.up? n = some d → ∀ name ∈ fileNames, isFile (d.joinName name) = false)) ∧
    ∀ w, (search start : Act Failure (Option Path)).run w =
      (.ok (find? (fun p => (w.files.entry? w.cwd p).any Entry.isFile) start), w) := by
  refine ⟨start.up?_length, fun isFile => ⟨fun r => ?_, fun q => ?_, ?_⟩, fun w => ?_⟩
  · constructor
    · exact Searches.eq_find?
    · rintro rfl
      exact searches_find? isFile start
  · simp only [find?_eq_some_iff, fileIn?_eq_some_iff, fileIn?_eq_none_iff]
    constructor
    · rintro ⟨n, d, hd, ⟨name, hname, hq, hfile, hdotted⟩, hnearer⟩
      exact ⟨n, d, name, hd, hname, hq, hfile, hdotted, hnearer⟩
    · rintro ⟨n, d, name, hd, hname, hq, hfile, hdotted, hnearer⟩
      exact ⟨n, d, hd, ⟨name, hname, hq, hfile, hdotted⟩, hnearer⟩
  · simp only [find?_eq_none_iff, fileIn?_eq_none_iff]
  · rw [← FileSystem.isFile_eq]
    rfl

/-- Repeated and idle slashes do not keep a search from the directory above. -/
example :
    find? (· == .ofString "a/techlint.json") (.ofString "a//b/./") =
      some (.ofString "a/techlint.json") := by
  decide

end Config
end LintRelay
