import LintRelay.Proofs.Discovery
/-! Files that are not read. What a file holds decides neither where paths lead nor which
configuration file is found, and finding and loading a configuration reads that one file only. -/
namespace LintRelay

/-- Where a file has another content, a target that is this file has it too. -/
def Target.refilled (place : Location) (entry : Entry) : Target → Target
  | .found q old => if q = place ∧ old.isFile = true then .found q entry else .found q old
  | .free q => .free q

namespace FileSystem

variable {fs : FileSystem} {place : Location} {old entry : Entry}

theorem ne_nil_of_get?_isFile (hold : fs.get? place = some old) (hfile : old.isFile = true) :
    place ≠ [] := by
  rintro rfl
  obtain rfl : Entry.directory = old := by simpa [get?] using hold
  cases hfile

theorem ne_directory_of_isFile {e : Entry} (h : e.isFile = true) : e ≠ .directory := by
  rintro rfl
  cases h

theorem walk_cons_of_entry {e : Entry} {here : Location} {name : Bytes}
    (hidle : Path.isIdle name = false) (hparent : Path.isParentName name = false)
    (hlength : name.length ≤ maxName) (hget : fs.get? (here ++ [name]) = some e)
    (hdirectory : e ≠ .directory) (rest : List Bytes) :
    fs.walk here (name :: rest) =
      if rest.isEmpty then .ok (.found (here ++ [name]) e) else .error .notDirectory := by
  cases e with
  | directory => exact absurd rfl hdirectory
  | _ => simp [walk, hidle, hparent, Nat.not_lt.mpr hlength, hget]

theorem exists_get?_put (hold : fs.get? place = some old) (hfile : old.isFile = true)
    (hentry : entry.isFile = true) {q : Location} {e : Entry} (h : fs.get? q = some e) :
    ∃ e', (fs.put place entry).get? q = some e' ∧
      Target.refilled place entry (.found q e) = .found q e' ∧
      (e' = .directory ↔ e = .directory) := by
  rw [get?_put (ne_nil_of_get?_isFile hold hfile)]
  by_cases hq : q = place
  · obtain rfl : e = old := Option.some.inj (h.symm.trans (hq ▸ hold))
    refine ⟨entry, if_pos hq, by simp [Target.refilled, hq, hfile], ?_⟩
    simp [ne_directory_of_isFile hentry, ne_directory_of_isFile hfile]
  · exact ⟨e, by rw [if_neg hq, h], by simp [Target.refilled, hq], Iff.rfl⟩

theorem get?_put_eq_none (hold : fs.get? place = some old) (hfile : old.isFile = true)
    {q : Location} (h : fs.get? q = none) : (fs.put place entry).get? q = none := by
  have hq : q ≠ place := by
    rintro rfl
    exact absurd (h.symm.trans hold) (by simp)
  rw [get?_put (ne_nil_of_get?_isFile hold hfile), if_neg hq, h]

/-- Names lead where they did, whatever a file holds. -/
theorem walk_put (hold : fs.get? place = some old) (hfile : old.isFile = true)
    (hentry : entry.isFile = true) (here : Location) (ps : List Bytes) :
    (fs.put place entry).walk here ps = (fs.walk here ps).map (Target.refilled place entry) := by
  fun_induction walk fs here ps with
  | case1 here => simp [walk, Except.map, Target.refilled, Entry.isFile]
  | case2 here name rest hidle ih => simpa [walk, hidle] using ih
  | case3 here name rest hidle hparent ih => simpa [walk, hidle, hparent] using ih
  | case4 here name rest hidle hparent hlength => simp [walk, hidle, hparent, hlength, Except.map]
  | case5 here name rest hidle hparent hlength next hnext ih =>
    obtain ⟨e', hafter, -, hkind⟩ := exists_get?_put hold hfile hentry hnext
    have hnamed : (fs.put place entry).get? (here ++ [name]) = some .directory := by
      rw [← hkind.mpr rfl]
      exact hafter
    simpa [walk, hidle, hparent, hlength, hnamed] using ih
  | case6 here name rest hidle hparent hlength next e hdirectory hnext hrest =>
    obtain ⟨e', hafter, hrefilled, hkind⟩ := exists_get?_put hold hfile hentry hnext
    rw [walk_cons_of_entry (by simpa using hidle) (by simpa using hparent) (Nat.not_lt.mp hlength)
      hafter (hkind.not.mpr hdirectory), if_pos hrest, Except.map, hrefilled]
  | case7 here name rest hidle hparent hlength next e hdirectory hnext hrest =>
    obtain ⟨e', hafter, -, hkind⟩ := exists_get?_put hold hfile hentry hnext
    rw [walk_cons_of_entry (by simpa using hidle) (by simpa using hparent) (Nat.not_lt.mp hlength)
      hafter (hkind.not.mpr hdirectory), if_neg hrest, Except.map]
  | case8 here name rest hidle hparent hlength next hnext hrest =>
    have hafter : (fs.put place entry).get? (here ++ [name]) = none :=
      get?_put_eq_none hold hfile hnext
    simp [walk, hidle, hparent, hlength, hafter, hrest, Except.map, Target.refilled, next]
  | case9 here name rest hidle hparent hlength next hnext hrest =>
    have hafter : (fs.put place entry).get? (here ++ [name]) = none :=
      get?_put_eq_none hold hfile hnext
    simp [walk, hidle, hparent, hlength, hafter, hrest, Except.map]

theorem resolve_put (hold : fs.get? place = some old) (hfile : old.isFile = true)
    (hentry : entry.isFile = true) (cwd : Location) (p : Path) :
    (fs.put place entry).resolve cwd p =
      (fs.resolve cwd p).map (Target.refilled place entry) := by
  rw [resolve, resolve, walk_put hold hfile hentry]
  cases checkPath p <;> rfl

theorem isFile_put (hold : fs.get? place = some old) (hfile : old.isFile = true)
    (hentry : entry.isFile = true) (cwd : Location) :
    (fs.put place entry).isFile cwd = fs.isFile cwd := by
  funext p
  rw [Bool.eq_iff_iff, isFile_iff, isFile_iff, resolve_put hold hfile hentry]
  cases fs.resolve cwd p with
  | error e => simp [Except.map]
  | ok t =>
    cases t with
    | free q => simp [Except.map, Target.refilled]
    | found q e =>
      by_cases hq : q = place ∧ e.isFile = true
      · simp [Except.map, Target.refilled, hq, hentry]
      · simp [Except.map, Target.refilled, hq]

theorem read_put (hold : fs.get? place = some old) (hfile : old.isFile = true)
    (hentry : entry.isFile = true) {cwd : Location} {p : Path}
    (hp : fs.place? cwd p ≠ some place) : (fs.put place entry).read cwd p = fs.read cwd p := by
  rw [read, read, resolve_put hold hfile hentry]
  cases hresolve : fs.resolve cwd p with
  | error e => rfl
  | ok t =>
    cases t with
    | free q => rfl
    | found q e =>
      have hq : q ≠ place := by
        rintro rfl
        exact hp (place?_eq_some_iff.mpr ⟨e, hresolve⟩)
      simp [Except.map, Target.refilled, hq]

end FileSystem

/-- An action to which it makes no difference that the files are others; and they stay so. -/
def Act.Overlooks {ε α : Type} (act : Act ε α) (files : FileSystem) (w : World) : Prop :=
  act.run { w with files := files } = ((act.run w).1, { (act.run w).2 with files := files })

namespace Act.Overlooks

variable {ε δ α β : Type} {files : FileSystem} {w : World}

theorem pure (a : α) : (Pure.pure a : Act ε α).Overlooks files w := rfl

theorem throw (e : ε) : (MonadExcept.throw e : Act ε α).Overlooks files w := rfl

theorem ofExcept (e : Except ε α) : (Act.ofExcept e).Overlooks files w := rfl

theorem log (e : Event) : (Act.log e : Act ε Unit).Overlooks files w := rfl

theorem print (text : String) : (Act.print text : Act ε Unit).Overlooks files w := rfl

theorem readPath {p : Path} (h : files.read w.cwd p = w.files.read w.cwd p) :
    (Act.readPath p).Overlooks files w := by
  rw [Overlooks, run_readPath, run_readPath, h]

theorem because (f : ε → δ) {act : Act ε α} (h : act.Overlooks files w) :
    (Act.because f act).Overlooks files w := by
  rw [Overlooks, run_because, run_because, h]

theorem bind {act : Act ε α} {f : α → Act ε β} (h : act.Overlooks files w)
    (hf : ∀ a w', act.run w = (.ok a, w') → (f a).Overlooks files w') :
    (act >>= f).Overlooks files w := by
  rw [Overlooks, run_bind, run_bind, h]
  cases hrun : act.run w with
  | mk result w' =>
    cases result with
    | error e => rfl
    | ok a => exact hf a w' hrun

end Act.Overlooks

namespace Config

variable {files : FileSystem} {w : World}

theorem overlooks_load {path : Path} (h : files.read w.cwd path = w.files.read w.cwd path) :
    (load path).Overlooks files w :=
  .bind (.because _ (.readPath h)) fun data _ _ =>
    .bind (.ofExcept (ofFile path data)) fun c _ _ => .bind (.log _) fun _ _ _ => .pure c

theorem search_run {ε : Type} (start : Path) (w : World) :
    (search start : Act ε _).run w = (.ok (find? (w.files.isFile w.cwd) start), w) := rfl

theorem overlooks_search {ε : Type} {start : Path}
    (h : files.isFile w.cwd = w.files.isFile w.cwd) :
    (search start : Act ε _).Overlooks files w := by
  rw [Act.Overlooks, search_run, search_run, h]

def takenFrom? (explicit : Option Path) (start : Path) (w : World) : Option Location :=
  match explicit with
  | some path => w.files.place? w.cwd path
  | none => governor? w start

/-- No file but the one with the configuration is read. -/
theorem overlooks_inForce {explicit : Option Path} {start : Path} {place : Location}
    {old entry : Entry} (hold : w.files.get? place = some old) (hfile : old.isFile = true)
    (hentry : entry.isFile = true) (h : takenFrom? explicit start w ≠ some place) :
    (inForce explicit start).Overlooks (w.files.put place entry) w := by
  have hread : ∀ path, w.files.place? w.cwd path ≠ some place →
      (w.files.put place entry).read w.cwd path = w.files.read w.cwd path :=
    fun path => FileSystem.read_put hold hfile hentry
  cases explicit with
  | some path =>
    refine .bind (.log _) fun _ w' hlog => .because _ (overlooks_load ?_)
    rw [Act.run_log] at hlog
    obtain ⟨-, rfl⟩ := Prod.mk.inj hlog
    exact hread path h
  | none =>
    refine .because _ (.bind (overlooks_search (FileSystem.isFile_put hold hfile hentry _)) ?_)
    intro found w' hsearch
    rw [search_run] at hsearch
    obtain ⟨hfound, rfl⟩ := Prod.mk.inj hsearch
    obtain rfl := Except.ok.inj hfound
    cases hfind : find? (w.files.isFile w.cwd) start with
    | none => exact .bind (.log _) fun _ _ _ => .pure _
    | some path =>
      refine overlooks_load (hread path fun hplace => h ?_)
      rw [takenFrom?, governor?, hfind, Option.bind_some, hplace]

end Config
end LintRelay
