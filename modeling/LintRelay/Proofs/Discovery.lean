import LintRelay.Config.InForce
import LintRelay.Proofs.FileSystem
import LintRelay.Proofs.General
/-! Which configuration file a search finds. A search goes up the names of its start; where the names
hold no step back, it passes through the directories around the start, nearest first, up to where the
first name of the start is looked up: the root, or the current directory. -/
namespace LintRelay

namespace Location

@[simp] theorem isAbsolute_path (place : Location) : place.path.isAbsolute = true := by
  rw [path]
  split <;> rfl

theorem names_path {place : Location} (h : ∀ name ∈ place, Path.IsName name) :
    place.path.names = place := by
  rw [path]
  split
  · next hempty =>
    rw [List.isEmpty_iff.mp hempty]
    rfl
  · rw [Path.names_slash_cons, Path.names_joinPieces fun name hname => (h name hname).slash,
      Path.keepNames, List.filter_eq_self]
    intro name hname
    simp [(h name hname).idle]

/-- Names that were followed and are still there are proper names. -/
theorem of_mem_follow {here : Location} {ns : List Bytes} {name : Bytes} (h : name ∈ follow here ns) :
    name ∈ here ∨ name ∈ ns ∧ Path.isIdle name = false ∧ Path.isParentName name = false := by
  fun_induction follow here ns with
  | case1 here => exact Or.inl h
  | case2 here first rest hidle ih =>
    exact (ih h).imp id (And.imp_left (List.mem_cons_of_mem _))
  | case3 here first rest hidle hparent ih =>
    exact (ih h).imp List.mem_of_mem_dropLast (And.imp_left (List.mem_cons_of_mem _))
  | case4 here first rest hidle hparent ih =>
    rcases ih h with hmem | ⟨hmem, hname⟩
    · rcases List.mem_append.mp hmem with hmem | hmem
      · exact Or.inl hmem
      · obtain rfl := List.mem_singleton.mp hmem
        exact Or.inr ⟨List.mem_cons_self, by simpa using hidle, by simpa using hparent⟩
    · exact Or.inr ⟨List.mem_cons_of_mem _ hmem, hname⟩

end Location

namespace World

open FileSystem

/-- The path of the current directory leads there. -/
def Grounded (w : World) : Prop :=
  w.files.resolve [] w.cwd.path = .ok (.found w.cwd .directory)

instance decidableGrounded (w : World) : Decidable w.Grounded :=
  match h : w.files.resolve [] w.cwd.path with
  | .ok t =>
    if ht : t = .found w.cwd .directory then isTrue (by rw [Grounded, h, ht])
    else isFalse fun hg => ht (Except.ok.inj (h.symm.trans hg))
  | .error _ => isFalse fun hg => by rw [Grounded, h] at hg; cases hg

variable {w : World}

theorem Grounded.isName (h : w.Grounded) : ∀ name ∈ w.cwd, Path.IsName name := by
  intro name hname
  have hplace : w.cwd = Location.follow [] w.cwd.path.names := by
    have hleads := (resolve_eq_ok_iff.mp h).2.place_eq
    rw [Location.isAbsolute_path, if_pos rfl, ← Location.follow_keepNames] at hleads
    exact hleads
  rw [hplace] at hname
  rcases Location.of_mem_follow hname with hmem | ⟨hmem, hidle, hparent⟩
  · cases hmem
  · exact ⟨(Path.of_mem_names hmem).1, hidle, hparent⟩

theorem Grounded.names_path (h : w.Grounded) : w.cwd.path.names = w.cwd :=
  Location.names_path h.isName

theorem Grounded.leads (h : w.Grounded) : Leads w.files [] w.cwd (.found w.cwd .directory) := by
  have hleads := Leads.keepNames_iff.mpr (resolve_eq_ok_iff.mp h).2
  rw [← Path.names_mk] at hleads
  simpa [h.names_path] using hleads

theorem Grounded.get? (h : w.Grounded) (hne : w.cwd ≠ []) :
    w.files.get? w.cwd = some .directory := by
  obtain ⟨front, last, hconcat⟩ := (List.eq_nil_or_concat w.cwd).resolve_left hne
  rw [List.concat_eq_append] at hconcat
  have hleads := h.leads
  have hlast := h.isName last (by rw [hconcat]; simp)
  have hfront : ∀ name ∈ front, Path.isIdle name = false ∧ Path.isParentName name = false :=
    fun name hname =>
      have hisName := h.isName name (by rw [hconcat]; simp [hname])
      ⟨hisName.idle, hisName.parent⟩
  rw [hconcat] at hleads ⊢
  obtain ⟨-, hname⟩ := hleads.split (by simp)
  rw [Location.follow_eq_append hfront, List.nil_append] at hname
  exact ((Leads.name_iff hlast.idle hlast.parent).mp hname).2.2

/-- Where the first name of a path is looked up. -/
def origin (w : World) (p : Path) : Location := if p.isAbsolute then [] else w.cwd

end World

namespace Config

open FileSystem

/-- The configuration file that counts in the directory at a place. -/
def fileAt? (fs : FileSystem) (dir : Location) : Option Location :=
  (fileNames.map fun name => dir ++ [Bytes.ofString name]).find? fun place =>
    (fs.get? place).any Entry.isFile

theorem fileNames_spec {name : String} (h : name ∈ fileNames) :
    Path.IsName (Bytes.ofString name) ∧ (0 : UInt8) ∉ Bytes.ofString name ∧
      Bytes.ofString name ≠ [] ∧ (Bytes.ofString name).length ≤ maxName := by
  have h' : name = ".techlint.json" ∨ name = "techlint.json" := by simpa [fileNames] using h
  rcases h' with rfl | rfl
  · exact ⟨⟨by decide, by decide, by decide⟩, by decide, by decide, by decide⟩
  · exact ⟨⟨by decide, by decide, by decide⟩, by decide, by decide, by decide⟩

/-- The path of a configuration file in a directory is not too long. -/
def HasRoom (dir : Path) : Prop :=
  ∀ name ∈ fileNames, (dir.joinName name).bytes.length < maxPath

instance decidableHasRoom (dir : Path) : Decidable (HasRoom dir) :=
  inferInstanceAs (Decidable (∀ name ∈ fileNames, (dir.joinName name).bytes.length < maxPath))

/-- A start that leads to a directory without a step back, with room for the path of a configuration
file there. -/
structure Searchable (w : World) (start : Path) : Prop where
  leads : Leads w.files (w.origin start) start.names
    (.found (w.origin start ++ start.names) .directory)
  straight : ∀ name ∈ start.names, Path.isParentName name = false
  nul : (0 : UInt8) ∉ start.bytes
  room : HasRoom start

variable {w : World} {start d : Path}

theorem straight_names (h : ∀ name ∈ start.names, Path.isParentName name = false) :
    ∀ name ∈ start.names, Path.isIdle name = false ∧ Path.isParentName name = false :=
  fun name hname => ⟨(Path.of_mem_names hname).2, h name hname⟩

theorem searchable_of_resolve {place : Location}
    (h : w.files.resolve w.cwd start = .ok (.found place .directory))
    (hstraight : ∀ name ∈ start.names, Path.isParentName name = false) (hroom : HasRoom start) :
    Searchable w start := by
  obtain ⟨hcheck, hleads⟩ := resolve_eq_ok_iff.mp h
  obtain ⟨-, hnul, -⟩ := checkPath_eq_ok_iff.mp hcheck
  have hnames : Leads w.files (w.origin start) start.names (.found place .directory) :=
    Leads.keepNames_iff.mpr hleads
  have hplace : place = w.origin start ++ start.names :=
    hnames.place_eq.trans (Location.follow_eq_append (straight_names hstraight) _)
  exact ⟨hplace ▸ hnames, hstraight, hnul, hroom⟩

/-- Every directory that a search passes through can be searched. -/
theorem Searchable.ancestor (h : Searchable w start) (hd : d ∈ start.ancestors) :
    Searchable w d := by
  obtain ⟨hbytes, ⟨rest, hnames⟩, habsolute⟩ := Path.of_mem_ancestors hd
  have horigin : w.origin d = w.origin start := by simp [World.origin, habsolute]
  have hstraight : ∀ name ∈ d.names, Path.isParentName name = false :=
    fun name hname => h.straight name (hnames ▸ List.mem_append_left rest hname)
  refine ⟨?_, hstraight, fun hnul => h.nul (hbytes.subset hnul), fun name hname => ?_⟩
  · rw [horigin]
    by_cases hrest : rest = []
    · rw [hrest, List.append_nil] at hnames
      rw [hnames]
      exact h.leads
    · have hleads := h.leads
      rw [← hnames] at hleads
      have hfront := (hleads.split hrest).1
      rwa [Location.follow_eq_append (straight_names hstraight)] at hfront
  · have hname' := (fileNames_spec hname).1
    have hrelative := Path.not_isAbsolute_of_slash_not_mem hname'.slash
    have hroom := h.room name hname
    have hlower := (Path.length_join_le start hrelative).2
    have hupper := (Path.length_join_le d hrelative).1
    by_cases hsame : d.bytes.length = start.bytes.length
    · obtain rfl : d = start := by
        have hequal := hbytes.eq_of_length hsame
        cases d
        cases start
        exact congrArg Path.mk hequal
      exact hroom
    · have hle := hbytes.length_le
      simp only [Path.joinName, Path.ofString] at hroom ⊢
      omega

theorem Searchable.resolve_joinName (h : Searchable w d) {name : String} (hname : name ∈ fileNames)
    {place : Location} {entry : Entry} :
    w.files.resolve w.cwd (d.joinName name) = .ok (.found place entry) ↔
      place = w.origin d ++ d.names ++ [Bytes.ofString name] ∧
        w.files.get? (w.origin d ++ d.names ++ [Bytes.ofString name]) = some entry := by
  obtain ⟨hisName, hnul, hne, hlength⟩ := fileNames_spec hname
  have hcheck : checkPath (d.joinName name) = .ok () := by
    refine checkPath_eq_ok_iff.mpr ⟨?_, fun hmem => ?_, h.room name hname⟩
    · have hlower := (Path.length_join_le d
        (Path.not_isAbsolute_of_slash_not_mem hisName.slash)).2
      have hpos := List.length_pos_iff.mpr hne
      have hbytes : (d.joinName name).bytes ≠ [] := by
        intro hnil
        rw [Path.joinName, Path.ofString] at hnil
        rw [hnil] at hlower
        simp only [List.length_nil] at hlower
        omega
      simpa [Path.isEmpty] using hbytes
    · rcases Path.mem_join hmem with hmem | hmem | hmem
      · exact h.nul hmem
      · exact absurd hmem (by decide)
      · exact hnul hmem
  have horigin : (if (d.joinName name).isAbsolute then [] else w.cwd) = w.origin d := by
    rw [Path.joinName, Path.isAbsolute_join, Path.ofString,
      Path.not_isAbsolute_of_slash_not_mem hisName.slash, Bool.false_or, World.origin]
  rw [resolve_eq_ok_iff, horigin, Path.joinName, Path.ofString, leads_join_iff hisName.slash,
    Location.follow_eq_append (straight_names h.straight), Leads.name_iff hisName.idle hisName.parent]
  constructor
  · rintro ⟨-, -, -, hplace, hget⟩
    exact ⟨hplace, hget⟩
  · rintro ⟨hplace, hget⟩
    exact ⟨hcheck, h.leads, hlength, hplace, hget⟩

theorem Searchable.fileIn?_bind (h : Searchable w d) :
    (fileIn? (w.files.isFile w.cwd) d).bind (w.files.place? w.cwd) =
      fileAt? w.files (w.origin d ++ d.names) := by
  refine List.find?_map_bind (fun name hname => ?_) (fun name hname hfile => ?_)
  · rw [Bool.eq_iff_iff, isFile_iff]
    simp only [h.resolve_joinName hname, Option.any_eq_true]
    constructor
    · rintro ⟨place, entry, ⟨-, hget⟩, hentry⟩
      exact ⟨entry, hget, hentry⟩
    · rintro ⟨entry, hget, hentry⟩
      exact ⟨_, entry, ⟨rfl, hget⟩, hentry⟩
  · obtain ⟨place, entry, hresolve, -⟩ := isFile_iff.mp hfile
    obtain ⟨rfl, hget⟩ := (h.resolve_joinName hname).mp hresolve
    exact place?_eq_some_iff.mpr ⟨entry, hresolve⟩

/-- The place of the file that a search upwards from a start finds. -/
def governor? (w : World) (start : Path) : Option Location :=
  (find? (w.files.isFile w.cwd) start).bind (w.files.place? w.cwd)

theorem exists_place?_of_fileIn? {q : Path} (h : fileIn? (w.files.isFile w.cwd) d = some q) :
    ∃ place, w.files.place? w.cwd q = some place := by
  obtain ⟨place, entry, hresolve, -⟩ := isFile_iff.mp (List.find?_some h)
  exact ⟨place, place?_eq_some_iff.mpr ⟨entry, hresolve⟩⟩

theorem Searchable.governor?_eq (h : Searchable w start) :
    governor? w start =
      start.names.inits.reverse.findSome? fun names => fileAt? w.files (w.origin start ++ names) := by
  rw [governor?, find?, List.findSome?_bind fun d q => exists_place?_of_fileIn?,
    ← Path.findSome?_ancestors]
  refine List.findSome?_congr fun d hd => ?_
  have horigin : w.origin d = w.origin start := by
    simp [World.origin, (Path.of_mem_ancestors hd).2.2]
  rw [(h.ancestor hd).fileIn?_bind, horigin]

/-- The file that a search finds is in a directory that is spelled by the first few names of the
start. -/
theorem of_governor?_eq_some {file : Location} (h : governor? w start = some file) :
    ∃ front rest name, start.names = front ++ rest ∧ name ∈ fileNames ∧
      file = Location.follow (w.origin start) front ++ [Bytes.ofString name] := by
  obtain ⟨q, hq, hplace⟩ := Option.bind_eq_some_iff.mp h
  obtain ⟨d, hd, hin⟩ := List.exists_of_findSome?_eq_some hq
  obtain ⟨name, hname, rfl⟩ := List.mem_map.mp (List.mem_of_find?_eq_some hin)
  obtain ⟨-, ⟨rest, hrest⟩, habsolute⟩ := Path.of_mem_ancestors hd
  obtain ⟨hisName, -⟩ := fileNames_spec hname
  refine ⟨d.names, rest, name, hrest.symm, hname, ?_⟩
  obtain ⟨entry, hresolve⟩ := place?_eq_some_iff.mp hplace
  have hleads := (resolve_eq_ok_iff.mp hresolve).2
  rw [Path.joinName, Path.isAbsolute_join, Path.ofString,
    Path.not_isAbsolute_of_slash_not_mem hisName.slash, Bool.false_or, habsolute,
    leads_join_iff hisName.slash] at hleads
  exact ((Leads.name_iff hisName.idle hisName.parent).mp hleads.2).2.1

theorem of_fileAt?_eq_some {fs : FileSystem} {dir file : Location} (h : fileAt? fs dir = some file) :
    (∃ name, file = dir ++ [name]) ∧ ∃ entry, fs.get? file = some entry ∧ entry.isFile = true := by
  rw [fileAt?] at h
  have hfile := List.find?_some h
  obtain ⟨name, -, rfl⟩ := List.mem_map.mp (List.mem_of_find?_eq_some h)
  exact ⟨⟨_, rfl⟩, (Option.any_eq_true _ _).mp hfile⟩

theorem not_cwd_prefix_of_fileAt? (hw : w.Grounded) {dir file : Location}
    (h : fileAt? w.files dir = some file) (hdir : dir <+: w.cwd) (hne : dir ≠ w.cwd) :
    ¬ w.cwd <+: file := by
  obtain ⟨⟨name, rfl⟩, entry, hget, hentry⟩ := of_fileAt?_eq_some h
  intro hfile
  have hlt : dir.length < w.cwd.length :=
    lt_of_le_of_ne hdir.length_le fun heq => hne (hdir.eq_of_length heq)
  -- The file would be the current directory itself.
  have hcwd : w.cwd = dir ++ [name] := by
    refine hfile.eq_of_length ?_
    have hle := hfile.length_le
    simp only [List.length_append, List.length_singleton] at hle ⊢
    omega
  have hdirectory := hw.get? (by rw [hcwd]; simp)
  rw [hcwd, hget] at hdirectory
  rw [Option.some.inj hdirectory] at hentry
  cases hentry

/-- Two starts that can be searched and lead to one directory, one of them from the root: the other
one finds the same file, unless it is relative and that file is not in the current directory or below
it. -/
theorem Searchable.governor?_eq_filter (hw : w.Grounded) (h : Searchable w start)
    (hd : Searchable w d) (habsolute : start.isAbsolute = true)
    (hnames : start.names = w.origin d ++ d.names) :
    governor? w d = (governor? w start).filter fun file => (w.origin d).isPrefixOf file := by
  have hroot : w.origin start = [] := by rw [World.origin, habsolute, if_pos rfl]
  rw [hd.governor?_eq, h.governor?_eq, hroot, hnames]
  refine List.findSome?_inits_append (fun names file hfile => ?_) (fun front file hfront hne hfile => ?_) _
  · obtain ⟨⟨name, rfl⟩, -⟩ := of_fileAt?_eq_some hfile
    rw [List.isPrefixOf_iff_prefix, List.append_assoc]
    exact List.prefix_append _ _
  · have hrelative : w.origin d = w.cwd := by
      rw [World.origin] at hfront hne ⊢
      split at hfront
      · next hd =>
        rw [if_pos hd] at hne
        exact absurd (List.prefix_nil.mp hfront) hne
      · next hd => rw [if_neg hd]
    rw [hrelative] at hfront hne ⊢
    rw [Bool.eq_false_iff, ne_eq, List.isPrefixOf_iff_prefix]
    exact not_cwd_prefix_of_fileAt? hw hfile hfront hne

/-- An action takes the file at a place as the configuration, or what is built in. -/
def Loads (w : World) (act : Act Trouble Config) : Option Location → Prop
  | some place => ∃ start path, w.files.place? w.cwd path = some place ∧
      act.run w = (Act.because (.configAbove start) (load path)).run w
  | none => ∃ start, act.run w = (.ok builtIn, { w with log := w.log ++ [.noConfig start] })

theorem inForce_loads (w : World) (start : Path) :
    Loads w (inForce none start) (governor? w start) := by
  rw [governor?]
  cases hfind : find? (w.files.isFile w.cwd) start with
  | none =>
    refine ⟨start, ?_⟩
    simp only [inForce, Act.run_because, discover, Act.run_bind, search, Act.run_get, Act.run_pure,
      hfind]
    rfl
  | some path =>
    obtain ⟨d, -, hd⟩ := List.exists_of_findSome?_eq_some hfind
    obtain ⟨place, hplace⟩ := exists_place?_of_fileIn? hd
    rw [Option.bind_some, hplace]
    refine ⟨start, path, hplace, ?_⟩
    simp only [inForce, Act.run_because, discover, Act.run_bind, search, Act.run_get, Act.run_pure,
      hfind]

end Config

end LintRelay
