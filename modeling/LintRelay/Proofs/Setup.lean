import LintRelay.Proofs.Ascent
import LintRelay.Proofs.Loading
/-! Setting up a configuration file. What is built in is written to the dotted name in a directory, and
nowhere else, and from then on it governs the directory and what is below it. Without force a file under
that name is left alone; one under the plain name is not looked at, and is overruled. -/
namespace LintRelay

namespace FileSystem

open LintRelay.Path

variable {fs : FileSystem} {cwd place : Location} {p d e : Path} {name : Bytes} {t : Target}

/-- Where a directory is, by the names of its path. -/
def dirPlace (cwd : Location) (d : Path) : Location :=
  Location.follow (if d.isAbsolute then [] else cwd) d.names

theorem dirPlace_append {rest : List Bytes} (habsolute : e.isAbsolute = d.isAbsolute)
    (hnames : e.names = d.names ++ rest)
    (hrest : ∀ step ∈ rest, isIdle step = false ∧ isParentName step = false) :
    dirPlace cwd e = dirPlace cwd d ++ rest := by
  rw [dirPlace, dirPlace, habsolute, hnames, Location.follow_append, Location.follow_eq_append hrest]

theorem resolve_join_iff (hname : IsName name) (hlength : name.length ≤ maxName) :
    fs.resolve cwd (d.join ⟨name⟩) = .ok t ↔
      checkPath (d.join ⟨name⟩) = .ok () ∧
        Leads fs (if d.isAbsolute then [] else cwd) d.names (.found (dirPlace cwd d) .directory) ∧
        t.place = dirPlace cwd d ++ [name] ∧ fs.get? (dirPlace cwd d ++ [name]) = t.entry? := by
  rw [resolve_eq_ok_iff, isAbsolute_join, not_isAbsolute_of_slash_not_mem hname.slash, Bool.false_or,
    leads_join_iff hname.slash, Leads.name_iff hname.idle hname.parent]
  simp only [hlength, true_and]
  rfl

/-- What is read back as it was written is where the path led before. -/
theorem put_of_write_of_read {fs' : FileSystem} {data : Bytes} (hwrite : fs.write cwd p data = .ok fs')
    (hread : fs'.read cwd p = .ok data) (hdata : data ≠ []) :
    ∃ t, fs.resolve cwd p = .ok t ∧ t.entry? ≠ some .directory ∧
      fs' = fs.put t.place (.file data) := by
  obtain ⟨t, hresolve, ⟨⟨device, hdevice⟩, rfl⟩ | ⟨ht, rfl⟩⟩ := of_write_eq_ok hwrite
  · obtain ⟨place, hfile⟩ := resolve_of_read hread hdata
    obtain rfl := Except.ok.inj (hresolve.symm.trans hfile)
    cases hdevice
  · exact ⟨t, hresolve, ht, rfl⟩

theorem ne_of_write_of_absent {fs' : FileSystem} {data : Bytes}
    (habsent : fs.pathExists cwd p = false) (hwrite : fs.write cwd p data = .ok fs') : fs' ≠ fs := by
  rintro rfl
  have hentry := entry?_of_write hwrite fun device hdevice => by
    simp [pathExists, hdevice] at habsent
  simp [pathExists, hentry] at habsent

/-- A file that is found after another one was put somewhere else was there before. -/
theorem isFile_of_put {data : Bytes} (hplace : place ≠ [])
    (hne : ∀ t, (fs.put place (.file data)).resolve cwd p = .ok t → t.place ≠ place)
    (h : (fs.put place (.file data)).isFile cwd p = true) : fs.isFile cwd p = true := by
  obtain ⟨found, entry, hresolve, hentry⟩ := isFile_iff.mp h
  obtain ⟨hcheck, hleads⟩ := resolve_eq_ok_iff.mp hresolve
  have hbefore := hleads.of_put hplace (hne _ hresolve)
  exact isFile_iff.mpr ⟨found, entry, resolve_eq_ok_iff.mpr ⟨hcheck, hbefore⟩, hentry⟩

end FileSystem

namespace Config

open FileSystem

variable {dir : Option Path} {force : Bool} {d q s : Path} {w after : World}

/-- The content of the file that is set up. -/
def setupFile : Bytes := Bytes.ofString (builtIn.fileText?.getD "")

theorem fileText?_builtIn : builtIn.fileText? = some (builtIn.fileText?.getD "") := rfl

theorem setupFile_ne_nil : setupFile ≠ [] :=
  (of_ofFile (ofFile_fileText? (p := .ofString "/c") validate_builtIn rfl fileText?_builtIn)).1

theorem save_builtIn_run (path : Path) (w : World) :
    (builtIn.save path).run w =
      match w.files.write w.cwd path setupFile with
      | .ok files => (.ok (), { w with files := files })
      | .error e => (.error (.io e), w) := by
  rw [save_run, fileText?_builtIn]
  rfl

theorem baseDir_run (dir : Option Path) (w : World) :
    (baseDir dir).run w = (.ok (dir.getD w.cwd.path), w) := by
  cases dir <;> rfl

theorem setup_run_of_present (hd : dir.getD w.cwd.path = d)
    (h : w.files.pathExists w.cwd (d.joinName setupName) = true) :
    (setup dir false).run w = (.ok 1, { w with
      stdout := w.stdout ++
        ("❌ Config already exists at: " ++ (d.joinName setupName).display ++ "\n") ++
        ("   Use --force to overwrite" ++ "\n") }) := by
  simp only [setup, Act.run_bind, baseDir_run, hd, Act.pathExists, Act.run_get, Act.run_pure, h]
  rfl

theorem setup_run_of_write (hd : dir.getD w.cwd.path = d)
    (h : w.files.pathExists w.cwd (d.joinName setupName) = false ∨ force = true) :
    (setup dir force).run w =
      match w.files.write w.cwd (d.joinName setupName) setupFile with
      | .ok files => (.ok 0, { w with
          files := files
          log := w.log ++ [.wroteConfig (d.joinName setupName)]
          stdout := w.stdout ++ ("✅ Created config: " ++ (d.joinName setupName).display ++ "\n") })
      | .error e => (.error (.configUnwritten (d.joinName setupName) (.io e)), w) := by
  have hgo : (w.files.pathExists w.cwd (d.joinName setupName) && !force) = false := by
    rcases h with h | h <;> simp [h]
  simp only [setup, Act.run_bind, baseDir_run, hd, Act.pathExists, Act.run_get, Act.run_pure, hgo,
    Bool.false_eq_true, if_false, Act.run_because, save_builtIn_run]
  cases w.files.write w.cwd (d.joinName setupName) setupFile <;> rfl

theorem setupName_mem : setupName ∈ fileNames := List.mem_cons_self

/-- The dotted name counts, whatever else there is in the directory. -/
theorem fileIn?_of_isFile {isFile : Path → Bool} (h : isFile (d.joinName setupName) = true) :
    fileIn? isFile d = some (d.joinName setupName) :=
  fileIn?_eq_some_iff.mpr ⟨setupName, setupName_mem, rfl, h, fun _ => rfl⟩

theorem governing_of_found {fs : FileSystem} {cwd place : Location}
    (hfind : find? (fs.isFile cwd) s = some q)
    (hq : fs.resolve cwd q = .ok (.found place (.file setupFile))) :
    governing fs cwd s = .ok ⟨builtIn.analyzers, some q⟩ := by
  obtain ⟨base, hbase⟩ := parent?_of_resolve hq
  have hread : fs.read cwd q = .ok setupFile := by
    simp [FileSystem.read, hq, bind, Except.bind, pure, Except.pure]
  rw [governing, hfind]
  simp only [loaded, hread]
  exact ofFile_fileText? validate_builtIn hbase fileText?_builtIn

section Placed

variable {fs : FileSystem} {cwd : Location} {t : Target} {name : String} {e : Path}
  {below : List Bytes}

theorem resolve_joinName_iff (hname : name ∈ fileNames) :
    fs.resolve cwd (d.joinName name) = .ok t ↔
      checkPath (d.joinName name) = .ok () ∧
        Leads fs (if d.isAbsolute then [] else cwd) d.names (.found (dirPlace cwd d) .directory) ∧
        t.place = dirPlace cwd d ++ [Bytes.ofString name] ∧
        fs.get? (dirPlace cwd d ++ [Bytes.ofString name]) = t.entry? := by
  obtain ⟨hisName, -, -, hlength⟩ := fileNames_spec hname
  exact resolve_join_iff hisName hlength

theorem place_of_resolve_joinName (hname : name ∈ fileNames)
    (h : fs.resolve cwd (d.joinName name) = .ok t) :
    t.place = dirPlace cwd d ++ [Bytes.ofString name] :=
  ((resolve_joinName_iff hname).mp h).2.2.1

/-- Below the directory, no configuration file appears where the one that is set up is not. -/
theorem fileIn?_put_eq_none {data : Bytes} {nearer : Path}
    (hsetup : fs.resolve cwd (d.joinName setupName) = .ok t)
    (habsolute : nearer.isAbsolute = d.isAbsolute) {rest : List Bytes}
    (hnames : nearer.names = d.names ++ rest) (hne : rest ≠ [])
    (hstraight : ∀ step ∈ rest, Path.isIdle step = false ∧ Path.isParentName step = false)
    (h : fileIn? (fs.isFile cwd) nearer = none) :
    fileIn? ((fs.put t.place (.file data)).isFile cwd) nearer = none := by
  have hplace := place_of_resolve_joinName setupName_mem hsetup
  rw [fileIn?_eq_none_iff] at h ⊢
  intro name hname
  -- Its place has more names than the one of the file that is set up.
  have hfar : ∀ found, (fs.put t.place (.file data)).resolve cwd (nearer.joinName name) = .ok found →
      found.place ≠ t.place := by
    intro found hfound heq
    have hlong := place_of_resolve_joinName hname hfound
    rw [heq, hplace, dirPlace_append habsolute hnames hstraight] at hlong
    have hlength := congrArg List.length hlong
    have hpositive := List.length_pos_of_ne_nil hne
    simp only [List.length_append, List.length_singleton] at hlength
    omega
  by_contra hfile
  have hbefore := isFile_of_put (by simp [hplace]) hfar (by simpa using hfile)
  rw [h name hname] at hbefore
  cases hbefore

/-- After the setup what is built in governs the directory and every start below it, unless there is
another file on the way. -/
theorem governing_put (hsetup : fs.resolve cwd (e.joinName setupName) = .ok t)
    (ht : t.entry? ≠ some .directory) (he : s.up? below.length = some e)
    (hnames : s.names = e.names ++ below)
    (hstraight : ∀ step ∈ below, Path.isParentName step = false)
    (hway : ∀ nearer ∈ s.ancestors, e.names.length < nearer.names.length →
      fileIn? (fs.isFile cwd) nearer = none) :
    governing (fs.put t.place (.file setupFile)) cwd s =
      .ok ⟨builtIn.analyzers, some (e.joinName setupName)⟩ := by
  obtain ⟨hcheck, hleads⟩ := resolve_eq_ok_iff.mp hsetup
  have hresolve := resolve_eq_ok_iff.mpr ⟨hcheck, hleads.put ht (.file setupFile)⟩
  have hfile := isFile_iff.mpr ⟨_, _, hresolve, rfl⟩
  refine governing_of_found (find?_eq_some_iff.mpr ⟨_, e, he, fileIn?_of_isFile hfile, ?_⟩) hresolve
  intro m hm nearer hup
  have hmem : nearer ∈ s.ancestors := Path.mem_ancestors_iff.mpr ⟨m, hup⟩
  have hroot : nearer.isAbsolute = e.isAbsolute := by
    rw [(Path.of_mem_ancestors hmem).2.2,
      (Path.of_mem_ancestors (Path.mem_ancestors_iff.mpr ⟨_, he⟩)).2.2]
  obtain ⟨rest, hrest, hne, hfront⟩ := Path.exists_names_of_up? hnames hm hup
  have hlonger : e.names.length < nearer.names.length := by
    have hpositive := List.length_pos_of_ne_nil hne
    rw [hrest, List.length_append]
    omega
  refine fileIn?_put_eq_none hsetup hroot hrest hne ?_ (hway nearer hmem hlonger)
  intro step hstep
  have hidle : Path.isIdle step = false :=
    (Path.of_mem_names (p := nearer) (by rw [hrest]; exact List.mem_append_right _ hstep)).2
  exact ⟨hidle, hstraight step (hfront.subset hstep)⟩

theorem governing_put_self (hsetup : fs.resolve cwd (d.joinName setupName) = .ok t)
    (ht : t.entry? ≠ some .directory) :
    governing (fs.put t.place (.file setupFile)) cwd d =
      .ok ⟨builtIn.analyzers, some (d.joinName setupName)⟩ := by
  have hstart : d.up? ([] : List Bytes).length = some d := rfl
  refine governing_put hsetup ht hstart (List.append_nil _).symm (by simp) ?_
  intro nearer hnearer hlonger
  have hle := (Path.of_mem_ancestors hnearer).2.1.length_le
  omega

end Placed

/-- A world with configuration files under some names in a directory, and directories below it. -/
def withNames (names : List String) : World where
  files := ⟨[([Bytes.ofString "proj"], .directory),
    ([Bytes.ofString "proj", Bytes.ofString "src"], .directory),
    ([Bytes.ofString "proj", Bytes.ofString "src", Bytes.ofString "deep"], .directory)] ++
    names.map fun name => ([Bytes.ofString "proj", Bytes.ofString name], .file toolsFile)⟩

theorem fileIn?_of_find? {isFile : Path → Bool} (hfind : find? isFile d = some q)
    (hq : q ∈ fileNames.map d.joinName) : fileIn? isFile d = some q := by
  have hfile : isFile q = true := by
    obtain ⟨_, -, hin⟩ := List.exists_of_findSome?_eq_some hfind
    exact List.find?_some hin
  rw [find?_eq] at hfind
  cases hin : fileIn? isFile d with
  | some q' => rwa [hin, Option.some_or] at hfind
  | none =>
    obtain ⟨name, hname, rfl⟩ := List.mem_map.mp hq
    rw [fileIn?_eq_none_iff.mp hin name hname] at hfile
    cases hfile

theorem joinName_ne : d.joinName "techlint.json" ≠ d.joinName ".techlint.json" := by
  have hplain : Path.IsName (Bytes.ofString "techlint.json") :=
    (fileNames_spec (by simp [fileNames])).1
  have hdotted : Path.IsName (Bytes.ofString ".techlint.json") := (fileNames_spec setupName_mem).1
  intro heq
  have hnames := congrArg Path.names heq
  rw [Path.joinName, Path.joinName, Path.ofString, Path.ofString, Path.names_join_name hplain,
    Path.names_join_name hdotted] at hnames
  exact absurd (List.append_cancel_left hnames) (by decide)

theorem unforced_overrules {files : FileSystem} (hd : dir.getD w.cwd.path = d)
    (hfind : find? (w.files.isFile w.cwd) d = some q) (hq : q ∈ fileNames.map d.joinName)
    (habsent : w.files.pathExists w.cwd (d.joinName setupName) = false)
    (hwrite : w.files.write w.cwd (d.joinName setupName) setupFile = .ok files) :
    q = d.joinName "techlint.json" ∧ ((setup dir false).run w).1 = .ok 0 ∧
      ((setup dir false).run w).2.files = files ∧
      (files.read w.cwd (d.joinName setupName) = .ok setupFile →
        ((discover d).run ((setup dir false).run w).2).1 ≠ ((discover d).run w).1 ∧
        ((discover d).run ((setup dir false).run w).2).1 =
          .ok ⟨builtIn.analyzers, some (d.joinName setupName)⟩) := by
  obtain ⟨name, hname, rfl, hfile, -⟩ := fileIn?_eq_some_iff.mp (fileIn?_of_find? hfind hq)
  have hplain : name = "techlint.json" := by
    have hnames : name = setupName ∨ name = "techlint.json" := by
      simpa [fileNames, setupName] using hname
    refine hnames.resolve_left ?_
    rintro rfl
    obtain ⟨place, entry, hresolve, -⟩ := isFile_iff.mp hfile
    simp [pathExists, FileSystem.entry?, hresolve] at habsent
  have hrun := @setup_run_of_write dir false d w hd (Or.inl habsent)
  rw [hwrite] at hrun
  rw [hrun]
  refine ⟨by rw [hplain], rfl, rfl, fun hread => ?_⟩
  obtain ⟨t, hresolve, ht, rfl⟩ := put_of_write_of_read hwrite hread setupFile_ne_nil
  have hafter := governing_put_self hresolve ht
  rw [fst_run_discover, fst_run_discover]
  refine ⟨fun hsame => ?_, hafter⟩
  -- Before, what was loaded had the plain name for its source.
  have hbefore := hsame.symm.trans hafter
  rw [governing, hfind] at hbefore
  have hsource := source_of_loaded hbefore
  rw [hplain] at hsource
  exact joinName_ne (Option.some.inj hsource).symm

/-- Without force, the files and the configuration that is in force in a directory with a file of its
own stay as they are if and only if there is something under the dotted name already, or it cannot be
created. Otherwise the file in force is the one under the plain name, and the dotted name is written;
once it is, and is read back as it was written, what is built in is in force. -/
theorem unforced_setup_keeps_config_iff (hd : dir.getD w.cwd.path = d)
    (hfind : find? (w.files.isFile w.cwd) d = some q) (hq : q ∈ fileNames.map d.joinName) :
    ((((setup dir false).run w).2.files = w.files ∧
        ((discover d).run ((setup dir false).run w).2).1 = ((discover d).run w).1) ↔
      w.files.pathExists w.cwd (d.joinName ".techlint.json") = true ∨
        ∃ e, w.files.write w.cwd (d.joinName ".techlint.json") [] = .error e) ∧
    (w.files.pathExists w.cwd (d.joinName ".techlint.json") = true →
      ((setup dir false).run w).1 = .ok 1) ∧
    (∀ files, w.files.pathExists w.cwd (d.joinName ".techlint.json") = false →
      w.files.write w.cwd (d.joinName ".techlint.json") setupFile = .ok files →
      q = d.joinName "techlint.json" ∧ ((setup dir false).run w).1 = .ok 0 ∧
        ((setup dir false).run w).2.files = files ∧
        (files.read w.cwd (d.joinName ".techlint.json") = .ok setupFile →
          ((discover d).run ((setup dir false).run w).2).1 ≠ ((discover d).run w).1 ∧
          ((discover d).run ((setup dir false).run w).2).1 =
            .ok ⟨builtIn.analyzers, some (d.joinName ".techlint.json")⟩)) := by
  refine ⟨?_, fun hpresent => by rw [setup_run_of_present hd hpresent],
    fun files habsent hwrite => unforced_overrules hd hfind hq habsent hwrite⟩
  cases hpresent : w.files.pathExists w.cwd (d.joinName ".techlint.json") with
  | true =>
    rw [setup_run_of_present hd hpresent, fst_run_discover, fst_run_discover]
    simp
  | false =>
    have hrun := @setup_run_of_write dir false d w hd (Or.inl hpresent)
    cases hempty : w.files.write w.cwd (d.joinName ".techlint.json") [] with
    | ok created =>
      obtain ⟨files, hwrite⟩ := exists_write_of_absent hpresent hempty setupFile
      have hchanged := ne_of_write_of_absent hpresent hwrite
      rw [show setupName = ".techlint.json" from rfl, hwrite] at hrun
      rw [hrun]
      simp [hchanged]
    | error e =>
      cases hwrite : w.files.write w.cwd (d.joinName ".techlint.json") setupFile with
      | ok files =>
        obtain ⟨created, hcreated⟩ := exists_write_nil hwrite
        rw [hempty] at hcreated
        cases hcreated
      | error e' =>
        rw [show setupName = ".techlint.json" from rfl, hwrite] at hrun
        rw [hrun]
        simp

theorem unforced_setup_keeps_config_both :
    find? ((withNames [".techlint.json", "techlint.json"]).files.isFile []) (.ofString "/proj") =
        some (.ofString "/proj/.techlint.json") ∧
      ((setup (some (.ofString "/proj")) false).run
        (withNames [".techlint.json", "techlint.json"])).1 = .ok 1 ∧
      ((setup (some (.ofString "/proj")) false).run
        (withNames [".techlint.json", "techlint.json"])).2.files =
          (withNames [".techlint.json", "techlint.json"]).files := by
  have hfind : find? ((withNames [".techlint.json", "techlint.json"]).files.isFile [])
      (.ofString "/proj") = some (.ofString "/proj/.techlint.json") := by
    decide +kernel
  have hpresent : (withNames [".techlint.json", "techlint.json"]).files.pathExists []
      (.ofString "/proj/.techlint.json") = true := by
    decide +kernel
  obtain ⟨hkept, hrefused, -⟩ :=
    @unforced_setup_keeps_config_iff (some (.ofString "/proj")) (.ofString "/proj") _
      (withNames [".techlint.json", "techlint.json"]) rfl hfind (by decide)
  exact ⟨hfind, hrefused hpresent, (hkept.mpr (Or.inl hpresent)).1⟩

theorem unforced_setup_overrules_plain :
    find? ((withNames ["techlint.json"]).files.isFile []) (.ofString "/proj") =
        some (.ofString "/proj/techlint.json") ∧
      ((discover (.ofString "/proj")).run (withNames ["techlint.json"])).1 =
        .ok (toolsConfig "/proj/techlint.json" "/proj/tools") ∧
      ((setup (some (.ofString "/proj")) false).run (withNames ["techlint.json"])).1 = .ok 0 ∧
      ((discover (.ofString "/proj")).run
        ((setup (some (.ofString "/proj")) false).run (withNames ["techlint.json"])).2).1 =
          .ok ⟨builtIn.analyzers, some (.ofString "/proj/.techlint.json")⟩ := by
  have hfind : find? ((withNames ["techlint.json"]).files.isFile []) (.ofString "/proj") =
      some (.ofString "/proj/techlint.json") := by
    decide +kernel
  have hbefore : governing (withNames ["techlint.json"]).files [] (.ofString "/proj") =
      .ok (toolsConfig "/proj/techlint.json" "/proj/tools") := by
    decide +kernel
  have habsent : (withNames ["techlint.json"]).files.pathExists []
      (.ofString "/proj/.techlint.json") = false := by
    decide +kernel
  obtain ⟨files, hwrite⟩ := exists_write_of_absent habsent
    (rfl : (withNames ["techlint.json"]).files.write [] _ [] = .ok _) setupFile
  have hread := read_of_write hwrite fun device hdevice => by
    simp [pathExists, hdevice] at habsent
  obtain ⟨-, hcode, -, hafter⟩ :=
    @unforced_overrules (some (.ofString "/proj")) (.ofString "/proj") _
      (withNames ["techlint.json"]) files rfl hfind (by decide) habsent hwrite
  exact ⟨hfind, (fst_run_discover _ _).trans hbefore, hcode, (hafter hread).2⟩

end Config
end LintRelay
