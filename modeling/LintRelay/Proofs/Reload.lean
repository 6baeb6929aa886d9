import LintRelay.Proofs.ConfigFile
/-! Loading a configuration, saving it back to its file and loading it again. What is saved has the
working directories as they were anchored by the first load, and the second load anchors them once
more. An absolute directory stays where it is; a relative one moves, unless the directory of the file
has no name of its own. -/
namespace LintRelay

namespace Path

/-- Paths that differ in idle pieces at most. -/
def Alike (p q : Path) : Prop := p.head = q.head ∧ p.names = q.names

theorem head_join {base p : Path} (hbase : base.isEmpty = false) (hp : p.isAbsolute = false) :
    (base.join p).head = base.head := by
  obtain ⟨bs⟩ := base
  cases bs with
  | nil => cases hbase
  | cons b rest =>
    cases rest with
    | nil =>
      by_cases hb : b = slash
      · simp [join, hp, isEmpty, head, hb]
      · have hlast : (b == slash) = false := by simpa using hb
        simp [join, hp, isEmpty, head, hlast]
    | cons r rest =>
      simp only [join, hp, Bool.false_eq_true, if_false]
      split <;> simp [head]

theorem join_eq_self_iff {base dir : Path} (h : dir.isAbsolute = false) :
    base.join dir = dir ↔ base.isEmpty = true := by
  constructor
  · intro hjoin
    have hle := (length_join_le base h).2
    rw [hjoin] at hle
    have hlength : base.bytes.length = 0 := by omega
    simpa [isEmpty] using List.eq_nil_of_length_eq_zero hlength
  · intro hempty
    obtain ⟨bs⟩ := base
    obtain rfl : bs = [] := by simpa [isEmpty] using hempty
    simp [join, h, isEmpty]

/-- A directory below a base is found below it once more if and only if the base has no names. -/
theorem alike_join_iff {base dir : Path} (hdir : dir.isAbsolute = false) :
    (base.join (base.join dir)).Alike (base.join dir) ↔
      (base.join dir).isAbsolute = true ∨ base.names = [] := by
  cases habsolute : (base.join dir).isAbsolute with
  | true =>
    rw [join_of_isAbsolute habsolute]
    exact ⟨fun _ => Or.inl rfl, fun _ => ⟨rfl, rfl⟩⟩
  | false =>
    rw [Alike, names_join base habsolute, names_join base hdir]
    constructor
    · rintro ⟨-, hnames⟩
      have hlength := congrArg List.length hnames
      simp only [List.length_append] at hlength
      exact Or.inr (List.eq_nil_of_length_eq_zero (by omega))
    · intro h
      have hnames : base.names = [] := h.resolve_left (by simp)
      refine ⟨?_, by simp [hnames]⟩
      cases hempty : base.isEmpty with
      | true => rw [(join_eq_self_iff habsolute).mpr hempty]
      | false => rw [head_join hempty habsolute, head_join hempty hdir]

end Path

namespace FileSystem

/-- Bytes are read from a file only. -/
theorem resolve_of_read {fs : FileSystem} {cwd : Location} {p : Path} {data : Bytes}
    (h : fs.read cwd p = .ok data) (hdata : data ≠ []) :
    ∃ place, fs.resolve cwd p = .ok (.found place (.file data)) := by
  rw [read] at h
  cases hresolve : fs.resolve cwd p with
  | error e =>
    rw [hresolve] at h
    cases h
  | ok t =>
    rw [hresolve] at h
    cases t with
    | free place => cases h
    | found place entry =>
      cases entry with
      | file content =>
        obtain rfl := Except.ok.inj h
        exact ⟨place, rfl⟩
      | directory => cases h
      | device d => exact absurd (Except.ok.inj h).symm hdata
      | program name => exact absurd (Except.ok.inj h).symm hdata

theorem parent?_of_resolve {fs : FileSystem} {cwd place : Location} {p : Path} {data : Bytes}
    (h : fs.resolve cwd p = .ok (.found place (.file data))) : ∃ base, p.parent? = some base := by
  cases hparent : p.parent? with
  | some base => exact ⟨base, rfl⟩
  | none =>
    -- Without a parent the path has no names, and leads to a directory.
    obtain ⟨front, name, hpieces, hidle, -, -, -⟩ :=
      (resolve_eq_ok_iff.mp h).2.exists_leaf (by simp [Target.entry?])
    have hmem : name ∈ p.names := List.mem_filter.mpr ⟨by rw [hpieces]; simp, by simp [hidle]⟩
    rw [Path.names_of_parent?_eq_none hparent] at hmem
    cases hmem

end FileSystem

namespace Config

theorem of_load_run {p : Path} {w w' : World} {c : Config} (h : (load p).run w = (.ok c, w')) :
    (∃ data, w.files.read w.cwd p = .ok data ∧ ofFile p data = .ok c) ∧
      w' = { w with log := w.log ++ [.loadedConfig c.analyzers.length p] } := by
  cases hread : w.files.read w.cwd p with
  | error e =>
    simp only [load, Act.run_bind, Act.run_because, Act.run_readPath, hread, Except.mapError] at h
    cases h
  | ok data =>
    cases hfile : ofFile p data with
    | error e =>
      simp only [load, Act.run_bind, Act.run_because, Act.run_readPath, hread, Except.mapError,
        Act.run_ofExcept, hfile] at h
      cases h
    | ok c' =>
      rw [load_run_of_read hread hfile] at h
      obtain ⟨hc, rfl⟩ := Prod.mk.inj h
      obtain rfl := Except.ok.inj hc
      exact ⟨⟨data, rfl, hfile⟩, rfl⟩

/-- What a file says is valid, and its working directories are anchored. -/
theorem of_ofFile {p : Path} {data : Bytes} {c : Config} (h : ofFile p data = .ok c) :
    data ≠ [] ∧ c.validate = .ok () ∧ ∃ c₀ : Config, c = { c₀.anchor p with source := some p } := by
  refine ⟨?_, ?_⟩
  · rintro rfl
    cases h
  · rw [ofFile] at h
    split at h
    · cases h
    · split at h
      · cases h
      · next c₀ _ =>
        dsimp only at h
        split at h
        · cases h
        · next hvalid =>
          obtain rfl := Except.ok.inj h
          exact ⟨hvalid, c₀, rfl⟩

/-- A configuration that was loaded and saved back is loaded with every working directory anchored
once more. -/
theorem load_save_load {p : Path} {w w₁ w₂ : World} {c : Config}
    (hload : (load p).run w = (.ok c, w₁)) (hsave : (c.save p).run w₁ = (.ok (), w₂)) :
    ∃ base, p.parent? = some base ∧
      (∃ as : List Analyzer, c = ⟨as.map (·.anchor base), some p⟩) ∧
      ((load p).run w₂).1 = .ok ⟨c.analyzers.map (·.anchor base), some p⟩ := by
  obtain ⟨⟨data, hread, hfile⟩, rfl⟩ := of_load_run hload
  obtain ⟨hdata, hvalid, c₀, hc⟩ := of_ofFile hfile
  obtain ⟨place, hplace⟩ := FileSystem.resolve_of_read hread hdata
  obtain ⟨base, hbase⟩ := FileSystem.parent?_of_resolve hplace
  obtain ⟨text, files, htext, hwrite, rfl⟩ := of_save_run hsave
  refine ⟨base, hbase, ⟨c₀.analyzers, ?_⟩, ?_⟩
  · rw [hc, anchor, hbase]
  · have hagain := FileSystem.read_of_write hwrite fun d hd => by
      rw [FileSystem.entry?, hplace] at hd
      cases hd
    have hsaved := ofFile_fileText? hvalid hbase htext
    rw [load_run_of_read hagain hsaved]

theorem exists_of_anchor {base dir : Path} {a : Analyzer}
    (h : (a.anchor base).workingDir = some dir) :
    dir.isAbsolute = true ∨ ∃ dir₀ : Path, dir₀.isAbsolute = false ∧ dir = base.join dir₀ := by
  obtain ⟨dir₀, -, hdir⟩ := Option.map_eq_some_iff.mp h
  cases hdir₀ : dir₀.isAbsolute with
  | true =>
    rw [hdir₀, if_pos rfl] at hdir
    exact Or.inl (hdir ▸ hdir₀)
  | false =>
    rw [hdir₀, if_neg (by simp)] at hdir
    exact Or.inr ⟨dir₀, hdir₀, hdir.symm⟩

/-- Anchoring leaves an analyzer as it is if and only if its directory is absolute or the base is
empty. -/
theorem anchor_eq_self_iff {base : Path} {a : Analyzer} :
    a.anchor base = a ↔
      ∀ dir, a.workingDir = some dir → dir.isAbsolute = true ∨ base.isEmpty = true := by
  have hself : a.anchor base = a ↔ (a.anchor base).workingDir = a.workingDir := by
    obtain ⟨name, extensions, command, args, workingDir, transport, timeoutSecs, skip, env⟩ := a
    simp [Analyzer.anchor]
  rw [hself]
  simp only [Analyzer.anchor]
  cases a.workingDir with
  | none => simp
  | some dir =>
    cases habsolute : dir.isAbsolute with
    | true => simp [habsolute]
    | false => simp [habsolute, Path.join_eq_self_iff habsolute]

theorem map_anchor_eq_self_iff {base p : Path} {c : Config} (h : c.source = some p) :
    (⟨c.analyzers.map (·.anchor base), some p⟩ : Config) = c ↔
      ∀ a ∈ c.analyzers, ∀ dir, a.workingDir = some dir →
        dir.isAbsolute = true ∨ base.isEmpty = true := by
  have hmap : c.analyzers.map (·.anchor base) = c.analyzers ↔
      ∀ a ∈ c.analyzers, a.anchor base = a := by
    have hid := @List.map_eq_map_iff _ _ (·.anchor base) c.analyzers id
    rwa [List.map_id] at hid
  have hconfig : (⟨c.analyzers.map (·.anchor base), some p⟩ : Config) = c ↔
      c.analyzers.map (·.anchor base) = c.analyzers := by
    rw [← h]
    exact ⟨congrArg Config.analyzers, fun h => by rw [h]⟩
  simp only [hconfig, hmap, anchor_eq_self_iff]

/-- A configuration that is loaded, saved back and loaded again is the same, except that each relative
working directory is then below the directory of the file once more. So it is the same to the letter
exactly if all working directories are absolute, unless the directory of the file is spelled by nothing;
the directories are alike exactly if they are absolute, unless the directory of the file has no name;
and from an absolute path the same configuration is always loaded. -/
theorem reload_same_iff {p : Path} {w w₁ w₂ : World} {c : Config}
    (hload : (load p).run w = (.ok c, w₁)) (hsave : (c.save p).run w₁ = (.ok (), w₂)) :
    ∃ base, p.parent? = some base ∧
      ((load p).run w₂).1 = .ok { c with analyzers := c.analyzers.map fun a =>
        { a with workingDir := a.workingDir.map fun dir =>
          if dir.isAbsolute then dir else base.join dir } } ∧
      (((load p).run w₂).1 = .ok c ↔
        ∀ a ∈ c.analyzers, ∀ dir, a.workingDir = some dir →
          dir.isAbsolute = true ∨ base.isEmpty = true) ∧
      ((∀ a ∈ c.analyzers, ∀ dir, a.workingDir = some dir →
          (if dir.isAbsolute then dir else base.join dir).Alike dir) ↔
        ∀ a ∈ c.analyzers, ∀ dir, a.workingDir = some dir →
          dir.isAbsolute = true ∨ base.names = []) ∧
      (p.isAbsolute = true → ((load p).run w₂).1 = .ok c) := by
  obtain ⟨base, hbase, ⟨as, hc⟩, hagain⟩ := load_save_load hload hsave
  have hsource : c.source = some p := by rw [hc]
  have hanchored : ∀ a ∈ c.analyzers, ∀ dir, a.workingDir = some dir →
      dir.isAbsolute = true ∨ ∃ dir₀ : Path, dir₀.isAbsolute = false ∧ dir = base.join dir₀ := by
    intro a ha dir hdir
    rw [hc] at ha
    obtain ⟨a₀, -, rfl⟩ := List.mem_map.mp ha
    exact exists_of_anchor hdir
  have hsame : ((load p).run w₂).1 = .ok c ↔
      ∀ a ∈ c.analyzers, ∀ dir, a.workingDir = some dir →
        dir.isAbsolute = true ∨ base.isEmpty = true := by
    rw [hagain, Except.ok.injEq, map_anchor_eq_self_iff hsource]
  refine ⟨base, hbase, ?_, hsame, ?_, fun hp => hsame.mpr fun a ha dir hdir => ?_⟩
  · rw [hagain, hsource]
    rfl
  · refine forall₂_congr fun a ha => forall₂_congr fun dir hdir => ?_
    cases habsolute : dir.isAbsolute with
    | true => simp [Path.Alike]
    | false =>
      rcases hanchored a ha dir hdir with hdir | ⟨dir₀, hdir₀, rfl⟩
      · rw [habsolute] at hdir
        cases hdir
      · rw [if_neg (by simp), Path.alike_join_iff hdir₀, habsolute]
  · rcases hanchored a ha dir hdir with hdir | ⟨dir₀, -, rfl⟩
    · exact Or.inl hdir
    · left
      rw [Path.isAbsolute_join, Path.isAbsolute_parent? hbase, hp, Bool.or_true]

def toolsFile : Bytes :=
  Bytes.ofString ("\x7b\"analyzers\":[\x7b\"name\":\"t\",\"extensions\":[\"cs\"],\"command\":\"t\"," ++
    "\"working_dir\":\"tools\"\x7d]\x7d")

/-- What it says at a path, with the working directory that it then has. -/
def toolsConfig (path dir : String) : Config where
  analyzers := [{
    name := "t"
    extensions := ["cs"]
    command := "t"
    workingDir := some (.ofString dir) }]
  source := some (.ofString path)

def withTools (log : List Event) : World where
  files := ⟨[([Bytes.ofString "sub"], .directory),
    ([Bytes.ofString "sub", Bytes.ofString "techlint.json"], .file toolsFile)]⟩
  log := log

theorem reload_same_iff_tools :
    ∃ log w,
      (load (.ofString "/sub/techlint.json")).run (withTools []) =
        (.ok (toolsConfig "/sub/techlint.json" "/sub/tools"), withTools log) ∧
      ((toolsConfig "/sub/techlint.json" "/sub/tools").save (.ofString "/sub/techlint.json")).run
        (withTools log) = (.ok (), w) ∧
      ((load (.ofString "/sub/techlint.json")).run w).1 =
        .ok (toolsConfig "/sub/techlint.json" "/sub/tools") := by
  have hread : (withTools []).files.read [] (.ofString "/sub/techlint.json") = .ok toolsFile := by
    decide +kernel
  have hfile : ofFile (.ofString "/sub/techlint.json") toolsFile =
      .ok (toolsConfig "/sub/techlint.json" "/sub/tools") := by
    decide +kernel
  obtain ⟨log, hload⟩ : ∃ log, (load (.ofString "/sub/techlint.json")).run (withTools []) =
      (.ok (toolsConfig "/sub/techlint.json" "/sub/tools"), withTools log) :=
    ⟨_, load_run_of_read hread hfile⟩
  obtain ⟨w, hsave⟩ : ∃ w, ((toolsConfig "/sub/techlint.json" "/sub/tools").save
      (.ofString "/sub/techlint.json")).run (withTools log) = (.ok (), w) := ⟨_, rfl⟩
  obtain ⟨base, -, -, -, -, hsame⟩ := reload_same_iff hload hsave
  exact ⟨log, w, hload, hsave, hsame rfl⟩

/-- From a relative path the working directory moves. -/
theorem relative_directory_moves :
    ∃ log w,
      (load (.ofString "sub/techlint.json")).run (withTools []) =
        (.ok (toolsConfig "sub/techlint.json" "sub/tools"), withTools log) ∧
      ((toolsConfig "sub/techlint.json" "sub/tools").save (.ofString "sub/techlint.json")).run
        (withTools log) = (.ok (), w) ∧
      ((load (.ofString "sub/techlint.json")).run w).1 =
        .ok (toolsConfig "sub/techlint.json" "sub/sub/tools") ∧
      ¬ (Path.ofString "sub/sub/tools").Alike (.ofString "sub/tools") := by
  have hread : (withTools []).files.read [] (.ofString "sub/techlint.json") = .ok toolsFile := by
    decide +kernel
  have hfile : ofFile (.ofString "sub/techlint.json") toolsFile =
      .ok (toolsConfig "sub/techlint.json" "sub/tools") := by
    decide +kernel
  obtain ⟨log, hload⟩ : ∃ log, (load (.ofString "sub/techlint.json")).run (withTools []) =
      (.ok (toolsConfig "sub/techlint.json" "sub/tools"), withTools log) :=
    ⟨_, load_run_of_read hread hfile⟩
  obtain ⟨w, hsave⟩ : ∃ w, ((toolsConfig "sub/techlint.json" "sub/tools").save
      (.ofString "sub/techlint.json")).run (withTools log) = (.ok (), w) := ⟨_, rfl⟩
  obtain ⟨base, hbase, -, hagain⟩ := load_save_load hload hsave
  obtain rfl : Path.ofString "sub" = base := Option.some.inj hbase
  exact ⟨log, w, hload, hsave, hagain, fun h => absurd h.2 (by decide)⟩

end Config
end LintRelay
