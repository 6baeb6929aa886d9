import LintRelay.FileSystem
import LintRelay.Proofs.Path
/-! Following paths in a file system. Wherever a path leads, it leads to the place that its names
spell from where it starts, with a step back for each parent; and what is written at a path is what
is read there. -/
namespace LintRelay

/-- Where names lead from a place: on to each name, and back for each parent. -/
def Location.follow (here : Location) : List Bytes → Location
  | [] => here
  | name :: rest =>
    if Path.isIdle name then Location.follow here rest
    else if Path.isParentName name then Location.follow here.dropLast rest
    else Location.follow (here ++ [name]) rest

namespace Location

theorem follow_append (here : Location) (ps qs : List Bytes) :
    follow here (ps ++ qs) = follow (follow here ps) qs := by
  fun_induction follow here ps with
  | case1 here => rfl
  | case2 here name rest hidle ih => simp [follow, hidle, ih]
  | case3 here name rest hidle hparent ih => simp [follow, hidle, hparent, ih]
  | case4 here name rest hidle hparent ih => simp [follow, hidle, hparent, ih]

theorem follow_keepNames (here : Location) (ps : List Bytes) :
    follow here (Path.keepNames ps) = follow here ps := by
  fun_induction follow here ps with
  | case1 here => rfl
  | case2 here name rest hidle ih => simpa [Path.keepNames, hidle] using ih
  | case3 here name rest hidle hparent ih =>
    simpa [Path.keepNames, follow, hidle, hparent] using ih
  | case4 here name rest hidle hparent ih =>
    simpa [Path.keepNames, follow, hidle, hparent] using ih

theorem follow_eq_append {names : List Bytes}
    (h : ∀ name ∈ names, Path.isIdle name = false ∧ Path.isParentName name = false)
    (here : Location) : follow here names = here ++ names := by
  induction names generalizing here with
  | nil => simp [follow]
  | cons name names ih =>
    obtain ⟨⟨hidle, hparent⟩, hrest⟩ := List.forall_mem_cons.mp h
    simp [follow, hidle, hparent, ih hrest]

end Location

def Target.place : Target → Location
  | .found place _ => place
  | .free place => place

def Target.entry? : Target → Option Entry
  | .found _ entry => some entry
  | .free _ => none

/-- Entries that are read as files. -/
def Entry.isFile : Entry → Bool
  | .file _ => true
  | .program _ => true
  | _ => false

namespace FileSystem

/-- Names that can be followed from a directory, and the target they lead to. Only directories are
passed through. -/
inductive Leads (fs : FileSystem) : Location → List Bytes → Target → Prop
  | stay (here : Location) : Leads fs here [] (.found here .directory)
  | idle {here : Location} {name : Bytes} {rest : List Bytes} {t : Target}
      (hidle : Path.isIdle name = true) (hrest : Leads fs here rest t) :
      Leads fs here (name :: rest) t
  | back {here : Location} {name : Bytes} {rest : List Bytes} {t : Target}
      (hidle : Path.isIdle name = false) (hparent : Path.isParentName name = true)
      (hrest : Leads fs here.dropLast rest t) : Leads fs here (name :: rest) t
  | enter {here : Location} {name : Bytes} {rest : List Bytes} {t : Target}
      (hidle : Path.isIdle name = false) (hparent : Path.isParentName name = false)
      (hlength : name.length ≤ maxName) (hget : fs.get? (here ++ [name]) = some .directory)
      (hrest : Leads fs (here ++ [name]) rest t) : Leads fs here (name :: rest) t
  | leaf {here : Location} {name : Bytes} {t : Target}
      (hidle : Path.isIdle name = false) (hparent : Path.isParentName name = false)
      (hlength : name.length ≤ maxName) (hplace : t.place = here ++ [name])
      (hget : fs.get? (here ++ [name]) = t.entry?) (hdirectory : t.entry? ≠ some .directory) :
      Leads fs here [name] t

theorem leads_of_walk {fs : FileSystem} {here : Location} {ps : List Bytes} {t : Target}
    (h : fs.walk here ps = .ok t) : Leads fs here ps t := by
  fun_induction walk fs here ps with
  | case1 here =>
    obtain rfl := Except.ok.inj h
    exact .stay here
  | case2 here name rest hidle ih => exact .idle hidle (ih h)
  | case3 here name rest hidle hparent ih => exact .back (by simpa using hidle) hparent (ih h)
  | case5 here name rest hidle hparent hlength place hget ih =>
    exact .enter (by simpa using hidle) (by simpa using hparent) (Nat.not_lt.mp hlength) hget (ih h)
  | case6 here name rest hidle hparent hlength place entry hdirectory hget hrest =>
    obtain rfl := Except.ok.inj h
    obtain rfl := List.isEmpty_iff.mp hrest
    exact .leaf (by simpa using hidle) (by simpa using hparent) (Nat.not_lt.mp hlength) rfl hget
      (fun heq => hdirectory (Option.some.inj heq))
  | case8 here name rest hidle hparent hlength place hget hrest =>
    obtain rfl := Except.ok.inj h
    obtain rfl := List.isEmpty_iff.mp hrest
    exact .leaf (by simpa using hidle) (by simpa using hparent) (Nat.not_lt.mp hlength) rfl hget
      (by simp [Target.entry?])
  | case4 | case7 | case9 => cases h

theorem Leads.walk_eq {fs : FileSystem} {here : Location} {ps : List Bytes} {t : Target}
    (h : Leads fs here ps t) : fs.walk here ps = .ok t := by
  induction h with
  | stay here => rfl
  | idle hidle _ ih => simp [walk, hidle, ih]
  | back hidle hparent _ ih => simp [walk, hidle, hparent, ih]
  | enter hidle hparent hlength hget _ ih =>
    simp [walk, hidle, hparent, Nat.not_lt.mpr hlength, hget, ih]
  | @leaf here name t hidle hparent hlength hplace hget hdirectory =>
    cases t with
    | free place =>
      obtain rfl : place = here ++ [name] := hplace
      simp only [Target.entry?] at hget
      simp [walk, hidle, hparent, Nat.not_lt.mpr hlength, hget]
    | found place entry =>
      obtain rfl : place = here ++ [name] := hplace
      simp only [Target.entry?] at hget
      cases entry with
      | directory => exact absurd rfl hdirectory
      | _ => simp [walk, hidle, hparent, Nat.not_lt.mpr hlength, hget]

theorem walk_eq_ok_iff {fs : FileSystem} {here : Location} {ps : List Bytes} {t : Target} :
    fs.walk here ps = .ok t ↔ Leads fs here ps t := ⟨leads_of_walk, Leads.walk_eq⟩

namespace Leads

variable {fs : FileSystem} {here place : Location} {ps qs : List Bytes} {t : Target}

/-- Names lead to the place that they spell. -/
theorem place_eq (h : Leads fs here ps t) : t.place = Location.follow here ps := by
  induction h with
  | stay here => rfl
  | idle hidle _ ih => simp [Location.follow, hidle, ih]
  | back hidle hparent _ ih => simp [Location.follow, hidle, hparent, ih]
  | enter hidle hparent _ _ _ ih => simp [Location.follow, hidle, hparent, ih]
  | leaf hidle hparent _ hplace _ _ => simp [Location.follow, hidle, hparent, hplace]

theorem append (h : Leads fs here ps (.found place .directory)) (hqs : Leads fs place qs t) :
    Leads fs here (ps ++ qs) t := by
  generalize htarget : Target.found place .directory = target at h
  induction h with
  | stay here =>
    obtain rfl : place = here := by simpa using htarget
    exact hqs
  | idle hidle _ ih => exact .idle hidle (ih htarget)
  | back hidle hparent _ ih => exact .back hidle hparent (ih htarget)
  | enter hidle hparent hlength hget _ ih => exact .enter hidle hparent hlength hget (ih htarget)
  | leaf _ _ _ _ _ hdirectory =>
    rw [← htarget] at hdirectory
    exact absurd rfl hdirectory

theorem split (h : Leads fs here (ps ++ qs) t) (hqs : qs ≠ []) :
    Leads fs here ps (.found (Location.follow here ps) .directory) ∧
      Leads fs (Location.follow here ps) qs t := by
  induction ps generalizing here with
  | nil => exact ⟨.stay here, h⟩
  | cons name ps ih =>
    generalize hall : name :: ps ++ qs = all at h
    cases h with
    | stay => cases hall
    | idle hidle hrest =>
      obtain ⟨rfl, rfl⟩ := List.cons.inj hall
      obtain ⟨hps, ht⟩ := ih hrest
      simp only [Location.follow, hidle, if_true]
      exact ⟨.idle hidle hps, ht⟩
    | back hidle hparent hrest =>
      obtain ⟨rfl, rfl⟩ := List.cons.inj hall
      obtain ⟨hps, ht⟩ := ih hrest
      simp only [Location.follow, hidle, hparent, if_true, Bool.false_eq_true, if_false]
      exact ⟨.back hidle hparent hps, ht⟩
    | enter hidle hparent hlength hget hrest =>
      obtain ⟨rfl, rfl⟩ := List.cons.inj hall
      obtain ⟨hps, ht⟩ := ih hrest
      simp only [Location.follow, hidle, hparent, Bool.false_eq_true, if_false]
      exact ⟨.enter hidle hparent hlength hget hps, ht⟩
    | leaf =>
      obtain ⟨-, hnil⟩ := List.cons.inj hall
      exact absurd (List.append_eq_nil_iff.mp hnil).2 hqs

theorem directory_cons_iff {name : Bytes} (hidle : Path.isIdle name = false) :
    Leads fs here (name :: ps) (.found place .directory) ↔
      (Path.isParentName name = true ∧ Leads fs here.dropLast ps (.found place .directory)) ∨
      (Path.isParentName name = false ∧ name.length ≤ maxName ∧
        fs.get? (here ++ [name]) = some .directory ∧
        Leads fs (here ++ [name]) ps (.found place .directory)) := by
  constructor
  · intro h
    cases h with
    | idle h _ => simp [hidle] at h
    | back _ hparent hrest => exact Or.inl ⟨hparent, hrest⟩
    | enter _ hparent hlength hget hrest => exact Or.inr ⟨hparent, hlength, hget, hrest⟩
    | leaf _ _ _ _ _ hdirectory => exact absurd rfl hdirectory
  · rintro (⟨hparent, hrest⟩ | ⟨hparent, hlength, hget, hrest⟩)
    · exact .back hidle hparent hrest
    · exact .enter hidle hparent hlength hget hrest

/-- On the way to a directory, idle pieces make no difference. -/
theorem keepNames_iff :
    Leads fs here (Path.keepNames ps) (.found place .directory) ↔
      Leads fs here ps (.found place .directory) := by
  induction ps generalizing here with
  | nil => rfl
  | cons name ps ih =>
    cases hidle : Path.isIdle name with
    | true =>
      have hkeep : Path.keepNames (name :: ps) = Path.keepNames ps := by
        simp [Path.keepNames, hidle]
      rw [hkeep, ih]
      constructor
      · exact .idle hidle
      · intro h
        cases h <;> simp_all
    | false =>
      have hkeep : Path.keepNames (name :: ps) = name :: Path.keepNames ps := by
        simp [Path.keepNames, hidle]
      rw [hkeep, directory_cons_iff hidle, directory_cons_iff hidle, ih, ih]

/-- What is not a directory has a name in one. -/
theorem exists_leaf (h : Leads fs here ps t) (ht : t.entry? ≠ some .directory) :
    ∃ front name, ps = front ++ [name] ∧ Path.isIdle name = false ∧
      Path.isParentName name = false ∧
      Leads fs here front (.found (Location.follow here front) .directory) ∧
      Leads fs (Location.follow here front) [name] t := by
  rcases List.eq_nil_or_concat ps with rfl | ⟨front, name, rfl⟩
  · cases h
    exact absurd rfl ht
  · rw [List.concat_eq_append] at h
    obtain ⟨hfront, hname⟩ := h.split (by simp)
    refine ⟨front, name, by simp, ?_, ?_, hfront, hname⟩
    · cases hname with
      | idle _ hrest =>
        cases hrest
        exact absurd rfl ht
      | back hidle _ _ => exact hidle
      | enter hidle _ _ _ _ => exact hidle
      | leaf hidle _ _ _ _ _ => exact hidle
    · cases hname with
      | idle _ hrest =>
        cases hrest
        exact absurd rfl ht
      | back _ _ hrest =>
        cases hrest
        exact absurd rfl ht
      | enter _ hparent _ _ _ => exact hparent
      | leaf _ hparent _ _ _ _ => exact hparent

theorem name_iff {name : Bytes} (hidle : Path.isIdle name = false)
    (hparent : Path.isParentName name = false) :
    Leads fs here [name] t ↔
      name.length ≤ maxName ∧ t.place = here ++ [name] ∧ fs.get? (here ++ [name]) = t.entry? := by
  constructor
  · intro h
    cases h with
    | idle h _ => simp [hidle] at h
    | back _ h _ => simp [hparent] at h
    | enter _ _ hlength hget hrest =>
      cases hrest
      exact ⟨hlength, rfl, hget⟩
    | leaf _ _ hlength hplace hget _ => exact ⟨hlength, hplace, hget⟩
  · rintro ⟨hlength, hplace, hget⟩
    by_cases hdirectory : t.entry? = some .directory
    · obtain rfl : t = .found (here ++ [name]) .directory := by
        cases t with
        | free place => cases hdirectory
        | found place entry =>
          obtain rfl : place = here ++ [name] := hplace
          rw [Option.some.inj hdirectory]
      exact .enter hidle hparent hlength hget (.stay _)
    · exact .leaf hidle hparent hlength hplace hget hdirectory

end Leads

theorem resolve_eq_ok_iff {fs : FileSystem} {cwd : Location} {p : Path} {t : Target} :
    fs.resolve cwd p = .ok t ↔
      checkPath p = .ok () ∧
        Leads fs (if p.isAbsolute then [] else cwd) (Path.pieces p.bytes) t := by
  rw [← walk_eq_ok_iff, resolve]
  cases checkPath p with
  | error e => simp [bind, Except.bind]
  | ok u => simp [bind, Except.bind]

/-- A name below a path leads somewhere if the path leads to a directory and the name on from
there. -/
theorem leads_join_iff {fs : FileSystem} {here : Location} {base : Path} {name : Bytes} {t : Target}
    (hslash : Path.slash ∉ name) :
    Leads fs here (Path.pieces (base.join ⟨name⟩).bytes) t ↔
      Leads fs here base.names (.found (Location.follow here base.names) .directory) ∧
        Leads fs (Location.follow here base.names) [name] t := by
  obtain ⟨front, hpieces, hkeep⟩ := Path.exists_pieces_join base hslash
  rw [hpieces, ← hkeep, Leads.keepNames_iff, Location.follow_keepNames]
  constructor
  · intro h
    exact h.split (by simp)
  · rintro ⟨hfront, hname⟩
    exact hfront.append hname

theorem checkPath_eq_ok_iff {p : Path} :
    checkPath p = .ok () ↔
      p.isEmpty = false ∧ (0 : UInt8) ∉ p.bytes ∧ p.bytes.length < maxPath := by
  rw [checkPath]
  split
  · next hempty => simp [hempty]
  · next hempty =>
    split
    · next hnul => simp_all
    · next hnul =>
      split
      · next hlong => simp [Nat.not_lt.mpr hlong]
      · next hlong => simp_all

def place? (fs : FileSystem) (cwd : Location) (p : Path) : Option Location :=
  match fs.resolve cwd p with
  | .ok (.found place _) => some place
  | _ => none

theorem place?_eq_some_iff {fs : FileSystem} {cwd : Location} {p : Path} {place : Location} :
    fs.place? cwd p = some place ↔ ∃ entry, fs.resolve cwd p = .ok (.found place entry) := by
  rw [place?]
  cases fs.resolve cwd p with
  | error e => simp
  | ok t => cases t <;> simp

theorem isFile_iff {fs : FileSystem} {cwd : Location} {p : Path} :
    fs.isFile cwd p = true ↔
      ∃ place entry, fs.resolve cwd p = .ok (.found place entry) ∧ entry.isFile = true := by
  rw [isFile, entry?]
  cases fs.resolve cwd p with
  | error e => simp
  | ok t =>
    cases t with
    | free place => simp
    | found place entry => cases entry <;> simp [Entry.isFile]

/-! ### Writing -/

theorem get?_of_ne_nil {fs : FileSystem} {place : Location} (h : place ≠ []) :
    fs.get? place = (fs.entries.find? fun e => e.1 == place).map (·.2) := by
  simp [get?, h]

theorem get?_put {fs : FileSystem} {place : Location} (hplace : place ≠ []) (entry : Entry)
    (other : Location) :
    (fs.put place entry).get? other = if other = place then some entry else fs.get? other := by
  by_cases hroot : other = []
  · have hne : ¬ [] = place := fun heq => hplace heq.symm
    simp [get?, hroot, hne]
  rw [get?_of_ne_nil hroot, get?_of_ne_nil hroot, put]
  split
  · next hany =>
    let swap : Location × Entry → Location × Entry :=
      fun e => if e.1 == place then (place, entry) else e
    have hkey : ∀ e, (swap e).1 = e.1 := by
      intro e
      by_cases he : e.1 = place <;> simp [swap, he]
    have hfind : (fs.entries.map swap).find? (fun e => e.1 == other) =
        (fs.entries.find? fun e => e.1 == other).map swap := by
      simp only [List.find?_map, Function.comp_def, hkey]
    rw [hfind, Option.map_map]
    by_cases hother : other = place
    · obtain ⟨e, he, hep⟩ := List.any_eq_true.mp hany
      have hsome : (fs.entries.find? fun e => e.1 == other).isSome := by
        rw [List.find?_isSome]
        exact ⟨e, he, by simpa [hother] using hep⟩
      obtain ⟨d, hd⟩ := Option.isSome_iff_exists.mp hsome
      have hdkey : d.1 = place := by simpa [hother] using List.find?_some hd
      rw [hd, if_pos hother]
      simp [swap, hdkey]
    · cases hd : fs.entries.find? fun e => e.1 == other with
      | none => simp [hother]
      | some d =>
        have hdkey : d.1 = other := by simpa using List.find?_some hd
        simp [swap, hdkey, hother]
  · next hany =>
    by_cases hother : other = place
    · have hnone : (fs.entries.find? fun e => e.1 == other) = none := by
        rw [List.find?_eq_none]
        intro e he hkey
        exact hany (List.any_eq_true.mpr ⟨e, he, by simpa [hother] using hkey⟩)
      rw [List.find?_append, hnone, if_pos hother]
      simp [hother]
    · have hne : ¬ place = other := fun heq => hother heq.symm
      simp [List.find?_append, hother, hne]

/-- Putting an entry where no directory is leaves every way to a directory open. -/
theorem Leads.put_directory {fs : FileSystem} {here place dir : Location} {ps : List Bytes}
    (h : Leads fs here ps (.found dir .directory)) (hplace : place ≠ [])
    (hfree : fs.get? place ≠ some .directory) (entry : Entry) :
    Leads (fs.put place entry) here ps (.found dir .directory) := by
  generalize htarget : Target.found dir .directory = target at h ⊢
  induction h with
  | stay here => exact .stay here
  | idle hidle _ ih => exact .idle hidle (ih htarget)
  | back hidle hparent _ ih => exact .back hidle hparent (ih htarget)
  | @enter here name rest t hidle hparent hlength hget _ ih =>
    have hne : ¬ here ++ [name] = place := by
      rintro rfl
      exact hfree hget
    refine .enter hidle hparent hlength ?_ (ih htarget)
    rw [get?_put hplace, if_neg hne, hget]
  | leaf _ _ _ _ _ hdirectory =>
    rw [← htarget] at hdirectory
    exact absurd rfl hdirectory

/-- A file that was put where names lead is found by them. -/
theorem Leads.put {fs : FileSystem} {here : Location} {ps : List Bytes} {t : Target}
    (h : Leads fs here ps t) (ht : t.entry? ≠ some .directory) (entry : Entry) :
    Leads (fs.put t.place entry) here ps (.found t.place entry) := by
  obtain ⟨front, name, rfl, hidle, hparent, hfront, hname⟩ := h.exists_leaf ht
  obtain ⟨hlength, hplace, hget⟩ := (name_iff hidle hparent).mp hname
  have hne : t.place ≠ [] := by simp [hplace]
  have hfree : fs.get? t.place ≠ some .directory := by rwa [hplace, hget]
  refine (hfront.put_directory hne hfree entry).append ((name_iff hidle hparent).mpr
    ⟨hlength, hplace, ?_⟩)
  rw [get?_put hne, if_pos hplace.symm]
  rfl

/-- After a file was put at a place, names lead to no other place than before. -/
theorem Leads.of_put {fs : FileSystem} {here place : Location} {ps : List Bytes} {t : Target}
    {data : Bytes} (h : Leads (fs.put place (.file data)) here ps t) (hplace : place ≠ [])
    (hne : t.place ≠ place) : Leads fs here ps t := by
  induction h with
  | stay here => exact .stay here
  | idle hidle _ ih => exact .idle hidle (ih hne)
  | back hidle hparent _ ih => exact .back hidle hparent (ih hne)
  | @enter here name rest t hidle hparent hlength hget _ ih =>
    rw [get?_put hplace] at hget
    split at hget
    · cases hget
    · exact .enter hidle hparent hlength hget (ih hne)
  | @leaf here name t hidle hparent hlength hat hget hdirectory =>
    rw [get?_put hplace, if_neg (hat ▸ hne)] at hget
    exact .leaf hidle hparent hlength hat hget hdirectory

theorem resolve_of_resolveNew {fs : FileSystem} {cwd : Location} {p : Path} {t : Target}
    (h : fs.resolveNew cwd p = .ok t) : fs.resolve cwd p = .ok t := by
  simp only [resolveNew, bind, Except.bind] at h
  split at h
  · cases h
  · split at h
    · split at h
      · split at h <;> cases h
      · cases h
    · exact h

theorem exists_resolveNew_of_write {fs fs' : FileSystem} {cwd : Location} {p : Path} {data : Bytes}
    (h : fs.write cwd p data = .ok fs') : ∃ t, fs.resolveNew cwd p = .ok t := by
  cases hnew : fs.resolveNew cwd p with
  | error e => simp [write, hnew, bind, Except.bind] at h
  | ok t => exact ⟨t, rfl⟩

theorem of_write_eq_ok {fs fs' : FileSystem} {cwd : Location} {p : Path} {data : Bytes}
    (h : fs.write cwd p data = .ok fs') :
    ∃ t, fs.resolve cwd p = .ok t ∧
      ((∃ d, t.entry? = some (.device d)) ∧ fs' = fs ∨
        t.entry? ≠ some .directory ∧ fs' = fs.put t.place (.file data)) := by
  obtain ⟨t, hnew⟩ := exists_resolveNew_of_write h
  refine ⟨t, resolve_of_resolveNew hnew, ?_⟩
  simp only [write, hnew, bind, Except.bind] at h
  split at h
  · cases h
  · exact Or.inr ⟨by simp [Target.entry?], (Except.ok.inj h).symm⟩
  · split at h
    · exact Or.inl ⟨⟨_, rfl⟩, (Except.ok.inj h).symm⟩
    · cases h
  · exact Or.inl ⟨⟨_, rfl⟩, (Except.ok.inj h).symm⟩
  · cases h
  · exact Or.inr ⟨by simp [Target.entry?], (Except.ok.inj h).symm⟩

/-- What takes some bytes takes none as well. -/
theorem exists_write_nil {fs fs' : FileSystem} {cwd : Location} {p : Path} {data : Bytes}
    (h : fs.write cwd p data = .ok fs') : ∃ files, fs.write cwd p [] = .ok files := by
  obtain ⟨t, hnew⟩ := exists_resolveNew_of_write h
  simp only [write, hnew, bind, Except.bind] at h ⊢
  split at h
  · cases h
  · exact ⟨_, rfl⟩
  · exact ⟨_, rfl⟩
  · exact ⟨_, rfl⟩
  · cases h
  · exact ⟨_, rfl⟩

/-- Where nothing is, a file is created with any content or not at all. -/
theorem exists_write_of_absent {fs fs' : FileSystem} {cwd : Location} {p : Path} {data : Bytes}
    (habsent : fs.pathExists cwd p = false) (h : fs.write cwd p data = .ok fs') (other : Bytes) :
    ∃ files, fs.write cwd p other = .ok files := by
  obtain ⟨t, hnew⟩ := exists_resolveNew_of_write h
  cases t with
  | found place entry => simp [pathExists, FileSystem.entry?, resolve_of_resolveNew hnew] at habsent
  | free place =>
    exact ⟨fs.put place (.file other), by simp [write, hnew, bind, Except.bind, pure, Except.pure]⟩

/-- A write changes no place but the one that the path leads to. -/
theorem get?_of_write {fs fs' : FileSystem} {cwd : Location} {p : Path} {data : Bytes}
    (h : fs.write cwd p data = .ok fs') (place : Location) (hchanged : fs'.get? place ≠ fs.get? place) :
    ∃ t, fs.resolve cwd p = .ok t ∧ place = t.place := by
  obtain ⟨t, hresolve, ⟨-, rfl⟩ | ⟨ht, rfl⟩⟩ := of_write_eq_ok h
  · exact absurd rfl hchanged
  · refine ⟨t, hresolve, ?_⟩
    obtain ⟨front, name, -, hidle, hparent, -, hname⟩ :=
      (resolve_eq_ok_iff.mp hresolve).2.exists_leaf ht
    have hplace : t.place ≠ [] := by simp [((Leads.name_iff hidle hparent).mp hname).2.1]
    by_contra hother
    rw [get?_put hplace, if_neg hother] at hchanged
    exact hchanged rfl

theorem entry?_of_write {fs fs' : FileSystem} {cwd : Location} {p : Path} {data : Bytes}
    (h : fs.write cwd p data = .ok fs') (hdevice : ∀ d, fs.entry? cwd p ≠ some (.device d)) :
    fs'.entry? cwd p = some (.file data) := by
  obtain ⟨t, hresolve, ⟨⟨d, hd⟩, -⟩ | ⟨ht, rfl⟩⟩ := of_write_eq_ok h
  · cases t with
    | free place => cases hd
    | found place entry =>
      refine absurd ?_ (hdevice d)
      simp only [FileSystem.entry?, hresolve]
      exact hd
  · obtain ⟨hcheck, hleads⟩ := resolve_eq_ok_iff.mp hresolve
    have hagain := resolve_eq_ok_iff.mpr ⟨hcheck, hleads.put ht (.file data)⟩
    simp only [FileSystem.entry?, hagain]

theorem read_of_entry? {fs : FileSystem} {cwd : Location} {p : Path} {data : Bytes}
    (h : fs.entry? cwd p = some (.file data)) : fs.read cwd p = .ok data := by
  rw [FileSystem.entry?] at h
  split at h
  · next hresolve =>
    obtain rfl := Option.some.inj h
    simp [read, hresolve, bind, Except.bind, pure, Except.pure]
  · cases h

theorem read_of_write {fs fs' : FileSystem} {cwd : Location} {p : Path} {data : Bytes}
    (h : fs.write cwd p data = .ok fs') (hdevice : ∀ d, fs.entry? cwd p ≠ some (.device d)) :
    fs'.read cwd p = .ok data :=
  read_of_entry? (entry?_of_write h hdevice)

end FileSystem
end LintRelay
