import LintRelay.Config.Store
import LintRelay.Proofs.Extension
import LintRelay.Proofs.FileSystem
import LintRelay.Proofs.Json.Record
/-! Configuration files. An analyzer is read back from its JSON form with every field as it was, and
so a configuration that is saved is loaded again, apart from relative working directories, which then
start at the file's own directory. -/
namespace LintRelay

open Json

/-! ### The environment -/

theorem insertVariable_of_lt {key value : String} {vars : List (String × String)}
    (h : ∀ var ∈ vars, var.1 < key) : insertVariable key value vars = vars ++ [(key, value)] := by
  induction vars with
  | nil => rfl
  | cons head rest ih =>
    obtain ⟨k, v⟩ := head
    obtain ⟨hhead, hrest⟩ := List.forall_mem_cons.mp h
    have hne : ¬ k = key := fun heq => String.lt_irrefl key (heq ▸ hhead)
    have hnot : ¬ key < k := fun hlt => String.lt_irrefl key (String.lt_trans hlt hhead)
    simp [insertVariable, hne, hnot, ih hrest]

theorem Environment.vars_foldl_insert {vars : List (String × String)} {env : Environment}
    (h : Ascending (env.vars ++ vars)) :
    (vars.foldl (fun env var => env.insert var.1 var.2) env).vars = env.vars ++ vars := by
  induction vars generalizing env with
  | nil => simp
  | cons var rest ih =>
    have hbefore : ∀ v ∈ env.vars, v.1 < var.1 := fun v hv =>
      (List.pairwise_append.mp h).2.2 v hv var List.mem_cons_self
    have hinsert : (env.insert var.1 var.2).vars = env.vars ++ [var] := insertVariable_of_lt hbefore
    rw [List.foldl_cons, ih (by rw [hinsert]; simpa using h), hinsert]
    simp

theorem Environment.ofList_vars (env : Environment) : ofList env.vars = env := by
  obtain ⟨vars, hvars⟩ := env
  have hfold : (ofList vars).vars = vars := @vars_foldl_insert vars empty hvars
  cases hlist : ofList vars
  simp only [hlist] at hfold
  subst hfold
  rfl

theorem Environment.eq_empty {env : Environment} (h : env.vars.isEmpty = true) : env = empty := by
  obtain ⟨vars, hvars⟩ := env
  obtain rfl : vars = [] := List.isEmpty_iff.mp h
  rfl

/-! ### Fields -/

theorem reads_string (wanted s : String) : Reads (readText wanted) (Tree.ofValue (.string s)) s := by
  have hread := reads_text wanted (unescape_marksOf s.toList)
  rwa [String.ofList_toList] at hread

theorem reads_strings (wanted : String) (ss : List String) :
    Reads (readListOf (readText wanted)) (Tree.ofValue (.array (ss.map .string))) ss := by
  refine reads_list ?_
  rw [treesOf_eq_map, List.map_map]
  induction ss with
  | nil => exact .nil
  | cons s ss ih => exact .cons (reads_string wanted s) ih

theorem Transport.ofName?_name (t : Transport) : ofName? t.name = some t := by
  cases t <;> decide +kernel

theorem Transport.reads_json (t : Transport) : Reads Transport.read (Tree.ofValue t.json) t := by
  intro text htext w rest hw hrest
  simp only [Transport.read, reads_string "a string" t.name text htext w rest hw hrest, bind,
    Except.bind, ofName?_name, pure, Except.pure]

namespace Analyzer

theorem eq_ofString_of_text? {p : Path} {s : String} (h : p.text? = some s) : p = .ofString s :=
  congrArg Path.mk (Bytes.text?_eq_some_iff.mp h)

theorem reads_path (s : String) :
    Reads (readOptional readPath) (Tree.ofValue (.string s)) (some (.ofString s)) :=
  reads_optional ((reads_string "path string" s).map Path.ofString) (by simp [Tree.ofValue])

theorem reads_environment (env : Environment) :
    Reads readEnvironment
      (Tree.ofValue (.object (env.vars.map fun var => (var.1, .string var.2)))) env := by
  have hvars : List.Forall₂ (ReadsMember (readText "a string"))
      (namedTreesOf (env.vars.map fun var => (var.1, .string var.2))) env.vars := by
    rw [namedTreesOf_eq_map, List.map_map]
    induction env.vars with
    | nil => exact .nil
    | cons var vars ih =>
      exact .cons ⟨⟨var.1.toList, unescape_marksOf _, by simp⟩, reads_string "a string" var.2⟩ ih
  have hread := (reads_map hvars).map Environment.ofList
  rwa [env.ofList_vars] at hread

theorem record_takes {α : Type} {key : String} {required : Bool} {read : Read α}
    {get : Draft → Option α} {set : Draft → α → Draft} {d d' : Draft} {x : α} {v : Tree}
    (hfind : record.fields.find? (·.key == key) = some (draftField key required read get set))
    (hgiven : get d = none) (hread : Reads read v x) (hset : set d x = d') :
    record.Takes d key v d' :=
  Record.takes_field hfind (by simp [draftField, hgiven]) (hset ▸ hread.map (set d))

theorem gathers_member {d d' : Draft} {key : String} {x : Value}
    (h : record.Takes d key (Tree.ofValue x) d') :
    record.Gathers d (namedTreesOf [(key, x)]) d' :=
  .cons (unescape_marksOf key.toList) (by rwa [String.ofList_toList]) (.nil d')

def given (key : String) (x : Option Value) : List (String × Value) := x.toList.map (Prod.mk key)

theorem gathers_given {d d' : Draft} {key : String} {x : Option Value} (hnone : x = none → d' = d)
    (hsome : ∀ v, x = some v → record.Takes d key (Tree.ofValue v) d') :
    record.Gathers d (namedTreesOf (given key x)) d' := by
  cases x with
  | none =>
    rw [hnone rfl]
    exact .nil d
  | some v => exact gathers_member (hsome v rfl)

/-- The JSON form of an analyzer whose working directory, if it has one, is a text. -/
def members (a : Analyzer) (dir : Option String) : List (String × Value) :=
  [("name", .string a.name), ("extensions", .array (a.extensions.map .string)),
    ("command", .string a.command), ("args", .array (a.args.map .string))] ++
  given "working_dir" (dir.map .string) ++ [("transport", a.transport.json)] ++
  given "timeout_secs" (a.timeoutSecs.map fun n => .number (toString n)) ++
  [("skip_preamble", .bool a.skipPreamble)] ++
  given "env" (if a.env.vars.isEmpty then none
    else some (.object (a.env.vars.map fun var => (var.1, .string var.2))))

theorem json?_eq_some_iff {a : Analyzer} {v : Value} :
    a.json? = some v ↔
      ∃ dir, a.workingDir = dir.map Path.ofString ∧ v = .object (a.members dir) := by
  cases hdir : a.workingDir with
  | none =>
    have hjson : a.json? = some (.object (a.members none)) := by
      rw [json?, hdir, members]
      cases a.timeoutSecs <;> cases a.env.vars.isEmpty <;> rfl
    rw [hjson]
    constructor
    · intro h
      exact ⟨none, rfl, (Option.some.inj h).symm⟩
    · rintro ⟨dir, hsome, rfl⟩
      obtain rfl : dir = none := by simpa using hsome.symm
      rfl
  | some path =>
    have hjson : a.json? = path.text?.map fun s => .object (a.members (some s)) := by
      simp only [json?, hdir, members]
      cases path.text? <;> cases a.timeoutSecs <;> cases a.env.vars.isEmpty <;> rfl
    rw [hjson, Option.map_eq_some_iff]
    constructor
    · rintro ⟨s, hs, rfl⟩
      exact ⟨some s, by rw [Option.map_some, eq_ofString_of_text? hs], rfl⟩
    · rintro ⟨dir, hsome, rfl⟩
      obtain ⟨s, rfl, hs⟩ := Option.map_eq_some_iff.mp hsome.symm
      exact ⟨s, by rw [← hs]; exact Bytes.text?_eq_some_iff.mpr rfl, rfl⟩

/-- The draft that the members of an analyzer give. -/
def draft (a : Analyzer) : Draft where
  name := some a.name
  extensions := some a.extensions
  command := some a.command
  args := some a.args
  workingDir := a.workingDir.map some
  transport := some a.transport
  timeoutSecs := a.timeoutSecs.map some
  skipPreamble := some a.skipPreamble
  env := if a.env.vars.isEmpty then none else some a.env

theorem finish_draft (a : Analyzer) : a.draft.finish = a := by
  have hgiven : ∀ {α : Type} (x : Option α), (x.map some).getD none = x := by
    intro α x
    cases x <;> rfl
  have henv : (if a.env.vars.isEmpty then none else some a.env).getD .empty = a.env := by
    split
    · next hempty => exact (Environment.eq_empty hempty).symm
    · rfl
  simp only [Draft.finish, draft, Option.getD_some, hgiven, henv]

/-- The members of an analyzer fill a draft, one field after the other. -/
theorem gathers_members {a : Analyzer} {dir : Option String}
    (hdir : a.workingDir = dir.map Path.ofString) :
    record.Gathers {} (namedTreesOf (a.members dir)) a.draft := by
  let fixed : Draft :=
    { name := some a.name, extensions := some a.extensions, command := some a.command,
      args := some a.args }
  let placed : Draft := { fixed with workingDir := a.workingDir.map some }
  let carried : Draft := { placed with transport := some a.transport }
  let limited : Draft := { carried with timeoutSecs := a.timeoutSecs.map some }
  let strict : Draft := { limited with skipPreamble := some a.skipPreamble }
  have hfixed : record.Gathers {} (namedTreesOf [("name", .string a.name),
      ("extensions", .array (a.extensions.map .string)), ("command", .string a.command),
      ("args", .array (a.args.map .string))]) fixed :=
    (gathers_member (record_takes rfl rfl (reads_string _ a.name) rfl)).append <|
      (gathers_member (record_takes rfl rfl (reads_strings _ a.extensions) rfl)).append <|
      (gathers_member (record_takes rfl rfl (reads_string _ a.command) rfl)).append <|
      gathers_member (record_takes rfl rfl (reads_strings _ a.args) rfl)
  have hplaced : record.Gathers fixed (namedTreesOf (given "working_dir" (dir.map .string)))
      placed := by
    refine gathers_given (fun hnone => ?_) fun v hv => ?_
    · simp [placed, fixed, hdir, Option.map_eq_none_iff.mp hnone]
    · obtain ⟨s, rfl, rfl⟩ := Option.map_eq_some_iff.mp hv
      exact record_takes rfl rfl (reads_path s) (by simp [placed, hdir])
  have hcarried : record.Gathers placed (namedTreesOf [("transport", a.transport.json)]) carried :=
    gathers_member (record_takes rfl rfl a.transport.reads_json rfl)
  have hlimited : record.Gathers carried (namedTreesOf
      (given "timeout_secs" (a.timeoutSecs.map fun n => .number (toString n)))) limited := by
    refine gathers_given (fun hnone => ?_) fun v hv => ?_
    · simp [limited, carried, placed, fixed, Option.map_eq_none_iff.mp hnone]
    · obtain ⟨n, hn, rfl⟩ := Option.map_eq_some_iff.mp hv
      exact record_takes rfl rfl (reads_optional (reads_count n) (by simp [Tree.ofValue]))
        (by simp [limited, hn])
  have hstrict : record.Gathers limited
      (namedTreesOf [("skip_preamble", .bool a.skipPreamble)]) strict :=
    gathers_member (record_takes rfl rfl (reads_bool a.skipPreamble) rfl)
  have henv : record.Gathers strict (namedTreesOf (given "env" (if a.env.vars.isEmpty then none
      else some (.object (a.env.vars.map fun var => (var.1, .string var.2)))))) a.draft := by
    refine gathers_given (fun hnone => ?_) fun v hv => ?_
    · simp_all [draft, strict, limited, carried, placed, fixed]
    · obtain ⟨hempty, hv⟩ := Option.ite_none_left_eq_some.mp hv
      obtain rfl := Option.some.inj hv
      exact record_takes rfl rfl (reads_environment a.env)
        (by simp [draft, strict, limited, carried, placed, fixed, hempty])
  have hall := ((((hfixed.append hplaced).append hcarried).append hlimited).append hstrict).append henv
  simpa only [members, namedTreesOf_eq_map, List.map_append] using hall

theorem tokens_members (a : Analyzer) (dir : Option String) : TokensMembers (a.members dir) := by
  have hnumber : ∀ n : UInt64, (Value.number (toString n)).Tokens := by
    intro n
    have htoken := NumberText.positive (wholeText_toDigits n.toNat) .absent .absent
    rw [List.append_nil, List.append_nil, ← toList_toString] at htoken
    exact htoken
  have hstrings : ∀ ss : List String, (Value.array (ss.map .string)).Tokens := by
    intro ss
    refine (tokensItems_iff _).mpr fun v hv => ?_
    obtain ⟨s, -, rfl⟩ := List.mem_map.mp hv
    trivial
  have henv : (Value.object (a.env.vars.map fun var => (var.1, .string var.2))).Tokens := by
    refine (tokensMembers_iff _).mpr fun m hm => ?_
    obtain ⟨var, -, rfl⟩ := List.mem_map.mp hm
    trivial
  rw [tokensMembers_iff]
  intro m hm
  simp only [members, given, List.mem_append, List.mem_cons, List.mem_map, Option.mem_toList,
    Option.map_eq_some_iff, Option.ite_none_left_eq_some, List.not_mem_nil, or_false] at hm
  rcases hm with ((((((rfl | rfl | rfl | rfl) | ⟨_, ⟨s, -, rfl⟩, rfl⟩) | rfl) |
    ⟨_, ⟨n, -, rfl⟩, rfl⟩) | rfl) | ⟨v, ⟨-, hv⟩, rfl⟩)
  · trivial
  · exact hstrings a.extensions
  · trivial
  · exact hstrings a.args
  · trivial
  · trivial
  · exact hnumber n
  · trivial
  · obtain rfl := Option.some.inj hv
    exact henv

theorem reads_json {a : Analyzer} {v : Value} (h : a.json? = some v) :
    v.Tokens ∧ Reads Analyzer.read (Tree.ofValue v) a := by
  obtain ⟨dir, hdir, rfl⟩ := json?_eq_some_iff.mp h
  have hread := (Record.reads (gathers_members hdir) rfl).map Draft.finish
  rw [finish_draft] at hread
  exact ⟨tokens_members a dir, hread⟩

theorem json?_eq_none_iff {a : Analyzer} :
    a.json? = none ↔ ∃ dir, a.workingDir = some dir ∧ ∀ s, dir ≠ Path.ofString s := by
  rw [Option.eq_none_iff_forall_ne_some]
  constructor
  · intro hnone
    cases hdir : a.workingDir with
    | none => exact absurd (json?_eq_some_iff.mpr ⟨none, hdir, rfl⟩) (hnone _)
    | some dir =>
      refine ⟨dir, rfl, fun s hs => ?_⟩
      exact hnone _ (json?_eq_some_iff.mpr ⟨some s, by rw [hdir, hs]; rfl, rfl⟩)
  · rintro ⟨dir, hdir, hnot⟩ v hv
    obtain ⟨text, htext, -⟩ := json?_eq_some_iff.mp hv
    obtain ⟨s, -, hs⟩ := Option.map_eq_some_iff.mp (htext.symm.trans hdir)
    exact hnot s hs.symm

end Analyzer

namespace Config

theorem reads_analyzers {as : List Analyzer} {vs : List Value}
    (h : List.Forall₂ (fun a v => a.json? = some v) as vs) :
    TokensItems vs ∧ List.Forall₂ (Reads Analyzer.read) (treesOf vs) as := by
  induction h with
  | nil => exact ⟨trivial, .nil⟩
  | cons ha _ ih =>
    obtain ⟨htokens, hread⟩ := Analyzer.reads_json ha
    exact ⟨⟨htokens, ih.1⟩, .cons hread ih.2⟩

theorem reads_json {c : Config} {v : Value} (h : c.json? = some v) :
    v.Tokens ∧ Reads Config.read (Tree.ofValue v) ⟨c.analyzers, none⟩ := by
  obtain ⟨vs, hvs, hv⟩ := Option.bind_eq_some_iff.mp h
  obtain rfl := Option.some.inj hv
  obtain ⟨htokens, hitems⟩ := reads_analyzers (List.forall₂_of_mapM hvs)
  have hgathers : record.Gathers none (namedTreesOf [("analyzers", .array vs)])
      (some c.analyzers) := by
    refine .cons (unescape_marksOf _) ?_ (.nil _)
    rw [String.ofList_toList]
    exact Record.takes_field rfl rfl ((reads_list hitems).map some)
  have hread := (Record.reads hgathers rfl).map fun as => (⟨as.getD [], none⟩ : Config)
  exact ⟨⟨htokens, trivial⟩, hread⟩

theorem json?_eq_none_iff {c : Config} :
    c.json? = none ↔
      ∃ a ∈ c.analyzers, ∃ dir, a.workingDir = some dir ∧ ∀ s, dir ≠ Path.ofString s := by
  simp only [← Analyzer.json?_eq_none_iff]
  rw [← List.mapM_eq_none_iff, json?]
  cases c.analyzers.mapM (·.json?) with
  | none => exact ⟨fun _ => rfl, fun _ => rfl⟩
  | some vs => exact ⟨fun h => (by cases h), fun h => (by cases h)⟩

theorem parse_fileText? {c : Config} {text : String} (h : c.fileText? = some text) :
    parse text.toList = .ok ⟨c.analyzers, none⟩ := by
  obtain ⟨v, hv, rfl⟩ := Option.map_eq_some_iff.mp h
  obtain ⟨htokens, hread⟩ := reads_json hv
  have hblank : Blanks ['\n'] := by simp [Blanks, isSpace]
  have hparse := parseWith_of_reads hread (prettyAt_text 0 v htokens) hblank
  simpa [parse, Value.prettyText, Value.pretty] using hparse

theorem checkAnalyzers_anchor (base : Path) (as : List Analyzer) (claims : Claims) :
    checkAnalyzers claims (as.map (·.anchor base)) = checkAnalyzers claims as := by
  induction as generalizing claims with
  | nil => rfl
  | cons a as ih =>
    have hcheck : checkAnalyzer claims (a.anchor base) = checkAnalyzer claims a := rfl
    rw [List.map_cons, checkAnalyzers, checkAnalyzers, hcheck]
    cases checkAnalyzer claims a with
    | error d => rfl
    | ok claims => exact ih claims

/-- Where working directories start does not count for validity. -/
theorem validate_anchor {c : Config} {as : List Analyzer} (h : c.analyzers = as) (base : Path)
    (source : Option Path) : validate ⟨as.map (·.anchor base), source⟩ = c.validate := by
  subst h
  simp only [validate, checkAnalyzers_anchor, List.isEmpty_map]

theorem ofFile_fileText? {c : Config} {p base : Path} {text : String} (hc : c.validate = .ok ())
    (hp : p.parent? = some base) (h : c.fileText? = some text) :
    ofFile p (Bytes.ofString text) = .ok ⟨c.analyzers.map (·.anchor base), some p⟩ := by
  have htext : (Bytes.ofString text).text? = some text := Bytes.text?_eq_some_iff.mpr rfl
  have hvalid := (validate_anchor rfl base (some p)).trans hc
  simp only [ofFile, htext, parse_fileText? h, anchor, hp, hvalid]

theorem save_run (c : Config) (p : Path) (w : World) :
    (c.save p).run w =
      match c.fileText? with
      | none => (.error (.config .unwritable), w)
      | some text =>
        match w.files.write w.cwd p (Bytes.ofString text) with
        | .ok files => (.ok (), { w with files := files })
        | .error e => (.error (.io e), w) := by
  rw [save]
  cases c.fileText? with
  | none => rfl
  | some text =>
    simp only [Act.run_because, Act.run_writePath]
    cases w.files.write w.cwd p (Bytes.ofString text) <;> rfl

/-- A configuration cannot be saved exactly if a working directory is not text, and then nothing is
done. -/
theorem save_eq_config_error_iff {c : Config} {p : Path} {w : World} :
    (∃ d, ((c.save p).run w).1 = .error (.config d)) ↔ c.json? = none := by
  rw [save_run, fileText?]
  cases c.json? with
  | none => simp
  | some v =>
    simp only [Option.map_some, reduceCtorEq, iff_false, not_exists]
    intro d
    cases w.files.write w.cwd p _ <;> simp

theorem load_run_of_read {p : Path} {w : World} {data : Bytes} {c : Config}
    (hread : w.files.read w.cwd p = .ok data) (hfile : ofFile p data = .ok c) :
    (load p).run w =
      (.ok c, { w with log := w.log ++ [.loadedConfig c.analyzers.length p] }) := by
  simp only [load, Act.run_bind, Act.run_because, Act.run_readPath, hread, Except.mapError,
    Act.run_ofExcept, hfile, Act.run_log, Act.run_pure]

theorem of_save_run {c : Config} {p : Path} {w w' : World} (h : (c.save p).run w = (.ok (), w')) :
    ∃ text files, c.fileText? = some text ∧
      w.files.write w.cwd p (Bytes.ofString text) = .ok files ∧ w' = { w with files := files } := by
  rw [save_run] at h
  cases htext : c.fileText? with
  | none =>
    rw [htext] at h
    cases h
  | some text =>
    rw [htext] at h
    cases hwrite : w.files.write w.cwd p (Bytes.ofString text) with
    | error e => simp [hwrite] at h
    | ok files => exact ⟨text, files, rfl, hwrite, by simpa [hwrite] using h.symm⟩

/-- Saving and loading again. A configuration cannot be saved exactly if the working directory of
one of its analyzers is not text, and then the world stays as it was. A save that succeeds has written
the text of its file, and from a path that gives this text back it is loaded, with relative working
directories below the directory of the file. -/
theorem load_of_save {c : Config} {p base : Path} (hc : c.validate = .ok ())
    (hp : p.parent? = some base) (w : World) :
    ((∃ d, ((c.save p).run w).1 = .error (.config d)) ↔
        ∃ a ∈ c.analyzers, ∃ dir, a.workingDir = some dir ∧ ∀ s, dir ≠ Path.ofString s) ∧
      (∀ d, ((c.save p).run w).1 = .error (.config d) → ((c.save p).run w).2 = w) ∧
      ∀ w', (c.save p).run w = (.ok (), w') →
        ∃ text files, c.fileText? = some text ∧
          w.files.write w.cwd p (Bytes.ofString text) = .ok files ∧ w' = { w with files := files } ∧
          (w'.files.read w'.cwd p = .ok (Bytes.ofString text) →
            (load p).run w' =
              (.ok ⟨c.analyzers.map fun a => { a with workingDir := a.workingDir.map fun dir =>
                  if dir.isAbsolute then dir else base.join dir }, some p⟩,
                { w' with log := w'.log ++ [.loadedConfig c.analyzers.length p] })) := by
  refine ⟨save_eq_config_error_iff.trans json?_eq_none_iff, fun d hd => ?_, fun w' hsave => ?_⟩
  · have hnone : c.fileText? = none := by
      rw [fileText?, save_eq_config_error_iff.mp ⟨d, hd⟩]
      rfl
    rw [save_run, hnone]
  · obtain ⟨text, files, htext, hwrite, rfl⟩ := of_save_run hsave
    refine ⟨text, files, htext, hwrite, rfl, fun hread => ?_⟩
    have hload := load_run_of_read hread (ofFile_fileText? hc hp htext)
    rw [List.length_map] at hload
    exact hload

/-- Fields of every kind: a relative directory, the longest time limit, and a value that has to be
escaped. -/
def rich : Config where
  analyzers := [{
    name := "tool"
    extensions := ["x"]
    command := "run"
    workingDir := some (.ofString "tools")
    transport := .stdin
    timeoutSecs := some 18446744073709551615
    env := Environment.ofList [("B", "\n\""), ("A", "é")] }]

def emptyDirectory : World where
  files := ⟨[([Bytes.ofString "p"], .directory)]⟩

theorem load_of_save_rich :
    rich.validate = .ok () ∧ (Path.ofString "/p/c.json").parent? = some (.ofString "/p") ∧
      ∃ w', (rich.save (.ofString "/p/c.json")).run emptyDirectory = (.ok (), w') ∧
        ((load (.ofString "/p/c.json")).run w').1 =
          .ok ⟨rich.analyzers.map fun a => { a with workingDir := some (.ofString "/p/tools") },
            some (.ofString "/p/c.json")⟩ := by
  have hc : rich.validate = .ok () := rfl
  have hp : (Path.ofString "/p/c.json").parent? = some (.ofString "/p") := rfl
  have hfree : emptyDirectory.files.entry? emptyDirectory.cwd (.ofString "/p/c.json") = none := by
    decide
  refine ⟨hc, hp, _, rfl, ?_⟩
  obtain ⟨-, -, hload⟩ := load_of_save hc hp emptyDirectory
  obtain ⟨text, files, -, hwrite, hfiles, hload⟩ := hload _ rfl
  rw [hload]
  · rfl
  · rw [hfiles]
    exact FileSystem.read_of_write hwrite (by simp [hfree])

def nullDevice : World where
  files := ⟨[([Bytes.ofString "null"], .device .null)]⟩

theorem saved_to_null_not_loaded :
    builtIn.validate = .ok () ∧ (Path.ofString "/null").parent? = some (.ofString "/") ∧
      (builtIn.save (.ofString "/null")).run nullDevice = (.ok (), nullDevice) ∧
      ∃ e, ((load (.ofString "/null")).run nullDevice).1 = .error e :=
  ⟨rfl, rfl, rfl, _, rfl⟩

end Config
end LintRelay
