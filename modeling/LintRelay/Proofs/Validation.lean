import LintRelay.Proofs.Routing
import Mathlib.Data.List.TakeWhile
/-! What validation says about a configuration. It checks one place after the other, each analyzer
and then its extensions, and what it reports is the first defect in this order. -/
namespace LintRelay

theorem Text.allBlank_iff {s : String} : allBlank s = true ↔ trim s.toList = [] := by
  rw [allBlank, List.all_eq_true, trim, trimEnd, List.reverse_eq_nil_iff, List.dropWhile_eq_nil_iff]
  constructor
  · intro h c hc
    exact h c ((List.dropWhile_sublist isBlank).mem (List.mem_reverse.mp hc))
  · intro h c hc
    rw [← List.takeWhile_append_dropWhile (p := isBlank) (l := s.toList)] at hc
    rcases List.mem_append.mp hc with hc | hc
    · exact List.all_eq_true.mp List.all_takeWhile c hc
    · exact h c (List.mem_reverse.mpr hc)

theorem Analyzer.usable_iff {a : Analyzer} :
    a.Usable ↔
      Text.trim a.name.toList ≠ [] ∧ Text.trim a.command.toList ≠ [] ∧ a.extensions ≠ [] ∧
        a.timeoutSecs ≠ some 0 ∧ ∀ e ∈ a.extensions, Extension.normalize e ≠ "" := by
  simp only [ne_eq, ← Text.allBlank_iff, Bool.not_eq_true]
  exact ⟨fun h => ⟨h.name, h.command, h.extensions, h.timeout, h.forms⟩,
    fun h => ⟨h.1, h.2.1, h.2.2.1, h.2.2.2.1, h.2.2.2.2⟩⟩

namespace Config

/-- A place in a configuration where something is checked: an analyzer, or one of its extensions. -/
structure Site where
  analyzer : Analyzer
  extension : Option String

namespace Site

def lists (form : String) (s : Site) : Bool := s.extension.map Extension.normalize == some form

/-- The first thing that is wrong at a place, given the places before it. -/
def defect? (earlier : List Site) (s : Site) : Option ConfigDefect :=
  match s.extension with
  | none =>
    if Text.trim s.analyzer.name.toList = [] then some .emptyName
    else if Text.trim s.analyzer.command.toList = [] then some (.emptyCommand s.analyzer.name)
    else if s.analyzer.extensions = [] then some (.noExtensions s.analyzer.name)
    else if s.analyzer.timeoutSecs = some 0 then some (.zeroTimeout s.analyzer.name)
    else none
  | some e =>
    if Extension.normalize e = "" then some (.emptyExtension s.analyzer.name)
    else (earlier.find? (·.lists (Extension.normalize e))).map fun owner =>
      .claimedTwice (Extension.normalize e) owner.analyzer.name s.analyzer.name

end Site

/-- The places of an analyzer: the analyzer itself, and then its extensions. -/
def sitesOf (a : Analyzer) : List Site := ⟨a, none⟩ :: a.extensions.map fun e => ⟨a, some e⟩

/-- The places of a configuration in the order in which they are written. -/
def sites (analyzers : List Analyzer) : List Site := analyzers.flatMap sitesOf

def firstDefect? (earlier : List Site) : List Site → Option ConfigDefect
  | [] => none
  | s :: rest => (s.defect? earlier).or (firstDefect? (earlier ++ [s]) rest)

theorem firstDefect?_append (earlier sites₁ sites₂ : List Site) :
    firstDefect? earlier (sites₁ ++ sites₂) =
      (firstDefect? earlier sites₁).or (firstDefect? (earlier ++ sites₁) sites₂) := by
  induction sites₁ generalizing earlier with
  | nil => simp [firstDefect?]
  | cons s rest ih => simp [firstDefect?, ih, Option.or_assoc]

theorem firstDefect?_eq_none_iff {earlier places : List Site} :
    firstDefect? earlier places = none ↔
      ∀ front s rest, places = front ++ s :: rest → s.defect? (earlier ++ front) = none := by
  induction places generalizing earlier with
  | nil => simp [firstDefect?]
  | cons t places ih =>
    rw [firstDefect?, Option.or_eq_none_iff, ih]
    constructor
    · rintro ⟨hfirst, hrest⟩ front s rest hsplit
      cases front with
      | nil =>
        obtain ⟨rfl, -⟩ := List.cons.inj hsplit
        simpa using hfirst
      | cons u front =>
        obtain ⟨rfl, htail⟩ := List.cons.inj hsplit
        simpa using hrest front s rest htail
    · intro h
      refine ⟨by simpa using h [] t places rfl, fun front s rest hsplit => ?_⟩
      simpa using h (t :: front) s rest (by rw [hsplit]; rfl)

/-- The first defect is at a place before which nothing is wrong. -/
theorem firstDefect?_eq_some_iff {earlier places : List Site} {d : ConfigDefect} :
    firstDefect? earlier places = some d ↔
      ∃ before s after, places = before ++ s :: after ∧ firstDefect? earlier before = none ∧
        s.defect? (earlier ++ before) = some d := by
  constructor
  · intro h
    induction places generalizing earlier with
    | nil => cases h
    | cons t places ih =>
      rcases Option.or_eq_some_iff.mp h with hfirst | ⟨hfirst, hrest⟩
      · exact ⟨[], t, places, rfl, rfl, by simpa using hfirst⟩
      · obtain ⟨before, s, after, rfl, hbefore, hs⟩ := ih hrest
        refine ⟨t :: before, s, after, rfl, ?_, by simpa using hs⟩
        rw [firstDefect?, hfirst, hbefore]
        rfl
  · rintro ⟨before, s, after, rfl, hbefore, hs⟩
    rw [firstDefect?_append, hbefore, Option.none_or, firstDefect?, hs]
    rfl

/-- Claims that hold, for each form, the analyzer that listed it first. -/
def Claims.Of (claims : Claims) (earlier : List Site) : Prop :=
  ∀ form, claims.owner? form = (earlier.find? (·.lists form)).map (·.analyzer.name)

theorem Claims.of_nil : Claims.Of [] [] := fun _ => rfl

theorem Claims.Of.analyzer {claims : Claims} {earlier : List Site} (h : claims.Of earlier)
    (a : Analyzer) : claims.Of (earlier ++ [⟨a, none⟩]) := by
  intro form
  rw [h form, List.find?_append]
  simp [Site.lists]

theorem Claims.Of.extension {claims : Claims} {earlier : List Site} (h : claims.Of earlier)
    {a : Analyzer} {e : String} (hnew : claims.owner? (Extension.normalize e) = none) :
    Claims.Of ((Extension.normalize e, a.name) :: claims) (earlier ++ [⟨a, some e⟩]) := by
  intro form
  rw [List.find?_append]
  by_cases hform : Extension.normalize e = form
  · rw [hform, h form, Option.map_eq_none_iff] at hnew
    rw [hnew]
    simp [Claims.owner?, Site.lists, hform]
  · have howner : Claims.owner? ((Extension.normalize e, a.name) :: claims) form =
        claims.owner? form := by
      simp [Claims.owner?, hform]
    rw [howner, h form]
    simp [Site.lists, hform]

/-- A check of places gives the first defect there, or claims that hold what was listed so far. -/
def Reports (earlier places : List Site) (result : Except ConfigDefect Claims) : Prop :=
  match firstDefect? earlier places with
  | some d => result = .error d
  | none => ∃ claims, result = .ok claims ∧ claims.Of (earlier ++ places)

/-- At each place a check ends with the defect there, or goes on behind it. -/
theorem Reports.cons {earlier rest : List Site} {s : Site} {result : Except ConfigDefect Claims}
    (herror : ∀ d, s.defect? earlier = some d → result = .error d)
    (hok : s.defect? earlier = none → Reports (earlier ++ [s]) rest result) :
    Reports earlier (s :: rest) result := by
  rw [Reports, firstDefect?]
  cases hs : s.defect? earlier with
  | some d => exact herror d hs
  | none =>
    have hrest := hok hs
    rwa [Reports, List.append_assoc, List.singleton_append] at hrest

theorem Reports.append {earlier places more : List Site} {result final : Except ConfigDefect Claims}
    (h : Reports earlier places result) (herror : ∀ d, result = .error d → final = .error d)
    (hok : ∀ claims, result = .ok claims → claims.Of (earlier ++ places) →
      Reports (earlier ++ places) more final) :
    Reports earlier (places ++ more) final := by
  rw [Reports] at h
  rw [Reports, firstDefect?_append]
  cases hfirst : firstDefect? earlier places with
  | some d =>
    rw [hfirst] at h
    exact herror d h
  | none =>
    rw [hfirst] at h
    obtain ⟨claims, hresult, hclaims⟩ := h
    have hmore := hok claims hresult hclaims
    rwa [Reports, List.append_assoc] at hmore

theorem reports_claim {claims : Claims} {earlier : List Site} (h : claims.Of earlier) (a : Analyzer)
    (es : List String) :
    Reports earlier (es.map fun e => ⟨a, some e⟩) (claim a.name claims es) := by
  induction es generalizing claims earlier with
  | nil => exact ⟨claims, rfl, by simpa using h⟩
  | cons e es ih =>
    have hdefect : Site.defect? earlier ⟨a, some e⟩ =
        if Extension.normalize e = "" then some (.emptyExtension a.name)
        else (claims.owner? (Extension.normalize e)).map fun owner =>
          .claimedTwice (Extension.normalize e) owner a.name := by
      simp only [Site.defect?, h (Extension.normalize e), Option.map_map, Function.comp_def]
    rw [List.map_cons]
    refine Reports.cons (fun d hd => ?_) fun hs => ?_
    · rw [hdefect] at hd
      by_cases hempty : Extension.normalize e = ""
      · rw [if_pos hempty] at hd
        rw [← Option.some.inj hd]
        simp [claim, hempty]
      · rw [if_neg hempty] at hd
        obtain ⟨owner, howner, rfl⟩ := Option.map_eq_some_iff.mp hd
        simp [claim, hempty, howner]
    · rw [hdefect] at hs
      have hempty : ¬ Extension.normalize e = "" := by
        intro hempty
        simp [hempty] at hs
      rw [if_neg hempty, Option.map_eq_none_iff] at hs
      have hclaim : claim a.name claims (e :: es) =
          claim a.name ((Extension.normalize e, a.name) :: claims) es := by
        simp [claim, hempty, hs]
      rw [hclaim]
      exact ih (h.extension hs)

theorem checkAnalyzer_eq (claims : Claims) (earlier : List Site) (a : Analyzer) :
    checkAnalyzer claims a =
      match Site.defect? earlier ⟨a, none⟩ with
      | some d => .error d
      | none => claim a.name claims a.extensions := by
  rw [checkAnalyzer, Site.defect?]
  simp only [← Text.allBlank_iff, List.isEmpty_iff, beq_iff_eq]
  split_ifs <;> rfl

theorem reports_checkAnalyzer {claims : Claims} {earlier : List Site} (h : claims.Of earlier)
    (a : Analyzer) : Reports earlier (sitesOf a) (checkAnalyzer claims a) := by
  have hcheck := checkAnalyzer_eq claims earlier a
  rw [sitesOf]
  refine Reports.cons (fun d hd => ?_) fun hs => ?_
  · rw [hcheck, hd]
  · rw [hcheck, hs]
    exact reports_claim (h.analyzer a) a a.extensions

theorem reports_checkAnalyzers {claims : Claims} {earlier : List Site} (h : claims.Of earlier)
    (analyzers : List Analyzer) :
    Reports earlier (sites analyzers) (checkAnalyzers claims analyzers) := by
  induction analyzers generalizing claims earlier with
  | nil => exact ⟨claims, rfl, by simpa [sites] using h⟩
  | cons a as ih =>
    rw [sites, List.flatMap_cons]
    refine Reports.append (reports_checkAnalyzer h a) (fun d hd => ?_) fun next hok hclaims => ?_
    · rw [checkAnalyzers, hd]
    · rw [checkAnalyzers, hok]
      exact ih hclaims

/-- Validation reports the first defect. -/
theorem validate_eq_error_iff_firstDefect? {c : Config} {d : ConfigDefect} :
    c.validate = .error d ↔
      (c.analyzers = [] ∧ d = .noAnalyzers) ∨ firstDefect? [] (sites c.analyzers) = some d := by
  have hreports := reports_checkAnalyzers Claims.of_nil c.analyzers
  rw [Reports] at hreports
  rw [validate]
  cases hanalyzers : c.analyzers with
  | nil => simp [sites, firstDefect?, eq_comm]
  | cons a as =>
    rw [hanalyzers] at hreports
    cases hfirst : firstDefect? [] (sites (a :: as)) with
    | some d' =>
      rw [hfirst] at hreports
      simp [hreports]
    | none =>
      rw [hfirst] at hreports
      obtain ⟨claims, hok, -⟩ := hreports
      simp [hok]

theorem validate_eq_error_iff {c : Config} {d : ConfigDefect} :
    c.validate = .error d ↔
      (c.analyzers = [] ∧ d = .noAnalyzers) ∨
      ∃ before s after, sites c.analyzers = before ++ s :: after ∧
        (∀ front t rest, before = front ++ t :: rest → t.defect? front = none) ∧
        s.defect? before = some d := by
  simp only [validate_eq_error_iff_firstDefect?, firstDefect?_eq_some_iff, firstDefect?_eq_none_iff,
    List.nil_append]

theorem Site.defect?_eq_claimedTwice_iff {earlier : List Site} {s : Site}
    {form first second : String} :
    s.defect? earlier = some (.claimedTwice form first second) ↔
      ∃ e owner, s = ⟨s.analyzer, some e⟩ ∧ Extension.normalize e = form ∧ form ≠ "" ∧
        s.analyzer.name = second ∧ earlier.find? (·.lists form) = some owner ∧
        owner.analyzer.name = first := by
  obtain ⟨a, extension⟩ := s
  cases extension with
  | none =>
    simp only [Site.defect?, mk.injEq, reduceCtorEq, and_false, false_and, exists_false, iff_false]
    split_ifs <;> simp
  | some e =>
    simp only [Site.defect?, mk.injEq, Option.some.injEq, true_and]
    constructor
    · intro h
      split at h
      · simp at h
      next hempty =>
      obtain ⟨owner, howner, hdefect⟩ := Option.map_eq_some_iff.mp h
      obtain ⟨rfl, rfl, rfl⟩ := ConfigDefect.claimedTwice.inj hdefect
      exact ⟨e, owner, rfl, rfl, hempty, rfl, howner, rfl⟩
    · rintro ⟨_, owner, rfl, rfl, hempty, rfl, howner, rfl⟩
      rw [if_neg hempty, howner]
      rfl

/-- Validation accepts a configuration if and only if it has analyzers, all have a name, a command,
extensions and time to run, and the forms of all extensions are there and distinct. Otherwise it
reports the first defect in the order of the document; for two extensions with one form, this is at
the second of them, with the names of the analyzer that listed the form first and of the one there. -/
theorem validate_blames_first_defect (c : Config) :
    (c.validate = .ok () ↔
      c.analyzers ≠ [] ∧
      (∀ a ∈ c.analyzers, Text.trim a.name.toList ≠ [] ∧ Text.trim a.command.toList ≠ [] ∧
        a.extensions ≠ [] ∧ a.timeoutSecs ≠ some 0 ∧
        ∀ e ∈ a.extensions, Extension.normalize e ≠ "") ∧
      (c.analyzers.flatMap fun a => a.extensions.map Extension.normalize).Nodup) ∧
    (∀ d, c.validate = .error d ↔
      (c.analyzers = [] ∧ d = .noAnalyzers) ∨
      ∃ before s after, sites c.analyzers = before ++ s :: after ∧
        (∀ front t rest, before = front ++ t :: rest → t.defect? front = none) ∧
        s.defect? before = some d) ∧
    ∀ form first second, c.validate = .error (.claimedTwice form first second) ↔
      ∃ before a e after owner, sites c.analyzers = before ++ ⟨a, some e⟩ :: after ∧
        (∀ front t rest, before = front ++ t :: rest → t.defect? front = none) ∧
        Extension.normalize e = form ∧ form ≠ "" ∧ a.name = second ∧
        before.find? (·.lists form) = some owner ∧ owner.analyzer.name = first := by
  refine ⟨?_, fun d => validate_eq_error_iff, fun form first second => ?_⟩
  · rw [validate_eq_ok_iff]
    simp only [Analyzer.usable_iff]
    rfl
  · simp only [validate_eq_error_iff, reduceCtorEq, and_false, false_or,
      Site.defect?_eq_claimedTwice_iff]
    constructor
    · rintro ⟨before, s, after, hsites, hbefore, e, owner, hs, hform⟩
      exact ⟨before, s.analyzer, e, after, owner, hs ▸ hsites, hbefore, hform⟩
    · rintro ⟨before, a, e, after, owner, hsites, hbefore, hform⟩
      exact ⟨before, ⟨a, some e⟩, after, hsites, hbefore, e, owner, rfl, hform⟩

/-- A clash within one analyzer, before the empty command of the next. -/
example :
    validate ⟨[Analyzer.csharp,
      { name := "sql", extensions := ["SQL", "x", " .sql"], command := "lint" },
      { name := "last", extensions := ["cs"], command := " " }], none⟩ =
      .error (.claimedTwice "sql" "sql" "sql") := by
  decide +kernel

end Config
end LintRelay
