import LintRelay.Config
import LintRelay.Proofs.Extension
import Mathlib.Data.List.Nodup
/-! Routing of files to analyzers. A configuration is valid if its analyzers can be used and the forms
of all their extensions are distinct. Neither depends on the order of the analyzers, and so each file
goes to the same analyzer in whatever order they are listed. -/
namespace LintRelay

namespace Analyzer

structure Usable (a : Analyzer) : Prop where
  name : Text.allBlank a.name = false
  command : Text.allBlank a.command = false
  extensions : a.extensions ≠ []
  timeout : a.timeoutSecs ≠ some 0
  forms : ∀ e ∈ a.extensions, Extension.normalize e ≠ ""

/-- The forms of the extensions of an analyzer. -/
def forms (a : Analyzer) : List String := a.extensions.map Extension.normalize

theorem mem_forms {a : Analyzer} {form : String} :
    form ∈ a.forms ↔ ∃ e ∈ a.extensions, Extension.normalize e = form := by
  simp [forms]

theorem handles_iff {a : Analyzer} {x : String} :
    a.handles x = true ↔ Extension.normalize x ∈ a.forms := by
  simp [handles, mem_forms]

end Analyzer

namespace Config

theorem Claims.owner?_eq_none_iff {claims : Claims} {form : String} :
    claims.owner? form = none ↔ form ∉ claims.map Prod.fst := by
  rw [Claims.owner?, Option.map_eq_none_iff, List.find?_eq_none, List.mem_map]
  constructor
  · rintro h ⟨claim, hclaim, heq⟩
    exact h claim hclaim (by simpa using heq)
  · intro h claim hclaim heq
    exact h ⟨claim, hclaim, by simpa using heq⟩

theorem claim_eq_ok_iff {name : String} {claims claims' : Claims} {es : List String}
    (hclaims : (claims.map Prod.fst).Nodup) :
    claim name claims es = .ok claims' ↔
      (∀ e ∈ es, Extension.normalize e ≠ "") ∧
      ((es.map Extension.normalize).reverse ++ claims.map Prod.fst).Nodup ∧
      claims' = (es.map fun e => (Extension.normalize e, name)).reverse ++ claims := by
  induction es generalizing claims with
  | nil =>
    constructor
    · intro h
      exact ⟨by simp, by simpa using hclaims, by simpa [claim] using h.symm⟩
    · rintro ⟨-, -, rfl⟩
      rfl
  | cons e es ih =>
    by_cases hempty : Extension.normalize e = ""
    · simp [claim, hempty]
    · cases howner : claims.owner? (Extension.normalize e) with
      | some owner =>
        -- The form is claimed already, so the list of all forms repeats it.
        have hmem : Extension.normalize e ∈ claims.map Prod.fst := by
          by_contra hfresh
          rw [Claims.owner?_eq_none_iff.mpr hfresh] at howner
          cases howner
        have hrefused : claim name claims (e :: es) =
            .error (.claimedTwice (Extension.normalize e) owner name) := by
          simp [claim, hempty, howner]
        simp only [hrefused, reduceCtorEq, false_iff, not_and]
        intro _ hnodup
        have hdisjoint := (List.nodup_append.mp hnodup).2.2
        exact absurd rfl (hdisjoint _ (by simp) _ hmem)
      | none =>
        have hfresh := Claims.owner?_eq_none_iff.mp howner
        have hnext : (((Extension.normalize e, name) :: claims).map Prod.fst).Nodup :=
          List.nodup_cons.mpr ⟨hfresh, hclaims⟩
        have hclaim : claim name claims (e :: es) =
            claim name ((Extension.normalize e, name) :: claims) es := by
          simp [claim, hempty, howner]
        rw [hclaim, ih hnext]
        simp [hempty]

theorem checkAnalyzer_eq_ok_iff {claims claims' : Claims} {a : Analyzer}
    (hclaims : (claims.map Prod.fst).Nodup) :
    checkAnalyzer claims a = .ok claims' ↔
      a.Usable ∧ (a.forms.reverse ++ claims.map Prod.fst).Nodup ∧
      claims' = (a.extensions.map fun e => (Extension.normalize e, a.name)).reverse ++ claims := by
  rw [checkAnalyzer]
  split
  · next h =>
    simp only [reduceCtorEq, false_iff, not_and]
    intro husable
    simp [husable.name] at h
  · split
    · next h =>
      simp only [reduceCtorEq, false_iff, not_and]
      intro husable
      simp [husable.command] at h
    · split
      · next h =>
        simp only [reduceCtorEq, false_iff, not_and]
        intro husable
        simp [husable.extensions] at h
      · split
        · next h =>
          simp only [reduceCtorEq, false_iff, not_and]
          intro husable
          simp [husable.timeout] at h
        · next hname hcommand hextensions htimeout =>
          rw [claim_eq_ok_iff hclaims]
          have husable : a.Usable ↔ ∀ e ∈ a.extensions, Extension.normalize e ≠ "" :=
            ⟨Analyzer.Usable.forms, fun h => ⟨by simpa using hname, by simpa using hcommand,
              by simpa using hextensions, by simpa using htimeout, h⟩⟩
          rw [husable, Analyzer.forms]

def forms (analyzers : List Analyzer) : List String := analyzers.flatMap Analyzer.forms

/-- Analyzers pass if and only if all can be used and all their forms are distinct and new. -/
theorem exists_checkAnalyzers_eq_ok_iff {claims : Claims} {analyzers : List Analyzer}
    (hclaims : (claims.map Prod.fst).Nodup) :
    (∃ claims', checkAnalyzers claims analyzers = .ok claims') ↔
      (∀ a ∈ analyzers, a.Usable) ∧
        ((forms analyzers).reverse ++ claims.map Prod.fst).Nodup := by
  induction analyzers generalizing claims with
  | nil => simp [checkAnalyzers, forms, hclaims]
  | cons a as ih =>
    have hforms : (forms (a :: as)).reverse ++ claims.map Prod.fst =
        (forms as).reverse ++ (a.forms.reverse ++ claims.map Prod.fst) := by
      simp [forms]
    rw [checkAnalyzers, hforms]
    cases hcheck : checkAnalyzer claims a with
    | error d =>
      simp only [reduceCtorEq, exists_false, false_iff, not_and]
      intro husable hnodup
      have hok := (checkAnalyzer_eq_ok_iff hclaims).mpr
        ⟨husable a List.mem_cons_self, (List.nodup_append.mp hnodup).2.1, rfl⟩
      rw [hcheck] at hok
      cases hok
    | ok next =>
      obtain ⟨husable, hnodup, rfl⟩ := (checkAnalyzer_eq_ok_iff hclaims).mp hcheck
      have hkeys : ((a.extensions.map fun e => (Extension.normalize e, a.name)).reverse ++
          claims).map Prod.fst = a.forms.reverse ++ claims.map Prod.fst := by
        simp [Analyzer.forms, Function.comp_def]
      rw [← hkeys] at hnodup
      dsimp only
      rw [ih hnodup, hkeys, List.forall_mem_cons]
      simp [husable]

/-- A configuration is valid if and only if it has analyzers, all of them can be used, and the forms
of all their extensions are distinct. -/
theorem validate_eq_ok_iff {c : Config} :
    c.validate = .ok () ↔
      c.analyzers ≠ [] ∧ (∀ a ∈ c.analyzers, a.Usable) ∧ (forms c.analyzers).Nodup := by
  have hcheck := @exists_checkAnalyzers_eq_ok_iff [] c.analyzers List.nodup_nil
  rw [List.map_nil, List.append_nil, List.nodup_reverse] at hcheck
  rw [← hcheck, validate]
  cases c.analyzers with
  | nil => simp
  | cons a as => cases checkAnalyzers [] (a :: as) <;> simp

theorem validate_of_perm {c c' : Config} (h : c.validate = .ok ())
    (hperm : c'.analyzers.Perm c.analyzers) : c'.validate = .ok () := by
  obtain ⟨hne, husable, hnodup⟩ := validate_eq_ok_iff.mp h
  refine validate_eq_ok_iff.mpr ⟨?_, ?_, ?_⟩
  · intro hnil
    rw [hnil] at hperm
    exact hne hperm.nil_eq.symm
  · intro a ha
    exact husable a (hperm.mem_iff.mp ha)
  · exact (hperm.flatMap_right Analyzer.forms).nodup_iff.mpr hnodup

/-- In a valid configuration one place in the list claims a form. -/
theorem index_unique_of_validate {c : Config} (h : c.validate = .ok ()) {form : String} {i j : Nat}
    {a b : Analyzer} (hi : c.analyzers[i]? = some a) (hj : c.analyzers[j]? = some b)
    (ha : form ∈ a.forms) (hb : form ∈ b.forms) : i = j := by
  obtain ⟨-, -, hnodup⟩ := validate_eq_ok_iff.mp h
  have hpair := (List.nodup_flatMap.mp hnodup).2
  obtain ⟨hilt, rfl⟩ := List.getElem?_eq_some_iff.mp hi
  obtain ⟨hjlt, rfl⟩ := List.getElem?_eq_some_iff.mp hj
  -- Of two places, the forms of the first are apart from those of the second.
  rcases Nat.lt_trichotomy i j with hlt | heq | hgt
  · exact absurd hb (List.pairwise_iff_getElem.mp hpair i j hilt hjlt hlt ha)
  · exact heq
  · exact absurd ha (List.pairwise_iff_getElem.mp hpair j i hjlt hilt hgt hb)

theorem eq_of_mem_forms {c : Config} (h : c.validate = .ok ()) {form : String} {a b : Analyzer}
    (ha : a ∈ c.analyzers) (hb : b ∈ c.analyzers) (hfa : form ∈ a.forms) (hfb : form ∈ b.forms) :
    a = b := by
  obtain ⟨i, hi⟩ := List.mem_iff_getElem?.mp ha
  obtain ⟨j, hj⟩ := List.mem_iff_getElem?.mp hb
  obtain rfl := index_unique_of_validate h hi hj hfa hfb
  exact Option.some.inj (hi.symm.trans hj)

/-- A valid configuration routes a file to the analyzer that claims its extension. -/
theorem analyzerFor?_eq_some_iff {c : Config} (h : c.validate = .ok ()) {p : Path} {a : Analyzer} :
    c.analyzerFor? p = some a ↔
      ∃ x, p.extension? = some (Bytes.ofString x) ∧ a ∈ c.analyzers ∧
        Extension.normalize x ∈ a.forms := by
  simp only [analyzerFor?, Extension.ofPath?, Option.bind_eq_bind, Option.bind_map,
    Option.bind_eq_some_iff, Extension.written?_eq_some_iff, Function.comp_apply]
  refine exists_congr fun x => and_congr_right fun hx => ?_
  -- The form is taken a second time here, which changes nothing.
  have htwice := Extension.normalize_normalize (Extension.dot_not_mem_of_extension? hx)
  constructor
  · intro hfind
    have hhandles := List.find?_some hfind
    rw [Analyzer.handles_iff, htwice] at hhandles
    exact ⟨List.mem_of_find?_eq_some hfind, hhandles⟩
  · rintro ⟨hmem, hform⟩
    have hhandles : a.handles (Extension.normalize x) = true := by
      rw [Analyzer.handles_iff, htwice]
      exact hform
    cases hfind : c.analyzerForExtension? (Extension.normalize x) with
    | none => exact absurd hhandles (List.find?_eq_none.mp hfind a hmem)
    | some b =>
      have hb := List.find?_some hfind
      rw [Analyzer.handles_iff, htwice] at hb
      rw [eq_of_mem_forms h hmem (List.mem_of_find?_eq_some hfind) hform hb]

/-- Nothing but the extensions of its analyzers decides where a configuration routes a file. -/
theorem analyzerFor?_map (f : Analyzer → Analyzer) (hf : ∀ a, (f a).extensions = a.extensions)
    (c : Config) (p : Path) :
    analyzerFor? { c with analyzers := c.analyzers.map f } p = (c.analyzerFor? p).map f := by
  have hhandles : ∀ extension, (fun a : Analyzer => a.handles extension) ∘ f =
      fun a => a.handles extension := by
    intro extension
    funext a
    simp only [Function.comp_apply, Analyzer.handles, hf]
  simp only [analyzerFor?, analyzerForExtension?, List.find?_map, hhandles, Option.bind_eq_bind,
    Option.map_bind, Function.comp_def]

/-- A valid configuration routes without doubt and in any order. A file goes to an analyzer if and
only if its extension is text and one of the analyzer's has the same form; one place in the list at
most has it; and a list in another order is valid and routes every file alike. -/
theorem routing_unambiguous {c : Config} (h : c.validate = .ok ()) :
    (∀ p a, c.analyzerFor? p = some a ↔
      ∃ x, p.extension? = some (Bytes.ofString x) ∧ a ∈ c.analyzers ∧
        ∃ e ∈ a.extensions, Extension.normalize e = Extension.normalize x) ∧
    (∀ (x : String) (i j : Nat) (a b : Analyzer),
      c.analyzers[i]? = some a → c.analyzers[j]? = some b →
      (∃ e ∈ a.extensions, Extension.normalize e = Extension.normalize x) →
      (∃ e ∈ b.extensions, Extension.normalize e = Extension.normalize x) → i = j) ∧
    ∀ c' : Config, c'.analyzers.Perm c.analyzers →
      c'.validate = .ok () ∧ ∀ p, c'.analyzerFor? p = c.analyzerFor? p := by
  refine ⟨?_, ?_, ?_⟩
  · intro p a
    simp only [analyzerFor?_eq_some_iff h, Analyzer.mem_forms]
  · intro x i j a b hi hj ha hb
    exact index_unique_of_validate h hi hj (Analyzer.mem_forms.mpr ha) (Analyzer.mem_forms.mpr hb)
  · intro c' hperm
    have h' := validate_of_perm h hperm
    refine ⟨h', fun p => Option.ext fun a => ?_⟩
    simp only [analyzerFor?_eq_some_iff h, analyzerFor?_eq_some_iff h', hperm.mem_iff]

def greek : Analyzer where
  name := "greek"
  extensions := [" .Οδος "]
  command := "greek"

/-- A file whose extension ends in a capital sigma goes to the same analyzer in either order. -/
theorem routing_unambiguous_sigma :
    validate ⟨[Analyzer.csharp, greek], none⟩ = .ok () ∧
      analyzerFor? ⟨[Analyzer.csharp, greek], none⟩ (Path.ofString "a.ΟΔΟΣ") = some greek ∧
      analyzerFor? ⟨[greek, Analyzer.csharp], none⟩ (Path.ofString "a.ΟΔΟΣ") = some greek := by
  have hvalid : validate ⟨[Analyzer.csharp, greek], none⟩ = .ok () := by decide +kernel
  have hextension : (Path.ofString "a.ΟΔΟΣ").extension? = some (Bytes.ofString "ΟΔΟΣ") := by
    decide +kernel
  have hform : Extension.normalize " .Οδος " = Extension.normalize "ΟΔΟΣ" := by decide +kernel
  obtain ⟨hroute, -, horder⟩ := routing_unambiguous hvalid
  have hgreek := (hroute (Path.ofString "a.ΟΔΟΣ") greek).mpr
    ⟨"ΟΔΟΣ", hextension, by simp, " .Οδος ", by simp [greek], hform⟩
  obtain ⟨-, hsame⟩ := horder ⟨[greek, Analyzer.csharp], none⟩ (List.Perm.swap _ _ [])
  exact ⟨hvalid, hgreek, (hsame _).trans hgreek⟩

end Config
end LintRelay
