import LintRelay.Proofs.Path
import LintRelay.Proofs.Routing
/-! Which extensions of a configuration can be met by a file. Validation asks only that the form of an
extension is not empty. The extension of a path has no dot, no slash and, in its form, no blank in
front; an extension with such a form is met, and one with any other form is met by no file. -/
namespace LintRelay

namespace Path

theorem fileName?_of_isName {name : Bytes} (h : IsName name) : fileName? ⟨name⟩ = some name := by
  have hhead : head ⟨name⟩ = [] := by
    cases name with
    | nil => rfl
    | cons b rest =>
      have hb : b ≠ slash := by
        rintro rfl
        exact h.slash List.mem_cons_self
      have hdot : ¬ (b == dot && (rest.isEmpty || rest.head? == some slash)) = true := by
        intro hdot
        simp only [Bool.and_eq_true, Bool.or_eq_true, List.isEmpty_iff, beq_iff_eq] at hdot
        obtain ⟨rfl, rfl | hrest⟩ := hdot
        · exact absurd h.idle (by decide)
        · exact h.slash (List.mem_cons_of_mem _ (List.mem_of_head? hrest))
      simp [head, hb, hdot]
  have hbody : body ⟨name⟩ = [name] := by
    rw [body, hhead]
    exact pieces_of_slash_not_mem h.slash
  simp [fileName?, hbody, dropIdleEnd, h.idle, h.parent]

theorem extension?_of_fileName? {p : Path} {stem x : Bytes}
    (h : p.fileName? = some (stem ++ dot :: x)) (hstem : stem ≠ []) (hdot : dot ∉ x) :
    p.extension? = some x := by
  have hafter : ((stem ++ dot :: x).reverse.takeWhile (· != dot)).reverse = x := by
    have hx : ∀ b ∈ x.reverse, (b != dot) = true := by
      intro b hb
      rw [bne_iff_ne]
      rintro rfl
      exact hdot (List.mem_reverse.mp hb)
    rw [List.reverse_append, List.reverse_cons, List.append_assoc, List.takeWhile_append_of_pos hx]
    simp
  have hbefore : (stem ++ dot :: x).take ((stem ++ dot :: x).length - x.length - 1) = stem := by
    have hlength : (stem ++ dot :: x).length - x.length - 1 = stem.length := by
      simp only [List.length_append, List.length_cons]
      omega
    rw [hlength, List.take_left]
  have hlt : x.length ≠ (stem ++ dot :: x).length := by
    simp only [List.length_append, List.length_cons]
    omega
  have hkeep : (x.length == (stem ++ dot :: x).length || stem.isEmpty) = false := by
    rw [Bool.or_eq_false_iff, beq_eq_false_iff_ne, List.isEmpty_eq_false_iff]
    exact ⟨hlt, hstem⟩
  simp only [extension?, h, Option.bind_eq_bind, Option.bind_some, hafter, hbefore, hkeep]
  rfl

theorem slash_not_mem_of_extension? {p : Path} {x : Bytes} (h : p.extension? = some x) :
    slash ∉ x := by
  obtain ⟨-, name, hname, hend⟩ := of_extension? h
  have hpiece : name ∈ p.body := by
    rw [fileName?] at hname
    split at hname
    · cases hname
    · next last hlast =>
      split at hname
      · cases hname
      · obtain rfl := Option.some.inj hname
        exact (dropIdleEnd_isPrefix p.body).subset (List.mem_of_getLast? hlast)
  exact fun hmem => slash_not_mem_of_mem_body hpiece (hend.subset hmem)

end Path

namespace Extension

/-- The forms of the extensions of paths. -/
structure Attainable (form : String) : Prop where
  dot : '.' ∉ form.toList
  slash : '/' ∉ form.toList
  blank : form.toList.head?.any Text.isBlank = false

instance decidableAttainable (form : String) : Decidable (Attainable form) :=
  decidable_of_iff
    ('.' ∉ form.toList ∧ '/' ∉ form.toList ∧ form.toList.head?.any Text.isBlank = false)
    ⟨fun h => ⟨h.1, h.2.1, h.2.2⟩, fun h => ⟨h.dot, h.slash, h.blank⟩⟩

theorem attainable_of_extension? {p : Path} {x : String}
    (h : p.extension? = some (Bytes.ofString x)) : Attainable (normalize x) := by
  have hdot := dot_not_mem_of_extension? h
  have hslash : '/' ∉ x.toList := fun hmem =>
    Path.slash_not_mem_of_extension? h ((Utf8.mem_encode_iff (by decide)).mpr hmem)
  have hmem : ∀ {d : Char}, d.toNat < 0x61 → d ∈ (normalize x).toList → d ∈ x.toList := by
    intro d hd hform
    rw [normalize_of_dot_not_mem hdot, String.toList_ofList] at hform
    exact Text.mem_of_mem_trim (Text.mem_of_mem_lowercaseChars hd hform)
  exact ⟨fun h => hdot (hmem (by decide) h), fun h => hslash (hmem (by decide) h),
    head_normalize_of_dot_not_mem hdot⟩

/-- A file with an attainable form as its extension. -/
def specimen (form : String) : Path := .ofString ("a." ++ form)

theorem extension?_specimen {form : String} (h : Attainable form) :
    (specimen form).extension? = some (Bytes.ofString form) := by
  have hbytes : Bytes.ofString ("a." ++ form) = [97] ++ Path.dot :: Bytes.ofString form := by
    simp only [Bytes.ofString, String.toList_append, Utf8.encode_append]
    rfl
  have hdot : Path.dot ∉ Bytes.ofString form := fun hmem =>
    h.dot ((Utf8.mem_encode_iff (d := '.') (by decide)).mp hmem)
  have hslash : Path.slash ∉ Bytes.ofString form := fun hmem =>
    h.slash ((Utf8.mem_encode_iff (d := '/') (by decide)).mp hmem)
  have hname : Path.IsName ([97] ++ Path.dot :: Bytes.ofString form) := by
    refine ⟨?_, rfl, rfl⟩
    simp only [List.singleton_append, List.mem_cons, not_or]
    exact ⟨by decide, by decide, hslash⟩
  rw [specimen, Path.ofString, hbytes]
  exact Path.extension?_of_fileName? (Path.fileName?_of_isName hname) (by simp) hdot

/-- An attainable form is its own form. -/
theorem normalize_of_attainable {e : String} (h : Attainable (normalize e)) :
    normalize (normalize e) = normalize e :=
  normalize_normalize_iff.mpr h.blank

end Extension

namespace Config

/-- Some file goes to an analyzer for one of its extensions if and only if the form of the extension
is attainable. That the configuration is valid does not ensure this. -/
theorem routed_iff_attainable {c : Config} (h : c.validate = .ok ()) {a : Analyzer}
    (ha : a ∈ c.analyzers) {e : String} (he : e ∈ a.extensions) :
    (∃ p x, c.analyzerFor? p = some a ∧ p.extension? = some (Bytes.ofString x) ∧
        Extension.normalize x = Extension.normalize e) ↔
      Extension.Attainable (Extension.normalize e) := by
  constructor
  · rintro ⟨p, x, -, hx, hform⟩
    rw [← hform]
    exact Extension.attainable_of_extension? hx
  · intro hattainable
    have hextension := Extension.extension?_specimen hattainable
    have hform := Extension.normalize_of_attainable hattainable
    refine ⟨_, _, (analyzerFor?_eq_some_iff h).mpr ⟨_, hextension, ha, ?_⟩, hextension, hform⟩
    rw [hform]
    exact Analyzer.mem_forms.mpr ⟨e, he, rfl⟩

/-- An analyzer with an extension that files have and one that they do not have. -/
def archives : Analyzer where
  name := "archives"
  extensions := [" .7Z", "tar.gz"]
  command := "unpack"

theorem routed_iff_attainable_archives :
    validate ⟨[archives], none⟩ = .ok () ∧ archives ∈ [archives] ∧ " .7Z" ∈ archives.extensions ∧
      ∃ p x, analyzerFor? ⟨[archives], none⟩ p = some archives ∧
        p.extension? = some (Bytes.ofString x) ∧
        Extension.normalize x = Extension.normalize " .7Z" := by
  have hvalid : validate ⟨[archives], none⟩ = .ok () := by decide +kernel
  have hmem : archives ∈ [archives] := List.mem_singleton_self archives
  have hlisted : " .7Z" ∈ archives.extensions := List.mem_cons_self
  exact ⟨hvalid, hmem, hlisted,
    (routed_iff_attainable hvalid hmem hlisted).mpr (by decide +kernel)⟩

/-- An analyzer whose only extension has a dot in it. -/
def tarballs : Analyzer where
  name := "archive"
  extensions := ["tar.gz"]
  command := "unpack"

/-- Validation accepts an analyzer to which no file goes. -/
theorem no_file_for_tarballs :
    validate ⟨[tarballs], none⟩ = .ok () ∧ ∀ p, analyzerFor? ⟨[tarballs], none⟩ p = none := by
  have hvalid : validate ⟨[tarballs], none⟩ = .ok () := by decide +kernel
  refine ⟨hvalid, fun p => Option.eq_none_iff_forall_ne_some.mpr fun a ha => ?_⟩
  obtain ⟨x, hx, hmem, hform⟩ := (analyzerFor?_eq_some_iff hvalid).mp ha
  obtain rfl := List.mem_singleton.mp hmem
  have hforms : tarballs.forms = ["tar.gz"] := by decide +kernel
  rw [hforms, List.mem_singleton] at hform
  have hattainable := Extension.attainable_of_extension? hx
  rw [hform] at hattainable
  exact absurd hattainable.dot (by decide)

end Config
end LintRelay
