import LintRelay.Proofs.Matching
/-! Extensions whose form is final. The blanks around an extension are trimmed before the dots in
front of it are dropped. So a blank right behind the dots stays in the form, and goes in the form of
the form; for every other text the form is its own form. Files are routed by the form of a form, and
the extension of a path has no dots. -/
namespace LintRelay
namespace Text

def blankPoints : List Nat := [
  9, 10, 11, 12, 13, 0x20, 0x85, 0xA0, 0x1680, 0x2000, 0x2001, 0x2002, 0x2003, 0x2004, 0x2005,
  0x2006, 0x2007, 0x2008, 0x2009, 0x200A, 0x2028, 0x2029, 0x202F, 0x205F, 0x3000]

theorem mem_blankPoints_of_isBlank {c : Char} (h : isBlank c = true) :
    c.toNat ∈ blankPoints := by
  simp only [isBlank, Bool.or_eq_true, Bool.and_eq_true, decide_eq_true_eq, beq_iff_eq] at h
  simp only [blankPoints, List.mem_cons, List.not_mem_nil, or_false]
  omega

theorem blankPoints_settled : (blankPoints.all fun n =>
    lowerChar (Char.ofNat n) == Char.ofNat n && Char.ofNat n != 'İ') = true := by
  decide +kernel

theorem settled_of_isBlank {c : Char} (h : isBlank c = true) : Settled c := by
  have hsettled := List.all_eq_true.mp blankPoints_settled _ (mem_blankPoints_of_isBlank h)
  rw [Char.ofNat_toNat, Bool.and_eq_true, beq_iff_eq, bne_iff_ne] at hsettled
  exact ⟨hsettled.1, hsettled.2⟩

/-- Lower case neither brings a blank to the front of a text nor takes it away. -/
theorem head_lowercaseChars_isBlank (cs : List Char) :
    (lowercaseChars cs).head?.any isBlank = cs.head?.any isBlank := by
  rw [lowercaseChars_eq]
  cases cs with
  | nil => rfl
  | cons c cs =>
    obtain ⟨d, ds, hpiece⟩ := List.exists_cons_of_ne_nil (lowerPiece_ne_nil [] c cs)
    have hd : d ∈ lowerPiece [] c cs := by
      rw [hpiece]
      exact List.mem_cons_self
    rw [lowerPieces, hpiece]
    change isBlank d = isBlank c
    cases hc : isBlank c with
    | false => exact (of_mem_lowerPiece hd).2.1 hc
    | true =>
      have hsettled := settled_of_isBlank hc
      have hsame : lowerPiece [] c cs = [c] := by
        simp [lowerPiece, hsettled.ne_sigma, hsettled.ne_dotted, hsettled.lower]
      rw [hsame, List.mem_singleton] at hd
      rw [hd, hc]

theorem trim_dots_append_cons (n : Nat) (front : List Char) {c : Char} (hc : isBlank c = false)
    (rest : List Char) :
    trim (List.replicate (n + 1) '.' ++ (front ++ c :: rest)) =
      List.replicate (n + 1) '.' ++ (front ++ c :: trimEnd rest) := by
  have hstart : trimStart (List.replicate (n + 1) '.' ++ front) =
      List.replicate (n + 1) '.' ++ front := List.dropWhile_cons_of_neg (by decide)
  rw [← List.append_assoc, trim_append_cons hc, hstart, List.append_assoc]

end Text

namespace Extension

/-- Texts with dots in front that hide a blank: it stands right behind them, and more than blanks
follows. -/
def HidesBlank (e : String) : Prop :=
  ∃ w n x, e = w ++ (String.ofList (List.replicate (n + 1) '.') ++ x) ∧ Text.allBlank w = true ∧
    x.toList.head?.any Text.isBlank = true ∧ Text.allBlank x = false

/-- A text without the blanks around it and the dots in front. -/
def bare (e : String) : List Char := (Text.trim e.toList).dropWhile fun c => c == '.'

theorem toList_normalize (e : String) : (normalize e).toList = Text.lowercaseChars (bare e) :=
  String.toList_ofList

theorem exists_dots_append_bare (e : String) :
    ∃ n, Text.trim e.toList = List.replicate n '.' ++ bare e := by
  have hdots : ∀ c ∈ (Text.trim e.toList).takeWhile fun c => c == '.', c = '.' := by
    intro c hc
    simpa using List.all_eq_true.mp List.all_takeWhile c hc
  refine ⟨((Text.trim e.toList).takeWhile fun c => c == '.').length, ?_⟩
  rw [← List.eq_replicate_of_mem hdots, bare, List.takeWhile_append_dropWhile]

/-- A hidden blank comes to the front when the dots go: the dots keep it from being trimmed on one
side, and what follows it on the other. -/
theorem HidesBlank.head_bare {e : String} (h : HidesBlank e) :
    (bare e).head?.any Text.isBlank = true := by
  obtain ⟨w, n, x, rfl, hw, hblank, hx⟩ := h
  rw [Text.allBlank] at hx
  cases hchars : x.toList with
  | nil => simp [hchars] at hblank
  | cons b cs =>
    have hb : Text.isBlank b = true := by simpa [hchars] using hblank
    obtain ⟨c, hmem, hc⟩ : ∃ c ∈ cs, Text.isBlank c = false := by
      simpa [hchars, hb] using hx
    obtain ⟨front, rest, rfl⟩ := List.append_of_mem hmem
    have htrim : Text.trim (w ++ (String.ofList (List.replicate (n + 1) '.') ++ x)).toList =
        List.replicate (n + 1) '.' ++ (b :: front ++ c :: Text.trimEnd rest) := by
      have hnone : ([] : List Char).all Text.isBlank = true := rfl
      have haround := Text.trim_around hw hnone (List.replicate (n + 1) '.' ++ x.toList)
      rw [List.append_nil, hchars] at haround
      rw [String.toList_append, String.toList_append, String.toList_ofList, hchars, haround]
      exact Text.trim_dots_append_cons n (b :: front) hc rest
    have hdot : b ≠ '.' := by
      rintro rfl
      exact absurd hb (by decide)
    rw [bare, htrim, dropWhile_dots_append]
    simpa [hdot] using hb

theorem hidesBlank_of_head_bare {e : String} (h : (bare e).head?.any Text.isBlank = true) :
    HidesBlank e := by
  obtain ⟨n, hdots⟩ := exists_dots_append_bare e
  obtain ⟨w', hend⟩ := Text.exists_trimEnd_append (Text.trimStart e.toList)
  have htrimmed := Text.trimmed_trim e.toList
  cases hbare : bare e with
  | nil => simp [hbare] at h
  | cons b rest =>
    have hb : Text.isBlank b = true := by simpa [hbare] using h
    rw [hbare] at hdots
    cases n with
    | zero =>
      have hfirst := htrimmed.first b (by rw [hdots]; rfl)
      rw [hb] at hfirst
      contradiction
    | succ n =>
      have hchars : e.toList =
          e.toList.takeWhile Text.isBlank ++ (List.replicate (n + 1) '.' ++ (b :: rest ++ w')) := by
        rw [← List.append_assoc (List.replicate _ _), ← hdots, Text.trim, ← hend, Text.trimStart,
          List.takeWhile_append_dropWhile]
      refine ⟨String.ofList (e.toList.takeWhile Text.isBlank), n, String.ofList (b :: rest ++ w'),
        ?_, ?_, ?_, ?_⟩
      · rw [String.ext_iff]
        simpa using hchars
      · rw [Text.allBlank, String.toList_ofList]
        exact List.all_takeWhile
      · simpa using hb
      · -- The last character of what was trimmed is no blank.
        have hlast : (Text.trim e.toList).getLast? =
            some ((b :: rest).getLast (List.cons_ne_nil b rest)) := by
          rw [hdots, List.getLast?_append, List.getLast?_eq_some_getLast (List.cons_ne_nil b rest)]
          rfl
        rw [Text.allBlank, String.toList_ofList, List.all_eq_false]
        refine ⟨_, List.mem_append_left w' (List.getLast_mem (List.cons_ne_nil b rest)), ?_⟩
        simp [htrimmed.last _ hlast]

theorem hidesBlank_iff {e : String} :
    HidesBlank e ↔ (bare e).head?.any Text.isBlank = true :=
  ⟨HidesBlank.head_bare, hidesBlank_of_head_bare⟩

instance decidableHidesBlank (e : String) : Decidable (HidesBlank e) :=
  decidable_of_iff _ hidesBlank_iff.symm

theorem normalize_of_ofPath? {p : Path} {x : String} (h : ofPath? p = some x) :
    normalize x = x := by
  obtain ⟨y, hy, rfl⟩ := Option.map_eq_some_iff.mp h
  exact normalize_normalize (dot_not_mem_of_extension? (written?_eq_some_iff.mp hy))

/-- A form is its own form exactly if the dots in front of the extension hide no blank. So is a form
that a path has. Routing takes the form of that form, and thus asks an analyzer exactly whether the
form is among those of its own extensions. -/
theorem normalize_idempotent_iff (e : String) :
    (normalize (normalize e) = normalize e ↔ ¬ HidesBlank e) ∧
      ∀ p, ofPath? p = some (normalize e) →
        normalize (normalize e) = normalize e ∧
          ∀ a : Analyzer, a.handles (normalize e) = true ↔ normalize e ∈ a.forms := by
  constructor
  · rw [normalize_normalize_iff, toList_normalize, Text.head_lowercaseChars_isBlank,
      hidesBlank_iff, Bool.not_eq_true]
  · intro p hp
    have hform := normalize_of_ofPath? hp
    refine ⟨hform, fun a => ?_⟩
    rw [Analyzer.handles_iff, hform]

/-- Dots and blanks further inside an extension do no harm, nor does a letter whose lower case is
two characters; and a blank right behind the last dot of a path is trimmed. -/
theorem normalize_idempotent_iff_inside :
    ¬ HidesBlank " ..İ. x " ∧
      normalize (normalize " ..İ. x ") = normalize " ..İ. x " ∧
      normalize " ..İ. x " = "i\u0307. x" ∧
      ofPath? (.ofString "lib/a. CS") = some (normalize ".cs") ∧
      normalize (normalize ".cs") = normalize ".cs" := by
  have hshown : ¬ HidesBlank " ..İ. x " := by decide
  have hpath : ofPath? (.ofString "lib/a. CS") = some (normalize ".cs") := by decide +kernel
  exact ⟨hshown, (normalize_idempotent_iff " ..İ. x ").1.mpr hshown, by decide +kernel, hpath,
    ((normalize_idempotent_iff ".cs").2 _ hpath).1⟩

def spaced : Analyzer where
  name := "spaced"
  extensions := [". cs"]
  command := "spaced"

/-- The form of an extension with a blank behind its dot has another form, and an analyzer for the
extension does not handle the form. -/
theorem normalize_not_idempotent :
    HidesBlank ". cs" ∧ normalize ". cs" = " cs" ∧ normalize " cs" = "cs" ∧
      normalize (normalize ". cs") ≠ normalize ". cs" ∧
      spaced.handles ". cs" = true ∧ spaced.handles (normalize ". cs") = false := by
  decide +kernel

end Extension
end LintRelay
