import LintRelay.Proofs.Routing
/-! Spellings of an extension. The form in which extensions are compared is the same for texts that
differ in the case of ASCII letters, since no pass that leads to it tells such letters apart; and it
is the same with blanks around a text and dots in front of it. -/
namespace LintRelay
namespace Text

/-! ### The case of ASCII letters -/

theorem toLower_of_not_ascii {c : Char} (h : 0x80 ≤ c.toNat) : c.toLower = c := by
  refine dif_neg ?_
  rintro ⟨-, hz⟩
  have hlast : c.toNat ≤ 'Z'.toNat := hz
  exact absurd (Nat.le_trans h hlast) (by decide)

/-- What does not tell apart the cases of a letter in ASCII does not do so anywhere. -/
theorem apply_toLower {β : Type} {f : Char → β}
    (h : ∀ n < 0x80, f (Char.ofNat n).toLower = f (Char.ofNat n)) (c : Char) :
    f c.toLower = f c := by
  rcases Nat.lt_or_ge c.toNat 0x80 with hascii | habove
  · have hc := h c.toNat hascii
    rwa [Char.ofNat_toNat] at hc
  · rw [toLower_of_not_ascii habove]

theorem isBlank_toLower (c : Char) : isBlank c.toLower = isBlank c := apply_toLower (by decide) c

theorem isCased_toLower (c : Char) : isCased c.toLower = isCased c := apply_toLower (by decide) c

theorem isCaseIgnorable_toLower (c : Char) : isCaseIgnorable c.toLower = isCaseIgnorable c :=
  apply_toLower (by decide) c

theorem dropWhile_map_toLower {p : Char → Bool} (hp : ∀ c, p c.toLower = p c) (cs : List Char) :
    (cs.map Char.toLower).dropWhile p = (cs.dropWhile p).map Char.toLower := by
  rw [List.dropWhile_map]
  congr 2
  exact funext hp

theorem trim_map_toLower (cs : List Char) :
    trim (cs.map Char.toLower) = (trim cs).map Char.toLower := by
  simp only [trim, trimStart, trimEnd, dropWhile_map_toLower isBlank_toLower, ← List.map_reverse]

theorem casedAhead_map_toLower (cs : List Char) :
    casedAhead (cs.map Char.toLower) = casedAhead cs := by
  rw [casedAhead, casedAhead, dropWhile_map_toLower isCaseIgnorable_toLower]
  cases cs.dropWhile isCaseIgnorable with
  | nil => rfl
  | cons c cs => exact isCased_toLower c

theorem lowerPiece_toLower (before : List Char) (c : Char) (after : List Char) :
    lowerPiece (before.map Char.toLower) c.toLower (after.map Char.toLower) =
      lowerPiece before c after := by
  have hsigma : (c.toLower == 'Σ') = (c == 'Σ') := apply_toLower (f := (· == 'Σ')) (by decide) c
  have hdotted : (c.toLower == 'İ') = (c == 'İ') := apply_toLower (f := (· == 'İ')) (by decide) c
  have hlower : lowerChar c.toLower = lowerChar c := apply_toLower (by decide) c
  simp only [lowerPiece, lowerSigma, casedAhead_map_toLower, hsigma, hdotted, hlower]

theorem lowerPieces_map_toLower (before cs : List Char) :
    lowerPieces (before.map Char.toLower) (cs.map Char.toLower) = lowerPieces before cs := by
  induction cs generalizing before with
  | nil => rfl
  | cons c cs ih =>
    rw [List.map_cons, lowerPieces, lowerPiece_toLower, ← List.map_cons, ih, lowerPieces]

theorem lowercaseChars_map_toLower (cs : List Char) :
    lowercaseChars (cs.map Char.toLower) = lowercaseChars cs := by
  rw [lowercaseChars_eq, lowercaseChars_eq]
  exact lowerPieces_map_toLower [] cs

/-! ### Blanks around a text -/

theorem trimStart_append_of_blank {w : List Char} (hw : w.all isBlank = true) (cs : List Char) :
    trimStart (w ++ cs) = trimStart cs :=
  List.dropWhile_append_of_pos (List.all_eq_true.mp hw)

theorem trimEnd_append_of_blank (cs : List Char) {w : List Char} (hw : w.all isBlank = true) :
    trimEnd (cs ++ w) = trimEnd cs := by
  have hrev : w.reverse.all isBlank = true := by rwa [List.all_reverse]
  rw [trimEnd, List.reverse_append, ← trimStart, trimStart_append_of_blank hrev, trimStart, trimEnd]

theorem trimStart_of_blank {w : List Char} (hw : w.all isBlank = true) : trimStart w = [] := by
  have h := trimStart_append_of_blank hw []
  rwa [List.append_nil] at h

/-- Blanks around a text are trimmed with its own. -/
theorem trim_around {w w' : List Char} (hw : w.all isBlank = true) (hw' : w'.all isBlank = true)
    (cs : List Char) : trim (w ++ (cs ++ w')) = trim cs := by
  rw [trim, trimStart_append_of_blank hw, trim, trimStart, List.dropWhile_append]
  split
  · next hempty =>
    rw [trimStart, List.isEmpty_iff.mp hempty, ← trimStart, trimStart_of_blank hw']
  · rw [← trimStart, trimEnd_append_of_blank _ hw']

theorem trim_dots_append (n : Nat) {cs : List Char}
    (hcs : ∀ c, cs.head? = some c → isBlank c = false) :
    trim (List.replicate n '.' ++ cs) = List.replicate n '.' ++ trim cs := by
  have hdots : Trimmed (List.replicate n '.') := by
    have hdot : ∀ c ∈ List.replicate n '.', isBlank c = false := by
      intro c hc
      rw [List.eq_of_mem_replicate hc]
      decide
    exact ⟨fun c hc => hdot c (List.mem_of_head? hc), fun c hc => hdot c (List.mem_of_getLast? hc)⟩
  cases cs with
  | nil => rw [List.append_nil, hdots.trim_eq, trim_nil, List.append_nil]
  | cons c cs =>
    have hc := hcs c rfl
    have hbare := trim_append_cons hc [] cs
    rw [trim_append_cons hc, trimStart, dropWhile_isBlank_of_first hdots.first]
    rw [List.nil_append] at hbare
    rw [hbare]
    rfl

end Text

namespace Extension

/-- Two spellings of an extension: the case of ASCII letters differs, or there are dots in front and
blanks around. -/
inductive Respelled : String → String → Prop
  | letters {x y : String} (h : x.toList.map Char.toLower = y.toList.map Char.toLower) :
    Respelled x y
  | around {x : String} (hx : ∀ c, x.toList.head? = some c → Text.isBlank c = false) {w w' : String}
    (hw : Text.allBlank w = true) (hw' : Text.allBlank w' = true) (n : Nat) :
    Respelled x (w ++ (String.ofList (List.replicate n '.') ++ (x ++ w')))

theorem normalize_letters {x y : String}
    (h : x.toList.map Char.toLower = y.toList.map Char.toLower) : normalize x = normalize y := by
  have hdot : ∀ c : Char, (c.toLower == '.') = (c == '.') :=
    Text.apply_toLower (f := (· == '.')) (by decide)
  have hforget : ∀ s : String, normalize s = String.ofList (Text.lowercaseChars
      ((Text.trim (s.toList.map Char.toLower)).dropWhile fun c => c == '.')) := by
    intro s
    rw [Text.trim_map_toLower, Text.dropWhile_map_toLower hdot, Text.lowercaseChars_map_toLower,
      normalize]
  rw [hforget x, h, ← hforget y]

theorem dropWhile_dots_append (n : Nat) (cs : List Char) :
    ((List.replicate n '.' ++ cs).dropWhile fun c => c == '.') =
      cs.dropWhile fun c => c == '.' := by
  apply List.dropWhile_append_of_pos
  intro c hc
  simpa using List.eq_of_mem_replicate hc

theorem normalize_around {x : String} (hx : ∀ c, x.toList.head? = some c → Text.isBlank c = false)
    {w w' : String} (hw : Text.allBlank w = true) (hw' : Text.allBlank w' = true) (n : Nat) :
    normalize (w ++ (String.ofList (List.replicate n '.') ++ (x ++ w'))) = normalize x := by
  have htrim : Text.trim (w ++ (String.ofList (List.replicate n '.') ++ (x ++ w'))).toList =
      List.replicate n '.' ++ Text.trim x.toList := by
    rw [String.toList_append, String.toList_append, String.toList_append, String.toList_ofList,
      ← List.append_assoc (List.replicate n '.'), Text.trim_around hw hw',
      Text.trim_dots_append n hx]
  rw [normalize, htrim, dropWhile_dots_append, normalize]

theorem Respelled.normalize_eq {x y : String} (h : Respelled x y) : normalize y = normalize x := by
  cases h with
  | letters h => exact (normalize_letters h).symm
  | around hx hw hw' n => exact normalize_around hx hw hw' n

end Extension

open Extension in
/-- An analyzer handles every spelling of an extension alike, whether it is the extension asked for
or one of its own that is respelled; and so all spellings of its own extensions. -/
theorem Analyzer.handles_respelled {x y : String} (h : Respelled x y) (a : Analyzer) :
    a.handles y = a.handles x ∧
    (∀ before after extension, a.extensions = before ++ x :: after →
      { a with extensions := before ++ y :: after }.handles extension = a.handles extension) ∧
    (x ∈ a.extensions → a.handles y = true) := by
  have hquery : a.handles y = a.handles x := by
    rw [Bool.eq_iff_iff, handles_iff, handles_iff, h.normalize_eq]
  refine ⟨hquery, ?_, ?_⟩
  · intro before after extension hentry
    rw [Bool.eq_iff_iff, handles_iff, handles_iff, forms, forms, hentry, List.map_append,
      List.map_append, List.map_cons, List.map_cons, h.normalize_eq]
  · intro hmem
    rw [hquery, handles_iff]
    exact mem_forms.mpr ⟨x, hmem, rfl⟩

/-- An analyzer for an extension in which a capital sigma stands before a dot and a letter. -/
def Analyzer.compound : Analyzer where
  name := "compound"
  extensions := ["ΑΣ.x"]
  command := "compound"

open Extension in
theorem Analyzer.handles_respelled_compound :
    Respelled "ΑΣ.x" "ΑΣ.X" ∧ Respelled "ΑΣ.x" "\u3000..ΑΣ.x\t" ∧
      compound.extensions = [] ++ "ΑΣ.x" :: [] ∧
      compound.handles "ΑΣ.X" = true ∧ compound.handles "\u3000..ΑΣ.x\t" = true ∧
      { compound with extensions := [] ++ "\u3000..ΑΣ.x\t" :: [] }.handles "ΑΣ.X" =
        compound.handles "ΑΣ.X" := by
  have hletters : Respelled "ΑΣ.x" "ΑΣ.X" := .letters (by decide)
  have hfront : Text.allBlank "\u3000" = true := by decide
  have hback : Text.allBlank "\t" = true := by decide
  have hfirst : ∀ c, "ΑΣ.x".toList.head? = some c → Text.isBlank c = false := by
    intro c hc
    obtain rfl : 'Α' = c := by simpa using hc
    decide
  have haround : Respelled "ΑΣ.x" "\u3000..ΑΣ.x\t" := .around hfirst hfront hback 2
  have hentry : compound.extensions = [] ++ "ΑΣ.x" :: [] := rfl
  have hmem : "ΑΣ.x" ∈ compound.extensions := List.mem_cons_self
  exact ⟨hletters, haround, hentry, (handles_respelled hletters compound).2.2 hmem,
    (handles_respelled haround compound).2.2 hmem,
    (handles_respelled haround compound).2.1 [] [] "ΑΣ.X" hentry⟩

end LintRelay
