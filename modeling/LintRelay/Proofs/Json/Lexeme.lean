import LintRelay.Proofs.Json.Grammar
import Mathlib.Tactic.Common
/-! The readers of blanks, words, numbers and strings against the grammar: each one takes exactly a
token of its kind from the front of the text. -/
namespace LintRelay.Json

theorem skipSpace_blanks {w : List Char} (hw : Blanks w) (cs : List Char) :
    skipSpace (w ++ cs) = skipSpace cs := by
  induction w with
  | nil => rfl
  | cons c w ih =>
    have hc : isSpace c = true := hw c (by simp)
    have hrest := ih fun d hd => hw d (by simp [hd])
    simpa [skipSpace, hc] using hrest

theorem skipSpace_cons_of_not {c : Char} (hc : isSpace c = false) (cs : List Char) :
    skipSpace (c :: cs) = c :: cs := by
  simp [skipSpace, hc]

/-- What is skipped are blanks. -/
theorem exists_blanks_skipSpace (cs : List Char) : ∃ w, Blanks w ∧ cs = w ++ skipSpace cs := by
  refine ⟨cs.takeWhile isSpace, ?_, (List.takeWhile_append_dropWhile).symm⟩
  intro c hc
  exact List.all_eq_true.mp List.all_takeWhile c hc

theorem Blanks.append {v w : List Char} (hv : Blanks v) (hw : Blanks w) : Blanks (v ++ w) := by
  intro c hc
  rcases List.mem_append.mp hc with h | h
  · exact hv c h
  · exact hw c h

@[simp] theorem readWord_append (word r : List Char) : readWord word (word ++ r) = .ok r := by
  induction word with
  | nil => rfl
  | cons w word ih => simp [readWord, ih]

theorem eq_append_of_readWord {word cs r : List Char} (h : readWord word cs = .ok r) :
    cs = word ++ r := by
  induction word generalizing cs with
  | nil => simpa [readWord] using h
  | cons w word ih =>
    cases cs with
    | nil => simp [readWord] at h
    | cons c cs =>
      simp only [readWord] at h
      split at h
      · next hc => rw [ih h, eq_of_beq hc]; rfl
      · simp at h

/-- A text that cannot go on a number that ends in front of it. -/
def EndsNumber (r : List Char) : Prop :=
  ∀ c ∈ r.head?, c.isDigit = false ∧ c ≠ '.' ∧ c ≠ 'e' ∧ c ≠ 'E'

theorem takeWhile_digits {ds r : List Char} (hds : ∀ d ∈ ds, d.isDigit = true)
    (hr : startsWithDigit r = false) : (ds ++ r).takeWhile Char.isDigit = ds := by
  rw [List.takeWhile_append_of_pos hds]
  cases r with
  | nil => simp
  | cons c r => simp [show c.isDigit = false from hr]

theorem dropWhile_digits {ds r : List Char} (hds : ∀ d ∈ ds, d.isDigit = true)
    (hr : startsWithDigit r = false) : (ds ++ r).dropWhile Char.isDigit = r := by
  rw [List.dropWhile_append_of_pos hds]
  cases r with
  | nil => simp
  | cons c r => simp [show c.isDigit = false from hr]

theorem startsWithDigit_digits {ds : List Char} (h : Digits ds) (r : List Char) :
    startsWithDigit (ds ++ r) = true := by
  obtain ⟨hne, hds⟩ := h
  cases ds with
  | nil => exact absurd rfl hne
  | cons d ds => exact hds d (by simp)

theorem digits_takeWhile {cs : List Char} (h : startsWithDigit cs = true) :
    Digits (cs.takeWhile Char.isDigit) := by
  refine ⟨?_, List.all_eq_true.mp List.all_takeWhile⟩
  cases cs with
  | nil => simp [startsWithDigit] at h
  | cons c cs => simp [show c.isDigit = true from h]

theorem readWhole_append {w r : List Char} (hw : WholeText w) (hr : startsWithDigit r = false) :
    readWhole (w ++ r) = .ok (w, r) := by
  cases hw with
  | zero => simp [readWhole, hr]
  | @digits d ds hd h0 hds =>
    have hrun : ∀ x ∈ d :: ds, x.isDigit = true := by
      intro x hx
      rcases List.mem_cons.mp hx with rfl | hx
      · exact hd
      · exact hds x hx
    have htake := takeWhile_digits hrun hr
    have hdrop := dropWhile_digits hrun hr
    rw [List.cons_append] at htake hdrop ⊢
    rw [readWhole.eq_2 _ (by simpa using h0)]
    simp [startsWithDigit, hd, htake, hdrop]

theorem readWhole_eq_ok {cs w r : List Char} (h : readWhole cs = .ok (w, r)) :
    cs = w ++ r ∧ WholeText w := by
  unfold readWhole at h
  split at h
  · next cs =>
    split at h
    · simp at h
    · obtain ⟨rfl, rfl⟩ : ['0'] = w ∧ cs = r := by simpa using h
      exact ⟨rfl, .zero⟩
  · next h0 =>
    split at h
    · next hd =>
      obtain ⟨rfl, rfl⟩ :
          cs.takeWhile Char.isDigit = w ∧ cs.dropWhile Char.isDigit = r := by simpa using h
      refine ⟨(List.takeWhile_append_dropWhile).symm, ?_⟩
      cases cs with
      | nil => simp [startsWithDigit] at hd
      | cons c cs =>
        have hc : c.isDigit = true := hd
        simp only [List.takeWhile_cons, hc, if_true]
        refine .digits hc ?_ (List.all_eq_true.mp List.all_takeWhile)
        rintro rfl
        exact h0 cs rfl
    · simp at h

def fractionText : Option (List Char) → List Char
  | none => []
  | some ds => '.' :: ds

theorem readFraction_append {t r : List Char} (ht : FractionText t)
    (hdot : r.head? ≠ some '.') (hr : startsWithDigit r = false) :
    ∃ f, readFraction (t ++ r) = .ok (f, r) ∧ fractionText f = t := by
  cases ht with
  | absent =>
    refine ⟨none, ?_, rfl⟩
    rw [List.nil_append, readFraction.eq_2]
    rintro cs rfl
    exact hdot rfl
  | @present ds hds =>
    refine ⟨some ds, ?_, rfl⟩
    have htake := takeWhile_digits hds.2 hr
    have hdrop := dropWhile_digits hds.2 hr
    simp [readFraction, startsWithDigit_digits hds, htake, hdrop]

theorem readFraction_eq_ok {cs r : List Char} {f : Option (List Char)}
    (h : readFraction cs = .ok (f, r)) : cs = fractionText f ++ r ∧ FractionText (fractionText f) := by
  unfold readFraction at h
  split at h
  · next cs =>
    split at h
    · next hd =>
      obtain ⟨rfl, rfl⟩ :
          some (cs.takeWhile Char.isDigit) = f ∧ cs.dropWhile Char.isDigit = r := by simpa using h
      exact ⟨by simp [fractionText], .present (digits_takeWhile hd)⟩
    · simp at h
  · obtain ⟨rfl, rfl⟩ : none = f ∧ cs = r := by simpa using h
    exact ⟨rfl, .absent⟩

/-- What is kept of an exponent. -/
def exponentKept : Option (Option Char × List Char) → List Char
  | none => []
  | some (sign, ds) => 'e' :: sign.getD '+' :: ds

theorem isDigit_ne_sign {d : Char} (hd : d.isDigit = true) : ¬ (d = '+' ∨ d = '-') := by
  rintro (rfl | rfl) <;> exact absurd hd (by decide)

theorem readExponent_append {t r : List Char} (ht : ExponentText t)
    (he : r.head? ≠ some 'e') (hE : r.head? ≠ some 'E') (hr : startsWithDigit r = false) :
    ∃ x, readExponent (t ++ r) = .ok (x, r) ∧ exponentKept x = keptToken t := by
  cases ht with
  | absent =>
    refine ⟨none, ?_, rfl⟩
    cases r with
    | nil => rfl
    | cons c r =>
      have h₁ : c ≠ 'e' := fun h => he (by simp [h])
      have h₂ : c ≠ 'E' := fun h => hE (by simp [h])
      simp [readExponent, h₁, h₂]
  | @unsigned e ds he hds =>
    refine ⟨some (none, ds), ?_, ?_⟩
    · have hmark : (e == 'e' || e == 'E') = true := by simpa using he
      have htake := takeWhile_digits hds.2 hr
      have hdrop := dropWhile_digits hds.2 hr
      have hstart := startsWithDigit_digits hds r
      obtain ⟨hne, hdig⟩ := hds
      cases ds with
      | nil => exact absurd rfl hne
      | cons d ds =>
        have hsign := isDigit_ne_sign (hdig d (by simp))
        push Not at hsign
        rw [List.cons_append] at htake hdrop hstart
        simp only [List.cons_append, readExponent, hmark, if_true]
        split <;> simp_all
    · obtain ⟨hne, hdig⟩ := hds
      cases ds with
      | nil => exact absurd rfl hne
      | cons d ds =>
        have hsign := isDigit_ne_sign (hdig d (by simp))
        simp [keptToken, he, hsign, exponentKept]
  | @signed e s ds he hs hds =>
    refine ⟨some (some s, ds), ?_, by simp [keptToken, he, hs, exponentKept]⟩
    have hmark : (e == 'e' || e == 'E') = true := by simpa using he
    have htake := takeWhile_digits hds.2 hr
    have hdrop := dropWhile_digits hds.2 hr
    have hstart := startsWithDigit_digits hds r
    rcases hs with rfl | rfl <;>
      simp [readExponent, hmark, hstart, htake, hdrop]

theorem exponentDigits_eq_ok {sign : Option Char} {cs r : List Char} {e : NumeralFault}
    {x : Option (Option Char × List Char)}
    (h : (if startsWithDigit cs = true then
        Except.ok (some (sign, cs.takeWhile Char.isDigit), cs.dropWhile Char.isDigit)
      else .error e) = .ok (x, r)) :
    ∃ ds, Digits ds ∧ cs = ds ++ r ∧ x = some (sign, ds) := by
  split at h
  · next hd =>
    obtain ⟨rfl, rfl⟩ :
        some (sign, cs.takeWhile Char.isDigit) = x ∧ cs.dropWhile Char.isDigit = r := by
      simpa using h
    exact ⟨_, digits_takeWhile hd, (List.takeWhile_append_dropWhile).symm, rfl⟩
  · simp at h

theorem readExponent_eq_ok {cs r : List Char} {x : Option (Option Char × List Char)}
    (h : readExponent cs = .ok (x, r)) :
    ∃ t, cs = t ++ r ∧ ExponentText t ∧ exponentKept x = keptToken t := by
  cases cs with
  | nil =>
    obtain ⟨rfl, rfl⟩ : none = x ∧ [] = r := by simpa [readExponent] using h
    exact ⟨[], rfl, .absent, rfl⟩
  | cons c cs =>
    by_cases hc : c = 'e' ∨ c = 'E'
    · have hmark : (c == 'e' || c == 'E') = true := by simpa using hc
      simp only [readExponent, hmark, if_true] at h
      split at h
      · obtain ⟨ds, hds, rfl, rfl⟩ := exponentDigits_eq_ok h
        exact ⟨c :: '+' :: ds, rfl, .signed hc (.inl rfl) hds, by simp [keptToken, hc, exponentKept]⟩
      · obtain ⟨ds, hds, rfl, rfl⟩ := exponentDigits_eq_ok h
        exact ⟨c :: '-' :: ds, rfl, .signed hc (.inr rfl) hds, by simp [keptToken, hc, exponentKept]⟩
      · obtain ⟨ds, hds, rfl, rfl⟩ := exponentDigits_eq_ok h
        refine ⟨c :: ds, rfl, .unsigned hc hds, ?_⟩
        obtain ⟨hne, hdig⟩ := hds
        cases ds with
        | nil => exact absurd rfl hne
        | cons d ds => simp [keptToken, hc, exponentKept, isDigit_ne_sign (hdig d (by simp))]
    · have hmark : (c == 'e' || c == 'E') = false := by simpa using hc
      obtain ⟨rfl, rfl⟩ : none = x ∧ c :: cs = r := by simpa [readExponent, hmark] using h
      exact ⟨[], rfl, .absent, rfl⟩

theorem keptToken_append {w : List Char} (hw : ∀ c ∈ w, c ≠ 'e' ∧ c ≠ 'E') (x : List Char) :
    keptToken (w ++ x) = w ++ keptToken x := by
  induction w with
  | nil => rfl
  | cons c w ih =>
    have hc := hw c (by simp)
    have hrest := ih fun d hd => hw d (by simp [hd])
    simp [keptToken, hc.1, hc.2, hrest]

theorem isDigit_ne_mark {d : Char} (hd : d.isDigit = true) : d ≠ 'e' ∧ d ≠ 'E' := by
  constructor <;> rintro rfl <;> exact absurd hd (by decide)

theorem WholeText.ne_mark {w : List Char} (hw : WholeText w) : ∀ c ∈ w, c ≠ 'e' ∧ c ≠ 'E' := by
  cases hw with
  | zero => simp
  | digits hd _ hds =>
    intro c hc
    rcases List.mem_cons.mp hc with rfl | hc
    · exact isDigit_ne_mark hd
    · exact isDigit_ne_mark (hds c hc)

theorem FractionText.ne_mark {f : List Char} (hf : FractionText f) :
    ∀ c ∈ f, c ≠ 'e' ∧ c ≠ 'E' := by
  cases hf with
  | absent => simp
  | present hds =>
    intro c hc
    rcases List.mem_cons.mp hc with rfl | hc
    · decide
    · exact isDigit_ne_mark (hds.2 c hc)

/-- In a number only the exponent is kept otherwise than it is written. -/
theorem keptToken_parts {w f : List Char} (hw : WholeText w) (hf : FractionText f)
    (x : List Char) : keptToken (w ++ (f ++ x)) = w ++ (f ++ keptToken x) := by
  rw [keptToken_append hw.ne_mark, keptToken_append hf.ne_mark]

theorem Numeral.text_eq (negative : Bool) (whole : List Char) (fraction : Option (List Char))
    (exponent : Option (Option Char × List Char)) :
    Numeral.text ⟨negative, whole, fraction, exponent⟩ =
      (if negative then ['-'] else []) ++
        (whole ++ (fractionText fraction ++ exponentKept exponent)) := by
  cases fraction <;> cases exponent <;> simp [Numeral.text, fractionText, exponentKept]

theorem EndsNumber.startsWithDigit {r : List Char} (hr : EndsNumber r) :
    startsWithDigit r = false := by
  cases r with
  | nil => rfl
  | cons c r => exact (hr c rfl).1

theorem EndsNumber.head_ne {r : List Char} (hr : EndsNumber r) :
    r.head? ≠ some '.' ∧ r.head? ≠ some 'e' ∧ r.head? ≠ some 'E' := by
  refine ⟨fun h => ?_, fun h => ?_, fun h => ?_⟩
  · exact (hr '.' h).2.1 rfl
  · exact (hr 'e' h).2.2.1 rfl
  · exact (hr 'E' h).2.2.2 rfl

theorem ExponentText.startsWithDigit_append {x r : List Char} (hx : ExponentText x)
    (hr : EndsNumber r) : startsWithDigit (x ++ r) = false := by
  cases hx with
  | absent => exact hr.startsWithDigit
  | unsigned he _ => rcases he with rfl | rfl <;> rfl
  | signed he _ _ => rcases he with rfl | rfl <;> rfl

theorem ExponentText.head_append_ne_dot {x r : List Char} (hx : ExponentText x)
    (hr : EndsNumber r) : (x ++ r).head? ≠ some '.' := by
  cases hx with
  | absent => exact hr.head_ne.1
  | unsigned he _ => rcases he with rfl | rfl <;> simp
  | signed he _ _ => rcases he with rfl | rfl <;> simp

theorem FractionText.startsWithDigit_append {f r : List Char} (hf : FractionText f)
    (hr : startsWithDigit r = false) : startsWithDigit (f ++ r) = false := by
  cases hf with
  | absent => exact hr
  | present _ => rfl

theorem readUnsigned_append (negative : Bool) {w f x r : List Char} (hw : WholeText w)
    (hf : FractionText f) (hx : ExponentText x) (hr : EndsNumber r) :
    ∃ n, readUnsigned negative (w ++ (f ++ (x ++ r))) = .ok (n, r) ∧
      n.text = (if negative then ['-'] else []) ++ keptToken (w ++ (f ++ x)) := by
  have hxr := hx.startsWithDigit_append hr
  have hwhole := readWhole_append hw (hf.startsWithDigit_append hxr)
  obtain ⟨fraction, hfraction, rfl⟩ := readFraction_append hf (hx.head_append_ne_dot hr) hxr
  obtain ⟨exponent, hexponent, hkept⟩ :=
    readExponent_append hx hr.head_ne.2.1 hr.head_ne.2.2 hr.startsWithDigit
  refine ⟨⟨negative, w, fraction, exponent⟩, ?_, ?_⟩
  · simp [readUnsigned, hwhole, hfraction, hexponent, bind, Except.bind, pure, Except.pure]
  · rw [Numeral.text_eq, keptToken_parts hw hf, hkept]

theorem readUnsigned_eq_ok {negative : Bool} {cs r : List Char} {n : Numeral}
    (h : readUnsigned negative cs = .ok (n, r)) :
    ∃ w f x, cs = w ++ (f ++ x) ++ r ∧ WholeText w ∧ FractionText f ∧ ExponentText x ∧
      n.text = (if negative then ['-'] else []) ++ keptToken (w ++ (f ++ x)) := by
  simp only [readUnsigned, bind, Except.bind] at h
  cases hwhole : readWhole cs with
  | error e => simp [hwhole] at h
  | ok p =>
    obtain ⟨w, cs₁⟩ := p
    obtain ⟨rfl, hw⟩ := readWhole_eq_ok hwhole
    simp only [hwhole] at h
    cases hfraction : readFraction cs₁ with
    | error e => simp [hfraction] at h
    | ok p =>
      obtain ⟨f, cs₂⟩ := p
      obtain ⟨rfl, hf⟩ := readFraction_eq_ok hfraction
      simp only [hfraction] at h
      cases hexponent : readExponent cs₂ with
      | error e => simp [hexponent] at h
      | ok p =>
        obtain ⟨x, cs₃⟩ := p
        obtain ⟨t, rfl, ht, hkept⟩ := readExponent_eq_ok hexponent
        obtain ⟨rfl, rfl⟩ : ⟨negative, w, f, x⟩ = n ∧ cs₃ = r := by
          simpa [hexponent, pure, Except.pure] using h
        refine ⟨w, fractionText f, t, by simp, hw, hf, ht, ?_⟩
        rw [Numeral.text_eq, keptToken_parts hw hf, hkept]

theorem WholeText.head_ne_minus {w : List Char} (hw : WholeText w) (r : List Char) :
    (w ++ r).head? ≠ some '-' := by
  cases hw with
  | zero => simp
  | digits hd _ _ =>
    intro h
    obtain rfl : _ = '-' := by simpa using h
    exact absurd hd (by decide)

/-- A number is read whole, and kept as `keptToken` says. -/
theorem readNumeral_append {token r : List Char} (ht : NumberText token) (hr : EndsNumber r) :
    ∃ n, readNumeral (token ++ r) = .ok (n, r) ∧ n.text = keptToken token := by
  cases ht with
  | positive hw hf hx =>
    obtain ⟨n, hread, htext⟩ := readUnsigned_append false hw hf hx hr
    refine ⟨n, ?_, by simpa using htext⟩
    simp only [List.append_assoc]
    rw [readNumeral.eq_2, hread]
    intro cs hcs
    exact hw.head_ne_minus _ (by rw [hcs]; rfl)
  | negative hw hf hx =>
    obtain ⟨n, hread, htext⟩ := readUnsigned_append true hw hf hx hr
    refine ⟨n, ?_, ?_⟩
    · simpa [readNumeral] using hread
    · simpa [keptToken] using htext

theorem readNumeral_eq_ok {cs r : List Char} {n : Numeral} (h : readNumeral cs = .ok (n, r)) :
    ∃ token, cs = token ++ r ∧ NumberText token ∧ n.text = keptToken token := by
  unfold readNumeral at h
  split at h
  · obtain ⟨w, f, x, rfl, hw, hf, hx, htext⟩ := readUnsigned_eq_ok h
    exact ⟨_, by simp, .negative hw hf hx, by simpa [keptToken] using htext⟩
  · obtain ⟨w, f, x, rfl, hw, hf, hx, htext⟩ := readUnsigned_eq_ok h
    exact ⟨_, rfl, .positive hw hf hx, by simpa using htext⟩

theorem NumberText.exists_cons {token : List Char} (ht : NumberText token) :
    ∃ c cs, token = c :: cs ∧ (c == '-' || c.isDigit) = true := by
  cases ht with
  | positive hw _ _ =>
    cases hw with
    | zero => exact ⟨'0', _, rfl, by decide⟩
    | digits hd _ _ => exact ⟨_, _, rfl, by simp [hd]⟩
  | negative _ _ _ => exact ⟨'-', _, rfl, by decide⟩

theorem wholeNumeral_eq_ok {text : List Char} {n : Numeral} (h : wholeNumeral text = .ok n) :
    NumberText text ∧ n.text = keptToken text := by
  unfold wholeNumeral at h
  split at h
  · simp at h
  · split at h
    · split at h
      · simp at h
      · next hread =>
        obtain rfl : _ = n := by simpa using h
        obtain ⟨token, htoken, ht, hkept⟩ := readNumeral_eq_ok hread
        rw [List.append_nil] at htoken
        subst htoken
        exact ⟨ht, hkept⟩
      · simp at h
    · simp at h

theorem wholeNumeral_of_numberText {text : List Char} (h : NumberText text) :
    ∃ n, wholeNumeral text = .ok n ∧ n.text = keptToken text := by
  obtain ⟨n, hread, hkept⟩ := readNumeral_append (r := []) h (by simp [EndsNumber])
  obtain ⟨c, cs, rfl, hc⟩ := h.exists_cons
  refine ⟨n, ?_, hkept⟩
  rw [List.append_nil] at hread
  simp only [wholeNumeral, hc, if_true, hread]

instance decidableNumberText (text : List Char) : Decidable (NumberText text) :=
  match h : wholeNumeral text with
  | .ok _ => isTrue (wholeNumeral_eq_ok h).1
  | .error _ => isFalse fun ht => by
      obtain ⟨n, hn, -⟩ := wholeNumeral_of_numberText ht
      simp [hn] at h

theorem hexDigit?_isSome_iff (c : Char) : (hexDigit? c).isSome = true ↔ Mark.IsHex c := by
  constructor
  · intro h
    have hn : c.toNat < 103 := by
      unfold hexDigit? at h
      simp only [Bool.and_eq_true, decide_eq_true_eq] at h
      split_ifs at h <;> first | omega | simp at h
    have key : ∀ n < 103, (hexDigit? (Char.ofNat n)).isSome = true → Mark.IsHex (Char.ofNat n) := by
      unfold Mark.IsHex
      decide
    have hc := key c.toNat hn
    rw [Char.ofNat_toNat] at hc
    exact hc h
  · intro h
    have key : ("0123456789abcdefABCDEF".toList.all fun d => (hexDigit? d).isSome) = true := by decide
    exact List.all_eq_true.mp key c h

theorem hexValue?_isSome_iff (a b c d : Char) :
    (hexValue? a b c d).isSome = true ↔ (Mark.code a b c d).Valid := by
  simp only [Mark.Valid, ← hexDigit?_isSome_iff, hexValue?]
  cases hexDigit? a <;> cases hexDigit? b <;> cases hexDigit? c <;> cases hexDigit? d <;> simp

theorem escapeChar?_isSome_iff (c : Char) : (escapeChar? c).isSome = true ↔ (Mark.letter c).Valid := by
  unfold escapeChar?
  constructor
  · intro h
    split at h <;> first | (simp at h; done) | (simp [Mark.Valid])
  · intro h
    have key : ("\"\\/bfnrt".toList.all fun d => (escapeChar? d).isSome) = true := by decide
    exact List.all_eq_true.mp key c h

@[simp] theorem marksText_nil : marksText [] = [] := rfl

@[simp] theorem marksText_cons (m : Mark) (ms : List Mark) :
    marksText (m :: ms) = m.text ++ marksText ms := by
  simp [marksText]

theorem readString_plain {c : Char} (hc : (Mark.plain c).Valid) (acc cs : List Char) :
    readString acc (c :: cs) = readString (c :: acc) cs := by
  obtain ⟨hlow, hquote, hslash⟩ := hc
  rw [readString.eq_7 _ _ _ hquote (fun _ _ _ _ _ h _ => hslash h) (fun _ h _ => hslash h)
    (fun _ _ h _ => hslash h) (fun h _ => hslash h), if_neg (by omega)]

theorem letter_ne_u {l : Char} (hl : (Mark.letter l).Valid) : l ≠ 'u' := by
  rintro rfl
  revert hl
  unfold Mark.Valid
  decide

theorem readString_letter {l e : Char} (hl : (Mark.letter l).Valid) (he : escapeChar? l = some e)
    (acc cs : List Char) : readString acc ('\\' :: l :: cs) = readString (e :: acc) cs := by
  have hu := letter_ne_u hl
  rw [readString.eq_5 _ _ _ (fun _ _ _ _ _ h _ => hu h) hu, he]

theorem readString_code {a b c d : Char} {n : Nat} (hn : hexValue? a b c d = some n)
    (hlow : isLowSurrogate n = false) (hhigh : isHighSurrogate n = false) (acc cs : List Char) :
    readString acc ('\\' :: 'u' :: a :: b :: c :: d :: cs) =
      readString (Char.ofNat n :: acc) cs := by
  simp [readString.eq_3, hn, hlow, hhigh]

theorem readString_pair {a b c d e f g h : Char} {n m : Nat} (hn : hexValue? a b c d = some n)
    (hlow : isLowSurrogate n = false) (hhigh : isHighSurrogate n = true)
    (hm : hexValue? e f g h = some m) (hpair : isLowSurrogate m = true) (acc cs : List Char) :
    readString acc ('\\' :: 'u' :: a :: b :: c :: d :: '\\' :: 'u' :: e :: f :: g :: h :: cs) =
      readString (pairChar n m :: acc) cs := by
  simp [readString.eq_3, hn, hlow, hhigh, hm, hpair]

/-- A high surrogate must be followed by the escape of a low one. -/
theorem readString_unpaired {a b c d : Char} {n : Nat} (hn : hexValue? a b c d = some n)
    (hlow : isLowSurrogate n = false) (hhigh : isHighSurrogate n = true) {ms : List Mark}
    (hms : ∀ m ∈ ms, m.Valid)
    (hnext : ∀ e f g h rest, ms = .code e f g h :: rest →
      ∃ m, hexValue? e f g h = some m ∧ isLowSurrogate m = false)
    (acc r : List Char) :
    (readString acc ('\\' :: 'u' :: a :: b :: c :: d :: (marksText ms ++ '"' :: r))).toOption =
      none := by
  rw [readString.eq_3]
  simp only [hn, hlow, hhigh, if_true, Bool.false_eq_true, if_false]
  match ms with
  | [] => simp [Except.toOption]
  | .plain p :: rest =>
    have hslash : p ≠ '\\' := (hms (.plain p) (by simp)).2.2
    simp [Mark.text, hslash, Except.toOption]
  | .letter l :: rest =>
    have hu := letter_ne_u (hms (.letter l) (by simp))
    simp [Mark.text, hu, Except.toOption]
  | .code e f g h :: rest =>
    obtain ⟨m, hm, hlow'⟩ := hnext e f g h rest rfl
    simp [Mark.text, hm, hlow', Except.toOption]

/-- A string is read up to the quote that ends it, and refused exactly if a surrogate in it has no
partner. -/
theorem readString_marks (marks : List Mark) (hms : ∀ m ∈ marks, m.Valid) (acc r : List Char) :
    (readString acc (marksText marks ++ '"' :: r)).toOption =
      (unescape marks).map fun s => (acc.reverse ++ s, r) := by
  match marks with
  | [] => simp [readString, unescape, Except.toOption]
  | .plain c :: ms =>
    have ih := readString_marks ms (fun m hm => hms m (by simp [hm])) (c :: acc) r
    have hstep := readString_plain (hms (.plain c) (by simp)) acc (marksText ms ++ '"' :: r)
    simp only [marksText_cons, Mark.text, List.cons_append, List.nil_append, hstep, ih, unescape,
      Option.map_map]
    congr 1
    funext s
    simp
  | .letter l :: ms =>
    have hl := hms (.letter l) (by simp)
    obtain ⟨e, he⟩ := Option.isSome_iff_exists.mp ((escapeChar?_isSome_iff l).mpr hl)
    have ih := readString_marks ms (fun m hm => hms m (by simp [hm])) (e :: acc) r
    have hstep := readString_letter hl he acc (marksText ms ++ '"' :: r)
    simp only [marksText_cons, Mark.text, List.cons_append, List.nil_append, hstep, ih, unescape,
      he, Option.bind_some, Option.map_map]
    congr 1
    funext s
    simp
  | .code a b c d :: ms =>
    obtain ⟨n, hn⟩ := Option.isSome_iff_exists.mp
      ((hexValue?_isSome_iff a b c d).mpr (hms (.code a b c d) (by simp)))
    have htail : ∀ m ∈ ms, m.Valid := fun m hm => hms m (by simp [hm])
    simp only [marksText_cons, Mark.text, List.cons_append, List.nil_append]
    cases hlow : isLowSurrogate n with
    | true => simp [readString.eq_3, hn, hlow, unescape, Except.toOption]
    | false =>
      cases hhigh : isHighSurrogate n with
      | false =>
        have ih := readString_marks ms htail (Char.ofNat n :: acc) r
        rw [readString_code hn hlow hhigh, ih]
        simp only [unescape, hn, hlow, hhigh, Option.bind_some, Bool.false_eq_true, if_false,
          Option.map_map]
        congr 1
        funext s
        simp
      | true =>
        -- The next mark has to be a low surrogate; anything else refuses the string.
        match ms with
        | .code e f g h :: rest =>
          obtain ⟨m, hm⟩ := Option.isSome_iff_exists.mp
            ((hexValue?_isSome_iff e f g h).mpr (htail (.code e f g h) (by simp)))
          cases hpair : isLowSurrogate m with
          | true =>
            have ih := readString_marks rest (fun k hk => htail k (by simp [hk]))
              (pairChar n m :: acc) r
            simp only [marksText_cons, Mark.text, List.cons_append, List.nil_append]
            rw [readString_pair hn hlow hhigh hm hpair, ih]
            simp only [unescape, hn, hlow, hhigh, hm, hpair, Option.bind_some, if_true,
              Bool.false_eq_true, if_false, Option.map_map]
            congr 1
            funext s
            simp
          | false =>
            rw [readString_unpaired hn hlow hhigh htail]
            · simp [unescape, hn, hlow, hhigh, hm, hpair]
            · rintro e' f' g' h' rest' heq
              obtain ⟨⟨rfl, rfl, rfl, rfl⟩, rfl⟩ := by simpa using heq
              exact ⟨m, hm, hpair⟩
        | [] =>
          rw [readString_unpaired hn hlow hhigh htail (by simp)]
          simp [unescape, hn, hlow, hhigh]
        | .plain p :: rest =>
          rw [readString_unpaired hn hlow hhigh htail (by simp)]
          simp [unescape, hn, hlow, hhigh]
        | .letter l :: rest =>
          rw [readString_unpaired hn hlow hhigh htail (by simp)]
          simp [unescape, hn, hlow, hhigh]
termination_by marks.length

theorem readString_eq_ok {acc cs s r : List Char} (h : readString acc cs = .ok (s, r)) :
    ∃ marks u, (∀ m ∈ marks, m.Valid) ∧ cs = marksText marks ++ '"' :: r ∧
      unescape marks = some u ∧ s = acc.reverse ++ u := by
  fun_induction readString acc cs with
  | case2 acc cs =>
    obtain ⟨rfl, rfl⟩ : acc.reverse = s ∧ cs = r := by simpa using h
    exact ⟨[], [], by simp, rfl, rfl, by simp⟩
  | case6 acc a b c d n hn hlow hhigh e f g i cs m hm hpair ih =>
    obtain ⟨marks, u, hmarks, rfl, hu, rfl⟩ := ih h
    have hfirst := (hexValue?_isSome_iff a b c d).mp (by simp [hn])
    have hsecond := (hexValue?_isSome_iff e f g i).mp (by simp [hm])
    refine ⟨.code a b c d :: .code e f g i :: marks, pairChar n m :: u, ?_, ?_, ?_, by simp⟩
    · exact List.forall_mem_cons.mpr ⟨hfirst, List.forall_mem_cons.mpr ⟨hsecond, hmarks⟩⟩
    · simp [Mark.text]
    · simp [unescape, hn, hlow, hhigh, hm, hpair, hu]
  | case9 acc a b c d cs n hn hlow hhigh ih =>
    obtain ⟨marks, u, hmarks, rfl, hu, rfl⟩ := ih h
    have hfirst := (hexValue?_isSome_iff a b c d).mp (by simp [hn])
    refine ⟨.code a b c d :: marks, Char.ofNat n :: u, ?_, ?_, ?_, by simp⟩
    · exact List.forall_mem_cons.mpr ⟨hfirst, hmarks⟩
    · simp [Mark.text]
    · simp [unescape, hn, hlow, hhigh, hu]
  | case11 acc l cs _ _ e he ih =>
    obtain ⟨marks, u, hmarks, rfl, hu, rfl⟩ := ih h
    have hfirst := (escapeChar?_isSome_iff l).mp (by simp [he])
    refine ⟨.letter l :: marks, e :: u, ?_, ?_, ?_, by simp⟩
    · exact List.forall_mem_cons.mpr ⟨hfirst, hmarks⟩
    · simp [Mark.text]
    · simp [unescape, he, hu]
  | case15 acc c cs hquote _ _ hslash hend hlow ih =>
    obtain ⟨marks, u, hmarks, rfl, hu, rfl⟩ := ih h
    have hne : c ≠ '\\' := by
      rintro rfl
      cases hcs : marksText marks ++ '"' :: r with
      | nil => exact hend rfl hcs
      | cons d ds => exact hslash d ds rfl hcs
    have hfirst : (Mark.plain c).Valid := ⟨by omega, hquote, hne⟩
    refine ⟨.plain c :: marks, c :: u, ?_, ?_, ?_, by simp⟩
    · exact List.forall_mem_cons.mpr ⟨hfirst, hmarks⟩
    · simp [Mark.text]
    · simp [unescape, hu]
  | case1 | case3 | case4 | case5 | case7 | case8 | case10 | case12 | case13 | case14 =>
    simp at h

end LintRelay.Json
