import LintRelay.Proofs.Utf8
import LintRelay.Text.Blank
import LintRelay.Text.Lowercase
import Mathlib.Tactic.Common
/-! Lower case is final. No rule of the table leads to a code point that a rule covers, so lower case
changes nothing in a text that is in lower case. Nor does a rule lead to a blank, or to a character
that comes before the small letters. The table is checked rule against rule, by ranges, and not code
point by code point. -/
namespace LintRelay.Text

def CaseRule.first (r : CaseRule) : Nat := (r.low + r.shift).toNat

def CaseRule.last (r : CaseRule) : Nat := (r.high + r.shift).toNat

/-- Whether no code point to which one rule leads is covered by another: their ranges do not meet,
or they hold points of different parity. -/
def CaseRule.apart (r s : CaseRule) : Bool :=
  r.last.blt s.low || s.high.blt r.first ||
    ((r.stride.beq 2 || r.first.beq r.last) && s.stride.beq 2 && ((r.first + s.low) % 2).beq 1)

/-- The blanks above ASCII, and the dotted capital I. -/
def reserved : List (Nat × Nat) := [
  (0x85, 0x85), (0xA0, 0xA0), (0x130, 0x130), (0x1680, 0x1680), (0x2000, 0x200A), (0x2028, 0x2029),
  (0x202F, 0x202F), (0x205F, 0x205F), (0x3000, 0x3000)]

/-- Whether a rule leads to characters, none of them reserved; the only one in ASCII is the small
k, from the sign for kelvin. -/
def CaseRule.placed (r : CaseRule) : Bool :=
  decide (0 ≤ r.low + r.shift) &&
    (r.last.blt 0xD800 || (Nat.blt 0xDFFF r.first && r.last.blt 0x110000)) &&
    ((r.first.beq 0x6B && r.last.beq 0x6B) ||
      (Nat.ble 0x80 r.first && reserved.all fun range =>
        r.last.blt range.1 || range.2.blt r.first))

theorem caseRules_placed : (caseRules.all fun r => r.placed) = true := by decide +kernel

theorem caseRules_apart : (caseRules.all fun r => caseRules.all fun s => r.apart s) = true := by
  decide +kernel

theorem CaseRule.covers_iff {r : CaseRule} {n : Nat} :
    r.covers n = true ↔ r.low ≤ n ∧ n ≤ r.high ∧ (n - r.low) % r.stride = 0 := by
  simp [CaseRule.covers, and_assoc]

theorem CaseRule.not_covers_of_apart {r s : CaseRule} {n : Nat} (h : r.apart s = true)
    (hpos : 0 ≤ r.low + r.shift) (hn : r.covers n = true) :
    s.covers (n + r.shift).toNat = false := by
  obtain ⟨hlow, hhigh, hstride⟩ := CaseRule.covers_iff.mp hn
  rw [Bool.eq_false_iff]
  intro hs
  obtain ⟨hslow, hshigh, hsstride⟩ := CaseRule.covers_iff.mp hs
  simp only [CaseRule.apart, CaseRule.first, CaseRule.last, Bool.or_eq_true, Bool.and_eq_true,
    Nat.blt_eq, Nat.beq_eq] at h
  rcases h with (h | h) | ⟨⟨hr, hs2⟩, hparity⟩
  · omega
  · omega
  · rw [hs2] at hsstride
    rcases hr with hr | hr
    · rw [hr] at hstride
      omega
    · omega

/-- A character that lower case leaves alone. -/
structure Settled (c : Char) : Prop where
  lower : lowerChar c = c
  ne_dotted : c ≠ 'İ'

theorem Settled.ne_sigma {c : Char} (h : Settled c) : c ≠ 'Σ' := by
  rintro rfl
  exact absurd h.lower (by decide +kernel)

theorem inRanges_reserved_of_isBlank {c : Char} (h : isBlank c = true) (habove : 0x80 ≤ c.toNat) :
    inRanges reserved c.toNat = true := by
  simp only [isBlank, Bool.or_eq_true, Bool.and_eq_true, decide_eq_true_eq, beq_iff_eq] at h
  simp only [inRanges, reserved, List.any_cons, List.any_nil, Bool.or_eq_true, Bool.and_eq_true,
    decide_eq_true_eq]
  omega

/-- What a placed rule leads to is the small k, or a character above ASCII that is not reserved. -/
theorem CaseRule.toNat_of_placed {r : CaseRule} {n : Nat} (h : r.placed = true)
    (hn : r.covers n = true) {c : Char} (hc : c = Char.ofNat (n + r.shift).toNat) :
    c.toNat = (n + r.shift).toNat ∧
      (c = 'k' ∨ (0x80 ≤ c.toNat ∧ inRanges reserved c.toNat = false)) := by
  obtain ⟨hlow, hhigh, -⟩ := CaseRule.covers_iff.mp hn
  simp only [CaseRule.placed, CaseRule.first, CaseRule.last, Bool.or_eq_true, Bool.and_eq_true,
    decide_eq_true_eq, Nat.blt_eq, Nat.ble_eq, Nat.beq_eq, List.all_eq_true] at h
  obtain ⟨⟨hpos, hvalid⟩, hplace⟩ := h
  have hnat : c.toNat = (n + r.shift).toNat := by
    rw [hc]
    exact Utf8.toNat_ofNat_of_valid (by omega)
  refine ⟨hnat, ?_⟩
  rcases hplace with ⟨hfirst, hlast⟩ | ⟨habove, hreserved⟩
  · left
    have hk : (n + r.shift).toNat = 0x6B := by omega
    rw [hc, hk]
  · right
    refine ⟨by omega, ?_⟩
    rw [inRanges, List.any_eq_false]
    intro range hrange
    have houtside := hreserved range hrange
    simp only [Bool.and_eq_true, decide_eq_true_eq]
    omega

theorem CaseRule.plain_of_placed {r : CaseRule} {n : Nat} (h : r.placed = true)
    (hn : r.covers n = true) {c : Char} (hc : c = Char.ofNat (n + r.shift).toNat) :
    isBlank c = false ∧ 0x61 ≤ c.toNat ∧ c ≠ 'İ' := by
  obtain ⟨-, rfl | ⟨habove, hreserved⟩⟩ := CaseRule.toNat_of_placed h hn hc
  · decide
  · refine ⟨?_, ?_, ?_⟩
    · rw [Bool.eq_false_iff]
      intro hblank
      rw [inRanges_reserved_of_isBlank hblank habove] at hreserved
      contradiction
    · omega
    · rintro rfl
      exact absurd hreserved (by decide)

theorem settled_of_rule {r : CaseRule} (hr : r ∈ caseRules) {n : Nat} (hn : r.covers n = true) :
    Settled (Char.ofNat (n + r.shift).toNat) := by
  have hplaced : r.placed = true := List.all_eq_true.mp caseRules_placed r hr
  obtain ⟨hnat, hwhere⟩ := CaseRule.toNat_of_placed hplaced hn rfl
  refine ⟨?_, (CaseRule.plain_of_placed hplaced hn rfl).2.2⟩
  rcases hwhere with hk | ⟨habove, -⟩
  · rw [hk]
    decide
  · have hpos : 0 ≤ r.low + r.shift := by
      simp only [CaseRule.placed, Bool.and_eq_true, decide_eq_true_eq] at hplaced
      exact hplaced.1.1
    have hnone : caseRules.find? (·.covers (Char.ofNat (n + r.shift).toNat).toNat) = none := by
      rw [List.find?_eq_none]
      intro s hs
      have hapart := List.all_eq_true.mp (List.all_eq_true.mp caseRules_apart r hr) s hs
      rw [hnat, CaseRule.not_covers_of_apart hapart hpos hn]
      simp
    rw [lowerChar, if_neg (by omega), hnone]

/-- Lower case within ASCII is settled, and neither a blank nor anything before the small letters
comes up in it. -/
theorem lowerChar_ascii : ∀ n : Fin 128,
    (lowerChar (lowerChar (Char.ofNat n)) = lowerChar (Char.ofNat n) ∧
      lowerChar (Char.ofNat n) ≠ 'İ') ∧
    (isBlank (Char.ofNat n) = false → isBlank (lowerChar (Char.ofNat n)) = false) ∧
    ((lowerChar (Char.ofNat n)).toNat < 0x61 → lowerChar (Char.ofNat n) = Char.ofNat n) := by
  decide +kernel

/-- The lower case of a character other than the dotted capital I is settled. It is a blank only if
the character is, and before the small letters only if it is the character itself. -/
theorem lowerChar_settled {c : Char} (hc : c ≠ 'İ') :
    Settled (lowerChar c) ∧ (isBlank c = false → isBlank (lowerChar c) = false) ∧
      ((lowerChar c).toNat < 0x61 → lowerChar c = c) := by
  by_cases hascii : c.toNat < 0x80
  · obtain ⟨⟨hlower, hne⟩, hblank, hlow⟩ := lowerChar_ascii ⟨c.toNat, hascii⟩
    simp only [Char.ofNat_toNat] at hlower hne hblank hlow
    exact ⟨⟨hlower, hne⟩, hblank, hlow⟩
  · cases hfind : caseRules.find? (·.covers c.toNat) with
    | none =>
      have hsame : lowerChar c = c := by rw [lowerChar, if_neg hascii, hfind]
      rw [hsame]
      exact ⟨⟨hsame, hc⟩, id, fun _ => rfl⟩
    | some r =>
      have hr : r ∈ caseRules := List.mem_of_find?_eq_some hfind
      have hcovers : r.covers c.toNat = true := by simpa using List.find?_some hfind
      have hlower : lowerChar c = Char.ofNat (c.toNat + r.shift).toNat := by
        rw [lowerChar, if_neg hascii, hfind]
      have hplaced : r.placed = true := List.all_eq_true.mp caseRules_placed r hr
      obtain ⟨hblank, hlow, -⟩ := CaseRule.plain_of_placed hplaced hcovers hlower
      exact ⟨hlower ▸ settled_of_rule hr hcovers, fun _ => hblank,
        fun h => absurd h (Nat.not_lt.mpr hlow)⟩

def lowerPiece (before : List Char) (c : Char) (after : List Char) : List Char :=
  if c == 'Σ' then [lowerSigma before after]
  else if c == 'İ' then ['i', '\u0307']
  else [lowerChar c]

def lowerPieces (before : List Char) : List Char → List Char
  | [] => []
  | c :: cs => lowerPiece before c cs ++ lowerPieces (c :: before) cs

theorem lowercaseFrom_eq (before acc cs : List Char) :
    lowercaseFrom before acc cs = acc.reverse ++ lowerPieces before cs := by
  induction cs generalizing before acc with
  | nil => simp [lowercaseFrom, lowerPieces]
  | cons c cs ih =>
    simp only [lowercaseFrom, lowerPieces, lowerPiece, ih]
    split
    · simp
    · split <;> simp

theorem lowercaseChars_eq (cs : List Char) : lowercaseChars cs = lowerPieces [] cs := by
  simp [lowercaseChars, lowercaseFrom_eq]

theorem lowerPiece_ne_nil (before : List Char) (c : Char) (after : List Char) :
    lowerPiece before c after ≠ [] := by
  simp only [lowerPiece]
  split
  · simp
  · split <;> simp

theorem lowerSigma_cases (before after : List Char) :
    lowerSigma before after = 'ς' ∨ lowerSigma before after = 'σ' := by
  simp only [lowerSigma]
  split <;> simp

/-- A piece is settled. A blank is in it only if it stands for one, and a character before the small
letters only if it stands for that character. -/
theorem of_mem_lowerPiece {before : List Char} {c : Char} {after : List Char} {d : Char}
    (h : d ∈ lowerPiece before c after) :
    Settled d ∧ (isBlank c = false → isBlank d = false) ∧ (d.toNat < 0x61 → d = c) := by
  simp only [lowerPiece] at h
  split at h
  · -- Both forms of the small sigma are their own lower case.
    have hd : d = 'ς' ∨ d = 'σ' := by
      rw [List.mem_singleton.mp h]
      exact lowerSigma_cases before after
    rcases hd with rfl | rfl
    · exact ⟨⟨by decide +kernel, by decide⟩, fun _ => by decide, fun h => absurd h (by decide)⟩
    · exact ⟨⟨by decide +kernel, by decide⟩, fun _ => by decide, fun h => absurd h (by decide)⟩
  · split at h
    · have hd : d = 'i' ∨ d = '\u0307' := by simpa using h
      rcases hd with rfl | rfl
      · exact ⟨⟨by decide, by decide⟩, fun _ => by decide, fun h => absurd h (by decide)⟩
      · exact ⟨⟨by decide +kernel, by decide⟩, fun _ => by decide, fun h => absurd h (by decide)⟩
    · next hdotted =>
      rw [List.mem_singleton.mp h]
      exact lowerChar_settled (by simpa using hdotted)

theorem exists_of_mem_lowerPieces {before cs : List Char} {d : Char}
    (h : d ∈ lowerPieces before cs) :
    ∃ before' c after, c ∈ cs ∧ d ∈ lowerPiece before' c after := by
  induction cs generalizing before with
  | nil => simp [lowerPieces] at h
  | cons c cs ih =>
    rcases List.mem_append.mp h with h | h
    · exact ⟨before, c, cs, List.mem_cons_self, h⟩
    · obtain ⟨before', c', after, hc', hd⟩ := ih h
      exact ⟨before', c', after, List.mem_cons_of_mem _ hc', hd⟩

/-- Settled characters stay as they are. -/
theorem lowerPieces_of_settled {before cs : List Char} (h : ∀ c ∈ cs, Settled c) :
    lowerPieces before cs = cs := by
  induction cs generalizing before with
  | nil => rfl
  | cons c cs ih =>
    have hc := h c List.mem_cons_self
    have hpiece : lowerPiece before c cs = [c] := by
      simp [lowerPiece, hc.ne_sigma, hc.ne_dotted, hc.lower]
    rw [lowerPieces, hpiece, ih fun d hd => h d (List.mem_cons_of_mem _ hd)]
    rfl

theorem lowercaseChars_of_settled {cs : List Char} (h : ∀ c ∈ cs, Settled c) :
    lowercaseChars cs = cs := by
  rw [lowercaseChars_eq]
  exact lowerPieces_of_settled h

theorem settled_of_mem_lowercaseChars {cs : List Char} {d : Char} (h : d ∈ lowercaseChars cs) :
    Settled d := by
  rw [lowercaseChars_eq] at h
  obtain ⟨_, _, _, -, hpiece⟩ := exists_of_mem_lowerPieces h
  exact (of_mem_lowerPiece hpiece).1

theorem lowercaseChars_lowercaseChars (cs : List Char) :
    lowercaseChars (lowercaseChars cs) = lowercaseChars cs :=
  lowercaseChars_of_settled fun _ => settled_of_mem_lowercaseChars

/-- Lower case brings nothing into a text that comes before the small letters. -/
theorem mem_of_mem_lowercaseChars {cs : List Char} {d : Char} (hd : d.toNat < 0x61)
    (h : d ∈ lowercaseChars cs) : d ∈ cs := by
  rw [lowercaseChars_eq] at h
  obtain ⟨_, c, _, hc, hpiece⟩ := exists_of_mem_lowerPieces h
  rw [(of_mem_lowerPiece hpiece).2.2 hd]
  exact hc

end LintRelay.Text
