import LintRelay.Text.Utf8
import Mathlib.Tactic.Common
/-! The byte automaton reads exactly what the encoder writes. The bytes of one character are the
runs that end in that character, so the strict reading inverts the encoder, and on encoded text the
lossy reading is the strict one. -/
namespace LintRelay
namespace Utf8

/-- The character that the automaton completes with the last of these bytes and not before. -/
def completes : Option Sequence → Bytes → Option Char
  | _, [] => none
  | s, b :: bs =>
    match step s b with
    | .char c => if bs.isEmpty then some c else none
    | .more t => completes (some t) bs
    | .reject => none

theorem decodeFrom_completes {s : Option Sequence} {pre : Bytes} {c : Char}
    (h : completes s pre = some c) (index : Nat) (acc : List Char) (rest : Bytes) :
    decodeFrom s index acc (pre ++ rest) =
      decodeFrom none (index + pre.length) (c :: acc) rest := by
  induction pre generalizing s index with
  | nil => simp [completes] at h
  | cons b bs ih =>
    simp only [completes] at h
    split at h
    · next d hstep =>
      obtain ⟨hbs, rfl⟩ : bs = [] ∧ d = c := by simpa using h
      simp [decodeFrom, hstep, hbs]
    · next t hstep =>
      have hrun := ih h (index + 1)
      simp only [List.cons_append, decodeFrom, hstep, hrun, List.length_cons]
      congr 1
      omega
    · simp at h

theorem lossyFrom_completes {s : Option Sequence} {pre : Bytes} {c : Char}
    (h : completes s pre = some c) (acc : List Char) (rest : Bytes) :
    lossyFrom s acc (pre ++ rest) = lossyFrom none (c :: acc) rest := by
  induction pre generalizing s with
  | nil => simp [completes] at h
  | cons b bs ih =>
    simp only [completes] at h
    split at h
    · next d hstep =>
      obtain ⟨hbs, rfl⟩ : bs = [] ∧ d = c := by simpa using h
      simp [lossyFrom, hstep, hbs]
    · next t hstep => simp only [List.cons_append, lossyFrom, hstep, ih h]
    · simp at h

theorem Sequence.next_last {s : Sequence} {b : UInt8} (hs : s.owed ≤ 1) (hlo : s.lo ≤ b)
    (hhi : b ≤ s.hi) : s.next b = .char (Char.ofNat (s.code * 64 + (b.toNat - 0x80))) := by
  simp [Sequence.next, hs, hlo, hhi]

theorem Sequence.next_more {s : Sequence} {b : UInt8} (hs : ¬ s.owed ≤ 1) (hlo : s.lo ≤ b)
    (hhi : b ≤ s.hi) :
    s.next b = .more ⟨s.owed - 1, 0x80, 0xBF, s.code * 64 + (b.toNat - 0x80), s.read + 1⟩ := by
  simp [Sequence.next, hs, hlo, hhi]

theorem toNat_range (c : Char) :
    c.toNat < 0xD800 ∨ (0xDFFF < c.toNat ∧ c.toNat < 0x110000) := by
  have h : c.val.isValidChar := c.valid
  simpa [UInt32.isValidChar, Nat.isValidChar] using h

theorem first_one {b : UInt8} (h : b.toNat < 0x80) : first b = .char (Char.ofNat b.toNat) := by
  have hb : b < 0x80 := UInt8.lt_iff_toNat_lt.mpr h
  simp [first, hb]

theorem first_two {b : UInt8} (hlo : 0xC2 ≤ b.toNat) (hhi : b.toNat < 0xE0) :
    first b = .more ⟨1, 0x80, 0xBF, b.toNat - 0xC0, 1⟩ := by
  have h₁ : ¬ b < 0x80 := by simp only [UInt8.lt_iff_toNat_lt, UInt8.reduceToNat]; omega
  have h₂ : ¬ b < 0xC2 := by simp only [UInt8.lt_iff_toNat_lt, UInt8.reduceToNat]; omega
  have h₃ : b < 0xE0 := UInt8.lt_iff_toNat_lt.mpr hhi
  simp [first, h₁, h₂, h₃]

theorem first_three {b : UInt8} (hlo : 0xE0 ≤ b.toNat) (hhi : b.toNat < 0xF0) :
    first b = .more ⟨2, if b = 0xE0 then 0xA0 else 0x80, if b = 0xED then 0x9F else 0xBF,
      b.toNat - 0xE0, 1⟩ := by
  have h₁ : ¬ b < 0x80 := by simp only [UInt8.lt_iff_toNat_lt, UInt8.reduceToNat]; omega
  have h₂ : ¬ b < 0xC2 := by simp only [UInt8.lt_iff_toNat_lt, UInt8.reduceToNat]; omega
  have h₃ : ¬ b < 0xE0 := by simp only [UInt8.lt_iff_toNat_lt, UInt8.reduceToNat]; omega
  have h₄ : b < 0xF0 := UInt8.lt_iff_toNat_lt.mpr hhi
  simp [first, h₁, h₂, h₃, h₄]

theorem first_four {b : UInt8} (hlo : 0xF0 ≤ b.toNat) (hhi : b.toNat < 0xF5) :
    first b = .more ⟨3, if b = 0xF0 then 0x90 else 0x80, if b = 0xF4 then 0x8F else 0xBF,
      b.toNat - 0xF0, 1⟩ := by
  have h₁ : ¬ b < 0x80 := by simp only [UInt8.lt_iff_toNat_lt, UInt8.reduceToNat]; omega
  have h₂ : ¬ b < 0xC2 := by simp only [UInt8.lt_iff_toNat_lt, UInt8.reduceToNat]; omega
  have h₃ : ¬ b < 0xE0 := by simp only [UInt8.lt_iff_toNat_lt, UInt8.reduceToNat]; omega
  have h₄ : ¬ b < 0xF0 := by simp only [UInt8.lt_iff_toNat_lt, UInt8.reduceToNat]; omega
  have h₅ : b < 0xF5 := UInt8.lt_iff_toNat_lt.mpr hhi
  simp [first, h₁, h₂, h₃, h₄, h₅]

theorem first_reject {b : UInt8} (h : (0x80 ≤ b.toNat ∧ b.toNat < 0xC2) ∨ 0xF5 ≤ b.toNat) :
    first b = .reject := by
  simp only [first, UInt8.lt_iff_toNat_lt, UInt8.reduceToNat]
  split_ifs <;> first | rfl | omega

/-- A sequence that owes one byte is completed by a byte in its range. -/
theorem completes_last_iff {s : Sequence} (hs : s.owed ≤ 1) {bs : Bytes} {c : Char} :
    completes (some s) bs = some c ↔
      ∃ b, bs = [b] ∧ s.lo ≤ b ∧ b ≤ s.hi ∧
        Char.ofNat (s.code * 64 + (b.toNat - 0x80)) = c := by
  cases bs with
  | nil => simp [completes]
  | cons b bs =>
    by_cases hb : s.lo ≤ b ∧ b ≤ s.hi
    · simp [completes, step, Sequence.next_last hs hb.1 hb.2, hb]
    · have hrej : s.next b = .reject := by simp [Sequence.next, hb]
      simp only [completes, step, hrej, reduceCtorEq, false_iff]
      rintro ⟨d, hd, hlo, hhi, -⟩
      obtain ⟨rfl, -⟩ : b = d ∧ bs = [] := by simpa using hd
      exact hb ⟨hlo, hhi⟩

/-- A sequence that owes more takes a byte in its range and is then a sequence that owes one less. -/
theorem completes_more_iff {s : Sequence} (hs : ¬ s.owed ≤ 1) {bs : Bytes} {c : Char} :
    completes (some s) bs = some c ↔
      ∃ b rest, bs = b :: rest ∧ s.lo ≤ b ∧ b ≤ s.hi ∧
        completes (some ⟨s.owed - 1, 0x80, 0xBF, s.code * 64 + (b.toNat - 0x80), s.read + 1⟩) rest =
          some c := by
  cases bs with
  | nil => simp [completes]
  | cons b bs =>
    by_cases hb : s.lo ≤ b ∧ b ≤ s.hi
    · simp [completes, step, Sequence.next_more hs hb.1 hb.2, hb]
    · have hrej : s.next b = .reject := by simp [Sequence.next, hb]
      simp only [completes, step, hrej, reduceCtorEq, false_iff]
      rintro ⟨d, rest, hd, hlo, hhi, -⟩
      obtain ⟨rfl, -⟩ : b = d ∧ bs = rest := by simpa using hd
      exact hb ⟨hlo, hhi⟩

theorem completes_of_first {b : UInt8} {s : Sequence} (h : first b = .more s) (bs : Bytes) :
    completes none (b :: bs) = completes (some s) bs := by
  simp [completes, step, h]

theorem completes_last {s : Sequence} {b : UInt8} {c : Char} (hs : s.owed ≤ 1) (hlo : s.lo ≤ b)
    (hhi : b ≤ s.hi) (hc : Char.ofNat (s.code * 64 + (b.toNat - 0x80)) = c) :
    completes (some s) [b] = some c :=
  (completes_last_iff hs).mpr ⟨b, rfl, hlo, hhi, hc⟩

theorem completes_more {s : Sequence} {b : UInt8} {bs : Bytes} {c : Char} (hs : ¬ s.owed ≤ 1)
    (hlo : s.lo ≤ b) (hhi : b ≤ s.hi)
    (h : completes (some ⟨s.owed - 1, 0x80, 0xBF, s.code * 64 + (b.toNat - 0x80), s.read + 1⟩) bs =
      some c) : completes (some s) (b :: bs) = some c :=
  (completes_more_iff hs).mpr ⟨b, bs, rfl, hlo, hhi, h⟩

theorem toNat_ofNat_of_valid {n : Nat} (h : n < 0xD800 ∨ (0xDFFF < n ∧ n < 0x110000)) :
    (Char.ofNat n).toNat = n := by
  rw [Char.ofNat, dif_pos h]
  rfl

theorem ofNat_eq_of_toNat_eq {n : Nat} {b : UInt8} (h : n = b.toNat) : UInt8.ofNat n = b := by
  rw [h, UInt8.ofNat_toNat]

theorem toNat_byte {n : Nat} (h : n < 256) : (UInt8.ofNat n).toNat = n := by
  simp [UInt8.toNat_ofNat', Nat.mod_eq_of_lt h]

theorem ofNat_eq_char {n : Nat} {c : Char} (h : n = c.toNat) : Char.ofNat n = c := by
  rw [h, Char.ofNat_toNat]

theorem toNat_ite_eq (b d x y : UInt8) :
    (if b = d then x else y).toNat = if b.toNat = d.toNat then x.toNat else y.toNat := by
  simp only [UInt8.toNat_inj, apply_ite UInt8.toNat]

theorem eq_utf8EncodeChar_of_completes {bs : Bytes} {c : Char}
    (h : completes none bs = some c) : bs = String.utf8EncodeChar c := by
  cases bs with
  | nil => simp [completes] at h
  | cons b bs =>
    -- The first byte says how many follow.
    simp only [completes, step] at h
    rcases Nat.lt_or_ge b.toNat 0x80 with h80 | h80
    · rw [first_one h80] at h
      obtain ⟨rfl, rfl⟩ : bs = [] ∧ Char.ofNat b.toNat = c := by simpa using h
      have hn := toNat_ofNat_of_valid (n := b.toNat) (by omega)
      simp only [String.utf8EncodeChar, Char.toNat_val, hn]
      rw [if_pos (by omega), UInt8.ofNat_toNat]
    rcases Nat.lt_or_ge b.toNat 0xC2 with hC2 | hC2
    · simp [first_reject (Or.inl ⟨h80, hC2⟩)] at h
    rcases Nat.lt_or_ge b.toNat 0xE0 with hE0 | hE0
    · rw [first_two hC2 hE0] at h
      obtain ⟨b₂, rfl, hlo, hhi, rfl⟩ := (completes_last_iff (by simp)).mp h
      simp only [UInt8.le_iff_toNat_le, UInt8.reduceToNat] at hlo hhi
      have hn := toNat_ofNat_of_valid
        (n := (b.toNat - 0xC0) * 64 + (b₂.toNat - 0x80)) (by omega)
      simp only [String.utf8EncodeChar, Char.toNat_val, hn]
      rw [if_neg (by omega), if_pos (by omega), ofNat_eq_of_toNat_eq (b := b) (by omega),
        ofNat_eq_of_toNat_eq (b := b₂) (by omega)]
    rcases Nat.lt_or_ge b.toNat 0xF0 with hF0 | hF0
    · rw [first_three hE0 hF0] at h
      obtain ⟨b₂, rest, rfl, hlo₂, hhi₂, h⟩ := (completes_more_iff (by simp)).mp h
      obtain ⟨b₃, rfl, hlo₃, hhi₃, rfl⟩ := (completes_last_iff (by simp)).mp h
      simp only [UInt8.le_iff_toNat_le, UInt8.reduceToNat, toNat_ite_eq] at hlo₂ hhi₂ hlo₃ hhi₃
      have hn := toNat_ofNat_of_valid
        (n := ((b.toNat - 0xE0) * 64 + (b₂.toNat - 0x80)) * 64 + (b₃.toNat - 0x80))
        (by split_ifs at hlo₂ hhi₂ <;> omega)
      have hbig : 0x800 ≤ ((b.toNat - 0xE0) * 64 + (b₂.toNat - 0x80)) * 64 + (b₃.toNat - 0x80) := by
        split_ifs at hlo₂ hhi₂ <;> omega
      have hb₂ : 0x80 ≤ b₂.toNat ∧ b₂.toNat ≤ 0xBF := by
        split_ifs at hlo₂ hhi₂ <;> omega
      clear hlo₂ hhi₂
      simp only [String.utf8EncodeChar, Char.toNat_val, hn]
      rw [if_neg (by omega), if_neg (by omega), if_pos (by omega),
        ofNat_eq_of_toNat_eq (b := b) (by omega), ofNat_eq_of_toNat_eq (b := b₂) (by omega),
        ofNat_eq_of_toNat_eq (b := b₃) (by omega)]
    rcases Nat.lt_or_ge b.toNat 0xF5 with hF5 | hF5
    · rw [first_four hF0 hF5] at h
      obtain ⟨b₂, rest, rfl, hlo₂, hhi₂, h⟩ := (completes_more_iff (by simp)).mp h
      obtain ⟨b₃, rest, rfl, hlo₃, hhi₃, h⟩ := (completes_more_iff (by simp)).mp h
      obtain ⟨b₄, rfl, hlo₄, hhi₄, rfl⟩ := (completes_last_iff (by simp)).mp h
      simp only [UInt8.le_iff_toNat_le, UInt8.reduceToNat, toNat_ite_eq]
        at hlo₂ hhi₂ hlo₃ hhi₃ hlo₄ hhi₄
      have hrange : 0x10000 ≤ (((b.toNat - 0xF0) * 64 + (b₂.toNat - 0x80)) * 64 +
            (b₃.toNat - 0x80)) * 64 + (b₄.toNat - 0x80) ∧
          (((b.toNat - 0xF0) * 64 + (b₂.toNat - 0x80)) * 64 +
            (b₃.toNat - 0x80)) * 64 + (b₄.toNat - 0x80) < 0x110000 := by
        split_ifs at hlo₂ hhi₂ <;> omega
      have hb₂ : 0x80 ≤ b₂.toNat ∧ b₂.toNat ≤ 0xBF := by
        split_ifs at hlo₂ hhi₂ <;> omega
      clear hlo₂ hhi₂
      have hn := toNat_ofNat_of_valid (n := (((b.toNat - 0xF0) * 64 + (b₂.toNat - 0x80)) * 64 +
        (b₃.toNat - 0x80)) * 64 + (b₄.toNat - 0x80)) (by omega)
      simp only [String.utf8EncodeChar, Char.toNat_val, hn]
      rw [if_neg (by omega), if_neg (by omega), if_neg (by omega),
        ofNat_eq_of_toNat_eq (b := b) (by omega), ofNat_eq_of_toNat_eq (b := b₂) (by omega),
        ofNat_eq_of_toNat_eq (b := b₃) (by omega), ofNat_eq_of_toNat_eq (b := b₄) (by omega)]
    · simp [first_reject (Or.inr hF5)] at h

theorem completes_utf8EncodeChar (c : Char) :
    completes none (String.utf8EncodeChar c) = some c := by
  have hc := toNat_range c
  simp only [String.utf8EncodeChar, Char.toNat_val]
  split_ifs with h₁ h₂ h₃
  · have hb : (UInt8.ofNat c.toNat).toNat = c.toNat := toNat_byte (by omega)
    simp [completes, step, first_one (b := UInt8.ofNat c.toNat) (by omega), hb]
  · have hb₁ := toNat_byte (n := c.toNat / 64 % 32 + 192) (by omega)
    have hb₂ := toNat_byte (n := c.toNat % 64 + 128) (by omega)
    rw [completes_of_first (first_two (by omega) (by omega))]
    refine completes_last (by simp) ?_ ?_ ?_
    · simp only [UInt8.le_iff_toNat_le, UInt8.reduceToNat, hb₂]; omega
    · simp only [UInt8.le_iff_toNat_le, UInt8.reduceToNat, hb₂]; omega
    · exact ofNat_eq_char (by simp only [hb₁, hb₂]; omega)
  · have hb₁ := toNat_byte (n := c.toNat / 4096 % 16 + 224) (by omega)
    have hb₂ := toNat_byte (n := c.toNat / 64 % 64 + 128) (by omega)
    have hb₃ := toNat_byte (n := c.toNat % 64 + 128) (by omega)
    rw [completes_of_first (first_three (by omega) (by omega))]
    refine completes_more (by simp) ?_ ?_ (completes_last (by simp) ?_ ?_ ?_)
    · simp only [UInt8.le_iff_toNat_le, UInt8.reduceToNat, toNat_ite_eq, hb₁, hb₂]
      split_ifs <;> omega
    · simp only [UInt8.le_iff_toNat_le, UInt8.reduceToNat, toNat_ite_eq, hb₁, hb₂]
      split_ifs <;> omega
    · simp only [UInt8.le_iff_toNat_le, UInt8.reduceToNat, hb₃]; omega
    · simp only [UInt8.le_iff_toNat_le, UInt8.reduceToNat, hb₃]; omega
    · exact ofNat_eq_char (by simp only [hb₁, hb₂, hb₃]; omega)
  · have hb₁ := toNat_byte (n := c.toNat / 262144 % 8 + 240) (by omega)
    have hb₂ := toNat_byte (n := c.toNat / 4096 % 64 + 128) (by omega)
    have hb₃ := toNat_byte (n := c.toNat / 64 % 64 + 128) (by omega)
    have hb₄ := toNat_byte (n := c.toNat % 64 + 128) (by omega)
    rw [completes_of_first (first_four (by omega) (by omega))]
    refine completes_more (by simp) ?_ ?_
      (completes_more (by simp) ?_ ?_ (completes_last (by simp) ?_ ?_ ?_))
    · simp only [UInt8.le_iff_toNat_le, UInt8.reduceToNat, toNat_ite_eq, hb₁, hb₂]
      split_ifs <;> omega
    · simp only [UInt8.le_iff_toNat_le, UInt8.reduceToNat, toNat_ite_eq, hb₁, hb₂]
      split_ifs <;> omega
    · simp only [UInt8.le_iff_toNat_le, UInt8.reduceToNat, hb₃]; omega
    · simp only [UInt8.le_iff_toNat_le, UInt8.reduceToNat, hb₃]; omega
    · simp only [UInt8.le_iff_toNat_le, UInt8.reduceToNat, hb₄]; omega
    · simp only [UInt8.le_iff_toNat_le, UInt8.reduceToNat, hb₄]; omega
    · exact ofNat_eq_char (by simp only [hb₁, hb₂, hb₃, hb₄]; omega)

/-- A byte of ASCII stands for its own character only. -/
theorem mem_utf8EncodeChar_iff {c d : Char} (hd : d.toNat < 0x80) :
    UInt8.ofNat d.toNat ∈ String.utf8EncodeChar c ↔ d = c := by
  have hc := toNat_range c
  have hbyte : (UInt8.ofNat d.toNat).toNat = d.toNat := toNat_byte (by omega)
  have hself : d = c ↔ d.toNat = c.toNat :=
    ⟨congrArg Char.toNat, fun h => by rw [← Char.ofNat_toNat d, h, Char.ofNat_toNat]⟩
  simp only [String.utf8EncodeChar, Char.toNat_val, hself]
  split_ifs with h₁ h₂ h₃
  · rw [List.mem_singleton, ← UInt8.toNat_inj, hbyte, toNat_byte (by omega)]
  all_goals
    simp only [List.mem_cons, List.not_mem_nil, or_false, ← UInt8.toNat_inj, hbyte]
    simp only [UInt8.toNat_ofNat']
    omega

theorem mem_encode_iff {cs : List Char} {d : Char} (hd : d.toNat < 0x80) :
    UInt8.ofNat d.toNat ∈ encode cs ↔ d ∈ cs := by
  rw [encode, List.mem_flatMap]
  simp only [mem_utf8EncodeChar_iff hd, exists_eq_right']

theorem decodeFrom_encode (cs : List Char) (index : Nat) (acc : List Char) :
    decodeFrom none index acc (encode cs) = .ok (acc.reverse ++ cs) := by
  induction cs generalizing index acc with
  | nil => simp [decodeFrom]
  | cons c cs ih =>
    rw [encode_cons, decodeFrom_completes (completes_utf8EncodeChar c), ih]
    simp

theorem decode_encode (cs : List Char) : decode (encode cs) = .ok cs :=
  decodeFrom_encode cs 0 []

theorem lossyFrom_encode (cs : List Char) (acc : List Char) :
    lossyFrom none acc (encode cs) = acc.reverse ++ cs := by
  induction cs generalizing acc with
  | nil => simp [lossyFrom]
  | cons c cs ih =>
    rw [encode_cons, lossyFrom_completes (completes_utf8EncodeChar c), ih]
    simp

theorem lossy_encode (cs : List Char) : lossy (encode cs) = cs := lossyFrom_encode cs []

/-- A strict reading that ends well either is at its end or completes one more character. -/
theorem decodeFrom_eq_ok {s : Option Sequence} {index : Nat} {acc cs : List Char} {bs : Bytes}
    (h : decodeFrom s index acc bs = .ok cs) :
    (s = none ∧ bs = [] ∧ cs = acc.reverse) ∨
    ∃ pre rest c index', bs = pre ++ rest ∧ completes s pre = some c ∧
      decodeFrom none index' (c :: acc) rest = .ok cs := by
  induction bs generalizing s index with
  | nil =>
    cases s with
    | none => exact Or.inl ⟨rfl, rfl, by simpa [decodeFrom, eq_comm] using h⟩
    | some s => simp [decodeFrom] at h
  | cons b bs ih =>
    simp only [decodeFrom] at h
    cases hstep : step s b with
    | char c =>
      rw [hstep] at h
      exact Or.inr ⟨[b], bs, c, index + 1, rfl, by simp [completes, hstep], h⟩
    | more t =>
      rw [hstep] at h
      obtain ⟨hnone, -⟩ | ⟨pre, rest, c, index', rfl, hpre, hrest⟩ := ih h
      · exact absurd hnone (by simp)
      · exact Or.inr ⟨b :: pre, rest, c, index', rfl, by simp [completes, hstep, hpre], hrest⟩
    | reject => simp [hstep] at h

theorem eq_encode_of_decodeFrom {index : Nat} {acc cs : List Char} {bs : Bytes}
    (h : decodeFrom none index acc bs = .ok cs) : ∃ ds, cs = acc.reverse ++ ds ∧ bs = encode ds := by
  induction hn : bs.length using Nat.strongRecOn generalizing index acc bs with
  | _ n ih =>
    obtain ⟨-, rfl, rfl⟩ | ⟨pre, rest, c, index', rfl, hpre, hrest⟩ := decodeFrom_eq_ok h
    · exact ⟨[], by simp, rfl⟩
    · have hne : pre ≠ [] := by rintro rfl; simp [completes] at hpre
      have hpos := List.length_pos_iff.mpr hne
      obtain ⟨ds, rfl, rfl⟩ := ih rest.length (by simp at hn; omega) hrest rfl
      exact ⟨c :: ds, by simp, by rw [encode_cons, eq_utf8EncodeChar_of_completes hpre]⟩

theorem decode_eq_ok_iff {bs : Bytes} {cs : List Char} : decode bs = .ok cs ↔ bs = encode cs := by
  constructor
  · intro h
    obtain ⟨ds, rfl, rfl⟩ := eq_encode_of_decodeFrom h
    simp
  · rintro rfl
    exact decode_encode cs

theorem decode_eq_error_of_forall_ne {bs : Bytes} (h : ∀ cs, bs ≠ encode cs) :
    ∃ d, decode bs = .error d := by
  cases hd : decode bs with
  | ok cs => exact absurd (decode_eq_ok_iff.mp hd) (h cs)
  | error d => exact ⟨d, rfl⟩

/-! ### The order of bytes -/

theorem utf8EncodeChar_append_lt {c d : Char} (h : c < d) (bs bs' : Bytes) :
    String.utf8EncodeChar c ++ bs < String.utf8EncodeChar d ++ bs' := by
  have hlt : c.toNat < d.toNat := h
  have hc := toNat_range c
  have hd := toNat_range d
  have hdiv (n : Nat) : n / 4096 = n / 64 / 64 ∧ n / 262144 = n / 64 / 64 / 64 := by omega
  simp only [String.utf8EncodeChar, Char.toNat_val]
  split_ifs <;>
    simp only [List.cons_append, List.nil_append, List.cons_lt_cons_iff, UInt8.lt_iff_toNat_lt,
      ← UInt8.toNat_inj, UInt8.toNat_ofNat', hdiv] <;> omega

/-- The order of texts is that of their bytes. -/
theorem encode_lt_encode {cs ds : List Char} (h : cs < ds) : encode cs < encode ds := by
  induction cs generalizing ds with
  | nil =>
    cases ds with
    | nil => exact absurd h (List.lt_irrefl [])
    | cons d ds =>
      obtain ⟨b, bs, hbs⟩ := List.exists_cons_of_ne_nil (String.utf8EncodeChar_ne_nil (c := d))
      rw [encode_cons, hbs]
      exact List.nil_lt_cons _ _
  | cons c cs ih =>
    cases ds with
    | nil => exact absurd h (List.not_lt_nil _)
    | cons d ds =>
      rw [encode_cons, encode_cons]
      rcases List.cons_lt_cons_iff.mp h with hlt | ⟨rfl, hrest⟩
      · exact utf8EncodeChar_append_lt hlt _ _
      · exact List.append_left_lt (ih hrest)

end Utf8
end LintRelay
