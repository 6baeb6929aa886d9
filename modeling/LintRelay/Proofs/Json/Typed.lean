import LintRelay.Proofs.Json.Record
import LintRelay.Proofs.Json.Unambiguous
/-! What readers of a known type take. A reader of texts, words, counts, lists or maps takes nothing
but texts of trees, and every other text of the same tree in the same way. -/
namespace LintRelay.Json

open Except (bind_eq_ok)

/-- A reader takes only texts of trees, after blanks, that stand in a relation to what it gives. -/
def ReadsOnly {α : Type} (read : Read α) (rel : Tree → α → Prop) : Prop :=
  ∀ cs a rest, read cs = .ok (a, rest) →
    ∃ w v t, Blanks w ∧ ValueText Blanks v t ∧ cs = w ++ (t ++ rest) ∧ rel v a

theorem Halt.lift_eq_ok {α : Type} {x : Except Fault α} {a : α} :
    Halt.lift x = .ok a ↔ x = .ok a := by
  cases x <;> simp [Halt.lift]

variable {α β : Type} {read : Read α}

theorem ReadsOnly.map {rel : Tree → α → Prop} (h : ReadsOnly read rel) (f : α → β) :
    ReadsOnly (fun cs => do let (a, rest) ← read cs; return (f a, rest))
      fun v b => ∃ a, rel v a ∧ f a = b := by
  intro cs b rest hread
  obtain ⟨⟨a, rest'⟩, ha, hend⟩ := bind_eq_ok.mp hread
  obtain ⟨rfl, rfl⟩ : f a = b ∧ rest' = rest := by simpa [pure, Except.pure] using hend
  obtain ⟨w, v, t, hw, ht, hcs, hv⟩ := h cs a rest' ha
  exact ⟨w, v, t, hw, ht, hcs, a, hv, rfl⟩

theorem ReadsOnly.mono {rel rel' : Tree → α → Prop} (h : ReadsOnly read rel)
    (hrel : ∀ v a, rel v a → rel' v a) : ReadsOnly read rel' := by
  intro cs a rest hread
  obtain ⟨w, v, t, hw, ht, hcs, hv⟩ := h cs a rest hread
  exact ⟨w, v, t, hw, ht, hcs, hrel v a hv⟩

/-! ### Texts, words and counts -/

theorem readText_eq_ok {wanted s : String} {cs rest : List Char}
    (h : readText wanted cs = .ok (s, rest)) :
    ∃ w marks u, Blanks w ∧ (∀ m ∈ marks, m.Valid) ∧ unescape marks = some u ∧
      s = String.ofList u ∧ cs = w ++ ('"' :: (marksText marks ++ ['"']) ++ rest) := by
  obtain ⟨w, hw, hcs⟩ := exists_blanks_skipSpace cs
  rw [readText] at h
  split at h
  · next cs' heq =>
    obtain ⟨⟨u, rest'⟩, hstring, hend⟩ := bind_eq_ok.mp h
    obtain ⟨marks, hmarks, rfl, hu⟩ := readString_nil_eq_ok (Halt.lift_eq_ok.mp hstring)
    obtain ⟨rfl, rfl⟩ : String.ofList u = s ∧ rest' = rest := by
      simpa [pure, Except.pure] using hend
    exact ⟨w, marks, u, hw, hmarks, hu, rfl, by rw [hcs, heq]; simp⟩
  · simp [refuse] at h

theorem readsOnly_text (wanted : String) :
    ReadsOnly (readText wanted) (Reads (readText wanted)) := by
  intro cs s rest h
  obtain ⟨w, marks, u, hw, hmarks, hu, rfl, hcs⟩ := readText_eq_ok h
  exact ⟨w, .string marks, _, hw, .string hmarks, hcs, reads_text wanted hu⟩

theorem readsOnly_bool : ReadsOnly readBool (Reads readBool) := by
  intro cs b rest h
  obtain ⟨w, hw, hcs⟩ := exists_blanks_skipSpace cs
  rw [readBool] at h
  split at h
  · next cs' heq =>
    obtain ⟨rest', hword, hend⟩ := bind_eq_ok.mp h
    obtain ⟨rfl, rfl⟩ : true = b ∧ rest' = rest := by simpa [pure, Except.pure] using hend
    rw [eq_append_of_readWord (Halt.lift_eq_ok.mp hword)] at heq
    exact ⟨w, .bool true, _, hw, .wordTrue, by rw [hcs, heq]; rfl, reads_bool true⟩
  · next cs' heq =>
    obtain ⟨rest', hword, hend⟩ := bind_eq_ok.mp h
    obtain ⟨rfl, rfl⟩ : false = b ∧ rest' = rest := by simpa [pure, Except.pure] using hend
    rw [eq_append_of_readWord (Halt.lift_eq_ok.mp hword)] at heq
    exact ⟨w, .bool false, _, hw, .wordFalse, by rw [hcs, heq]; rfl, reads_bool false⟩
  · simp [refuse] at h

theorem reads_null : Reads (readOptional read) .null none := by
  intro t ht w rest hw _
  cases ht with
  | wordNull =>
    have hword := readWord_append ['u', 'l', 'l'] rest
    simp only [readOptional, skipSpace_blanks hw, List.cons_append, List.nil_append,
      skipSpace_cons_of_not (show isSpace 'n' = false from rfl)] at hword ⊢
    rw [hword]
    rfl

theorem readsOnly_optional (hread : ReadsOnly read (Reads read)) :
    ReadsOnly (readOptional read) (Reads (readOptional read)) := by
  intro cs x rest h
  obtain ⟨w, hw, hcs⟩ := exists_blanks_skipSpace cs
  rw [readOptional] at h
  split at h
  · next cs' heq =>
    obtain ⟨rest', hword, hend⟩ := bind_eq_ok.mp h
    obtain ⟨rfl, rfl⟩ : none = x ∧ rest' = rest := by simpa [pure, Except.pure] using hend
    rw [eq_append_of_readWord (Halt.lift_eq_ok.mp hword)] at heq
    exact ⟨w, .null, _, hw, .wordNull, by rw [hcs, heq]; rfl, reads_null⟩
  · next hnot =>
    obtain ⟨⟨a, rest'⟩, ha, hend⟩ := bind_eq_ok.mp h
    obtain ⟨rfl, rfl⟩ : some a = x ∧ rest' = rest := by simpa [pure, Except.pure] using hend
    obtain ⟨w', v, t, hw', ht, hskip, hv⟩ := hread _ a rest' ha
    have hnull : v ≠ .null := by
      rintro rfl
      cases ht with
      | wordNull =>
        have hstart := congrArg skipSpace hskip
        rw [skipSpace_skipSpace, skipSpace_blanks hw', List.cons_append,
          skipSpace_cons_of_not (by decide)] at hstart
        exact hnot _ hstart
    exact ⟨w ++ w', v, t, hw.append hw', ht, by rw [hcs, hskip]; simp, reads_optional hv hnull⟩

theorem readUnsigned_parts {negative : Bool} {cs rest : List Char} {n : Numeral}
    (h : readUnsigned negative cs = .ok (n, rest)) :
    n.negative = negative ∧ ∃ cs₁ cs₂, readWhole cs = .ok (n.whole, cs₁) ∧
      readFraction cs₁ = .ok (n.fraction, cs₂) ∧ readExponent cs₂ = .ok (n.exponent, rest) := by
  obtain ⟨⟨whole, cs₁⟩, hwhole, h⟩ := bind_eq_ok.mp h
  obtain ⟨⟨fraction, cs₂⟩, hfraction, h⟩ := bind_eq_ok.mp h
  obtain ⟨⟨exponent, cs₃⟩, hexponent, h⟩ := bind_eq_ok.mp h
  obtain ⟨rfl, rfl⟩ : ⟨negative, whole, fraction, exponent⟩ = n ∧ cs₃ = rest := by
    simpa [pure, Except.pure] using h
  exact ⟨rfl, cs₁, cs₂, hwhole, hfraction, hexponent⟩

theorem keptToken_eq_nil {token : List Char} (h : keptToken token = []) : token = [] := by
  cases token with
  | nil => rfl
  | cons c cs =>
    unfold keptToken at h
    split at h
    · cases cs with
      | nil => simp at h
      | cons s ds =>
        dsimp only at h
        split at h <;> simp at h
    · simp at h

theorem readNumeral_eq_whole {cs rest : List Char} {n : Numeral}
    (h : readNumeral cs = .ok (n, rest)) (hnegative : n.negative = false)
    (hfraction : n.fraction = none) (hexponent : n.exponent = none) :
    WholeText n.whole ∧ cs = n.whole ++ rest := by
  unfold readNumeral at h
  split at h
  · rw [(readUnsigned_parts h).1] at hnegative
    cases hnegative
  · obtain ⟨-, cs₁, cs₂, hwhole, hfrac, hexp⟩ := readUnsigned_parts h
    rw [hfraction] at hfrac
    rw [hexponent] at hexp
    obtain ⟨rfl, hdigits⟩ := readWhole_eq_ok hwhole
    obtain ⟨rfl, -⟩ := readFraction_eq_ok hfrac
    obtain ⟨t, rfl, ht, hkept⟩ := readExponent_eq_ok hexp
    obtain rfl : t = [] := keptToken_eq_nil hkept.symm
    exact ⟨hdigits, rfl⟩

theorem readsOnly_count : ReadsOnly readCount (Reads readCount) := by
  intro cs n rest h
  obtain ⟨w, hw, hcs⟩ := exists_blanks_skipSpace cs
  simp only [readCount] at h
  split at h
  · simp at h
  · next c cs' heq =>
    split at h
    · obtain ⟨⟨numeral, rest'⟩, hnumeral, h⟩ := bind_eq_ok.mp h
      dsimp only at h
      split at h
      · next hmachine =>
        split at h
        · simp [throw, throwThe, MonadExceptOf.throw] at h
        · next hnegative =>
          obtain ⟨rfl, rfl⟩ : UInt64.ofNat (digitsValue numeral.whole) = n ∧ rest' = rest := by
            simpa [pure, Except.pure] using h
          have hread : readNumeral (skipSpace cs) = .ok (numeral, rest') := by
            have hlift := Halt.lift_eq_ok.mp hnumeral
            cases hr : readNumeral (skipSpace cs) with
            | error e => simp [hr, NumeralFault.lift] at hlift
            | ok p => simpa [hr, NumeralFault.lift] using hlift
          simp only [Numeral.isMachineInteger, hnegative, Bool.and_eq_true,
            Option.isNone_iff_eq_none, Bool.false_eq_true, if_false, decide_eq_true_eq] at hmachine
          obtain ⟨⟨hfraction, hexponent⟩, hword⟩ := hmachine
          obtain ⟨hwhole, hskip⟩ :=
            readNumeral_eq_whole hread (by simpa using hnegative) hfraction hexponent
          have htext : NumberText (numeral.whole ++ ([] ++ [])) := .positive hwhole .absent .absent
          rw [List.append_nil, List.append_nil] at htext
          exact ⟨w, .number numeral.whole, _, hw, .number htext, by rw [hcs, hskip],
            reads_whole hwhole hword⟩
      · obtain ⟨found, -, h⟩ := bind_eq_ok.mp h
        simp [throw, throwThe, MonadExceptOf.throw] at h
    · simp [refuse] at h

/-! ### Lists and maps -/

variable {rel : Tree → α → Prop}

theorem readItemsWith_eq_ok (hread : ReadsOnly read rel) {steps : Nat} {acc xs : List α}
    {cs rest : List Char} (h : readItemsWith read steps acc cs = .ok (xs, rest)) :
    ∃ vs t ys, ItemsText Blanks vs t ∧ cs = t ++ ']' :: rest ∧ List.Forall₂ rel vs ys ∧
      xs = acc.reverse ++ ys := by
  induction steps generalizing acc cs with
  | zero => simp [readItemsWith] at h
  | succ steps ih =>
    obtain ⟨⟨a, cs₁⟩, hvalue, hitem⟩ := bind_eq_ok.mp h
    obtain ⟨w, v, s, hw, hs, rfl, hv⟩ := hread cs a cs₁ hvalue
    obtain ⟨after, hafter, htail⟩ := bind_eq_ok.mp hitem
    obtain ⟨b, hb, hcases⟩ := afterItem_eq_ok (Halt.lift_eq_ok.mp hafter)
    rcases hcases with ⟨r, rfl, rfl⟩ | ⟨w', r, rfl, hw', rfl⟩
    · obtain ⟨rfl, rfl⟩ : acc.reverse ++ [a] = xs ∧ r = rest := by
        simpa [pure, Except.pure] using htail
      exact ⟨[v], w ++ (s ++ b), [a], .one hw hs hb, by simp, .cons hv .nil, rfl⟩
    · obtain ⟨vs, t, ys, ht, rfl, hys, rfl⟩ := ih htail
      exact ⟨v :: vs, w ++ (s ++ (b ++ ',' :: (w' ++ t))), a :: ys,
        .cons hw hs hb (ht.blanks_append hw'), by simp, .cons hv hys, by simp⟩

theorem readsOnly_list (hread : ReadsOnly read rel) :
    ReadsOnly (readListOf read) fun v xs => ∃ vs, v = .array vs ∧ List.Forall₂ rel vs xs := by
  intro cs xs rest h
  obtain ⟨w, hw, hcs⟩ := exists_blanks_skipSpace cs
  rw [readListOf] at h
  split at h
  · next cs' heq =>
    obtain ⟨w', hw', hcs'⟩ := exists_blanks_skipSpace cs'
    split at h
    · simp at h
    · next cs'' heq' =>
      obtain ⟨rfl, rfl⟩ : [] = xs ∧ cs'' = rest := by simpa using h
      rw [heq'] at hcs'
      exact ⟨w, .array [], _, hw, .emptyArray hw', by rw [hcs, heq, hcs']; simp, [], rfl, .nil⟩
    · obtain ⟨vs, t, ys, ht, hskip, hys, rfl⟩ := readItemsWith_eq_ok hread h
      rw [hskip] at hcs'
      exact ⟨w, .array vs, _, hw, .array (ht.blanks_append hw'), by rw [hcs, heq, hcs']; simp, vs,
        rfl, hys⟩
  · simp [refuse] at h

/-- A value and what follows it are items. -/
theorem ItemsText.of_follow {v : Tree} {vs : List Tree} {a t b e : List Char} (ha : Blanks a)
    (ht : ValueText Blanks v t) (hb : Blanks b)
    (he : e = [] ∧ vs = [] ∨ ∃ ts, e = ',' :: ts ∧ ItemsText Blanks vs ts) :
    ItemsText Blanks (v :: vs) (a ++ (t ++ (b ++ e))) := by
  rcases he with ⟨rfl, rfl⟩ | ⟨ts, rfl, hts⟩
  · simpa using ItemsText.one ha ht hb
  · exact .cons ha ht hb hts

theorem MembersText.of_follow {k : List Mark} {v : Tree} {ms : List (List Mark × Tree)}
    {a b c t d e : List Char} (ha : Blanks a) (hk : ∀ m ∈ k, m.Valid) (hb : Blanks b)
    (hc : Blanks c) (ht : ValueText Blanks v t) (hd : Blanks d)
    (he : e = [] ∧ ms = [] ∨ ∃ ts, e = ',' :: ts ∧ MembersText Blanks ms ts) :
    MembersText Blanks ((k, v) :: ms)
      (a ++ '"' :: (marksText k ++ '"' :: (b ++ ':' :: (c ++ (t ++ (d ++ e)))))) := by
  rcases he with ⟨rfl, rfl⟩ | ⟨ts, rfl, hts⟩
  · simpa using MembersText.one ha hk hb hc ht hd
  · exact .cons ha hk hb hc ht hd hts

/-- What follows the key of a member, up to the end of the object: its value `v` and the other
members. -/
def AfterKey (v : Tree) (ms : List (List Mark × Tree)) (cs rest : List Char) : Prop :=
  ∃ b c s d e, Blanks b ∧ Blanks c ∧ ValueText Blanks v s ∧ Blanks d ∧
    (e = [] ∧ ms = [] ∨ ∃ ts, e = ',' :: ts ∧ MembersText Blanks ms ts) ∧
    cs = b ++ ':' :: (c ++ (s ++ (d ++ (e ++ '\x7d' :: rest))))

theorem AfterKey.last {b c s d rest : List Char} {v : Tree} (hb : Blanks b) (hc : Blanks c)
    (hs : ValueText Blanks v s) (hd : Blanks d) :
    AfterKey v [] (b ++ ':' :: (c ++ (s ++ (d ++ '\x7d' :: rest)))) rest :=
  ⟨b, c, s, d, [], hb, hc, hs, hd, Or.inl ⟨rfl, rfl⟩, rfl⟩

theorem AfterKey.next {a b c s d cs rest : List Char} {k : List Mark} {v v' : Tree}
    {ms : List (List Mark × Tree)} (hb : Blanks b) (hc : Blanks c) (hs : ValueText Blanks v s)
    (hd : Blanks d) (ha : Blanks a) (hk : ∀ m ∈ k, m.Valid) (h : AfterKey v' ms cs rest) :
    AfterKey v ((k, v') :: ms)
      (b ++ ':' :: (c ++ (s ++ (d ++ ',' :: (a ++ '"' :: (marksText k ++ '"' :: cs)))))) rest := by
  obtain ⟨b', c', s', d', e', hb', hc', hs', hd', he', rfl⟩ := h
  have hmembers := MembersText.of_follow ha hk hb' hc' hs' hd' he'
  exact ⟨b, c, s, d, _, hb, hc, hs, hd, Or.inr ⟨_, rfl, hmembers⟩, by simp⟩

theorem AfterKey.exists_object {a cs rest : List Char} {k : List Mark} {v : Tree}
    {ms : List (List Mark × Tree)} (h : AfterKey v ms cs rest) (ha : Blanks a)
    (hk : ∀ m ∈ k, m.Valid) :
    ∃ t, ValueText Blanks (.object ((k, v) :: ms)) t ∧
      '\x7b' :: (a ++ '"' :: (marksText k ++ '"' :: cs)) = t ++ rest := by
  obtain ⟨b, c, s, d, e, hb, hc, hs, hd, he, rfl⟩ := h
  exact ⟨_, .object (.of_follow ha hk hb hc hs hd he), by simp⟩

def MemberOf (rel : Tree → α → Prop) (m : List Mark × Tree) (entry : String × α) : Prop :=
  (∃ s, unescape m.1 = some s ∧ entry.1 = String.ofList s) ∧ rel m.2 entry.2

theorem readEntriesWith_eq_ok (hread : ReadsOnly read rel) {steps : Nat}
    {acc xs : List (String × α)} {key : String} {cs rest : List Char}
    (h : readEntriesWith read steps acc key cs = .ok (xs, rest)) :
    ∃ v ms a ys, AfterKey v ms cs rest ∧ rel v a ∧ List.Forall₂ (MemberOf rel) ms ys ∧
      xs = acc.reverse ++ (key, a) :: ys := by
  induction steps generalizing acc key cs with
  | zero => simp [readEntriesWith] at h
  | succ steps ih =>
    obtain ⟨cs₁, hcolon, hmember⟩ := bind_eq_ok.mp h
    obtain ⟨b, hb, rfl⟩ := readColon_eq_ok (Halt.lift_eq_ok.mp hcolon)
    obtain ⟨⟨a, cs₂⟩, hvalue, hend⟩ := bind_eq_ok.mp hmember
    obtain ⟨c, v, s, hc, hs, rfl, hv⟩ := hread cs₁ a cs₂ hvalue
    obtain ⟨after, hafter, htail⟩ := bind_eq_ok.mp hend
    obtain ⟨d, hd, hcases⟩ := afterMember_eq_ok (Halt.lift_eq_ok.mp hafter)
    rcases hcases with ⟨r, rfl, rfl⟩ | ⟨a', r, rfl, ha', rfl⟩
    · obtain ⟨rfl, rfl⟩ : acc.reverse ++ [(key, a)] = xs ∧ r = rest := by
        simpa [pure, Except.pure] using htail
      exact ⟨v, [], a, [], .last hb hc hs hd, hv, .nil, rfl⟩
    · obtain ⟨⟨u, cs₃⟩, hstring, hmembers⟩ := bind_eq_ok.mp htail
      obtain ⟨k, hk, rfl, hu⟩ := readString_nil_eq_ok (Halt.lift_eq_ok.mp hstring)
      obtain ⟨v', ms, x, ys, hafter', hv', hys, rfl⟩ := ih hmembers
      exact ⟨v, (k, v') :: ms, a, (String.ofList u, x) :: ys, .next hb hc hs hd ha' hk hafter', hv,
        .cons ⟨⟨u, hu, rfl⟩, hv'⟩ hys, by simp⟩

theorem readsOnly_map (hread : ReadsOnly read rel) :
    ReadsOnly (readMapOf read) fun v xs =>
      ∃ ms, v = .object ms ∧ List.Forall₂ (MemberOf rel) ms xs := by
  intro cs xs rest h
  obtain ⟨w, hw, hcs⟩ := exists_blanks_skipSpace cs
  rw [readMapOf] at h
  split at h
  · next cs' heq =>
    obtain ⟨a, ha, hcs'⟩ := exists_blanks_skipSpace cs'
    split at h
    · simp at h
    · next cs'' heq' =>
      obtain ⟨rfl, rfl⟩ : [] = xs ∧ cs'' = rest := by simpa using h
      rw [heq'] at hcs'
      exact ⟨w, .object [], _, hw, .emptyObject ha, by rw [hcs, heq, hcs']; simp, [], rfl, .nil⟩
    · next cs'' heq' =>
      obtain ⟨⟨u, cs₃⟩, hstring, hmembers⟩ := bind_eq_ok.mp h
      obtain ⟨k, hk, rfl, hu⟩ := readString_nil_eq_ok (Halt.lift_eq_ok.mp hstring)
      obtain ⟨v, ms, x, ys, hafter, hv, hys, rfl⟩ := readEntriesWith_eq_ok hread hmembers
      obtain ⟨t, ht, htext⟩ := hafter.exists_object ha hk
      exact ⟨w, _, t, hw, ht, by rw [hcs, heq, ← htext, hcs', heq'], _, rfl,
        .cons ⟨⟨u, hu, rfl⟩, hv⟩ hys⟩
    · simp at h
  · simp [refuse] at h

/-! ### Whole texts -/

/-- A text is one value of a known type if and only if it is a text of a tree in the relation. -/
theorem parseWith_eq_ok_iff (hreads : ∀ v a, rel v a → Reads read v a) (honly : ReadsOnly read rel)
    {t : List Char} {a : α} : parseWith read t = .ok a ↔ ∃ v, Document v t ∧ rel v a := by
  constructor
  · intro h
    rw [parseWith] at h
    split at h
    · simp at h
    · next x rest hread =>
      obtain ⟨⟨⟩, hend, hx⟩ := bind_eq_ok.mp h
      obtain rfl : x = a := by simpa [pure, Except.pure] using hx
      obtain ⟨w, v, s, hw, hs, rfl, hv⟩ := honly t x rest hread
      exact ⟨v, ⟨w, s, rest, hw, hs, blanks_of_endText hend, rfl⟩, hv⟩
  · rintro ⟨v, ⟨w, s, b, hw, hs, hb, rfl⟩, hv⟩
    rw [parseWith, hreads v a hv s hs w b hw (endsNumber_of_blanks hb)]
    simp only [endText_blanks hb]
    rfl

theorem document_pretty (v : Value) (h : v.Tokens) : Document (.ofValue v) v.pretty :=
  ⟨[], v.pretty, [], blanks_nil, prettyAt_text 0 v h, blanks_nil, by simp⟩

end LintRelay.Json
