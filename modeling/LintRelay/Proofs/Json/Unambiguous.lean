import LintRelay.Proofs.Json.Skip
/-! A text has one tree. Where a value ends in a text is settled by passing over it, so that two
derivations cut a text at the same places; and what stands between the cuts has one reading. -/
namespace LintRelay.Json

theorem marksText_injective {ms ns : List Mark} (hms : ∀ m ∈ ms, m.Valid)
    (hns : ∀ n ∈ ns, n.Valid) (h : marksText ms = marksText ns) : ms = ns := by
  induction ms generalizing ns with
  | nil =>
    cases ns with
    | nil => rfl
    | cons n ns => cases n <;> simp [Mark.text] at h
  | cons m ms ih =>
    cases ns with
    | nil => cases m <;> simp [Mark.text] at h
    | cons n ns =>
      obtain ⟨hm, hmtail⟩ := List.forall_mem_cons.mp hms
      obtain ⟨hn, hntail⟩ := List.forall_mem_cons.mp hns
      -- A plain character is no backslash, and an escape letter is no u.
      have hhead : m = n ∧ marksText ms = marksText ns := by
        cases m with
        | plain c =>
          cases n with
          | plain d => simpa [Mark.text] using h
          | letter l => exact absurd (by simpa [Mark.text] using congrArg List.head? h) hm.2.2
          | code => exact absurd (by simpa [Mark.text] using congrArg List.head? h) hm.2.2
        | letter l =>
          cases n with
          | plain d =>
            exact absurd (by simpa [Mark.text, eq_comm] using congrArg List.head? h) hn.2.2
          | letter l' => simpa [Mark.text] using h
          | code a b c d =>
            have hu : l = 'u' := by simpa [Mark.text] using congrArg (List.head? ∘ List.tail) h
            exact absurd hu (letter_ne_u hm)
        | code a b c d =>
          cases n with
          | plain e =>
            exact absurd (by simpa [Mark.text, eq_comm] using congrArg List.head? h) hn.2.2
          | letter l =>
            have hu : l = 'u' := by
              simpa [Mark.text, eq_comm] using congrArg (List.head? ∘ List.tail) h
            exact absurd hu (letter_ne_u hn)
          | code a' b' c' d' => simpa [Mark.text, and_assoc] using h
      rw [hhead.1, ih hmtail hntail hhead.2]

/-- Two values at the start of a text end at the same place. -/
theorem ValueText.end_unique {v v' : Tree} {t t' w w' r r' : List Char} (h : ValueText Blanks v t)
    (h' : ValueText Blanks v' t') (hw : Blanks w) (hw' : Blanks w') (hr : EndsNumber r)
    (hr' : EndsNumber r') (heq : w ++ (t ++ r) = w' ++ (t' ++ r')) : t = t' ∧ r = r' := by
  have hskip := skipValue_text h hw hr
  rw [heq, skipValue_text h' hw' hr'] at hskip
  obtain rfl : r' = r := Except.ok.inj hskip
  obtain ⟨c, cs, rfl, hspace, -⟩ := h.exists_cons
  obtain ⟨c', cs', rfl, hspace', -⟩ := h'.exists_cons
  have hstart := congrArg skipSpace heq
  rw [skipSpace_blanks hw, skipSpace_blanks hw', List.cons_append, List.cons_append,
    skipSpace_cons_of_not hspace, skipSpace_cons_of_not hspace'] at hstart
  exact ⟨List.append_cancel_right (show (c :: cs) ++ _ = _ from hstart), rfl⟩

section Follow

variable {e e' b b' : List Char} {p p' : Prop} {q q' : List Char → Prop}

/-- What follows a value, nothing or a comma and more, ends a number. -/
theorem endsNumber_of_follow (hb : Blanks b) (he : e = [] ∧ p ∨ ∃ ts, e = ',' :: ts ∧ q ts) :
    EndsNumber (b ++ e) := by
  refine endsNumber_blanks hb ?_
  rcases he with ⟨rfl, -⟩ | ⟨ts, rfl, -⟩
  · simp [EndsNumber]
  · exact endsNumber_cons (Or.inl rfl) ts

theorem skipSpace_of_follow (hb : Blanks b) (he : e = [] ∧ p ∨ ∃ ts, e = ',' :: ts ∧ q ts) :
    skipSpace (b ++ e) = e := by
  rw [skipSpace_blanks hb]
  rcases he with ⟨rfl, -⟩ | ⟨ts, rfl, -⟩
  · rfl
  · exact skipSpace_cons_of_not (by decide) ts

/-- After the blanks of both, two texts end alike or go on with the same text. -/
theorem follow_unique (hb : Blanks b) (hb' : Blanks b')
    (he : e = [] ∧ p ∨ ∃ ts, e = ',' :: ts ∧ q ts)
    (he' : e' = [] ∧ p' ∨ ∃ ts, e' = ',' :: ts ∧ q' ts) (heq : b ++ e = b' ++ e') :
    p ∧ p' ∨ ∃ ts, q ts ∧ q' ts := by
  have hsame : e = e' := by
    rw [← skipSpace_of_follow hb he, heq, skipSpace_of_follow hb' he']
  rcases he with ⟨rfl, hp⟩ | ⟨ts, rfl, hts⟩
  · rcases he' with ⟨-, hp'⟩ | ⟨ts', rfl, -⟩
    · exact Or.inl ⟨hp, hp'⟩
    · cases hsame
  · rcases he' with ⟨rfl, -⟩ | ⟨ts', rfl, hts'⟩
    · cases hsame
    · obtain rfl := (List.cons.inj hsame).2
      exact Or.inr ⟨ts, hts, hts'⟩

end Follow

theorem ItemsText.not_blanks {vs : List Tree} {t : List Char} (h : ItemsText Blanks vs t) :
    ¬ Blanks t := by
  intro hblanks
  obtain ⟨c, cs, hskip, -⟩ := h.skipSpace_append []
  rw [skipSpace_blanks hblanks] at hskip
  cases hskip

theorem MembersText.not_blanks {ms : List (List Mark × Tree)} {t : List Char}
    (h : MembersText Blanks ms t) : ¬ Blanks t := by
  intro hblanks
  have hquote : '"' ∈ t := by cases h <;> simp
  exact absurd (hblanks '"' hquote) (by decide)

theorem key_unique {a a' b b' r r' : List Char} {k k' : List Mark} (ha : Blanks a) (ha' : Blanks a')
    (hk : ∀ m ∈ k, m.Valid) (hk' : ∀ m ∈ k', m.Valid) (hb : Blanks b) (hb' : Blanks b')
    (heq : a ++ '"' :: (marksText k ++ '"' :: (b ++ ':' :: r)) =
      a' ++ '"' :: (marksText k' ++ '"' :: (b' ++ ':' :: r'))) : k = k' ∧ r = r' := by
  have hquote := congrArg skipSpace heq
  rw [skipSpace_blanks ha, skipSpace_blanks ha', skipSpace_cons_of_not (by decide),
    skipSpace_cons_of_not (by decide)] at hquote
  have hmarks := (List.cons.inj hquote).2
  have hrest : b ++ ':' :: r = b' ++ ':' :: r' := by
    have hskip := skipString_marks hk (b ++ ':' :: r)
    rw [hmarks, skipString_marks hk'] at hskip
    exact (Except.ok.inj hskip).symm
  have hcolon := readColon_append hb r
  rw [hrest, readColon_append hb'] at hcolon
  rw [hrest] at hmarks
  exact ⟨marksText_injective hk hk' (List.append_cancel_right hmarks), (Except.ok.inj hcolon).symm⟩

/-- No other value starts like a number. -/
theorem NumberText.ne_cons {token : List Char} (h : NumberText token) {c : Char} {cs : List Char}
    (hc : (c == '-' || c.isDigit) = false) : token ≠ c :: cs := by
  rintro rfl
  obtain ⟨d, ds, heq, hd⟩ := h.exists_cons
  rw [(List.cons.inj heq).1, hd] at hc
  cases hc

mutual

theorem ValueText.unique (v : Tree) {v' : Tree} {t t' : List Char} (h : ValueText Blanks v t)
    (h' : ValueText Blanks v' t') (heq : t = t') : v = v' := by
  cases h with
  | wordNull =>
    cases h' with
    | wordNull => rfl
    | number hn => exact absurd heq.symm (hn.ne_cons rfl)
    | _ => simp at heq
  | wordTrue =>
    cases h' with
    | wordTrue => rfl
    | number hn => exact absurd heq.symm (hn.ne_cons rfl)
    | _ => simp at heq
  | wordFalse =>
    cases h' with
    | wordFalse => rfl
    | number hn => exact absurd heq.symm (hn.ne_cons rfl)
    | _ => simp at heq
  | number hn =>
    cases h' with
    | number _ => rw [heq]
    | _ => exact absurd heq (hn.ne_cons rfl)
  | string hms =>
    cases h' with
    | string hns =>
      rw [marksText_injective hms hns (by simpa using heq)]
    | number hn => exact absurd heq.symm (hn.ne_cons rfl)
    | _ => simp at heq
  | emptyArray hw =>
    cases h' with
    | emptyArray _ => rfl
    | @array _ s hitems' =>
      obtain rfl : _ = s := by simpa using heq
      exact absurd hw hitems'.not_blanks
    | number hn => exact absurd heq.symm (hn.ne_cons rfl)
    | _ => simp at heq
  | @array items s hitems =>
    cases h' with
    | emptyArray hw =>
      obtain rfl : s = _ := by simpa using heq
      exact absurd hw hitems.not_blanks
    | array hitems' => rw [ItemsText.unique items hitems hitems' (by simpa using heq)]
    | number hn => exact absurd heq.symm (hn.ne_cons rfl)
    | _ => simp at heq
  | emptyObject hw =>
    cases h' with
    | emptyObject _ => rfl
    | @object _ s hmembers' =>
      obtain rfl : _ = s := by simpa using heq
      exact absurd hw hmembers'.not_blanks
    | number hn => exact absurd heq.symm (hn.ne_cons rfl)
    | _ => simp at heq
  | @object members s hmembers =>
    cases h' with
    | emptyObject hw =>
      obtain rfl : s = _ := by simpa using heq
      exact absurd hw hmembers.not_blanks
    | object hmembers' => rw [MembersText.unique members hmembers hmembers' (by simpa using heq)]
    | number hn => exact absurd heq.symm (hn.ne_cons rfl)
    | _ => simp at heq

theorem ItemsText.unique (vs : List Tree) {vs' : List Tree} {t t' : List Char}
    (h : ItemsText Blanks vs t) (h' : ItemsText Blanks vs' t') (heq : t = t') : vs = vs' := by
  match vs, vs' with
  | [], _ => exact absurd h ItemsText.ne_nil
  | _ :: _, [] => exact absurd h' ItemsText.ne_nil
  | v :: vs, v' :: vs' =>
    obtain ⟨a, s, b, e, ha, hs, hb, rfl, he⟩ := h.cons_inv
    obtain ⟨a', s', b', e', ha', hs', hb', rfl, he'⟩ := h'.cons_inv
    obtain ⟨hsame, hrest⟩ := hs.end_unique hs' ha ha' (endsNumber_of_follow hb he)
      (endsNumber_of_follow hb' he') heq
    obtain rfl := ValueText.unique v hs hs' hsame
    rcases follow_unique hb hb' he he' hrest with ⟨rfl, rfl⟩ | ⟨ts, hts, hts'⟩
    · rfl
    · rw [ItemsText.unique vs hts hts' rfl]

theorem MembersText.unique (ms : List (List Mark × Tree)) {ms' : List (List Mark × Tree)}
    {t t' : List Char} (h : MembersText Blanks ms t) (h' : MembersText Blanks ms' t')
    (heq : t = t') : ms = ms' := by
  match ms, ms' with
  | [], _ => exact absurd h MembersText.ne_nil
  | _ :: _, [] => exact absurd h' MembersText.ne_nil
  | (k, v) :: ms, (k', v') :: ms' =>
    obtain ⟨a, b, c, s, d, e, ha, hk, hb, hc, hs, hd, rfl, he⟩ := h.cons_inv
    obtain ⟨a', b', c', s', d', e', ha', hk', hb', hc', hs', hd', rfl, he'⟩ := h'.cons_inv
    obtain ⟨rfl, hvalue⟩ := key_unique ha ha' hk hk' hb hb' heq
    obtain ⟨hsame, hrest⟩ := hs.end_unique hs' hc hc' (endsNumber_of_follow hd he)
      (endsNumber_of_follow hd' he') hvalue
    obtain rfl := ValueText.unique v hs hs' hsame
    rcases follow_unique hd hd' he he' hrest with ⟨rfl, rfl⟩ | ⟨ts, hts, hts'⟩
    · rfl
    · rw [MembersText.unique ms hts hts' rfl]

end

/-- A text that is one value, with blanks around it. -/
def Document (v : Tree) (t : List Char) : Prop :=
  ∃ a s b, Blanks a ∧ ValueText Blanks v s ∧ Blanks b ∧ t = a ++ (s ++ b)

theorem Document.unique {v v' : Tree} {t : List Char} (h : Document v t) (h' : Document v' t) :
    v = v' := by
  obtain ⟨a, s, b, ha, hs, hb, rfl⟩ := h
  obtain ⟨a', s', b', ha', hs', hb', heq⟩ := h'
  obtain ⟨hsame, -⟩ :=
    hs.end_unique hs' ha ha' (endsNumber_of_blanks hb) (endsNumber_of_blanks hb') heq
  exact ValueText.unique v hs hs' hsame

theorem MembersText.exists_valueText {ms : List (List Mark × Tree)} {t : List Char}
    (h : MembersText Blanks ms t) {m : List Mark × Tree} (hm : m ∈ ms) :
    ∃ s, ValueText Blanks m.2 s := by
  induction ms generalizing t with
  | nil => cases hm
  | cons head ms ih =>
    cases h with
    | one _ _ _ _ hv =>
      obtain rfl := List.mem_singleton.mp hm
      exact ⟨_, hv⟩
    | cons _ _ _ _ hv _ hs =>
      rcases List.mem_cons.mp hm with rfl | hrest
      · exact ⟨_, hv⟩
      · exact ih hs hrest

theorem Document.exists_valueText {ms : List (List Mark × Tree)} {t : List Char}
    (h : Document (.object ms) t) {m : List Mark × Tree} (hm : m ∈ ms) :
    ∃ s, ValueText Blanks m.2 s := by
  obtain ⟨_, _, _, _, hobject, _, _⟩ := h
  cases hobject with
  | emptyObject => cases hm
  | object hmembers => exact hmembers.exists_valueText hm

end LintRelay.Json
