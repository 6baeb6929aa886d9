import LintRelay.Proofs.General
import LintRelay.Proofs.Json.Meaning
/-! The reader against the grammar. On a text of a tree the reader gives the stored value of the
tree or refuses, and refuses exactly if the tree has none or is too deep; and whatever it reads is a
text of some tree. The step count never shows: two steps for each character suffice. -/
namespace LintRelay.Json

open Except (bind_eq_ok toOption_bind toOption_error toOption_ok)

theorem skipSpace_skipSpace (cs : List Char) : skipSpace (skipSpace cs) = skipSpace cs := by
  obtain ⟨w, hw, hcs⟩ := exists_blanks_skipSpace cs
  conv_rhs => rw [hcs, skipSpace_blanks hw]

theorem readValue_skipSpace (steps room : Nat) (cs : List Char) :
    readValue steps room (skipSpace cs) = readValue steps room cs := by
  cases steps with
  | zero => simp [readValue]
  | succ steps => simp only [readValue, skipSpace_skipSpace]

theorem readItems_skipSpace (steps room : Nat) (acc : List Value) (cs : List Char) :
    readItems steps room acc (skipSpace cs) = readItems steps room acc cs := by
  cases steps with
  | zero => simp [readItems]
  | succ steps => simp only [readItems, readValue_skipSpace]

theorem readValue_blanks {w : List Char} (hw : Blanks w) (steps room : Nat) (cs : List Char) :
    readValue steps room (w ++ cs) = readValue steps room cs := by
  rw [← readValue_skipSpace, skipSpace_blanks hw, readValue_skipSpace]

theorem isSpace_not_number {c : Char} (hc : isSpace c = true) :
    c.isDigit = false ∧ c ≠ '.' ∧ c ≠ 'e' ∧ c ≠ 'E' := by
  have h : c = ' ' ∨ c = '\n' ∨ c = '\t' ∨ c = '\r' := by
    simpa [isSpace, or_assoc] using hc
  rcases h with rfl | rfl | rfl | rfl <;> decide

theorem endsNumber_blanks {w r : List Char} (hw : Blanks w) (hr : EndsNumber r) :
    EndsNumber (w ++ r) := by
  cases w with
  | nil => exact hr
  | cons c w =>
    intro d hd
    obtain rfl : c = d := by simpa using hd
    exact isSpace_not_number (hw c (by simp))

theorem endsNumber_of_blanks {w : List Char} (hw : Blanks w) : EndsNumber w := by
  have hnil : EndsNumber [] := by simp [EndsNumber]
  simpa using endsNumber_blanks hw hnil

theorem endsNumber_cons {c : Char} (hc : c = ',' ∨ c = ']' ∨ c = '\x7d') (r : List Char) :
    EndsNumber (c :: r) := by
  intro d hd
  obtain rfl : c = d := by simpa using hd
  rcases hc with rfl | rfl | rfl <;> decide

theorem startChar_of_number {c : Char} (hc : (c == '-' || c.isDigit) = true) :
    isSpace c = false ∧ c ∉ ['n', 't', 'f', '"', '[', ']', '\x7b', '\x7d', ','] := by
  have h : c = '-' ∨ c.isDigit = true := by simpa using hc
  rcases h with rfl | hd
  · decide
  · have hn : 48 ≤ c.toNat ∧ c.toNat ≤ 57 := by
      simpa [Char.isDigit, UInt32.le_iff_toNat_le] using hd
    have key : ∀ n < 58, 48 ≤ n → isSpace (Char.ofNat n) = false ∧
        Char.ofNat n ∉ ['n', 't', 'f', '"', '[', ']', '\x7b', '\x7d', ','] := by decide
    have hkey := key c.toNat (by omega) hn.1
    rwa [Char.ofNat_toNat] at hkey

theorem ValueText.exists_cons {gap : List Char → Prop} {v : Tree} {t : List Char}
    (h : ValueText gap v t) :
    ∃ c cs, t = c :: cs ∧ isSpace c = false ∧ c ∉ [']', '\x7d', ','] := by
  cases h with
  | number h =>
    obtain ⟨c, cs, rfl, hc⟩ := h.exists_cons
    obtain ⟨hspace, hother⟩ := startChar_of_number hc
    exact ⟨c, cs, rfl, hspace, by simp at hother ⊢; tauto⟩
  | _ => exact ⟨_, _, rfl, by decide, by decide⟩

theorem readColon_append {b : List Char} (hb : Blanks b) (cs : List Char) :
    readColon (b ++ ':' :: cs) = .ok cs := by
  simp [readColon, skipSpace_blanks hb, skipSpace_cons_of_not (c := ':') (by decide)]

theorem afterItem_done {b : List Char} (hb : Blanks b) (r : List Char) :
    afterItem (b ++ ']' :: r) = .ok (.done r) := by
  simp [afterItem, skipSpace_blanks hb, skipSpace_cons_of_not (c := ']') (by decide)]

theorem afterItem_next {b : List Char} (hb : Blanks b) {c : Char} {cs ts : List Char}
    (hts : skipSpace ts = c :: cs) (hc : c ≠ ']') :
    afterItem (b ++ ',' :: ts) = .ok (.next (skipSpace ts)) := by
  simp only [afterItem, skipSpace_blanks hb, skipSpace_cons_of_not (c := ',') (by decide), hts]
  split <;> simp_all

theorem afterMember_done {d : List Char} (hd : Blanks d) (r : List Char) :
    afterMember (d ++ '\x7d' :: r) = .ok (.done r) := by
  simp [afterMember, skipSpace_blanks hd, skipSpace_cons_of_not (c := '\x7d') (by decide)]

theorem afterMember_next {d a : List Char} (hd : Blanks d) (ha : Blanks a) (cs : List Char) :
    afterMember (d ++ ',' :: (a ++ '"' :: cs)) = .ok (.next cs) := by
  simp [afterMember, skipSpace_blanks hd, skipSpace_cons_of_not (c := ',') (by decide),
    skipSpace_blanks ha, skipSpace_cons_of_not (c := '"') (by decide)]

theorem endObject_append {d : List Char} (hd : Blanks d) (r : List Char) :
    endObject (d ++ '\x7d' :: r) = .ok r := by
  simp [endObject, skipSpace_blanks hd, skipSpace_cons_of_not (c := '\x7d') (by decide)]

theorem endObject_comma {d : List Char} (hd : Blanks d) (r : List Char) :
    (endObject (d ++ ',' :: r)).toOption = none := by
  simp [endObject, skipSpace_blanks hd, skipSpace_cons_of_not (c := ',') (by decide),
    Except.toOption]

/-- What follows the first of several items: nothing, or a comma and the others. -/
theorem ItemsText.cons_inv {gap : List Char → Prop} {v : Tree} {vs : List Tree} {t : List Char}
    (h : ItemsText gap (v :: vs) t) :
    ∃ a s b e, gap a ∧ ValueText gap v s ∧ gap b ∧ t = a ++ (s ++ (b ++ e)) ∧
      (e = [] ∧ vs = [] ∨ ∃ ts, e = ',' :: ts ∧ ItemsText gap vs ts) := by
  cases h with
  | @one _ a s b ha h hb => exact ⟨a, s, b, [], ha, h, hb, by simp, Or.inl ⟨rfl, rfl⟩⟩
  | @cons _ _ a s b ts ha h hb hs => exact ⟨a, s, b, ',' :: ts, ha, h, hb, rfl, Or.inr ⟨ts, rfl, hs⟩⟩

theorem MembersText.cons_inv {gap : List Char → Prop} {k : List Mark} {v : Tree}
    {ms : List (List Mark × Tree)} {t : List Char} (h : MembersText gap ((k, v) :: ms) t) :
    ∃ a b c s d e, gap a ∧ (∀ m ∈ k, m.Valid) ∧ gap b ∧ gap c ∧ ValueText gap v s ∧ gap d ∧
      t = a ++ '"' :: (marksText k ++ '"' :: (b ++ ':' :: (c ++ (s ++ (d ++ e))))) ∧
      (e = [] ∧ ms = [] ∨ ∃ ts, e = ',' :: ts ∧ MembersText gap ms ts) := by
  cases h with
  | @one _ _ a b c s d ha hk hb hc h hd =>
    exact ⟨a, b, c, s, d, [], ha, hk, hb, hc, h, hd, by simp, Or.inl ⟨rfl, rfl⟩⟩
  | @cons _ _ _ a b c s d ts ha hk hb hc h hd hs =>
    exact ⟨a, b, c, s, d, ',' :: ts, ha, hk, hb, hc, h, hd, rfl, Or.inr ⟨ts, rfl, hs⟩⟩

theorem ItemsText.ne_nil {gap : List Char → Prop} {t : List Char} : ¬ ItemsText gap [] t := by
  intro h
  cases h

theorem MembersText.ne_nil {gap : List Char → Prop} {t : List Char} : ¬ MembersText gap [] t := by
  intro h
  cases h

/-- After the opening bracket of items a value starts. -/
theorem ItemsText.skipSpace_append {vs : List Tree} {t : List Char} (h : ItemsText Blanks vs t)
    (r : List Char) : ∃ c cs, skipSpace (t ++ r) = c :: cs ∧ c ≠ ']' := by
  cases vs with
  | nil => exact absurd h ItemsText.ne_nil
  | cons v vs =>
    obtain ⟨a, s, b, e, ha, hs, -, rfl, -⟩ := h.cons_inv
    obtain ⟨c, cs, rfl, hspace, hc⟩ := hs.exists_cons
    refine ⟨c, cs ++ (b ++ e) ++ r, ?_, by simp at hc; exact hc.1⟩
    rw [List.append_assoc, skipSpace_blanks ha]
    simp [skipSpace_cons_of_not hspace]

theorem readValue_number {token r : List Char} (ht : NumberText token) (hr : EndsNumber r)
    (steps room : Nat) :
    readValue (steps + 1) room (token ++ r) =
      .ok (.number (String.ofList (keptToken token)), r) := by
  obtain ⟨n, hread, hkept⟩ := readNumeral_append ht hr
  obtain ⟨c, cs, rfl, hc⟩ := ht.exists_cons
  obtain ⟨hspace, hother⟩ := startChar_of_number hc
  rw [List.cons_append] at hread ⊢
  simp only [readValue, skipSpace_cons_of_not hspace]
  -- None of the characters with a case of their own starts a number.
  have hstart : ∀ {d : Char} {ds : List Char}, c :: (cs ++ r) = d :: ds →
      d ∉ ['n', 't', 'f', '"', '[', ']', '\x7b', '\x7d', ','] := by
    intro d ds heq
    rw [← (List.cons.inj heq).1]
    exact hother
  split
  · next heq => cases heq
  · next heq => exact absurd (hstart heq) (by decide)
  · next heq => exact absurd (hstart heq) (by decide)
  · next heq => exact absurd (hstart heq) (by decide)
  · next heq => exact absurd (hstart heq) (by decide)
  · next heq => exact absurd (hstart heq) (by decide)
  · next heq => exact absurd (hstart heq) (by decide)
  · next heq =>
    obtain ⟨rfl, rfl⟩ := List.cons.inj heq
    simp [hc, hread, NumeralFault.lift, hkept, bind, Except.bind, pure, Except.pure]

theorem readValue_string {marks : List Mark} (hms : ∀ m ∈ marks, m.Valid) (steps room : Nat)
    (r : List Char) :
    (readValue (steps + 1) room ('"' :: (marksText marks ++ '"' :: r))).toOption =
      (unescape marks).map fun s => (.string (String.ofList s), r) := by
  have hread := readString_marks marks hms [] r
  simp only [readValue, skipSpace_cons_of_not (c := '"') (by decide)]
  rw [toOption_bind, hread]
  cases unescape marks <;> rfl

theorem readItems_succ (steps room : Nat) (acc : List Value) (cs : List Char) :
    readItems (steps + 1) room acc cs =
      readValue steps room cs >>= fun p =>
        afterItem p.2 >>= fun
          | .done r => .ok ((p.1 :: acc).reverse, r)
          | .next r => readItems steps room (p.1 :: acc) r := by
  simp only [readItems]
  cases readValue steps room cs with
  | error e => rfl
  | ok p =>
    cases h : afterItem p.2 with
    | error e => simp [h, bind, Except.bind]
    | ok a => cases a <;> simp [h, bind, Except.bind]

theorem readMembers_succ (steps room : Nat) (acc : List (String × Value)) (key : String)
    (cs : List Char) :
    readMembers (steps + 1) room acc key cs =
      readColon cs >>= fun cs =>
        readValue steps room cs >>= fun p =>
          afterMember p.2 >>= fun
            | .done r => .ok (insertMember acc key p.1, r)
            | .next r =>
              readString [] r >>= fun q =>
                readMembers steps room (insertMember acc key p.1) (String.ofList q.1) q.2 := by
  simp only [readMembers]
  cases readColon cs with
  | error e => rfl
  | ok cs =>
    simp only [bind, Except.bind]
    cases readValue steps room cs with
    | error e => rfl
    | ok p =>
      cases h : afterMember p.2 with
      | error e => simp [h]
      | ok a =>
        cases a with
        | done r => simp [h]
        | next r => cases hs : readString [] r <;> simp [h, hs]

/-- A marked object is read as a number if its only member is a string that spells one. -/
theorem readKeyedNumber_string {b c : List Char} (hb : Blanks b) (hc : Blanks c)
    {marks : List Mark} (hms : ∀ m ∈ marks, m.Valid) (rest : List Char) :
    (readKeyedNumber (b ++ ':' :: (c ++ '"' :: (marksText marks ++ '"' :: rest)))).toOption =
      (unescape marks).bind fun s =>
        if NumberText s then
          (endObject rest).toOption.map fun r => (.number (String.ofList (keptToken s)), r)
        else none := by
  have hread := readString_marks marks hms [] rest
  simp only [readKeyedNumber, readColon_append hb, bind, Except.bind, skipSpace_blanks hc,
    skipSpace_cons_of_not (c := '"') (by decide)]
  cases hs : readString [] (marksText marks ++ '"' :: rest) with
  | error e =>
    rw [hs] at hread
    have hnone : unescape marks = none := by simpa [Except.toOption] using hread.symm
    simp [hnone, Except.toOption]
  | ok p =>
    rw [hs] at hread
    obtain ⟨s, hsome, rfl⟩ := Option.map_eq_some_iff.mp hread.symm
    simp only [hsome, Option.bind_some, List.reverse_nil, List.nil_append]
    by_cases hnum : NumberText s
    · obtain ⟨n, hn, hkept⟩ := wholeNumeral_of_numberText hnum
      rw [if_pos hnum]
      cases hend : endObject rest with
      | error e => simp [hn, Except.toOption]
      | ok r => simp [hn, hkept, Except.toOption, pure, Except.pure]
    · rw [if_neg hnum]
      cases hn : wholeNumeral s with
      | ok n => exact absurd (wholeNumeral_eq_ok hn).1 hnum
      | error f =>
        cases hplace : f.place.lineColumn? s <;>
          simp [hplace, Except.toOption, throw, throwThe, MonadExceptOf.throw]

theorem readKeyedNumber_other {b c : List Char} (hb : Blanks b) (hc : Blanks c) {x : Char}
    (hspace : isSpace x = false) (hx : x ≠ '"') (rest : List Char) :
    (readKeyedNumber (b ++ ':' :: (c ++ x :: rest))).toOption = none := by
  simp only [readKeyedNumber, readColon_append hb, bind, Except.bind, skipSpace_blanks hc,
    skipSpace_cons_of_not hspace]
  split
  · next heq => exact absurd (List.cons.inj heq).1 hx
  · rfl

theorem ValueText.string_or_ne_quote {gap : List Char → Prop} {v : Tree} {t : List Char}
    (h : ValueText gap v t) :
    (∃ marks, v = .string marks ∧ (∀ m ∈ marks, m.Valid) ∧ t = '"' :: (marksText marks ++ ['"'])) ∨
    ((∀ marks, v ≠ .string marks) ∧ ∃ c cs, t = c :: cs ∧ isSpace c = false ∧ c ≠ '"') := by
  cases h with
  | number h =>
    obtain ⟨c, cs, rfl, hc⟩ := h.exists_cons
    obtain ⟨hspace, hother⟩ := startChar_of_number hc
    exact Or.inr ⟨by simp, c, cs, rfl, hspace, by simp at hother; tauto⟩
  | string hms => exact Or.inl ⟨_, rfl, hms, rfl⟩
  | _ => exact Or.inr ⟨by simp, _, _, rfl, by decide, by decide⟩

theorem readKeyedNumber_text {v : Tree} {k : List Mark} {ms : List (List Mark × Tree)}
    {b c s d e : List Char} (hb : Blanks b) (hc : Blanks c) (hs : ValueText Blanks v s)
    (hd : Blanks d) (he : e = [] ∧ ms = [] ∨ ∃ ts, e = ',' :: ts ∧ MembersText Blanks ms ts)
    (r : List Char) :
    (readKeyedNumber (b ++ ':' :: (c ++ (s ++ (d ++ (e ++ '\x7d' :: r)))))).toOption =
      (Dialect.stored.keyed? ((k, v) :: ms)).map (·, r) := by
  rcases hs.string_or_ne_quote with ⟨marks, rfl, hms, rfl⟩ | ⟨hv, x, xs, rfl, hspace, hx⟩
  · have hread := readKeyedNumber_string hb hc hms (d ++ (e ++ '\x7d' :: r))
    simp only [List.cons_append, List.append_assoc, List.nil_append] at hread ⊢
    rw [hread]
    rcases he with ⟨rfl, rfl⟩ | ⟨ts, rfl, hts⟩
    · rw [List.nil_append, endObject_append hd]
      cases hu : unescape marks with
      | none => simp [Dialect.keyed?, hu]
      | some u =>
        by_cases hnum : NumberText u <;>
          simp [Dialect.keyed?, hu, hnum, Except.toOption, Dialect.stored]
    · rw [List.cons_append, endObject_comma hd]
      cases ms with
      | nil => exact absurd hts MembersText.ne_nil
      | cons m ms => cases unescape marks <;> simp [Dialect.keyed?]
  · have hnone : Dialect.stored.keyed? ((k, v) :: ms) = none := by
      unfold Dialect.keyed?
      split
      · next heq => simp at heq; exact absurd heq.1.2 (hv _)
      · rfl
    rw [hnone, List.cons_append, readKeyedNumber_other hb hc hspace hx]
    rfl

theorem readValue_array {cs rest : List Char} {c : Char} (hcs : skipSpace cs = c :: rest)
    (hc : c ≠ ']') (steps room : Nat) :
    readValue (steps + 1) (room + 1) ('[' :: cs) =
      readItems steps room [] cs >>= fun p => .ok (.array p.1, p.2) := by
  rw [← readItems_skipSpace steps room [] cs]
  simp only [readValue, skipSpace_cons_of_not (c := '[') (by decide), hcs]
  split
  · next heq => simp at heq
  · next heq => exact absurd (List.cons.inj heq).1 hc
  · rfl

theorem readValue_object {cs rest : List Char} (hcs : skipSpace cs = '"' :: rest)
    (steps room : Nat) :
    readValue (steps + 1) (room + 1) ('\x7b' :: cs) =
      readString [] rest >>= fun q =>
        if String.ofList q.1 == numberKey then readKeyedNumber q.2
        else readMembers steps room [] (String.ofList q.1) q.2 >>= fun p =>
          .ok (.object p.1, p.2) := by
  simp only [readValue, skipSpace_cons_of_not (c := '\x7b') (by decide), hcs]
  rfl

theorem readValue_open_zero {c : Char} (hc : c = '[' ∨ c = '\x7b') (steps : Nat)
    (cs : List Char) : (readValue (steps + 1) 0 (c :: cs)).toOption = none := by
  rcases hc with rfl | rfl
  · simp [readValue, skipSpace_cons_of_not (c := '[') (by decide), Except.toOption]
  · simp [readValue, skipSpace_cons_of_not (c := '\x7b') (by decide), Except.toOption]

theorem endsNumber_follow {b e r : List Char} (hb : Blanks b) {c : Char}
    (hc : c = ']' ∨ c = '\x7d') (he : e = [] ∨ ∃ ts, e = ',' :: ts) :
    EndsNumber (b ++ (e ++ c :: r)) := by
  refine endsNumber_blanks hb ?_
  rcases he with rfl | ⟨ts, rfl⟩
  · exact endsNumber_cons (Or.inr hc) r
  · exact endsNumber_cons (Or.inl rfl) _

theorem Dialect.depth_of_keyed? {d : Dialect} {ms : List (List Mark × Tree)} {x : Value}
    (h : d.keyed? ms = some x) : depthMembers ms = 0 := by
  unfold Dialect.keyed? at h
  split at h
  · rfl
  · simp at h

mutual

/-- On a text of a tree the reader gives the stored value of the tree, and it refuses exactly if
there is none or the tree is too deep. -/
theorem readValue_text (v : Tree) {t : List Char} (h : ValueText Blanks v t) {steps : Nat}
    (hsteps : 2 * t.length ≤ steps + 1) (room : Nat) {r : List Char} (hr : EndsNumber r) :
    (readValue steps room (t ++ r)).toOption =
      if v.depth ≤ room then (v.value? .stored).map (·, r) else none := by
  obtain ⟨steps, rfl⟩ : ∃ n, steps = n + 1 := by
    obtain ⟨c, cs, rfl, -⟩ := h.exists_cons
    exact ⟨steps - 1, by simp at hsteps; omega⟩
  cases h with
  | wordNull =>
    simp [readValue, skipSpace_cons_of_not (c := 'n') (by decide), readWord, Tree.value?, Tree.depth,
      bind, Except.bind, pure, Except.pure, Except.toOption]
  | wordTrue =>
    simp [readValue, skipSpace_cons_of_not (c := 't') (by decide), readWord, Tree.value?, Tree.depth,
      bind, Except.bind, pure, Except.pure, Except.toOption]
  | wordFalse =>
    simp [readValue, skipSpace_cons_of_not (c := 'f') (by decide), readWord, Tree.value?, Tree.depth,
      bind, Except.bind, pure, Except.pure, Except.toOption]
  | number ht =>
    rw [readValue_number ht hr]
    simp [Tree.value?, Tree.depth, Dialect.stored, Except.toOption]
  | string hms =>
    have hread := readValue_string hms steps room r
    simp only [List.cons_append, List.append_assoc, List.nil_append, hread]
    simp [Tree.value?, Tree.depth, Function.comp_def]
  | emptyArray hw =>
    cases room with
    | zero => simp [readValue_open_zero (c := '[') (Or.inl rfl), Tree.depth]
    | succ room =>
      simp [readValue, skipSpace_cons_of_not (c := '[') (by decide), skipSpace_blanks hw,
        skipSpace_cons_of_not (c := ']') (by decide), Tree.value?, itemValues?, Tree.depth,
        depthItems, Except.toOption]
  | @array items t hitems =>
    cases room with
    | zero => simp [readValue_open_zero (c := '[') (Or.inl rfl), Tree.depth]
    | succ room =>
      obtain ⟨c, cs, hskip, hc⟩ := hitems.skipSpace_append (']' :: r)
      have hlen : 2 * t.length ≤ steps := by simp at hsteps; omega
      have ih := readItems_text items hitems hlen room [] r
      simp only [List.cons_append, List.append_assoc, List.nil_append]
      rw [readValue_array hskip hc, toOption_bind, ih]
      simp only [Tree.depth, Nat.add_le_add_iff_right, Tree.value?]
      split
      · cases itemValues? .stored items <;> simp [Except.toOption]
      · rfl
  | emptyObject hw =>
    cases room with
    | zero => simp [readValue_open_zero (c := '\x7b') (Or.inr rfl), Tree.depth]
    | succ room =>
      simp [readValue, skipSpace_cons_of_not (c := '\x7b') (by decide), skipSpace_blanks hw,
        skipSpace_cons_of_not (c := '\x7d') (by decide), Tree.value?, memberValues?, gather,
        Dialect.marks, Tree.depth, depthMembers, Except.toOption]
  | @object members t hmembers =>
    cases room with
    | zero => simp [readValue_open_zero (c := '\x7b') (Or.inr rfl), Tree.depth]
    | succ room =>
      match members with
      | [] => exact absurd hmembers MembersText.ne_nil
      | (k, v) :: ms =>
        obtain ⟨a, b, c, s, d, e, ha, hk, hb, hc, hs, hd, rfl, he⟩ := hmembers.cons_inv
        have hlen : 2 * (b ++ ':' :: (c ++ (s ++ (d ++ e)))).length ≤ steps := by
          simp at hsteps ⊢; omega
        have hkey := readString_marks k hk [] (b ++ ':' :: (c ++ (s ++ (d ++ (e ++ '\x7d' :: r)))))
        have hkeyed := readKeyedNumber_text (k := k) hb hc hs hd he r
        have ih := fun key => readMembers_text v ms hb hc hs hd he hlen room [] key r
        have hskip : skipSpace (a ++ '"' :: (marksText k ++
            '"' :: (b ++ ':' :: (c ++ (s ++ (d ++ (e ++ '\x7d' :: r))))))) =
            '"' :: (marksText k ++ '"' :: (b ++ ':' :: (c ++ (s ++ (d ++ (e ++ '\x7d' :: r)))))) := by
          rw [skipSpace_blanks ha, skipSpace_cons_of_not (by decide)]
        simp only [List.cons_append, List.append_assoc, List.nil_append]
        rw [readValue_object hskip, toOption_bind, hkey]
        cases hu : unescape k with
        | none => simp [Tree.value?, Dialect.marks, memberValues?, hu]
        | some u =>
          simp only [Option.map_some, Option.bind_some, List.reverse_nil, List.nil_append]
          by_cases hmark : String.ofList u = numberKey
          · -- The object stands for a number; if it does, its only member is a string.
            have hmarks : Dialect.stored.marks ((k, v) :: ms) = true := by
              simp [Dialect.marks, hu, Dialect.stored, hmark]
            rw [if_pos (by simp [hmark]), hkeyed]
            simp only [Tree.value?, hmarks, if_true]
            split
            · rfl
            · next hdeep =>
              cases hnum : Dialect.stored.keyed? ((k, v) :: ms) with
              | none => rfl
              | some x => exact absurd (Dialect.depth_of_keyed? hnum) (by
                  simp only [Tree.depth] at hdeep; omega)
          · have hmarks : Dialect.stored.marks ((k, v) :: ms) = false := by
              have hne : ¬ numberKey = String.ofList u := fun h => hmark h.symm
              simp [Dialect.marks, hu, Dialect.stored, hne]
            rw [if_neg (by simp [hmark]), toOption_bind, ih]
            simp only [Tree.value?, hmarks, Bool.false_eq_true, if_false, Tree.depth, depthMembers,
              Nat.add_le_add_iff_right, memberValues?, hu, Option.bind_some]
            split
            · cases v.value? .stored with
              | none => rfl
              | some x => cases memberValues? .stored ms <;> simp [gather, Except.toOption]
            · rfl
termination_by steps

theorem readItems_text (vs : List Tree) {t : List Char} (h : ItemsText Blanks vs t) {steps : Nat}
    (hsteps : 2 * t.length ≤ steps) (room : Nat) (acc : List Value) (r : List Char) :
    (readItems steps room acc (t ++ ']' :: r)).toOption =
      if depthItems vs ≤ room then
        (itemValues? .stored vs).map fun xs => (acc.reverse ++ xs, r)
      else none := by
  match vs with
  | [] => exact absurd h ItemsText.ne_nil
  | v :: vs =>
    obtain ⟨a, s, b, e, ha, hs, hb, rfl, he⟩ := h.cons_inv
    obtain ⟨steps, rfl⟩ : ∃ n, steps = n + 1 := by
      obtain ⟨c, cs, rfl, -⟩ := hs.exists_cons
      exact ⟨steps - 1, by simp at hsteps; omega⟩
    have hends : EndsNumber (b ++ (e ++ ']' :: r)) :=
      endsNumber_follow hb (Or.inl rfl) (he.imp And.left fun ⟨ts, hts⟩ => ⟨ts, hts.1⟩)
    have hlen : 2 * s.length ≤ steps + 1 := by simp at hsteps; omega
    have hhead := readValue_text v hs hlen room hends
    simp only [List.append_assoc]
    rw [readItems_succ, toOption_bind, readValue_blanks ha, hhead]
    by_cases hdepth : v.depth ≤ room
    · rw [if_pos hdepth]
      rcases he with ⟨rfl, rfl⟩ | ⟨ts, rfl, hts⟩
      · cases hv : v.value? .stored with
        | none => simp [itemValues?, hv]
        | some x =>
          simp [itemValues?, hv, depthItems, hdepth, afterItem_done hb, Except.toOption, bind,
            Except.bind]
      · have hlen' : 2 * ts.length ≤ steps := by
          obtain ⟨c, cs, rfl, -⟩ := hs.exists_cons
          simp at hsteps; omega
        obtain ⟨c, cs, hskip, hc⟩ := hts.skipSpace_append (']' :: r)
        have hnext := afterItem_next hb hskip hc
        cases hv : v.value? .stored with
        | none => simp [itemValues?, hv]
        | some x =>
          have ih := readItems_text vs hts hlen' room (x :: acc) r
          simp only [Option.map_some, Option.bind_some, List.cons_append]
          rw [toOption_bind, hnext]
          simp only [Except.toOption, Option.bind_some]
          rw [readItems_skipSpace]
          simp only [Except.toOption] at ih
          rw [ih]
          simp only [itemValues?, hv, Option.bind_some, depthItems, Nat.max_le, hdepth, true_and,
            Option.map_map]
          congr 2
          funext xs
          simp
    · rw [if_neg hdepth, if_neg (by simp only [depthItems]; omega)]
      rfl
termination_by steps

theorem readMembers_text (v : Tree) (ms : List (List Mark × Tree)) {b c s d e : List Char}
    (hb : Blanks b) (hc : Blanks c) (hs : ValueText Blanks v s) (hd : Blanks d)
    (he : e = [] ∧ ms = [] ∨ ∃ ts, e = ',' :: ts ∧ MembersText Blanks ms ts) {steps : Nat}
    (hsteps : 2 * (b ++ ':' :: (c ++ (s ++ (d ++ e)))).length ≤ steps) (room : Nat)
    (acc : List (String × Value)) (key : String) (r : List Char) :
    (readMembers steps room acc key
        (b ++ ':' :: (c ++ (s ++ (d ++ (e ++ '\x7d' :: r)))))).toOption =
      if max v.depth (depthMembers ms) ≤ room then
        (v.value? .stored).bind fun x => (memberValues? .stored ms).map fun ys =>
          (ys.foldl (fun acc m => insertMember acc m.1 m.2) (insertMember acc key x), r)
      else none := by
  obtain ⟨steps, rfl⟩ : ∃ n, steps = n + 1 := ⟨steps - 1, by simp at hsteps; omega⟩
  have hends : EndsNumber (d ++ (e ++ '\x7d' :: r)) :=
    endsNumber_follow hd (Or.inr rfl) (he.imp And.left fun ⟨ts, hts⟩ => ⟨ts, hts.1⟩)
  have hlen : 2 * s.length ≤ steps + 1 := by simp at hsteps; omega
  have hhead := readValue_text v hs hlen room hends
  rw [readMembers_succ, readColon_append hb, toOption_bind, toOption_ok, Option.bind_some,
    toOption_bind, readValue_blanks hc, hhead]
  by_cases hdepth : v.depth ≤ room
  · rw [if_pos hdepth]
    cases hv : v.value? .stored with
    | none => simp
    | some x =>
      simp only [Option.map_some, Option.bind_some]
      rcases he with ⟨rfl, rfl⟩ | ⟨ts, rfl, hts⟩
      · rw [List.nil_append, toOption_bind, afterMember_done hd]
        simp [hdepth, depthMembers, memberValues?]
      · match ms with
        | [] => exact absurd hts MembersText.ne_nil
        | (k', v') :: ms =>
          obtain ⟨a', b', c', s', d', e', ha', hk', hb', hc', hs', hd', rfl, he'⟩ := hts.cons_inv
          have hlen' : 2 * (b' ++ ':' :: (c' ++ (s' ++ (d' ++ e')))).length ≤ steps := by
            simp at hsteps ⊢; omega
          have hkey := readString_marks k' hk' []
            (b' ++ ':' :: (c' ++ (s' ++ (d' ++ (e' ++ '\x7d' :: r)))))
          simp only [List.cons_append, List.append_assoc]
          rw [toOption_bind, afterMember_next hd ha', toOption_ok, Option.bind_some, toOption_bind,
            hkey]
          cases hu : unescape k' with
          | none => simp [memberValues?, hu]
          | some u =>
            have ih := readMembers_text v' ms hb' hc' hs' hd' he' hlen' room
              (insertMember acc key x) (String.ofList u) r
            simp only [Option.map_some, Option.bind_some, List.reverse_nil, List.nil_append, ih,
              memberValues?, hu, depthMembers, Nat.max_le, hdepth, true_and]
            split
            · cases v'.value? .stored with
              | none => simp
              | some x' => cases memberValues? .stored ms <;> simp
            · rfl
  · rw [if_neg hdepth, if_neg (by omega)]
    rfl
termination_by steps

end

theorem readString_nil_eq_ok {cs s r : List Char} (h : readString [] cs = .ok (s, r)) :
    ∃ marks, (∀ m ∈ marks, m.Valid) ∧ cs = marksText marks ++ '"' :: r ∧
      unescape marks = some s := by
  obtain ⟨marks, u, hms, hcs, hu, hs⟩ := readString_eq_ok h
  exact ⟨marks, hms, hcs, by rw [hu, hs]; rfl⟩

theorem readColon_eq_ok {cs r : List Char} (h : readColon cs = .ok r) :
    ∃ b, Blanks b ∧ cs = b ++ ':' :: r := by
  obtain ⟨b, hb, hcs⟩ := exists_blanks_skipSpace cs
  unfold readColon at h
  split at h
  · simp at h
  · next heq =>
    obtain rfl : _ = r := by simpa using h
    exact ⟨b, hb, by rw [hcs, heq]⟩
  · simp at h

theorem endObject_eq_ok {cs r : List Char} (h : endObject cs = .ok r) :
    ∃ d, Blanks d ∧ cs = d ++ '\x7d' :: r := by
  obtain ⟨d, hd, hcs⟩ := exists_blanks_skipSpace cs
  unfold endObject at h
  split at h
  · simp at h
  · next heq =>
    obtain rfl : _ = r := by simpa using h
    exact ⟨d, hd, by rw [hcs, heq]⟩
  · simp at h
  · simp at h

theorem afterItem_eq_ok {cs : List Char} {x : AfterItem} (h : afterItem cs = .ok x) :
    ∃ b, Blanks b ∧ ((∃ r, x = .done r ∧ cs = b ++ ']' :: r) ∨
      ∃ w r, x = .next r ∧ Blanks w ∧ cs = b ++ ',' :: (w ++ r)) := by
  obtain ⟨b, hb, hcs⟩ := exists_blanks_skipSpace cs
  refine ⟨b, hb, ?_⟩
  unfold afterItem at h
  split at h
  · simp at h
  · next r heq =>
    obtain rfl : AfterItem.done r = x := by simpa using h
    exact Or.inl ⟨r, rfl, by rw [hcs, heq]⟩
  · next r heq =>
    obtain ⟨w, hw, hr⟩ := exists_blanks_skipSpace r
    split at h
    · simp at h
    · simp at h
    · obtain rfl : AfterItem.next (skipSpace r) = x := by simpa using h
      exact Or.inr ⟨w, skipSpace r, rfl, hw, by rw [← hr, hcs, heq]⟩
  · simp at h

theorem afterMember_eq_ok {cs : List Char} {x : AfterItem} (h : afterMember cs = .ok x) :
    ∃ d, Blanks d ∧ ((∃ r, x = .done r ∧ cs = d ++ '\x7d' :: r) ∨
      ∃ a r, x = .next r ∧ Blanks a ∧ cs = d ++ ',' :: (a ++ '"' :: r)) := by
  obtain ⟨d, hd, hcs⟩ := exists_blanks_skipSpace cs
  refine ⟨d, hd, ?_⟩
  unfold afterMember at h
  split at h
  · simp at h
  · next r heq =>
    obtain rfl : AfterItem.done r = x := by simpa using h
    exact Or.inl ⟨r, rfl, by rw [hcs, heq]⟩
  · next r heq =>
    obtain ⟨a, ha, hr⟩ := exists_blanks_skipSpace r
    split at h
    · simp at h
    · next r' heq' =>
      obtain rfl : AfterItem.next r' = x := by simpa using h
      exact Or.inr ⟨a, r', rfl, ha, by rw [← heq', ← hr, hcs, heq]⟩
    · simp at h
    · simp at h
  · simp at h

theorem readKeyedNumber_eq_ok {cs r : List Char} {x : Value}
    (h : readKeyedNumber cs = .ok (x, r)) :
    ∃ b c marks s d, Blanks b ∧ Blanks c ∧ (∀ m ∈ marks, m.Valid) ∧ Blanks d ∧
      cs = b ++ ':' :: (c ++ '"' :: (marksText marks ++ '"' :: (d ++ '\x7d' :: r))) ∧
      unescape marks = some s ∧ NumberText s ∧ x = .number (String.ofList (keptToken s)) := by
  obtain ⟨cs₁, hcolon, hrest⟩ := bind_eq_ok.mp h
  obtain ⟨b, hb, rfl⟩ := readColon_eq_ok hcolon
  obtain ⟨c, hc, hcs⟩ := exists_blanks_skipSpace cs₁
  split at hrest
  · next cs₂ heq =>
    obtain ⟨⟨s, cs₃⟩, hs, hdigits⟩ := bind_eq_ok.mp hrest
    obtain ⟨marks, hms, rfl, hu⟩ := readString_nil_eq_ok hs
    dsimp only at hdigits
    split at hdigits
    · next n hn =>
      obtain ⟨cs₄, hend, hnumber⟩ := bind_eq_ok.mp hdigits
      obtain ⟨d, hd, rfl⟩ := endObject_eq_ok hend
      obtain ⟨hnum, hkept⟩ := wholeNumeral_eq_ok hn
      obtain ⟨rfl, rfl⟩ : Value.number (String.ofList n.text) = x ∧ cs₄ = r := by
        simpa [pure, Except.pure] using hnumber
      exact ⟨b, c, marks, s, d, hb, hc, hms, hd, by rw [hcs, heq], hu, hnum, by rw [hkept]⟩
    · split at hdigits <;> simp [throw, throwThe, MonadExceptOf.throw] at hdigits
  · simp [throw, throwThe, MonadExceptOf.throw] at hrest

theorem ItemsText.blanks_append {w : List Char} (hw : Blanks w) {vs : List Tree} {t : List Char}
    (h : ItemsText Blanks vs t) : ItemsText Blanks vs (w ++ t) := by
  cases h with
  | one ha h hb => rw [← List.append_assoc]; exact .one (hw.append ha) h hb
  | cons ha h hb hs => rw [← List.append_assoc]; exact .cons (hw.append ha) h hb hs

theorem MembersText.blanks_append {w : List Char} (hw : Blanks w) {ms : List (List Mark × Tree)}
    {t : List Char} (h : MembersText Blanks ms t) : MembersText Blanks ms (w ++ t) := by
  cases h with
  | one ha hk hb hc h hd => rw [← List.append_assoc]; exact .one (hw.append ha) hk hb hc h hd
  | cons ha hk hb hc h hd hs =>
    rw [← List.append_assoc]; exact .cons (hw.append ha) hk hb hc h hd hs

theorem blanks_nil : Blanks [] := by simp [Blanks]

mutual

/-- Whatever is read as a value is a text of a tree with that value, after some blanks. -/
theorem readValue_eq_ok (steps : Nat) {room : Nat} {cs r : List Char} {x : Value}
    (h : readValue steps room cs = .ok (x, r)) :
    ∃ w v t, Blanks w ∧ ValueText Blanks v t ∧ cs = w ++ (t ++ r) ∧ v.depth ≤ room ∧
      v.value? .stored = some x := by
  cases steps with
  | zero => simp [readValue] at h
  | succ steps =>
    obtain ⟨w, hw, hcs⟩ := exists_blanks_skipSpace cs
    simp only [readValue] at h
    split at h
    · simp at h
    · next cs' heq =>
      obtain ⟨r', hword, hx⟩ := bind_eq_ok.mp h
      obtain ⟨rfl, rfl⟩ : Value.null = x ∧ r' = r := by simpa [pure, Except.pure] using hx
      rw [eq_append_of_readWord hword] at heq
      exact ⟨w, .null, _, hw, .wordNull, by rw [hcs, heq]; rfl, by simp [Tree.depth], rfl⟩
    · next cs' heq =>
      obtain ⟨r', hword, hx⟩ := bind_eq_ok.mp h
      obtain ⟨rfl, rfl⟩ : Value.bool true = x ∧ r' = r := by simpa [pure, Except.pure] using hx
      rw [eq_append_of_readWord hword] at heq
      exact ⟨w, .bool true, _, hw, .wordTrue, by rw [hcs, heq]; rfl, by simp [Tree.depth], rfl⟩
    · next cs' heq =>
      obtain ⟨r', hword, hx⟩ := bind_eq_ok.mp h
      obtain ⟨rfl, rfl⟩ : Value.bool false = x ∧ r' = r := by simpa [pure, Except.pure] using hx
      rw [eq_append_of_readWord hword] at heq
      exact ⟨w, .bool false, _, hw, .wordFalse, by rw [hcs, heq]; rfl, by simp [Tree.depth], rfl⟩
    · next cs' heq =>
      obtain ⟨⟨s, r'⟩, hs, hx⟩ := bind_eq_ok.mp h
      obtain ⟨marks, hms, rfl, hu⟩ := readString_nil_eq_ok hs
      obtain ⟨rfl, rfl⟩ : Value.string (String.ofList s) = x ∧ r' = r := by
        simpa [pure, Except.pure] using hx
      exact ⟨w, .string marks, _, hw, .string hms, by rw [hcs, heq]; simp, by simp [Tree.depth],
        by simp [Tree.value?, hu]⟩
    · next cs' heq =>
      split at h
      · simp at h
      · next room =>
        obtain ⟨a, ha, hcs'⟩ := exists_blanks_skipSpace cs'
        split at h
        · simp at h
        · next r' heq' =>
          obtain ⟨rfl, rfl⟩ : Value.array [] = x ∧ r' = r := by simpa using h
          exact ⟨w, .array [], _, hw, .emptyArray ha, by rw [hcs, heq, hcs', heq']; simp,
            by simp [Tree.depth, depthItems], rfl⟩
        · obtain ⟨⟨xs, r'⟩, hitems, hx⟩ := bind_eq_ok.mp h
          obtain ⟨vs, t, ys, ht, hrest, hdepth, hys, rfl⟩ := readItems_eq_ok steps hitems
          obtain ⟨rfl, rfl⟩ : Value.array xs = x ∧ r' = r := by
            simpa [pure, Except.pure] using hx
          exact ⟨w, .array vs, _, hw, .array (ht.blanks_append ha),
            by rw [hcs, heq, hcs', hrest]; simp, by simpa [Tree.depth] using hdepth,
            by simp [Tree.value?, hys]⟩
    · next cs' heq =>
      split at h
      · simp at h
      · next room =>
        obtain ⟨a, ha, hcs'⟩ := exists_blanks_skipSpace cs'
        split at h
        · simp at h
        · next r' heq' =>
          obtain ⟨rfl, rfl⟩ : Value.object [] = x ∧ r' = r := by simpa using h
          exact ⟨w, .object [], _, hw, .emptyObject ha, by rw [hcs, heq, hcs', heq']; simp,
            by simp [Tree.depth, depthMembers], rfl⟩
        · next cs'' heq' =>
          obtain ⟨⟨key, cs₁⟩, hkey, hrest⟩ := bind_eq_ok.mp h
          obtain ⟨k, hk, rfl, hu⟩ := readString_nil_eq_ok hkey
          simp only at hrest
          split at hrest
          · next hmark =>
            obtain ⟨b, c, marks, s, d, hb, hc, hms, hd, rfl, hs, hnum, rfl⟩ :=
              readKeyedNumber_eq_ok hrest
            have hmember : MembersText Blanks [(k, .string marks)] _ :=
              .one ha hk hb hc (.string hms) hd
            have hmarks : Dialect.stored.marks [(k, .string marks)] = true := by
              simp [Dialect.marks, hu, Dialect.stored, eq_of_beq hmark]
            exact ⟨w, .object [(k, .string marks)], _, hw, .object hmember,
              by rw [hcs, heq, hcs', heq']; simp, by simp [Tree.depth, depthMembers],
              by simp [Tree.value?, hmarks, Dialect.keyed?, hs, hnum]; rfl⟩
          · next hmark =>
            obtain ⟨⟨xs, r'⟩, hmembers, hx⟩ := bind_eq_ok.mp hrest
            obtain ⟨v, ms, u, y, ys, rfl, htext, hdepth, hy, hys, rfl⟩ :=
              readMembers_eq_ok steps hmembers
            obtain ⟨rfl, rfl⟩ := Prod.mk.inj (Except.ok.inj hx)
            have hmarks : Dialect.stored.marks ((k, v) :: ms) = false := by
              have hne : ¬ numberKey = String.ofList key := fun h => hmark (by simp [h])
              simp [Dialect.marks, hu, Dialect.stored, hne]
            exact ⟨w, .object ((k, v) :: ms), _, hw, .object ((htext k hk).blanks_append ha),
              by rw [hcs, heq, hcs', heq']; simp,
              by simpa [Tree.depth, depthMembers] using hdepth,
              by simp [Tree.value?, hmarks, memberValues?, hu, hy, hys, gather]⟩
        · simp at h
    · next c cs' _ _ _ _ _ _ heq =>
      split at h
      · obtain ⟨⟨n, r'⟩, hn, hx⟩ := bind_eq_ok.mp h
        have hread : readNumeral (c :: cs') = .ok (n, r') := by
          cases hnum : readNumeral (c :: cs') with
          | error e => simp [hnum, NumeralFault.lift] at hn
          | ok p => simpa [hnum, NumeralFault.lift] using hn
        obtain ⟨token, htoken, ht, hkept⟩ := readNumeral_eq_ok hread
        obtain ⟨rfl, rfl⟩ : Value.number (String.ofList n.text) = x ∧ r' = r := by
          simpa [pure, Except.pure] using hx
        exact ⟨w, .number token, token, hw, .number ht, by rw [hcs, heq, htoken],
          by simp [Tree.depth], by simp [Tree.value?, Dialect.stored, hkept]⟩
      · simp at h
termination_by steps

theorem readItems_eq_ok (steps : Nat) {room : Nat} {acc xs : List Value} {cs r : List Char}
    (h : readItems steps room acc cs = .ok (xs, r)) :
    ∃ vs t ys, ItemsText Blanks vs t ∧ cs = t ++ ']' :: r ∧ depthItems vs ≤ room ∧
      itemValues? .stored vs = some ys ∧ xs = acc.reverse ++ ys := by
  cases steps with
  | zero => simp [readItems] at h
  | succ steps =>
    rw [readItems_succ] at h
    obtain ⟨⟨x, cs₁⟩, hvalue, hrest⟩ := bind_eq_ok.mp h
    obtain ⟨a, hafter, hend⟩ := bind_eq_ok.mp hrest
    obtain ⟨w, v, t, hw, hv, rfl, hdepth, hx⟩ := readValue_eq_ok steps hvalue
    obtain ⟨b, hb, ⟨r', rfl, rfl⟩ | ⟨w', r', rfl, hw', rfl⟩⟩ := afterItem_eq_ok hafter
    · obtain ⟨rfl, rfl⟩ : (x :: acc).reverse = xs ∧ r' = r := by simpa using hend
      refine ⟨[v], _, [x], .one hw hv hb, by simp, by simpa [depthItems] using hdepth, ?_, by simp⟩
      simp [itemValues?, hx]
    · obtain ⟨vs, ts, ys, hts, rfl, hdepths, hys, rfl⟩ := readItems_eq_ok steps hend
      refine ⟨v :: vs, _, x :: ys, .cons hw hv hb (hts.blanks_append hw'), by simp, ?_, ?_, by simp⟩
      · simp only [depthItems]; omega
      · simp [itemValues?, hx, hys]
termination_by steps

theorem readMembers_eq_ok (steps : Nat) {room : Nat} {acc xs : List (String × Value)}
    {key : String} {cs r : List Char} (h : readMembers steps room acc key cs = .ok (xs, r)) :
    ∃ v ms u x ys, cs = u ++ '\x7d' :: r ∧
      (∀ k, (∀ m ∈ k, m.Valid) →
        MembersText Blanks ((k, v) :: ms) ('"' :: (marksText k ++ '"' :: u))) ∧
      max v.depth (depthMembers ms) ≤ room ∧ v.value? .stored = some x ∧
      memberValues? .stored ms = some ys ∧
      xs = ys.foldl (fun acc m => insertMember acc m.1 m.2) (insertMember acc key x) := by
  cases steps with
  | zero => simp [readMembers] at h
  | succ steps =>
    rw [readMembers_succ] at h
    obtain ⟨cs₁, hcolon, hrest⟩ := bind_eq_ok.mp h
    obtain ⟨⟨x, cs₂⟩, hvalue, hrest⟩ := bind_eq_ok.mp hrest
    obtain ⟨after, hafter, hend⟩ := bind_eq_ok.mp hrest
    obtain ⟨b, hb, rfl⟩ := readColon_eq_ok hcolon
    obtain ⟨c, v, s, hc, hv, rfl, hdepth, hx⟩ := readValue_eq_ok steps hvalue
    obtain ⟨d, hd, ⟨r', rfl, rfl⟩ | ⟨a, r', rfl, ha, rfl⟩⟩ := afterMember_eq_ok hafter
    · obtain ⟨rfl, rfl⟩ := Prod.mk.inj (Except.ok.inj hend)
      refine ⟨v, [], b ++ ':' :: (c ++ (s ++ d)), x, [], by simp, fun k hk => ?_,
        by simpa [depthMembers] using hdepth, hx, rfl, rfl⟩
      exact .one blanks_nil hk hb hc hv hd
    · obtain ⟨⟨key', cs₃⟩, hkey, hmembers⟩ := bind_eq_ok.mp hend
      obtain ⟨k', hk', rfl, hu⟩ := readString_nil_eq_ok hkey
      obtain ⟨v', ms, u, y, ys, rfl, htext, hdepths, hy, hys, rfl⟩ :=
        readMembers_eq_ok steps hmembers
      refine ⟨v, (k', v') :: ms,
        b ++ ':' :: (c ++ (s ++ (d ++ ',' :: (a ++ '"' :: (marksText k' ++ '"' :: u))))), x,
        (String.ofList key', y) :: ys, by simp, fun k hk => ?_, ?_, hx, ?_, rfl⟩
      · exact .cons blanks_nil hk hb hc hv hd ((htext k' hk').blanks_append ha)
      · simp only [depthMembers]; omega
      · simp [memberValues?, hu, hy, hys]
termination_by steps

end

theorem endText_blanks {b : List Char} (hb : Blanks b) : endText b = .ok () := by
  have hskip : skipSpace b = [] := by
    have hnil := skipSpace_blanks hb []
    rwa [List.append_nil] at hnil
  simp [endText, hskip]

theorem blanks_of_endText {cs : List Char} (h : endText cs = .ok ()) : Blanks cs := by
  obtain ⟨b, hb, hcs⟩ := exists_blanks_skipSpace cs
  unfold endText at h
  split at h
  · next heq =>
    rw [heq, List.append_nil] at hcs
    rwa [hcs]
  · simp at h

/-- A text of an array gives the stored values of its items, or is refused. -/
theorem parseList_text {items : List Tree} {t : List Char} (h : ArrayText Blanks items t) :
    (parseList t).toOption =
      if (Tree.array items).depth ≤ maxDepth then itemValues? .stored items else none := by
  obtain ⟨a, s, b, ha, hs, hb, rfl⟩ := h
  cases hs with
  | emptyArray hw =>
    simp [parseList, skipSpace_blanks ha, skipSpace_cons_of_not (c := '[') (by decide),
      skipSpace_blanks hw, skipSpace_cons_of_not (c := ']') (by decide), endText_blanks hb,
      itemValues?, Tree.depth, depthItems, maxDepth, toOption_bind, pure, Except.pure]
  | @array _ t ht =>
    obtain ⟨c, cs, hskip, hc⟩ := ht.skipSpace_append (']' :: b)
    have hsteps : 2 * t.length ≤ stepsFor (a ++ ('[' :: (t ++ [']']) ++ b)) := by
      simp [stepsFor]; omega
    have hread := readItems_text items ht hsteps (maxDepth - 1) [] b
    rw [← readItems_skipSpace, hskip] at hread
    simp only [List.cons_append, List.append_assoc, List.nil_append] at hread ⊢
    simp only [parseList, skipSpace_blanks ha, skipSpace_cons_of_not (c := '[') (by decide), hskip]
    split
    · next heq => simp at heq
    · next heq => exact absurd (List.cons.inj heq).1 hc
    · have hdepth : (Tree.array items).depth ≤ maxDepth ↔ depthItems items ≤ maxDepth - 1 := by
        simp only [Tree.depth, maxDepth]; omega
      rw [toOption_bind, hread]
      simp only [hdepth]
      split
      · cases itemValues? .stored items with
        | none => rfl
        | some xs => simp [endText_blanks hb, bind, Except.bind, pure, Except.pure]
      · rfl

/-- The reader of arrays accepts exactly the texts of arrays that are not too deep and have a stored
value. -/
theorem parseList_eq_ok_iff {t : List Char} {xs : List Value} :
    parseList t = .ok xs ↔
      ∃ items, ArrayText Blanks items t ∧ (Tree.array items).depth ≤ maxDepth ∧
        itemValues? .stored items = some xs := by
  constructor
  · intro h
    obtain ⟨a, ha, ht⟩ := exists_blanks_skipSpace t
    unfold parseList at h
    split at h
    · simp at h
    · next rest heq =>
      obtain ⟨w, hw, hrest⟩ := exists_blanks_skipSpace rest
      split at h
      · simp at h
      · next b heq' =>
        obtain ⟨⟨⟩, hend, hx⟩ := bind_eq_ok.mp h
        obtain rfl : [] = xs := by simpa [pure, Except.pure] using hx
        refine ⟨[], ⟨a, '[' :: (w ++ [']']), b, ha, .emptyArray hw, blanks_of_endText hend, ?_⟩,
          by simp [Tree.depth, depthItems, maxDepth], rfl⟩
        rw [ht, heq, hrest, heq']
        simp
      · obtain ⟨⟨ys, b⟩, hitems, hx⟩ := bind_eq_ok.mp h
        obtain ⟨⟨⟩, hend, hx⟩ := bind_eq_ok.mp hx
        obtain rfl : ys = xs := by simpa [pure, Except.pure] using hx
        obtain ⟨vs, s, zs, hs, hcs, hdepth, hzs, rfl⟩ := readItems_eq_ok _ hitems
        refine ⟨vs, ⟨a, '[' :: ((w ++ s) ++ [']']), b, ha, .array (hs.blanks_append hw),
          blanks_of_endText hend, ?_⟩, ?_, hzs⟩
        · rw [ht, heq, hrest, hcs]
          simp
        · simp only [Tree.depth, maxDepth] at hdepth ⊢; omega
    · simp at h
  · rintro ⟨items, ht, hdepth, hxs⟩
    have hread := parseList_text ht
    rw [if_pos hdepth, hxs] at hread
    cases h : parseList t with
    | ok ys => simpa [h] using hread
    | error e => simp [h] at hread

end LintRelay.Json
