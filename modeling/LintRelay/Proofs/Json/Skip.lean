import LintRelay.Json.Skip
import LintRelay.Proofs.Json.Reader
/-! Passing over a value against the grammar. What is passed over is a text of a value, and every
text of a value is passed over, however deep it is. The brackets on the stack are open; what they
still wait for is a relation between the text that is left and what is left after it. -/
namespace LintRelay.Json

open Except (bind_eq_ok)

/-! ### Strings -/

theorem skipString_plain {c : Char} (hc : (Mark.plain c).Valid) (cs : List Char) :
    skipString (c :: cs) = skipString cs := by
  obtain ⟨hlow, hquote, hslash⟩ := hc
  rw [skipString]
  · rw [if_neg (by omega)]
  · exact hquote
  · exact fun _ _ _ _ _ h => absurd h hslash
  · exact fun _ h => absurd h hslash
  · exact fun _ _ h => absurd h hslash
  · exact fun h => absurd h hslash

theorem skipString_letter {l : Char} (hl : (Mark.letter l).Valid) (cs : List Char) :
    skipString ('\\' :: l :: cs) = skipString cs := by
  obtain ⟨e, he⟩ := Option.isSome_iff_exists.mp ((escapeChar?_isSome_iff l).mpr hl)
  have hu := letter_ne_u hl
  rw [skipString]
  · rw [he]
  · exact fun _ _ _ _ _ h => absurd h hu
  · exact hu

theorem skipString_code {a b c d : Char} (h : (Mark.code a b c d).Valid) (cs : List Char) :
    skipString ('\\' :: 'u' :: a :: b :: c :: d :: cs) = skipString cs := by
  obtain ⟨n, hn⟩ := Option.isSome_iff_exists.mp ((hexValue?_isSome_iff a b c d).mpr h)
  simp [skipString, hn]

/-- Valid marks are passed over, surrogates without a partner too. -/
theorem skipString_marks {marks : List Mark} (hms : ∀ m ∈ marks, m.Valid) (r : List Char) :
    skipString (marksText marks ++ '"' :: r) = .ok r := by
  induction marks with
  | nil => simp [skipString]
  | cons m ms ih =>
    obtain ⟨hm, hrest⟩ := List.forall_mem_cons.mp hms
    rw [marksText_cons, List.append_assoc]
    cases m with
    | plain c => exact (skipString_plain hm _).trans (ih hrest)
    | letter l => exact (skipString_letter hm _).trans (ih hrest)
    | code a b c d => exact (skipString_code hm _).trans (ih hrest)

theorem skipString_eq_ok {cs r : List Char} (h : skipString cs = .ok r) :
    ∃ marks, (∀ m ∈ marks, m.Valid) ∧ cs = marksText marks ++ '"' :: r := by
  fun_induction skipString cs with
  | case2 cs =>
    obtain rfl : cs = r := by simpa using h
    exact ⟨[], by simp, rfl⟩
  | case4 a b c d cs n hn ih =>
    obtain ⟨marks, hmarks, rfl⟩ := ih h
    have hfirst := (hexValue?_isSome_iff a b c d).mp (by simp [hn])
    exact ⟨.code a b c d :: marks, List.forall_mem_cons.mpr ⟨hfirst, hmarks⟩, by simp [Mark.text]⟩
  | case6 l cs _ _ e he ih =>
    obtain ⟨marks, hmarks, rfl⟩ := ih h
    have hfirst := (escapeChar?_isSome_iff l).mp (by simp [he])
    exact ⟨.letter l :: marks, List.forall_mem_cons.mpr ⟨hfirst, hmarks⟩, by simp [Mark.text]⟩
  | case10 c cs hquote _ _ hslash hend hlow ih =>
    obtain ⟨marks, hmarks, rfl⟩ := ih h
    have hne : c ≠ '\\' := by
      rintro rfl
      cases hcs : marksText marks ++ '"' :: r with
      | nil => exact hend rfl hcs
      | cons d ds => exact hslash d ds rfl hcs
    have hfirst : (Mark.plain c).Valid := ⟨by omega, hquote, hne⟩
    exact ⟨.plain c :: marks, List.forall_mem_cons.mpr ⟨hfirst, hmarks⟩, by simp [Mark.text]⟩
  | case1 | case3 | case5 | case7 | case8 | case9 => simp at h

/-! ### What open brackets wait for -/

def StartsValue (cs rest : List Char) : Prop :=
  ∃ w v t, Blanks w ∧ ValueText Blanks v t ∧ cs = w ++ (t ++ rest)

def StartsMember (cs rest : List Char) : Prop :=
  ∃ a k b cs', Blanks a ∧ (∀ m ∈ k, m.Valid) ∧ Blanks b ∧ StartsValue cs' rest ∧
    cs = a ++ '"' :: (marksText k ++ '"' :: (b ++ ':' :: cs'))

def Bracket.Starts : Bracket → List Char → List Char → Prop
  | .list => StartsValue
  | .object => StartsMember

/-- Open brackets, from the innermost one on, are closed in a text, maybe after more of what they
hold; the last argument is what is left then. -/
inductive Closes : List Bracket → List Char → List Char → Prop
  | none (r : List Char) : Closes [] r r
  | close {top : Bracket} {below : List Bracket} {b cs r : List Char} (hb : Blanks b)
      (h : Closes below cs r) : Closes (top :: below) (b ++ top.close :: cs) r
  | next {top : Bracket} {below : List Bracket} {b cs rest r : List Char} (hb : Blanks b)
      (hcs : top.Starts cs rest) (h : Closes (top :: below) rest r) :
      Closes (top :: below) (b ++ ',' :: cs) r

/-- What is left when the next value is due: nothing but the rest, or what the innermost bracket
holds and then what closes it. -/
def Due : List Bracket → List Char → List Char → Prop
  | [], cs, r => cs = r
  | top :: below, cs, r => ∃ rest, top.Starts cs rest ∧ Closes (top :: below) rest r

theorem Bracket.isSpace_close (top : Bracket) : isSpace top.close = false := by
  cases top <;> decide

theorem Bracket.close_ne_comma (top : Bracket) : top.close ≠ ',' := by
  cases top <;> decide

theorem closes_of_closeBrackets {stack stack' : List Bracket} {cs cs' r : List Char}
    (h : closeBrackets false cs stack = .ok (cs', stack')) (hdue : Due stack' cs' r) :
    Closes stack cs r := by
  induction stack generalizing cs with
  | nil =>
    obtain ⟨rfl, rfl⟩ : cs = cs' ∧ [] = stack' := by simpa [closeBrackets] using h
    obtain rfl : cs = r := hdue
    exact .none cs
  | cons top below ih =>
    obtain ⟨b, hb, hcs⟩ := exists_blanks_skipSpace cs
    rw [closeBrackets] at h
    split at h
    · simp at h
    · next c rest heq =>
      rw [hcs, heq]
      split at h
      · next hcomma =>
        obtain rfl : c = ',' := by simpa using hcomma
        obtain ⟨rfl, rfl⟩ : rest = cs' ∧ top :: below = stack' := by simpa using h
        obtain ⟨rest', hstarts, hcloses⟩ := hdue
        exact .next hb hstarts hcloses
      · split at h
        · next hclose =>
          obtain rfl : c = top.close := by simpa using hclose
          exact .close hb (ih h)
        · simp at h

theorem Closes.exists_closeBrackets {stack : List Bracket} {cs r : List Char}
    (h : Closes stack cs r) :
    ∃ cs' stack', closeBrackets false cs stack = .ok (cs', stack') ∧ Due stack' cs' r ∧
      cs'.length ≤ cs.length := by
  induction h with
  | none r => exact ⟨r, [], rfl, rfl, Nat.le_refl _⟩
  | @close top below b cs r hb _ ih =>
    obtain ⟨cs', stack', hclosed, hdue, hle⟩ := ih
    refine ⟨cs', stack', ?_, hdue, by simp; omega⟩
    rw [closeBrackets, skipSpace_blanks hb, skipSpace_cons_of_not top.isSpace_close]
    simp [top.close_ne_comma, hclosed]
  | @next top below b cs rest r hb hcs h _ =>
    refine ⟨cs, top :: below, ?_, ⟨rest, hcs, h⟩, by simp; omega⟩
    rw [closeBrackets, skipSpace_blanks hb, skipSpace_cons_of_not (by decide)]
    simp

theorem Closes.endsNumber {top : Bracket} {below : List Bracket} {cs r : List Char}
    (h : Closes (top :: below) cs r) : EndsNumber cs := by
  cases h with
  | @close _ _ b cs _ hb _ =>
    refine endsNumber_blanks hb (endsNumber_cons ?_ cs)
    cases top <;> simp [Bracket.close]
  | @next _ _ b cs _ _ hb _ _ => exact endsNumber_blanks hb (endsNumber_cons (Or.inl rfl) cs)

/-! ### Containers -/

def Bracket.opening : Bracket → Char
  | .list => '['
  | .object => '\x7b'

/-- What follows an opening bracket: its end, or what it holds and then its end. -/
def Opened (top : Bracket) (below : List Bracket) (cs r : List Char) : Prop :=
  (∃ w rest, Blanks w ∧ cs = w ++ top.close :: rest ∧ Closes below rest r) ∨
    Due (top :: below) cs r

theorem Bracket.Starts.blanks_append {top : Bracket} {w cs rest : List Char} (hw : Blanks w)
    (h : top.Starts cs rest) : top.Starts (w ++ cs) rest := by
  cases top with
  | list =>
    obtain ⟨w', v, t, hw', hv, rfl⟩ := h
    exact ⟨w ++ w', v, t, hw.append hw', hv, by simp⟩
  | object =>
    obtain ⟨a, k, b, cs', ha, hk, hb, hcs', rfl⟩ := h
    exact ⟨w ++ a, k, b, cs', hw.append ha, hk, hb, hcs', by simp⟩

/-- Without the blanks in front the same comes next, and it is not the end of the bracket. -/
theorem Bracket.Starts.skipSpace {top : Bracket} {cs rest : List Char} (h : top.Starts cs rest) :
    ∃ c cs', skipSpace cs = c :: cs' ∧ c ≠ top.close ∧ top.Starts (c :: cs') rest := by
  cases top with
  | list =>
    obtain ⟨w, v, t, hw, hv, rfl⟩ := h
    obtain ⟨c, cs, rfl, hspace, hc⟩ := hv.exists_cons
    refine ⟨c, cs ++ rest, ?_, by simp [Bracket.close] at hc ⊢; exact hc.1, [], v, c :: cs,
      blanks_nil, hv, rfl⟩
    rw [skipSpace_blanks hw, List.cons_append, skipSpace_cons_of_not hspace]
  | object =>
    obtain ⟨a, k, b, cs', ha, hk, hb, hcs', rfl⟩ := h
    refine ⟨'"', _, ?_, by decide, [], k, b, cs', blanks_nil, hk, hb, hcs', rfl⟩
    rw [skipSpace_blanks ha, skipSpace_cons_of_not (by decide)]

theorem opened_of_closeBrackets {top : Bracket} {below stack : List Bracket} {cs cs' r : List Char}
    (h : closeBrackets true cs (top :: below) = .ok (cs', stack)) (hdue : Due stack cs' r) :
    Opened top below cs r := by
  obtain ⟨w, hw, hcs⟩ := exists_blanks_skipSpace cs
  rw [closeBrackets] at h
  split at h
  · simp at h
  · next c rest heq =>
    rw [heq] at hcs
    rw [if_neg (by simp)] at h
    split at h
    · next hclose =>
      obtain rfl : c = top.close := by simpa using hclose
      exact Or.inl ⟨w, rest, hw, hcs, closes_of_closeBrackets h hdue⟩
    · obtain ⟨rfl, rfl⟩ : c :: rest = cs' ∧ top :: below = stack := by simpa using h
      obtain ⟨rest', hstarts, hcloses⟩ := hdue
      exact Or.inr ⟨rest', hcs ▸ hstarts.blanks_append hw, hcloses⟩

theorem Opened.exists_closeBrackets {top : Bracket} {below : List Bracket} {cs r : List Char}
    (h : Opened top below cs r) :
    ∃ cs' stack, closeBrackets true cs (top :: below) = .ok (cs', stack) ∧ Due stack cs' r ∧
      cs'.length ≤ cs.length := by
  rcases h with ⟨w, rest, hw, rfl, hcloses⟩ | ⟨rest, hstarts, hcloses⟩
  · obtain ⟨cs', stack, hclosed, hdue, hle⟩ := hcloses.exists_closeBrackets
    refine ⟨cs', stack, ?_, hdue, by simp; omega⟩
    rw [closeBrackets, skipSpace_blanks hw, skipSpace_cons_of_not top.isSpace_close]
    simp [hclosed]
  · obtain ⟨c, cs', hskip, hne, hstarts'⟩ := hstarts.skipSpace
    obtain ⟨w, -, hcs⟩ := exists_blanks_skipSpace cs
    refine ⟨c :: cs', top :: below, ?_, ⟨rest, hstarts', hcloses⟩, ?_⟩
    · rw [closeBrackets, hskip]
      simp [hne]
    · rw [hcs, hskip]
      simp

theorem Closes.exists_items {below : List Bracket} {cs r : List Char}
    (h : Closes (.list :: below) cs r) :
    ∃ e rest, cs = e ++ ']' :: rest ∧ Closes below rest r ∧
      ∀ w v t, Blanks w → ValueText Blanks v t → ∃ vs, ItemsText Blanks vs (w ++ (t ++ e)) := by
  generalize hstack : Bracket.list :: below = stack at h
  induction h with
  | none r => cases hstack
  | @close top _ b rest r hb h _ =>
    obtain ⟨rfl, rfl⟩ := List.cons.inj hstack
    exact ⟨b, rest, rfl, h, fun w v t hw hv => ⟨[v], .one hw hv hb⟩⟩
  | @next top _ b cs rest r hb hcs _ ih =>
    obtain ⟨rfl, rfl⟩ := List.cons.inj hstack
    obtain ⟨e, rest', rfl, hcloses, hitems⟩ := ih rfl
    obtain ⟨w', v', t', hw', hv', rfl⟩ := hcs
    obtain ⟨vs, hvs⟩ := hitems w' v' t' hw' hv'
    exact ⟨b ++ ',' :: (w' ++ (t' ++ e)), rest', by simp, hcloses,
      fun w v t hw hv => ⟨v :: vs, .cons hw hv hb hvs⟩⟩

theorem Closes.exists_members {below : List Bracket} {cs r : List Char}
    (h : Closes (.object :: below) cs r) :
    ∃ e rest, cs = e ++ '\x7d' :: rest ∧ Closes below rest r ∧
      ∀ a k b c v t, Blanks a → (∀ m ∈ k, m.Valid) → Blanks b → Blanks c → ValueText Blanks v t →
        ∃ ms, MembersText Blanks ms
          (a ++ '"' :: (marksText k ++ '"' :: (b ++ ':' :: (c ++ (t ++ e))))) := by
  generalize hstack : Bracket.object :: below = stack at h
  induction h with
  | none r => cases hstack
  | @close top _ d rest r hd h _ =>
    obtain ⟨rfl, rfl⟩ := List.cons.inj hstack
    exact ⟨d, rest, rfl, h, fun a k b c v t ha hk hb hc hv => ⟨[(k, v)], .one ha hk hb hc hv hd⟩⟩
  | @next top _ d cs rest r hd hcs _ ih =>
    obtain ⟨rfl, rfl⟩ := List.cons.inj hstack
    obtain ⟨e, rest', rfl, hcloses, hmembers⟩ := ih rfl
    obtain ⟨a', k', b', _, ha', hk', hb', ⟨c', v', t', hc', hv', rfl⟩, rfl⟩ := hcs
    obtain ⟨ms, hms⟩ := hmembers a' k' b' c' v' t' ha' hk' hb' hc' hv'
    exact ⟨d ++ ',' :: (a' ++ '"' :: (marksText k' ++ '"' :: (b' ++ ':' :: (c' ++ (t' ++ e))))),
      rest', by simp, hcloses,
      fun a k b c v t ha hk hb hc hv => ⟨(k, v) :: ms, .cons ha hk hb hc hv hd hms⟩⟩

theorem Opened.exists_value {top : Bracket} {below : List Bracket} {cs r : List Char}
    (h : Opened top below cs r) :
    ∃ v t rest, ValueText Blanks v t ∧ top.opening :: cs = t ++ rest ∧ Closes below rest r := by
  rcases h with ⟨w, rest, hw, rfl, hcloses⟩ | ⟨rest, hstarts, hcloses⟩
  · cases top with
    | list => exact ⟨_, _, rest, .emptyArray hw, by simp [Bracket.opening, Bracket.close], hcloses⟩
    | object =>
      exact ⟨_, _, rest, .emptyObject hw, by simp [Bracket.opening, Bracket.close], hcloses⟩
  · cases top with
    | list =>
      obtain ⟨e, rest', rfl, hrest', hitems⟩ := hcloses.exists_items
      obtain ⟨w, v, t, hw, hv, rfl⟩ := hstarts
      obtain ⟨vs, hvs⟩ := hitems w v t hw hv
      exact ⟨_, _, rest', .array hvs, by simp [Bracket.opening], hrest'⟩
    | object =>
      obtain ⟨e, rest', rfl, hrest', hmembers⟩ := hcloses.exists_members
      obtain ⟨a, k, b, _, ha, hk, hb, ⟨c, v, t, hc, hv, rfl⟩, rfl⟩ := hstarts
      obtain ⟨ms, hms⟩ := hmembers a k b c v t ha hk hb hc hv
      exact ⟨_, _, rest', .object hms, by simp [Bracket.opening], hrest'⟩

theorem ItemsText.due {vs : List Tree} {s : List Char} (hs : ItemsText Blanks vs s)
    {below : List Bracket} {rest r : List Char} (h : Closes below rest r) :
    Due (.list :: below) (s ++ ']' :: rest) r := by
  induction vs generalizing s with
  | nil => exact absurd hs ItemsText.ne_nil
  | cons v vs ih =>
    obtain ⟨a, t, b, e, ha, ht, hb, rfl, he⟩ := hs.cons_inv
    refine ⟨b ++ (e ++ ']' :: rest), ⟨a, v, t, ha, ht, by simp⟩, ?_⟩
    rcases he with ⟨rfl, -⟩ | ⟨ts, rfl, hts⟩
    · exact .close hb h
    · obtain ⟨rest', hstarts, hcloses⟩ := ih hts
      exact .next hb hstarts hcloses

theorem MembersText.due {ms : List (List Mark × Tree)} {s : List Char}
    (hs : MembersText Blanks ms s) {below : List Bracket} {rest r : List Char}
    (h : Closes below rest r) :
    Due (.object :: below) (s ++ '\x7d' :: rest) r := by
  induction ms generalizing s with
  | nil => exact absurd hs MembersText.ne_nil
  | cons m ms ih =>
    obtain ⟨a, b, c, t, d, e, ha, hk, hb, hc, ht, hd, rfl, he⟩ := hs.cons_inv
    have hvalue : StartsValue (c ++ (t ++ (d ++ (e ++ '\x7d' :: rest))))
        (d ++ (e ++ '\x7d' :: rest)) := ⟨c, m.2, t, hc, ht, rfl⟩
    refine ⟨d ++ (e ++ '\x7d' :: rest), ⟨a, m.1, b, _, ha, hk, hb, hvalue, by simp⟩, ?_⟩
    rcases he with ⟨rfl, -⟩ | ⟨ts, rfl, hts⟩
    · exact .close hd h
    · obtain ⟨rest', hstarts, hcloses⟩ := ih hts
      exact .next hd hstarts hcloses

/-! ### Values -/

theorem skipHead_eq_ok {cs cs' : List Char} {opened : Option Bracket}
    (h : skipHead cs = .ok (cs', opened)) :
    (opened = none ∧ StartsValue cs cs') ∨
      ∃ top w, opened = some top ∧ Blanks w ∧ cs = w ++ top.opening :: cs' := by
  obtain ⟨w, hw, hcs⟩ := exists_blanks_skipSpace cs
  rw [skipHead] at h
  split at h
  · simp at h
  · next rest heq =>
    obtain ⟨rest', hword, hend⟩ := bind_eq_ok.mp h
    obtain ⟨rfl, rfl⟩ : rest' = cs' ∧ none = opened := by simpa [pure, Except.pure] using hend
    rw [eq_append_of_readWord hword] at heq
    exact Or.inl ⟨rfl, w, .null, _, hw, .wordNull, by rw [hcs, heq]; rfl⟩
  · next rest heq =>
    obtain ⟨rest', hword, hend⟩ := bind_eq_ok.mp h
    obtain ⟨rfl, rfl⟩ : rest' = cs' ∧ none = opened := by simpa [pure, Except.pure] using hend
    rw [eq_append_of_readWord hword] at heq
    exact Or.inl ⟨rfl, w, .bool true, _, hw, .wordTrue, by rw [hcs, heq]; rfl⟩
  · next rest heq =>
    obtain ⟨rest', hword, hend⟩ := bind_eq_ok.mp h
    obtain ⟨rfl, rfl⟩ : rest' = cs' ∧ none = opened := by simpa [pure, Except.pure] using hend
    rw [eq_append_of_readWord hword] at heq
    exact Or.inl ⟨rfl, w, .bool false, _, hw, .wordFalse, by rw [hcs, heq]; rfl⟩
  · next rest heq =>
    obtain ⟨rest', hstring, hend⟩ := bind_eq_ok.mp h
    obtain ⟨rfl, rfl⟩ : rest' = cs' ∧ none = opened := by simpa [pure, Except.pure] using hend
    obtain ⟨marks, hmarks, rfl⟩ := skipString_eq_ok hstring
    exact Or.inl ⟨rfl, w, .string marks, _, hw, .string hmarks, by rw [hcs, heq]; simp⟩
  · next rest heq =>
    obtain ⟨rfl, rfl⟩ : rest = cs' ∧ some .list = opened := by simpa using h
    exact Or.inr ⟨.list, w, rfl, hw, by rw [hcs, heq]; rfl⟩
  · next rest heq =>
    obtain ⟨rfl, rfl⟩ : rest = cs' ∧ some .object = opened := by simpa using h
    exact Or.inr ⟨.object, w, rfl, hw, by rw [hcs, heq]; rfl⟩
  · next c rest _ _ _ _ _ _ heq =>
    split at h
    · obtain ⟨rest', hnumeral, hend⟩ := bind_eq_ok.mp h
      obtain ⟨rfl, rfl⟩ : rest' = cs' ∧ none = opened := by simpa [pure, Except.pure] using hend
      rw [skipNumeral] at hnumeral
      split at hnumeral
      · next n rest'' hread =>
        obtain rfl : rest'' = rest' := by simpa using hnumeral
        obtain ⟨token, htoken, hnumber, -⟩ := readNumeral_eq_ok hread
        exact Or.inl ⟨rfl, w, .number token, token, hw, .number hnumber, by rw [hcs, heq, htoken]⟩
      · simp at hnumeral
    · simp at h

theorem skipHead_opening {w : List Char} (hw : Blanks w) (top : Bracket) (cs : List Char) :
    skipHead (w ++ top.opening :: cs) = .ok (cs, some top) := by
  have hspace : isSpace top.opening = false := by cases top <;> decide
  rw [skipHead, skipSpace_blanks hw, skipSpace_cons_of_not hspace]
  cases top <;> rfl

theorem skipHead_number {token r : List Char} (ht : NumberText token) (hr : EndsNumber r)
    {w : List Char} (hw : Blanks w) : skipHead (w ++ (token ++ r)) = .ok (r, none) := by
  obtain ⟨n, hread, -⟩ := readNumeral_append ht hr
  obtain ⟨c, cs, rfl, hc⟩ := ht.exists_cons
  obtain ⟨hspace, hother⟩ := startChar_of_number hc
  rw [List.cons_append] at hread ⊢
  rw [skipHead, skipSpace_blanks hw, skipSpace_cons_of_not hspace]
  have hstart : ∀ {d : Char} {ds : List Char}, c :: (cs ++ r) = d :: ds →
      d ∉ ['n', 't', 'f', '"', '[', ']', '\x7b', '\x7d', ','] := by
    intro d ds heq
    rw [← (List.cons.inj heq).1]
    exact hother
  split
  · next heq => cases heq
  · next heq => exact absurd (hstart heq) (by decide)
  · next heq => exact absurd (hstart heq) (by decide)
  · next heq => exact absurd (hstart heq) (by decide)
  · next heq => exact absurd (hstart heq) (by decide)
  · next heq => exact absurd (hstart heq) (by decide)
  · next heq => exact absurd (hstart heq) (by decide)
  · next heq =>
    obtain ⟨rfl, rfl⟩ := List.cons.inj heq
    simp [hc, skipNumeral, hread, bind, Except.bind, pure, Except.pure]

/-- A value is taken in one step, or it is a container. -/
theorem ValueText.skipHead {v : Tree} {t : List Char} (h : ValueText Blanks v t)
    {w rest : List Char} (hw : Blanks w) (hrest : EndsNumber rest) :
    Json.skipHead (w ++ (t ++ rest)) = .ok (rest, none) ∨
      ∃ top cs, t ++ rest = top.opening :: cs ∧
        ∀ below r, Closes below rest r → Opened top below cs r := by
  have hstart : ∀ (c : Char) (cs : List Char), isSpace c = false →
      skipSpace (w ++ c :: cs) = c :: cs := by
    intro c cs hc
    rw [skipSpace_blanks hw, skipSpace_cons_of_not hc]
  cases h with
  | wordNull =>
    left
    simp [Json.skipHead, hstart 'n' _ (by decide), readWord, bind, Except.bind, pure, Except.pure]
  | wordTrue =>
    left
    simp [Json.skipHead, hstart 't' _ (by decide), readWord, bind, Except.bind, pure, Except.pure]
  | wordFalse =>
    left
    simp [Json.skipHead, hstart 'f' _ (by decide), readWord, bind, Except.bind, pure, Except.pure]
  | number ht => exact Or.inl (skipHead_number ht hrest hw)
  | @string marks hms =>
    left
    simp [Json.skipHead, hstart '"' _ (by decide), skipString_marks hms, bind, Except.bind, pure,
      Except.pure]
  | @emptyArray w' hw' =>
    exact Or.inr ⟨.list, w' ++ ']' :: rest, by simp [Bracket.opening],
      fun below r h => Or.inl ⟨w', rest, hw', rfl, h⟩⟩
  | @array items s hitems =>
    exact Or.inr ⟨.list, s ++ ']' :: rest, by simp [Bracket.opening],
      fun below r h => Or.inr (hitems.due h)⟩
  | @emptyObject w' hw' =>
    exact Or.inr ⟨.object, w' ++ '\x7d' :: rest, by simp [Bracket.opening],
      fun below r h => Or.inl ⟨w', rest, hw', rfl, h⟩⟩
  | @object members s hmembers =>
    exact Or.inr ⟨.object, s ++ '\x7d' :: rest, by simp [Bracket.opening],
      fun below r h => Or.inr (hmembers.due h)⟩

theorem skipKey_eq_ok {cs cs' : List Char} (h : skipKey cs = .ok cs') :
    ∃ a k b, Blanks a ∧ (∀ m ∈ k, m.Valid) ∧ Blanks b ∧
      cs = a ++ '"' :: (marksText k ++ '"' :: (b ++ ':' :: cs')) := by
  obtain ⟨a, ha, hcs⟩ := exists_blanks_skipSpace cs
  rw [skipKey] at h
  split at h
  · simp at h
  · next rest heq =>
    obtain ⟨rest', hstring, hcolon⟩ := bind_eq_ok.mp h
    obtain ⟨k, hk, rfl⟩ := skipString_eq_ok hstring
    obtain ⟨b, hb, rfl⟩ := readColon_eq_ok hcolon
    exact ⟨a, k, b, ha, hk, hb, by rw [hcs, heq]⟩
  · simp at h

theorem skipKey_append {a b : List Char} (ha : Blanks a) {k : List Mark} (hk : ∀ m ∈ k, m.Valid)
    (hb : Blanks b) (cs : List Char) :
    skipKey (a ++ '"' :: (marksText k ++ '"' :: (b ++ ':' :: cs))) = .ok cs := by
  simp [skipKey, skipSpace_blanks ha, skipSpace_cons_of_not (c := '"') (by decide),
    skipString_marks hk, readColon_append hb, bind, Except.bind]

/-- Whatever a run passes over is a value, and then what closes the brackets on the stack. -/
theorem skipValueWith_eq_ok {steps : Nat} {stack : List Bracket} {cs r : List Char}
    (h : skipValueWith steps stack cs = .ok r) :
    ∃ rest, StartsValue cs rest ∧ Closes stack rest r := by
  induction steps generalizing stack cs with
  | zero => simp [skipValueWith] at h
  | succ steps ih =>
    rw [skipValueWith] at h
    split at h
    · simp at h
    · next cs₁ opened hhead =>
      -- When the next value is due, the run goes on as assumed.
      have hdue : ∃ cs₂ stack', closeBrackets opened.isSome cs₁ (opened.toList ++ stack) =
          .ok (cs₂, stack') ∧ Due stack' cs₂ r := by
        split at h
        · simp at h
        · next cs₂ hclosed => exact ⟨cs₂, [], hclosed, by simpa [Due] using h⟩
        · next cs₂ below hclosed => exact ⟨cs₂, _, hclosed, ih h⟩
        · next cs₂ below hclosed =>
          split at h
          · simp at h
          · next cs₃ hkey =>
            obtain ⟨a, k, b, ha, hk, hb, rfl⟩ := skipKey_eq_ok hkey
            obtain ⟨rest, hstarts, hcloses⟩ := ih h
            exact ⟨_, _, hclosed, rest, ⟨a, k, b, cs₃, ha, hk, hb, hstarts, rfl⟩, hcloses⟩
      obtain ⟨cs₂, stack', hclosed, hdue⟩ := hdue
      rcases skipHead_eq_ok hhead with ⟨rfl, hstarts⟩ | ⟨top, w, rfl, hw, rfl⟩
      · exact ⟨cs₁, hstarts, closes_of_closeBrackets hclosed hdue⟩
      · obtain ⟨v, t, rest, hv, heq, hcloses⟩ := (opened_of_closeBrackets hclosed hdue).exists_value
        exact ⟨rest, ⟨w, v, t, hw, hv, by rw [heq]⟩, hcloses⟩

/-- A value and then what closes the brackets on the stack are passed over, if there are more steps
than characters. -/
theorem skipValueWith_of_closes {steps : Nat} {stack : List Bracket} {cs rest r : List Char}
    (hstarts : StartsValue cs rest) (hrest : EndsNumber rest) (hcloses : Closes stack rest r)
    (hsteps : cs.length < steps) : skipValueWith steps stack cs = .ok r := by
  induction steps generalizing stack cs rest with
  | zero => omega
  | succ steps ih =>
    obtain ⟨w, v, t, hw, hv, rfl⟩ := hstarts
    obtain ⟨c, t', rfl, -⟩ := hv.exists_cons
    -- After the first step the next value is due, with less text.
    have hdue : ∃ cs₁ opened cs₂ stack', skipHead (w ++ (c :: t' ++ rest)) = .ok (cs₁, opened) ∧
        closeBrackets opened.isSome cs₁ (opened.toList ++ stack) = .ok (cs₂, stack') ∧
        Due stack' cs₂ r ∧ cs₂.length < steps := by
      rcases hv.skipHead hw hrest with hhead | ⟨top, cs₁, heq, hopened⟩
      · obtain ⟨cs₂, stack', hclosed, hdue, hle⟩ := hcloses.exists_closeBrackets
        refine ⟨rest, none, cs₂, stack', hhead, hclosed, hdue, ?_⟩
        simp at hsteps
        omega
      · obtain ⟨cs₂, stack', hclosed, hdue, hle⟩ := (hopened stack r hcloses).exists_closeBrackets
        refine ⟨cs₁, some top, cs₂, stack', ?_, hclosed, hdue, ?_⟩
        · rw [heq]
          exact skipHead_opening hw top cs₁
        · rw [heq] at hsteps
          simp at hsteps
          omega
    obtain ⟨cs₁, opened, cs₂, stack', hhead, hclosed, hdue, hlength⟩ := hdue
    rw [skipValueWith, hhead]
    simp only [hclosed]
    cases stack' with
    | nil => rw [show cs₂ = r from hdue]
    | cons top below =>
      obtain ⟨rest', hstarts, hcloses⟩ := hdue
      cases top with
      | list => exact ih hstarts hcloses.endsNumber hcloses hlength
      | object =>
        obtain ⟨a, k, b, cs₃, ha, hk, hb, hvalue, rfl⟩ := hstarts
        simp only [skipKey_append ha hk hb]
        refine ih hvalue hcloses.endsNumber hcloses ?_
        simp at hlength
        omega

theorem skipValue_eq_ok {cs r : List Char} (h : skipValue cs = .ok r) : StartsValue cs r := by
  obtain ⟨rest, hstarts, hcloses⟩ := skipValueWith_eq_ok h
  cases hcloses
  exact hstarts

theorem skipValue_text {v : Tree} {t : List Char} (ht : ValueText Blanks v t) {w rest : List Char}
    (hw : Blanks w) (hrest : EndsNumber rest) : skipValue (w ++ (t ++ rest)) = .ok rest :=
  skipValueWith_of_closes ⟨w, v, t, hw, ht, rfl⟩ hrest (.none rest) (by simp [stepsFor]; omega)

end LintRelay.Json
