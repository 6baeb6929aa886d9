import LintRelay.Proofs.Json.Printer
/-! Canonical texts: no gaps, strings escaped only where they have to be, and no name twice in an
object. Such a text is its exact value on one line. What is stored of it, written on one line, is the
text again only if it is the exact value. -/
namespace LintRelay.Json

/-- Texts without any gap. -/
def NoGap (w : List Char) : Prop := w = []

theorem noGap_nil : NoGap [] := rfl

mutual

theorem ValueText.mono {gap gap' : List Char → Prop} (hgap : ∀ w, gap w → gap' w) {v : Tree}
    {t : List Char} (h : ValueText gap v t) : ValueText gap' v t :=
  match h with
  | .wordNull => .wordNull
  | .wordTrue => .wordTrue
  | .wordFalse => .wordFalse
  | .number ht => .number ht
  | .string hm => .string hm
  | .emptyArray hw => .emptyArray (hgap _ hw)
  | .array hitems => .array (hitems.mono hgap)
  | .emptyObject hw => .emptyObject (hgap _ hw)
  | .object hmembers => .object (hmembers.mono hgap)

theorem ItemsText.mono {gap gap' : List Char → Prop} (hgap : ∀ w, gap w → gap' w)
    {vs : List Tree} {t : List Char} (h : ItemsText gap vs t) : ItemsText gap' vs t :=
  match h with
  | .one ha hv hb => .one (hgap _ ha) (hv.mono hgap) (hgap _ hb)
  | .cons ha hv hb hs => .cons (hgap _ ha) (hv.mono hgap) (hgap _ hb) (hs.mono hgap)

theorem MembersText.mono {gap gap' : List Char → Prop} (hgap : ∀ w, gap w → gap' w)
    {ms : List (List Mark × Tree)} {t : List Char} (h : MembersText gap ms t) :
    MembersText gap' ms t :=
  match h with
  | .one ha hk hb hc hv hd => .one (hgap _ ha) hk (hgap _ hb) (hgap _ hc) (hv.mono hgap) (hgap _ hd)
  | .cons ha hk hb hc hv hd hs =>
    .cons (hgap _ ha) hk (hgap _ hb) (hgap _ hc) (hv.mono hgap) (hgap _ hd) (hs.mono hgap)

end

theorem ValueText.blanks_of_noGap {v : Tree} {t : List Char} (h : ValueText NoGap v t) :
    ValueText Blanks v t := by
  refine h.mono fun w hw => ?_
  obtain rfl := hw
  exact blanks_nil

mutual

/-- The trees whose strings are escaped only where they have to be and whose objects repeat no
name. -/
def Tree.Canonical : Tree → Prop
  | .string ms => ∃ s, ms = marksOf s
  | .array items => CanonicalItems items
  | .object members => (members.map fun m => unescape m.1).Nodup ∧ CanonicalMembers members
  | _ => True

def CanonicalItems : List Tree → Prop
  | [] => True
  | v :: vs => v.Canonical ∧ CanonicalItems vs

def CanonicalMembers : List (List Mark × Tree) → Prop
  | [] => True
  | (k, v) :: ms => (∃ s, k = marksOf s) ∧ v.Canonical ∧ CanonicalMembers ms

end

theorem nodup_keys_memberValues? {d : Dialect} {ms : List (List Mark × Tree)}
    {xs : List (String × Value)} (hnodup : (ms.map fun m => unescape m.1).Nodup)
    (hx : memberValues? d ms = some xs) : (xs.map Prod.fst).Nodup := by
  induction ms generalizing xs with
  | nil =>
    obtain rfl := Option.some.inj hx
    simp
  | cons m ms ih =>
    obtain ⟨k, v⟩ := m
    obtain ⟨s, x, ys, hs, -, hys, rfl⟩ := memberValues?_cons_eq_some.mp hx
    obtain ⟨hfresh, hrest⟩ := List.nodup_cons.mp hnodup
    refine List.nodup_cons.mpr ⟨?_, ih hrest hys⟩
    intro hin
    obtain ⟨m, hm, hu⟩ := (mem_keys_memberValues? hys s).mp hin
    exact hfresh (List.mem_map.mpr ⟨m, hm, hu.trans hs.symm⟩)

mutual

/-- A canonical text is its exact value on one line. -/
theorem exact_of_canonical (v : Tree) {t : List Char} (h : ValueText NoGap v t)
    (hv : v.Canonical) : ∃ u, v.value? .exact = some u ∧ u.compact = t := by
  cases h with
  | wordNull => exact ⟨_, rfl, rfl⟩
  | wordTrue => exact ⟨_, rfl, rfl⟩
  | wordFalse => exact ⟨_, rfl, rfl⟩
  | number _ => exact ⟨.number (String.ofList t), rfl, by simp [Value.compact]⟩
  | string _ =>
    obtain ⟨s, rfl⟩ := hv
    exact ⟨.string (String.ofList s), by simp [Tree.value?], by
      simp [Value.compact, writeString_eq]⟩
  | emptyArray hw =>
    obtain rfl := hw
    exact ⟨.array [], rfl, rfl⟩
  | @array items t hitems =>
    obtain ⟨us, hus, rfl⟩ := exactItems_of_canonical items hitems hv
    exact ⟨.array us, by simp [Tree.value?, hus], by simp [Value.compact]⟩
  | emptyObject hw =>
    obtain rfl := hw
    exact ⟨.object [], by simp [Tree.value?, memberValues?, gather], rfl⟩
  | @object members t hmembers =>
    obtain ⟨hnodup, hcanonical⟩ := hv
    obtain ⟨us, hus, rfl⟩ := exactMembers_of_canonical members hmembers hcanonical
    have hgather := gather_of_nodup (nodup_keys_memberValues? hnodup hus)
    exact ⟨.object us, by simp [Tree.value?, hus, hgather], by simp [Value.compact]⟩

theorem exactItems_of_canonical (vs : List Tree) {t : List Char} (h : ItemsText NoGap vs t)
    (hv : CanonicalItems vs) :
    ∃ us, itemValues? .exact vs = some us ∧ Value.compactItems us = t := by
  match vs with
  | [] => exact absurd h ItemsText.ne_nil
  | v :: vs =>
    obtain ⟨a, s, b, e, rfl, hs, rfl, rfl, he⟩ := h.cons_inv
    obtain ⟨u, hu, rfl⟩ := exact_of_canonical v hs hv.1
    rcases he with ⟨rfl, rfl⟩ | ⟨ts, rfl, hts⟩
    · exact ⟨[u], by simp [itemValues?, hu], by simp [Value.compactItems]⟩
    · obtain ⟨us, hus, rfl⟩ := exactItems_of_canonical vs hts hv.2
      refine ⟨u :: us, by simp [itemValues?, hu, hus], ?_⟩
      match vs, us with
      | [], _ => exact absurd hts ItemsText.ne_nil
      | _ :: _, [] => simp [itemValues?_cons_eq_some] at hus
      | _ :: _, w :: us => simp [Value.compactItems]

theorem exactMembers_of_canonical (ms : List (List Mark × Tree)) {t : List Char}
    (h : MembersText NoGap ms t) (hm : CanonicalMembers ms) :
    ∃ us, memberValues? .exact ms = some us ∧ Value.compactMembers us = t := by
  match ms with
  | [] => exact absurd h MembersText.ne_nil
  | (k, v) :: ms =>
    obtain ⟨⟨key, rfl⟩, hv, hrest⟩ := hm
    obtain ⟨a, b, c, s, d, e, rfl, -, rfl, rfl, hs, rfl, rfl, he⟩ := h.cons_inv
    obtain ⟨u, hu, rfl⟩ := exact_of_canonical v hs hv
    rcases he with ⟨rfl, rfl⟩ | ⟨ts, rfl, hts⟩
    · exact ⟨[(String.ofList key, u)], by simp [memberValues?, hu], by
        simp [Value.compactMembers, writeString_eq]⟩
    · obtain ⟨us, hus, rfl⟩ := exactMembers_of_canonical ms hts hrest
      refine ⟨(String.ofList key, u) :: us, by simp [memberValues?, hu, hus], ?_⟩
      match ms, us with
      | [], _ => exact absurd hts MembersText.ne_nil
      | (_, _) :: _, [] => simp [memberValues?_cons_eq_some] at hus
      | _ :: _, w :: us => simp [Value.compactMembers, writeString_eq]

end

theorem NumberText.cancel {token token' r r' : List Char} (h : NumberText token)
    (h' : NumberText token') (hr : EndsNumber r) (hr' : EndsNumber r')
    (heq : token ++ r = token' ++ r') : token = token' ∧ r = r' := by
  obtain ⟨n, hn, -⟩ := readNumeral_append h hr
  obtain ⟨n', hn', -⟩ := readNumeral_append h' hr'
  rw [heq, hn'] at hn
  obtain rfl : r' = r := (Prod.mk.inj (Except.ok.inj hn)).2
  exact ⟨List.append_cancel_right heq, rfl⟩

mutual

/-- If what is stored of a canonical text is written like its exact value, it is that value. -/
theorem compact_cancel (v : Tree) {t : List Char} (h : ValueText NoGap v t) (hv : v.Canonical)
    {x u : Value} (hx : v.value? .stored = some x) (hu : v.value? .exact = some u)
    {r r' : List Char} (hr : EndsNumber r) (hr' : EndsNumber r')
    (heq : x.compact ++ r = u.compact ++ r') : x = u ∧ r = r' := by
  cases h with
  | wordNull | wordTrue | wordFalse =>
    obtain rfl := Option.some.inj hx
    obtain rfl := Option.some.inj hu
    exact ⟨rfl, List.append_cancel_left heq⟩
  | number ht =>
    obtain rfl := Option.some.inj hx
    obtain rfl := Option.some.inj hu
    have heq' : keptToken t ++ r = t ++ r' := by
      simpa [Value.compact, Dialect.stored, Dialect.exact] using heq
    obtain ⟨hkept, hrest⟩ := ht.kept.1.cancel ht hr hr' heq'
    exact ⟨by simp [Dialect.stored, Dialect.exact, hkept], hrest⟩
  | string _ =>
    obtain rfl : x = u := Option.some.inj (hx.symm.trans hu)
    exact ⟨rfl, List.append_cancel_left heq⟩
  | emptyArray _ =>
    obtain rfl : x = u := Option.some.inj (hx.symm.trans hu)
    exact ⟨rfl, List.append_cancel_left heq⟩
  | @array items t hitems =>
    obtain ⟨xs, hxs, rfl⟩ := Option.map_eq_some_iff.mp hx
    obtain ⟨us, hus, rfl⟩ := Option.map_eq_some_iff.mp hu
    have heq' : Value.compactItems xs ++ ']' :: r = Value.compactItems us ++ ']' :: r' := by
      simpa [Value.compact] using heq
    obtain ⟨rfl, hrest⟩ := compactItems_cancel items hitems hv hxs hus heq'
    exact ⟨rfl, hrest⟩
  | emptyObject _ =>
    obtain rfl : x = u := Option.some.inj (hx.symm.trans hu)
    exact ⟨rfl, List.append_cancel_left heq⟩
  | @object members t hmembers =>
    obtain ⟨hnodup, hcanonical⟩ := hv
    obtain ⟨us, hus, rfl⟩ := Option.map_eq_some_iff.mp (by simpa [Tree.value?] using hu)
    simp only [Tree.value?] at hx
    split at hx
    · -- A number does not start with a brace.
      obtain ⟨s, hnum, rfl⟩ := Dialect.keyed?_stored_eq_some hx
      obtain ⟨c, cs, hcs, hc⟩ := hnum.kept.1.exists_cons
      obtain rfl : c = '\x7b' := by
        have hhead := congrArg List.head? heq
        simpa [Value.compact, hcs] using hhead
      exact absurd hc (by decide)
    · obtain ⟨ss, hss, rfl⟩ := Option.map_eq_some_iff.mp hx
      rw [gather_of_nodup (nodup_keys_memberValues? hnodup hss)] at heq ⊢
      rw [gather_of_nodup (nodup_keys_memberValues? hnodup hus)] at heq ⊢
      have heq' : Value.compactMembers ss ++ '\x7d' :: r =
          Value.compactMembers us ++ '\x7d' :: r' := by
        simpa [Value.compact] using heq
      obtain ⟨rfl, hrest⟩ := compactMembers_cancel members hmembers hcanonical hss hus heq'
      exact ⟨rfl, hrest⟩

theorem compactItems_cancel (vs : List Tree) {t : List Char} (h : ItemsText NoGap vs t)
    (hv : CanonicalItems vs) {xs us : List Value} (hx : itemValues? .stored vs = some xs)
    (hu : itemValues? .exact vs = some us) {r r' : List Char}
    (heq : Value.compactItems xs ++ ']' :: r = Value.compactItems us ++ ']' :: r') :
    xs = us ∧ r = r' := by
  have hbracket := fun r => endsNumber_cons (c := ']') (Or.inr (Or.inl rfl)) r
  have hcomma := fun r => endsNumber_cons (c := ',') (Or.inl rfl) r
  match vs with
  | [] => exact absurd h ItemsText.ne_nil
  | v :: vs =>
    obtain ⟨a, s, b, e, -, hs, -, -, he⟩ := h.cons_inv
    obtain ⟨x, xs, hvx, hxs, rfl⟩ := itemValues?_cons_eq_some.mp hx
    obtain ⟨u, us, hvu, hus, rfl⟩ := itemValues?_cons_eq_some.mp hu
    rcases he with ⟨-, rfl⟩ | ⟨ts, -, hts⟩
    · obtain rfl := Option.some.inj hxs
      obtain rfl := Option.some.inj hus
      obtain ⟨rfl, hrest⟩ := compact_cancel v hs hv.1 hvx hvu (hbracket r) (hbracket r') heq
      exact ⟨rfl, (List.cons.inj hrest).2⟩
    · match vs, xs, us with
      | [], _, _ => exact absurd hts ItemsText.ne_nil
      | _ :: _, [], _ => simp [itemValues?_cons_eq_some] at hxs
      | _ :: _, _ :: _, [] => simp [itemValues?_cons_eq_some] at hus
      | w :: vs, y :: xs, z :: us =>
        simp only [Value.compactItems, List.append_assoc, List.cons_append] at heq
        obtain ⟨rfl, hrest⟩ := compact_cancel v hs hv.1 hvx hvu (hcomma _) (hcomma _) heq
        obtain ⟨htail, hend⟩ :=
          compactItems_cancel (w :: vs) hts hv.2 hxs hus (List.cons.inj hrest).2
        exact ⟨by rw [htail], hend⟩

theorem compactMembers_cancel (ms : List (List Mark × Tree)) {t : List Char}
    (h : MembersText NoGap ms t) (hm : CanonicalMembers ms) {xs us : List (String × Value)}
    (hx : memberValues? .stored ms = some xs) (hu : memberValues? .exact ms = some us)
    {r r' : List Char}
    (heq : Value.compactMembers xs ++ '\x7d' :: r = Value.compactMembers us ++ '\x7d' :: r') :
    xs = us ∧ r = r' := by
  have hbrace := fun r => endsNumber_cons (c := '\x7d') (Or.inr (Or.inr rfl)) r
  have hcomma := fun r => endsNumber_cons (c := ',') (Or.inl rfl) r
  match ms with
  | [] => exact absurd h MembersText.ne_nil
  | (k, v) :: ms =>
    obtain ⟨-, hv, hrest⟩ := hm
    obtain ⟨a, b, c, s, d, e, -, -, -, -, hs, -, -, he⟩ := h.cons_inv
    obtain ⟨key, x, xs, hkey, hvx, hxs, rfl⟩ := memberValues?_cons_eq_some.mp hx
    obtain ⟨key', u, us, hkey', hvu, hus, rfl⟩ := memberValues?_cons_eq_some.mp hu
    obtain rfl : key = key' := Option.some.inj (hkey.symm.trans hkey')
    rcases he with ⟨-, rfl⟩ | ⟨ts, -, hts⟩
    · obtain rfl := Option.some.inj hxs
      obtain rfl := Option.some.inj hus
      have heq' : x.compact ++ '\x7d' :: r = u.compact ++ '\x7d' :: r' := by
        simpa [Value.compactMembers] using heq
      obtain ⟨rfl, hend⟩ := compact_cancel v hs hv hvx hvu (hbrace r) (hbrace r') heq'
      exact ⟨rfl, (List.cons.inj hend).2⟩
    · match ms, xs, us with
      | [], _, _ => exact absurd hts MembersText.ne_nil
      | (_, _) :: _, [], _ => simp [memberValues?_cons_eq_some] at hxs
      | (_, _) :: _, _ :: _, [] => simp [memberValues?_cons_eq_some] at hus
      | m :: ms, y :: xs, z :: us =>
        have heq' : x.compact ++ ',' :: (Value.compactMembers (y :: xs) ++ '\x7d' :: r) =
            u.compact ++ ',' :: (Value.compactMembers (z :: us) ++ '\x7d' :: r') := by
          simpa [Value.compactMembers] using heq
        obtain ⟨rfl, hend⟩ := compact_cancel v hs hv hvx hvu (hcomma _) (hcomma _) heq'
        obtain ⟨htail, hend⟩ :=
          compactMembers_cancel (m :: ms) hts hrest hxs hus (List.cons.inj hend).2
        exact ⟨by rw [htail], hend⟩

end

end LintRelay.Json
