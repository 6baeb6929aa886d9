import LintRelay.Json.Printer
import LintRelay.Proofs.Json.Reader
import Mathlib.Tactic.IntervalCases
/-! Writing against the grammar. A value has a tree of its own, whose strings are escaped only where
they have to be; both ways of writing the value are texts of that tree. -/
namespace LintRelay.Json

/-- How a character is written inside a string: escaped only if it has to be. -/
def Mark.ofChar (c : Char) : Mark :=
  if c == '"' then .letter '"'
  else if c == '\\' then .letter '\\'
  else if c == '\x08' then .letter 'b'
  else if c == '\x0c' then .letter 'f'
  else if c == '\n' then .letter 'n'
  else if c == '\r' then .letter 'r'
  else if c == '\t' then .letter 't'
  else if c.toNat < 0x20 then .code '0' '0' (hexChar (c.toNat / 16)) (hexChar (c.toNat % 16))
  else .plain c

theorem Mark.text_ofChar (c : Char) : (Mark.ofChar c).text = writeChar c := by
  unfold Mark.ofChar writeChar
  split_ifs <;> rfl

/-- A property of the characters below the blank, one by one, and of the others at once. -/
theorem forall_char_of_low {P : Char → Prop} (hlow : ∀ n < 0x20, P (Char.ofNat n))
    (hhigh : ∀ c : Char, 0x20 ≤ c.toNat → P c) (c : Char) : P c := by
  rcases Nat.lt_or_ge c.toNat 0x20 with h | h
  · have hc := hlow c.toNat h
    rwa [Char.ofNat_toNat] at hc
  · exact hhigh c h

theorem Mark.ofChar_high {c : Char} (hc : 0x20 ≤ c.toNat) :
    (c = '"' ∧ Mark.ofChar c = .letter '"') ∨ (c = '\\' ∧ Mark.ofChar c = .letter '\\') ∨
      (c ≠ '"' ∧ c ≠ '\\' ∧ Mark.ofChar c = .plain c) := by
  by_cases hq : c = '"'
  · exact Or.inl ⟨hq, by subst hq; rfl⟩
  by_cases hs : c = '\\'
  · exact Or.inr (Or.inl ⟨hs, by subst hs; rfl⟩)
  have hne : ∀ d : Char, d.toNat < 0x20 → c ≠ d := by
    rintro d hd rfl
    omega
  refine Or.inr (Or.inr ⟨hq, hs, ?_⟩)
  have h₁ := hne '\x08' (by decide)
  have h₂ := hne '\x0c' (by decide)
  have h₃ := hne '\n' (by decide)
  have h₄ := hne '\r' (by decide)
  have h₅ := hne '\t' (by decide)
  simp [Mark.ofChar, hq, hs, h₁, h₂, h₃, h₄, h₅, Nat.not_lt.mpr hc]

theorem Mark.ofChar_low {n : Nat} (hn : n < 0x20) :
    (∃ l, Mark.ofChar (Char.ofNat n) = .letter l ∧ escapeChar? l = some (Char.ofNat n)) ∨
      ∃ a b c d, Mark.ofChar (Char.ofNat n) = .code a b c d ∧ hexValue? a b c d = some n := by
  interval_cases n
  all_goals first
    | exact Or.inl ⟨_, rfl, rfl⟩
    | exact Or.inr ⟨_, _, _, _, rfl, rfl⟩

theorem Mark.valid_ofChar (c : Char) : (Mark.ofChar c).Valid := by
  refine forall_char_of_low (P := fun c => (Mark.ofChar c).Valid) ?_ ?_ c
  · decide
  · intro c hc
    rcases Mark.ofChar_high hc with ⟨-, h⟩ | ⟨-, h⟩ | ⟨hq, hs, h⟩
    · rw [h]; simp [Mark.Valid]
    · rw [h]; simp [Mark.Valid]
    · rw [h]; exact ⟨hc, hq, hs⟩

theorem unescape_ofChar_cons (c : Char) (ms : List Mark) :
    unescape (Mark.ofChar c :: ms) = (unescape ms).map (c :: ·) := by
  refine forall_char_of_low
    (P := fun c => unescape (Mark.ofChar c :: ms) = (unescape ms).map (c :: ·)) ?_ ?_ c
  · intro n hn
    rcases Mark.ofChar_low hn with ⟨l, hl, he⟩ | ⟨a, b, c, d, hcode, hvalue⟩
    · rw [hl]
      simp [unescape, he]
    · have hlow : isLowSurrogate n = false := by simp [isLowSurrogate]; omega
      have hhigh : isHighSurrogate n = false := by simp [isHighSurrogate]; omega
      rw [hcode]
      simp [unescape, hvalue, hlow, hhigh]
  · intro c hc
    rcases Mark.ofChar_high hc with ⟨rfl, h⟩ | ⟨rfl, h⟩ | ⟨-, -, h⟩
    · rw [h]; simp [unescape, escapeChar?]
    · rw [h]; simp [unescape, escapeChar?]
    · rw [h]; simp [unescape]

def marksOf (cs : List Char) : List Mark := cs.map Mark.ofChar

theorem valid_marksOf (cs : List Char) : ∀ m ∈ marksOf cs, m.Valid := by
  intro m hm
  obtain ⟨c, -, rfl⟩ := List.mem_map.mp hm
  exact Mark.valid_ofChar c

@[simp] theorem unescape_marksOf (cs : List Char) : unescape (marksOf cs) = some cs := by
  induction cs with
  | nil => rfl
  | cons c cs ih =>
    have hcons := unescape_ofChar_cons c (marksOf cs)
    rw [ih] at hcons
    exact hcons

theorem writeString_eq (s : String) :
    writeString s = '"' :: (marksText (marksOf s.toList) ++ ['"']) := by
  have hmarks : ∀ cs : List Char, marksText (marksOf cs) = cs.flatMap writeChar := by
    intro cs
    induction cs with
    | nil => rfl
    | cons c cs ih =>
      have hcons : marksOf (c :: cs) = Mark.ofChar c :: marksOf cs := rfl
      rw [hcons, marksText_cons, Mark.text_ofChar, ih]
      rfl
  simp [writeString, hmarks]

mutual

/-- The tree of a value. -/
def Tree.ofValue : Value → Tree
  | .null => .null
  | .bool b => .bool b
  | .number text => .number text.toList
  | .string s => .string (marksOf s.toList)
  | .array items => .array (treesOf items)
  | .object members => .object (namedTreesOf members)

def treesOf : List Value → List Tree
  | [] => []
  | v :: vs => Tree.ofValue v :: treesOf vs

def namedTreesOf : List (String × Value) → List (List Mark × Tree)
  | [] => []
  | (k, v) :: ms => (marksOf k.toList, Tree.ofValue v) :: namedTreesOf ms

end

theorem treesOf_eq_map (vs : List Value) : treesOf vs = vs.map Tree.ofValue := by
  induction vs with
  | nil => rfl
  | cons v vs ih => rw [treesOf, ih, List.map_cons]

theorem namedTreesOf_eq_map (ms : List (String × Value)) :
    namedTreesOf ms = ms.map fun m => (marksOf m.1.toList, Tree.ofValue m.2) := by
  induction ms with
  | nil => rfl
  | cons m ms ih => rw [namedTreesOf, ih, List.map_cons]

mutual

/-- The values that reading can give: a number is a token as it is kept, the keys of an object
are distinct, and its first key is not the number key. -/
def Value.Storable : Value → Prop
  | .number text => NumberText text.toList ∧ keptToken text.toList = text.toList
  | .array items => StorableItems items
  | .object members =>
    (members.map Prod.fst).Nodup ∧ (members.head?.map Prod.fst) ≠ some numberKey ∧
      StorableMembers members
  | _ => True

def StorableItems : List Value → Prop
  | [] => True
  | v :: vs => v.Storable ∧ StorableItems vs

def StorableMembers : List (String × Value) → Prop
  | [] => True
  | (_, v) :: ms => v.Storable ∧ StorableMembers ms

end

mutual

def Value.Tokens : Value → Prop
  | .number text => NumberText text.toList
  | .array items => TokensItems items
  | .object members => TokensMembers members
  | _ => True

def TokensItems : List Value → Prop
  | [] => True
  | v :: vs => v.Tokens ∧ TokensItems vs

def TokensMembers : List (String × Value) → Prop
  | [] => True
  | (_, v) :: ms => v.Tokens ∧ TokensMembers ms

end

theorem tokensItems_iff (vs : List Value) : TokensItems vs ↔ ∀ v ∈ vs, v.Tokens := by
  induction vs with
  | nil => simp [TokensItems]
  | cons v vs ih => simp [TokensItems, ih]

theorem tokensMembers_iff (ms : List (String × Value)) :
    TokensMembers ms ↔ ∀ m ∈ ms, m.2.Tokens := by
  induction ms with
  | nil => simp [TokensMembers]
  | cons m ms ih =>
    obtain ⟨k, v⟩ := m
    simp [TokensMembers, ih]

mutual

theorem Value.Storable.tokens (v : Value) (h : v.Storable) : v.Tokens := by
  match v with
  | .null => trivial
  | .bool _ => trivial
  | .number _ => exact h.1
  | .string _ => trivial
  | .array items => exact tokensItems_of_storable items h
  | .object members => exact tokensMembers_of_storable members h.2.2

theorem tokensItems_of_storable (vs : List Value) (h : StorableItems vs) : TokensItems vs := by
  match vs with
  | [] => trivial
  | v :: vs => exact ⟨Value.Storable.tokens v h.1, tokensItems_of_storable vs h.2⟩

theorem tokensMembers_of_storable (ms : List (String × Value)) (h : StorableMembers ms) :
    TokensMembers ms := by
  match ms with
  | [] => trivial
  | (_, v) :: ms => exact ⟨Value.Storable.tokens v h.1, tokensMembers_of_storable ms h.2⟩

end

theorem storableMembers_iff (ms : List (String × Value)) :
    StorableMembers ms ↔ ∀ m ∈ ms, m.2.Storable := by
  induction ms with
  | nil => simp [StorableMembers]
  | cons m ms ih =>
    obtain ⟨k, v⟩ := m
    simp [StorableMembers, ih]

theorem insertMember_fresh {members : List (String × Value)} {key : String} (v : Value)
    (h : key ∉ members.map Prod.fst) : insertMember members key v = members ++ [(key, v)] := by
  induction members with
  | nil => rfl
  | cons m rest ih =>
    obtain ⟨k, w⟩ := m
    obtain ⟨hne, hrest⟩ : key ≠ k ∧ key ∉ rest.map Prod.fst := by
      simpa only [List.map_cons, List.mem_cons, not_or] using h
    have hk : ¬ k = key := fun h => hne h.symm
    simp [insertMember, hk, ih hrest]

/-- Members with distinct keys are gathered as they are. -/
theorem foldl_insertMember_of_nodup {members acc : List (String × Value)}
    (h : ((acc ++ members).map Prod.fst).Nodup) :
    members.foldl (fun acc m => insertMember acc m.1 m.2) acc = acc ++ members := by
  induction members generalizing acc with
  | nil => simp
  | cons m rest ih =>
    have hfresh : m.1 ∉ acc.map Prod.fst := by
      intro hin
      rw [List.map_append, List.nodup_append] at h
      exact h.2.2 m.1 hin m.1 (by simp) rfl
    rw [List.foldl_cons, insertMember_fresh m.2 hfresh, ih (by simpa using h)]
    simp

theorem gather_of_nodup {members : List (String × Value)} (h : (members.map Prod.fst).Nodup) :
    gather members = members := foldl_insertMember_of_nodup (by simpa using h)

mutual

/-- A value on one line is a text of its tree, whatever gaps there may be. -/
theorem compact_text {gap : List Char → Prop} (hgap : gap []) (v : Value) (h : v.Storable) :
    ValueText gap (Tree.ofValue v) v.compact := by
  match v with
  | .null => exact .wordNull
  | .bool true => exact .wordTrue
  | .bool false => exact .wordFalse
  | .number text => exact .number h.1
  | .string s =>
    rw [Value.compact, writeString_eq]
    exact .string (valid_marksOf _)
  | .array [] => exact .emptyArray hgap
  | .array (v :: vs) => exact .array (compactItems_text hgap (v :: vs) (by simp) h)
  | .object [] => exact .emptyObject hgap
  | .object ((k, v) :: ms) => exact .object (compactMembers_text hgap ((k, v) :: ms) (by simp) h.2.2)

theorem compactItems_text {gap : List Char → Prop} (hgap : gap []) (vs : List Value)
    (hne : vs ≠ []) (h : StorableItems vs) :
    ItemsText gap (treesOf vs) (Value.compactItems vs) := by
  match vs with
  | [] => exact absurd rfl hne
  | [v] =>
    have hhead := compact_text hgap v h.1
    simpa [treesOf, Value.compactItems] using ItemsText.one hgap hhead hgap
  | v :: w :: vs =>
    have hhead := compact_text hgap v h.1
    have htail := compactItems_text hgap (w :: vs) (by simp) h.2
    simpa [treesOf, Value.compactItems] using ItemsText.cons hgap hhead hgap htail

theorem compactMembers_text {gap : List Char → Prop} (hgap : gap [])
    (ms : List (String × Value)) (hne : ms ≠ []) (h : StorableMembers ms) :
    MembersText gap (namedTreesOf ms) (Value.compactMembers ms) := by
  match ms with
  | [] => exact absurd rfl hne
  | [(k, v)] =>
    have hhead := compact_text hgap v h.1
    simpa [namedTreesOf, Value.compactMembers, writeString_eq] using
      MembersText.one hgap (valid_marksOf k.toList) hgap hgap hhead hgap
  | (k, v) :: m :: ms =>
    have hhead := compact_text hgap v h.1
    have htail := compactMembers_text hgap (m :: ms) (by simp) h.2
    simpa [namedTreesOf, Value.compactMembers, writeString_eq] using
      MembersText.cons hgap (valid_marksOf k.toList) hgap hgap hhead hgap htail

end

theorem blanks_newline (depth : Nat) : Blanks (Value.newline depth) := by
  intro c hc
  rcases List.mem_cons.mp hc with rfl | hc
  · decide
  · rw [List.eq_of_mem_replicate hc]
    decide

theorem ItemsText.append_blanks {vs : List Tree} {t w : List Char} (h : ItemsText Blanks vs t)
    (hw : Blanks w) : ItemsText Blanks vs (t ++ w) := by
  induction vs generalizing t with
  | nil => exact absurd h ItemsText.ne_nil
  | cons v vs ih =>
    obtain ⟨a, s, b, e, ha, hs, hb, rfl, ⟨rfl, rfl⟩ | ⟨ts, rfl, hts⟩⟩ := h.cons_inv
    · simpa using ItemsText.one ha hs (hb.append hw)
    · simpa using ItemsText.cons ha hs hb (ih hts)

theorem MembersText.append_blanks {ms : List (List Mark × Tree)} {t w : List Char}
    (h : MembersText Blanks ms t) (hw : Blanks w) : MembersText Blanks ms (t ++ w) := by
  induction ms generalizing t with
  | nil => exact absurd h MembersText.ne_nil
  | cons m ms ih =>
    obtain ⟨k, v⟩ := m
    obtain ⟨a, b, c, s, d, e, ha, hk, hb, hc, hs, hd, rfl, ⟨rfl, rfl⟩ | ⟨ts, rfl, hts⟩⟩ :=
      h.cons_inv
    · simpa using MembersText.one ha hk hb hc hs (hd.append hw)
    · simpa using MembersText.cons ha hk hb hc hs hd (ih hts)

mutual

theorem prettyAt_text (depth : Nat) (v : Value) (h : v.Tokens) :
    ValueText Blanks (Tree.ofValue v) (v.prettyAt depth) := by
  match v with
  | .null => exact .wordNull
  | .bool true => exact .wordTrue
  | .bool false => exact .wordFalse
  | .number text => exact .number h
  | .string s =>
    rw [Value.prettyAt, writeString_eq]
    exact .string (valid_marksOf _)
  | .array [] => exact .emptyArray blanks_nil
  | .array (v :: vs) =>
    have hitems := (prettyItems_text (depth + 1) (v :: vs) (by simp) h).append_blanks (blanks_newline depth)
    simpa [Value.prettyAt, Tree.ofValue] using ValueText.array hitems
  | .object [] => exact .emptyObject blanks_nil
  | .object ((k, v) :: ms) =>
    have hmembers :=
      (prettyMembers_text (depth + 1) ((k, v) :: ms) (by simp) h).append_blanks
        (blanks_newline depth)
    simpa [Value.prettyAt, Tree.ofValue] using ValueText.object hmembers

theorem prettyItems_text (depth : Nat) (vs : List Value) (hne : vs ≠ [])
    (h : TokensItems vs) : ItemsText Blanks (treesOf vs) (Value.prettyItems depth vs) := by
  have hline := blanks_newline depth
  match vs with
  | [] => exact absurd rfl hne
  | [v] =>
    have hhead := prettyAt_text depth v h.1
    simpa [treesOf, Value.prettyItems] using ItemsText.one hline hhead blanks_nil
  | v :: w :: vs =>
    have hhead := prettyAt_text depth v h.1
    have htail := prettyItems_text depth (w :: vs) (by simp) h.2
    simpa [treesOf, Value.prettyItems] using ItemsText.cons hline hhead blanks_nil htail

theorem prettyMembers_text (depth : Nat) (ms : List (String × Value)) (hne : ms ≠ [])
    (h : TokensMembers ms) :
    MembersText Blanks (namedTreesOf ms) (Value.prettyMembers depth ms) := by
  have hline := blanks_newline depth
  have hblank : Blanks [' '] := by simp [Blanks, isSpace]
  match ms with
  | [] => exact absurd rfl hne
  | [(k, v)] =>
    have hhead := prettyAt_text depth v h.1
    simpa [namedTreesOf, Value.prettyMembers, writeString_eq] using
      MembersText.one hline (valid_marksOf k.toList) blanks_nil hblank hhead blanks_nil
  | (k, v) :: m :: ms =>
    have hhead := prettyAt_text depth v h.1
    have htail := prettyMembers_text depth (m :: ms) (by simp) h.2
    simpa [namedTreesOf, Value.prettyMembers, writeString_eq] using
      MembersText.cons hline (valid_marksOf k.toList) blanks_nil hblank hhead blanks_nil htail

end

theorem pretty_text (depth : Nat) (v : Value) (h : v.Storable) :
    ValueText Blanks (Tree.ofValue v) (v.prettyAt depth) := prettyAt_text depth v (h.tokens v)

theorem marks_namedTreesOf {ms : List (String × Value)}
    (h : (ms.head?.map Prod.fst) ≠ some numberKey) :
    Dialect.stored.marks (namedTreesOf ms) = false := by
  match ms with
  | [] => rfl
  | (k, v) :: ms =>
    have hk : ¬ numberKey = k := fun hk => h (by simp [hk])
    simp [namedTreesOf, Dialect.marks, Dialect.stored, hk]

mutual

/-- Reading the tree of a storable value gives the value back. -/
theorem value?_ofValue (v : Value) (h : v.Storable) : (Tree.ofValue v).value? .stored = some v := by
  match v with
  | .null => rfl
  | .bool b => rfl
  | .number text => simp [Tree.ofValue, Tree.value?, Dialect.stored, h.2]
  | .string s => simp [Tree.ofValue, Tree.value?]
  | .array items => simp [Tree.ofValue, Tree.value?, itemValues?_treesOf items h]
  | .object members =>
    obtain ⟨hnodup, hfirst, hmembers⟩ := h
    simp [Tree.ofValue, Tree.value?, marks_namedTreesOf hfirst,
      memberValues?_namedTreesOf members hmembers, gather_of_nodup hnodup]

theorem itemValues?_treesOf (vs : List Value) (h : StorableItems vs) :
    itemValues? .stored (treesOf vs) = some vs := by
  match vs with
  | [] => rfl
  | v :: vs => simp [treesOf, itemValues?, value?_ofValue v h.1, itemValues?_treesOf vs h.2]

theorem memberValues?_namedTreesOf (ms : List (String × Value)) (h : StorableMembers ms) :
    memberValues? .stored (namedTreesOf ms) = some ms := by
  match ms with
  | [] => rfl
  | (k, v) :: ms =>
    simp [namedTreesOf, memberValues?, value?_ofValue v h.1, memberValues?_namedTreesOf ms h.2]

end

theorem mem_insertMember {members : List (String × Value)} {key : String} {v : Value}
    {m : String × Value} (h : m ∈ insertMember members key v) : m ∈ members ∨ m = (key, v) := by
  induction members with
  | nil => exact Or.inr (by simpa [insertMember] using h)
  | cons n rest ih =>
    obtain ⟨k, w⟩ := n
    by_cases hk : k = key
    · have h' : m = (key, v) ∨ m ∈ rest := by simpa [insertMember, hk] using h
      rcases h' with h' | h'
      · exact Or.inr h'
      · exact Or.inl (List.mem_cons_of_mem _ h')
    · have h' : m = (k, w) ∨ m ∈ insertMember rest key v := by simpa [insertMember, hk] using h
      rcases h' with rfl | h'
      · exact Or.inl (by simp)
      · exact (ih h').imp (List.mem_cons_of_mem _) id

theorem mem_of_mem_foldl {members acc : List (String × Value)} {m : String × Value}
    (h : m ∈ members.foldl (fun acc m => insertMember acc m.1 m.2) acc) :
    m ∈ acc ∨ m ∈ members := by
  induction members generalizing acc with
  | nil => exact Or.inl h
  | cons n rest ih =>
    rcases ih h with h' | h'
    · rcases mem_insertMember h' with h'' | rfl
      · exact Or.inl h''
      · exact Or.inr (by simp)
    · exact Or.inr (List.mem_cons_of_mem _ h')

theorem mem_of_mem_gather {members : List (String × Value)} {m : String × Value}
    (h : m ∈ gather members) : m ∈ members := by
  rcases mem_of_mem_foldl h with h' | h'
  · simp at h'
  · exact h'

theorem head_foldl_insertMember (members : List (String × Value)) (m : String × Value)
    (acc : List (String × Value)) :
    ((members.foldl (fun acc m => insertMember acc m.1 m.2) (m :: acc)).head?.map Prod.fst) =
      some m.1 := by
  induction members generalizing m acc with
  | nil => rfl
  | cons n rest ih =>
    obtain ⟨k, v⟩ := m
    by_cases hk : k = n.1
    · simp only [List.foldl_cons, insertMember, hk, beq_self_eq_true, if_true]
      exact ih (n.1, n.2) acc
    · simp only [List.foldl_cons, insertMember, beq_iff_eq, hk, if_false]
      exact ih (k, v) _

theorem head_gather_cons (k : String) (v : Value) (ms : List (String × Value)) :
    ((gather ((k, v) :: ms)).head?.map Prod.fst) = some k :=
  head_foldl_insertMember ms (k, v) []

theorem depthMembers_namedTreesOf_le {ms : List (String × Value)} {n : Nat} :
    depthMembers (namedTreesOf ms) ≤ n ↔ ∀ m ∈ ms, (Tree.ofValue m.2).depth ≤ n := by
  induction ms with
  | nil => simp [namedTreesOf, depthMembers]
  | cons m ms ih =>
    obtain ⟨k, v⟩ := m
    simp [namedTreesOf, depthMembers, ih]

theorem ExponentText.kept {x : List Char} (hx : ExponentText x) :
    ExponentText (keptToken x) ∧ keptToken (keptToken x) = keptToken x := by
  cases hx with
  | absent => exact ⟨.absent, rfl⟩
  | @unsigned e ds he hds =>
    obtain ⟨hne, hdig⟩ := id hds
    cases ds with
    | nil => exact absurd rfl hne
    | cons d ds =>
      have hkept : keptToken (e :: d :: ds) = 'e' :: '+' :: d :: ds := by
        simp [keptToken, he, isDigit_ne_sign (hdig d (by simp))]
      rw [hkept]
      exact ⟨.signed (Or.inl rfl) (Or.inl rfl) hds, by simp [keptToken]⟩
  | @signed e s ds he hs hds =>
    have hkept : keptToken (e :: s :: ds) = 'e' :: s :: ds := by simp [keptToken, he, hs]
    rw [hkept]
    exact ⟨.signed (Or.inl rfl) hs hds, by simp [keptToken, hs]⟩

theorem NumberText.kept {token : List Char} (h : NumberText token) :
    NumberText (keptToken token) ∧ keptToken (keptToken token) = keptToken token := by
  cases h with
  | positive hw hf hx =>
    obtain ⟨hx', hagain⟩ := hx.kept
    rw [keptToken_parts hw hf, keptToken_parts hw hf, hagain]
    exact ⟨.positive hw hf hx', rfl⟩
  | @negative w f x hw hf hx =>
    obtain ⟨hx', hagain⟩ := hx.kept
    have hminus : ∀ cs, keptToken ('-' :: cs) = '-' :: keptToken cs := by
      intro cs
      simp [keptToken]
    rw [hminus, hminus, keptToken_parts hw hf, keptToken_parts hw hf, hagain]
    exact ⟨.negative hw hf hx', rfl⟩

theorem Dialect.keyed?_stored_eq_some {ms : List (List Mark × Tree)} {x : Value}
    (h : Dialect.stored.keyed? ms = some x) :
    ∃ s, NumberText s ∧ x = .number (String.ofList (keptToken s)) := by
  unfold Dialect.keyed? at h
  split at h
  · obtain ⟨s, -, hs⟩ := Option.bind_eq_some_iff.mp h
    split at hs
    · next hnum => exact ⟨s, hnum, (Option.some.inj hs).symm⟩
    · simp at hs
  · simp at h

theorem storable_kept {token : List Char} (h : NumberText token) :
    (Value.number (String.ofList (keptToken token))).Storable := by
  simpa [Value.Storable] using h.kept

theorem head_gather_ne_numberKey {ms : List (List Mark × Tree)} {ys : List (String × Value)}
    (hmark : Dialect.stored.marks ms = false) (hys : memberValues? .stored ms = some ys) :
    ((gather ys).head?.map Prod.fst) ≠ some numberKey := by
  match ms with
  | [] =>
    obtain rfl : [] = ys := by simpa [memberValues?] using hys
    simp [gather]
  | (k, v) :: ms =>
    obtain ⟨s, x, zs, hs, -, -, rfl⟩ := memberValues?_cons_eq_some.mp hys
    rw [head_gather_cons]
    intro h
    have hkey : numberKey = String.ofList s := (Option.some.inj h).symm
    simp [Dialect.marks, hs, Dialect.stored, hkey] at hmark

mutual

/-- What is read from a text is storable, and is no deeper than the text. -/
theorem storable_of_text {gap : List Char → Prop} (v : Tree) {t : List Char} {x : Value}
    (h : ValueText gap v t) (hx : v.value? .stored = some x) :
    x.Storable ∧ (Tree.ofValue x).depth ≤ v.depth := by
  cases h with
  | wordNull | wordTrue | wordFalse =>
    obtain rfl := Option.some.inj hx
    exact ⟨trivial, Nat.le_refl _⟩
  | number ht =>
    obtain rfl := Option.some.inj hx
    exact ⟨storable_kept ht, Nat.le_refl _⟩
  | string hms =>
    obtain ⟨s, -, rfl⟩ := Option.map_eq_some_iff.mp hx
    exact ⟨trivial, Nat.le_refl _⟩
  | emptyArray hw =>
    obtain rfl := Option.some.inj hx
    exact ⟨trivial, Nat.le_refl _⟩
  | @array items t hitems =>
    obtain ⟨xs, hxs, rfl⟩ := Option.map_eq_some_iff.mp hx
    obtain ⟨hstorable, hdepth⟩ := storableItems_of_text items hitems hxs
    exact ⟨hstorable, by simpa [Tree.ofValue, Tree.depth] using hdepth⟩
  | emptyObject hw =>
    obtain rfl := Option.some.inj hx
    exact ⟨⟨by simp [gather], by simp [gather], trivial⟩, Nat.le_refl _⟩
  | @object members t hmembers =>
    simp only [Tree.value?] at hx
    split at hx
    · obtain ⟨s, hnum, rfl⟩ := Dialect.keyed?_stored_eq_some hx
      exact ⟨storable_kept hnum, by simp [Tree.ofValue, Tree.depth]⟩
    · next hmark =>
      obtain ⟨ys, hys, rfl⟩ := Option.map_eq_some_iff.mp hx
      obtain ⟨hstorable, hdepth⟩ := storableMembers_of_text members hmembers hys
      refine ⟨⟨nodup_keys_gather ys, head_gather_ne_numberKey (by simpa using hmark) hys, ?_⟩, ?_⟩
      · rw [storableMembers_iff]
        exact fun m hm => hstorable m (mem_of_mem_gather hm)
      · simp only [Tree.ofValue, Tree.depth, Nat.add_le_add_iff_right,
          depthMembers_namedTreesOf_le]
        exact fun m hm => hdepth m (mem_of_mem_gather hm)

theorem storableItems_of_text {gap : List Char → Prop} (vs : List Tree) {t : List Char}
    {xs : List Value} (h : ItemsText gap vs t) (hx : itemValues? .stored vs = some xs) :
    StorableItems xs ∧ depthItems (treesOf xs) ≤ depthItems vs := by
  match vs with
  | [] => exact absurd h ItemsText.ne_nil
  | v :: vs =>
    obtain ⟨x, ys, hv, hys, rfl⟩ := itemValues?_cons_eq_some.mp hx
    obtain ⟨a, s, b, e, -, hs, -, -, he⟩ := h.cons_inv
    obtain ⟨hstorable, hdepth⟩ := storable_of_text v hs hv
    have htail : StorableItems ys ∧ depthItems (treesOf ys) ≤ depthItems vs := by
      rcases he with ⟨-, rfl⟩ | ⟨ts, -, hts⟩
      · obtain rfl := Option.some.inj hys
        exact ⟨trivial, Nat.le_refl _⟩
      · exact storableItems_of_text vs hts hys
    refine ⟨⟨hstorable, htail.1⟩, ?_⟩
    simp only [treesOf, depthItems]
    omega

theorem storableMembers_of_text {gap : List Char → Prop} (ms : List (List Mark × Tree))
    {t : List Char} {ys : List (String × Value)} (h : MembersText gap ms t)
    (hy : memberValues? .stored ms = some ys) :
    (∀ m ∈ ys, m.2.Storable) ∧ ∀ m ∈ ys, (Tree.ofValue m.2).depth ≤ depthMembers ms := by
  match ms with
  | [] => exact absurd h MembersText.ne_nil
  | (k, v) :: ms =>
    obtain ⟨s, x, zs, -, hv, hzs, rfl⟩ := memberValues?_cons_eq_some.mp hy
    obtain ⟨a, b, c, s, d, e, -, -, -, -, hs, -, -, he⟩ := h.cons_inv
    obtain ⟨hstorable, hdepth⟩ := storable_of_text v hs hv
    have htail : (∀ m ∈ zs, m.2.Storable) ∧
        ∀ m ∈ zs, (Tree.ofValue m.2).depth ≤ depthMembers ms := by
      rcases he with ⟨-, rfl⟩ | ⟨ts, -, hts⟩
      · obtain rfl := Option.some.inj hzs
        simp
      · exact storableMembers_of_text ms hts hzs
    refine ⟨List.forall_mem_cons.mpr ⟨hstorable, htail.1⟩,
      List.forall_mem_cons.mpr ⟨?_, fun m hm => ?_⟩⟩
    · simp only [depthMembers]
      omega
    · have hm' := htail.2 m hm
      simp only [depthMembers]
      omega

end

end LintRelay.Json
