import LintRelay.Json.Record
import LintRelay.Proofs.Json.Printer
/-! Values of a known type against the grammar. A reader reads a tree as a value if it takes every
text of the tree and gives the value; lists, maps and records are read if their parts are. -/
namespace LintRelay.Json

/-- Every text of a tree, with blanks in front of it, is taken by a reader and gives one value. -/
def Reads {α : Type} (read : Read α) (v : Tree) (a : α) : Prop :=
  ∀ t, ValueText Blanks v t → ∀ w rest, Blanks w → EndsNumber rest →
    read (w ++ (t ++ rest)) = .ok (a, rest)

theorem Reads.map {α β : Type} {read : Read α} {v : Tree} {a : α} (h : Reads read v a) (f : α → β) :
    Reads (fun cs => do let (a, rest) ← read cs; return (f a, rest)) v (f a) := by
  intro t ht w rest hw hrest
  simp only [h t ht w rest hw hrest]
  rfl

/-! ### Texts, words and counts -/

theorem readString_of_unescape {marks : List Mark} (hms : ∀ m ∈ marks, m.Valid) {s : List Char}
    (h : unescape marks = some s) (r : List Char) :
    readString [] (marksText marks ++ '"' :: r) = .ok (s, r) :=
  Except.eq_ok_of_toOption (by rw [readString_marks marks hms [] r, h]; rfl)

theorem reads_text (wanted : String) {marks : List Mark} {s : List Char}
    (h : unescape marks = some s) :
    Reads (readText wanted) (.string marks) (String.ofList s) := by
  intro t ht w rest hw _
  cases ht with
  | string hms =>
    have hread := readString_of_unescape hms h rest
    simp only [readText, skipSpace_blanks hw, List.cons_append, List.append_assoc,
      List.nil_append, skipSpace_cons_of_not (show isSpace '"' = false from rfl),
      hread]
    rfl

theorem reads_bool (b : Bool) : Reads readBool (.bool b) b := by
  intro t ht w rest hw _
  cases ht with
  | wordTrue =>
    have hword := readWord_append ['r', 'u', 'e'] rest
    simp only [readBool, skipSpace_blanks hw, List.cons_append, List.nil_append,
      skipSpace_cons_of_not (show isSpace 't' = false from rfl)] at hword ⊢
    rw [hword]
    rfl
  | wordFalse =>
    have hword := readWord_append ['a', 'l', 's', 'e'] rest
    simp only [readBool, skipSpace_blanks hw, List.cons_append, List.nil_append,
      skipSpace_cons_of_not (show isSpace 'f' = false from rfl)] at hword ⊢
    rw [hword]
    rfl

/-- Only null starts like null. -/
theorem ValueText.head_ne_n {v : Tree} {t : List Char} (h : ValueText Blanks v t)
    (hv : v ≠ .null) : ∃ c cs, t = c :: cs ∧ isSpace c = false ∧ c ≠ 'n' := by
  cases h with
  | wordNull => exact absurd rfl hv
  | number h =>
    obtain ⟨c, cs, rfl, hc⟩ := h.exists_cons
    obtain ⟨hspace, hother⟩ := startChar_of_number hc
    exact ⟨c, cs, rfl, hspace, fun hn => hother (by simp [hn])⟩
  | _ => exact ⟨_, _, rfl, by decide, by decide⟩

theorem reads_optional {α : Type} {read : Read α} {v : Tree} {a : α} (h : Reads read v a)
    (hv : v ≠ .null) : Reads (readOptional read) v (some a) := by
  intro t ht w rest hw hrest
  have hread := h t ht [] rest (by simp [Blanks]) hrest
  obtain ⟨c, cs, rfl, hspace, hc⟩ := ht.head_ne_n hv
  rw [List.nil_append, List.cons_append] at hread
  rw [readOptional, skipSpace_blanks hw, List.cons_append, skipSpace_cons_of_not hspace]
  split
  · next heq => exact absurd (List.cons.inj heq).1 hc
  · rw [hread]
    rfl

theorem readNumeral_whole {whole r : List Char} (hw : WholeText whole) (hr : EndsNumber r) :
    readNumeral (whole ++ r) = .ok (⟨false, whole, none, none⟩, r) := by
  obtain ⟨fraction, hfraction, hnone⟩ :=
    readFraction_append .absent hr.head_ne.1 hr.startsWithDigit
  obtain ⟨exponent, hexponent, hnone'⟩ :=
    readExponent_append .absent hr.head_ne.2.1 hr.head_ne.2.2 hr.startsWithDigit
  have hminus := hw.head_ne_minus r
  obtain rfl : fraction = none := by
    cases fraction with
    | none => rfl
    | some ds => simp [fractionText] at hnone
  obtain rfl : exponent = none := by
    cases exponent with
    | none => rfl
    | some x => simp [exponentKept, keptToken] at hnone'
  rw [List.nil_append] at hfraction hexponent
  rw [readNumeral]
  · simp only [readUnsigned, readWhole_append hw hr.startsWithDigit, hfraction, hexponent, bind,
      Except.bind, pure, Except.pure]
  · intro cs heq
    simp [heq] at hminus

theorem digits_toDigits (n : Nat) : Digits (Nat.toDigits 10 n) :=
  ⟨Nat.toDigits_ne_nil, fun _ => Nat.isDigit_of_mem_toDigits (by decide) (by decide)⟩

theorem wholeText_toDigits (n : Nat) : WholeText (Nat.toDigits 10 n) := by
  induction n using Nat.strongRecOn with
  | ind n ih =>
    rw [Nat.toDigits_eq_if (by decide)]
    split
    · next hlt =>
      by_cases hzero : n = 0
      · rw [hzero]
        exact .zero
      · have hfirst : n.digitChar.isDigit = true ∧ n.digitChar ≠ '0' := by
          interval_cases n <;> first | exact absurd rfl hzero | decide
        exact .digits hfirst.1 hfirst.2 (by simp)
    · next hge =>
      have hlast : (n % 10).digitChar.isDigit = true := by
        apply (digits_toDigits (n % 10)).2
        rw [Nat.toDigits_of_lt_base (Nat.mod_lt n (by decide))]
        exact List.mem_singleton_self _
      have hfront := ih (n / 10) (by omega)
      generalize hq : Nat.toDigits 10 (n / 10) = front at hfront
      cases hfront with
      | zero =>
        -- The quotient is not zero, so its digits are not.
        have hvalue := congrArg (Nat.ofDigitChars 10 · 0) hq
        simp only [Nat.ofDigitChars_ten_toDigits] at hvalue
        have hzero : n / 10 = 0 := hvalue
        omega
      | @digits d ds hd h0 hds =>
        exact .digits hd h0 fun x hx => by
          rcases List.mem_append.mp hx with hx | hx
          · exact hds x hx
          · rw [List.mem_singleton.mp hx]
            exact hlast

theorem digitsValue_toDigits (n : Nat) : digitsValue (Nat.toDigits 10 n) = n := by
  have hvalue := Nat.ofDigitChars_ten_toDigits (n := n)
  rw [Nat.ofDigitChars_eq_foldl] at hvalue
  simpa [digitsValue, Nat.mul_comm] using hvalue

theorem toList_toString (n : UInt64) : (toString n).toList = Nat.toDigits 10 n.toNat := by
  have hstring : toString n = String.ofList (Nat.toDigits 10 n.toNat) := rfl
  rw [hstring, String.toList_ofList]

theorem reads_whole {token : List Char} (hwhole : WholeText token)
    (hword : digitsValue token ≤ maxWord) :
    Reads readCount (.number token) (UInt64.ofNat (digitsValue token)) := by
  intro t ht w rest hw hrest
  cases ht with
  | number ht =>
    have hnumeral := readNumeral_whole hwhole hrest
    obtain ⟨c, cs, hcons, hc⟩ := ht.exists_cons
    obtain ⟨hspace, -⟩ := startChar_of_number hc
    rw [hcons] at hnumeral hword ⊢
    rw [readCount, skipSpace_blanks hw, List.cons_append, skipSpace_cons_of_not hspace]
    rw [List.cons_append] at hnumeral
    simp only [hc, if_true, hnumeral, NumeralFault.lift, Halt.lift, bind, Except.bind,
      Numeral.isMachineInteger, Option.isNone_none, Bool.and_self, Bool.true_and]
    simp [hword, pure, Except.pure]

theorem reads_count (n : UInt64) : Reads readCount (.number (toString n).toList) n := by
  have hvalue := digitsValue_toDigits n.toNat
  have hword : n.toNat ≤ maxWord := Nat.le_of_lt_succ n.toNat_lt
  have hread := reads_whole (wholeText_toDigits n.toNat) (by rwa [hvalue])
  rwa [hvalue, UInt64.ofNat_toNat, ← toList_toString] at hread

/-! ### Lists and maps -/

theorem ItemsText.exists_skipSpace {vs : List Tree} {t : List Char} (h : ItemsText Blanks vs t)
    (r : List Char) :
    ∃ t', ItemsText Blanks vs t' ∧ skipSpace (t ++ r) = t' ++ r ∧ t'.length ≤ t.length := by
  have hskip : ∀ {a s : List Char} {v : Tree}, Blanks a → ValueText Blanks v s → ∀ u,
      skipSpace (a ++ (s ++ u)) = s ++ u := by
    intro a s v ha hs u
    obtain ⟨c, cs, rfl, hspace, -⟩ := hs.exists_cons
    rw [skipSpace_blanks ha, List.cons_append, skipSpace_cons_of_not hspace]
  cases h with
  | @one v a s b ha hs hb =>
    refine ⟨s ++ b, by simpa using ItemsText.one blanks_nil hs hb, ?_, by simp⟩
    simpa using hskip ha hs (b ++ r)
  | @cons v vs a s b ts ha hs hb hts =>
    refine ⟨s ++ (b ++ ',' :: ts), by simpa using ItemsText.cons blanks_nil hs hb hts, ?_, by simp⟩
    simpa using hskip ha hs (b ++ (',' :: ts ++ r))

theorem ItemsText.length_pos {vs : List Tree} {t : List Char} (h : ItemsText Blanks vs t) :
    0 < t.length := by
  cases vs with
  | nil => exact absurd h ItemsText.ne_nil
  | cons v vs =>
    obtain ⟨a, s, b, e, -, hs, -, rfl, -⟩ := h.cons_inv
    obtain ⟨c, cs, rfl, -⟩ := hs.exists_cons
    simp

variable {α : Type} {read : Read α}

theorem readItemsWith_text {vs : List Tree} {xs : List α} (hread : List.Forall₂ (Reads read) vs xs)
    {t : List Char} (ht : ItemsText Blanks vs t) (steps : Nat) (hsteps : t.length ≤ steps)
    (acc : List α) (r : List Char) :
    readItemsWith read steps acc (t ++ ']' :: r) = .ok (acc.reverse ++ xs, r) := by
  induction hread generalizing t steps acc with
  | nil => exact absurd ht ItemsText.ne_nil
  | @cons v x vs xs hv hvs ih =>
    obtain ⟨steps, rfl⟩ : ∃ n, steps = n + 1 := ⟨steps - 1, by have := ht.length_pos; omega⟩
    obtain ⟨a, s, b, e, ha, hs, hb, rfl, he⟩ := ht.cons_inv
    have hfirst := hv s hs a (b ++ (e ++ ']' :: r)) ha
      (endsNumber_follow hb (Or.inl rfl) (he.imp And.left fun ⟨ts, hts, _⟩ => ⟨ts, hts⟩))
    simp only [List.append_assoc] at hfirst ⊢
    rcases he with ⟨rfl, rfl⟩ | ⟨ts, rfl, hts⟩
    · obtain rfl : xs = [] := by cases hvs; rfl
      simp only [List.nil_append] at hfirst ⊢
      simp only [readItemsWith, hfirst, afterItem_done hb, Halt.lift, bind, Except.bind, pure,
        Except.pure, List.reverse_cons]
    · obtain ⟨c, cs, hskip, hc⟩ := hts.skipSpace_append (']' :: r)
      obtain ⟨ts', hts', hskip', hle⟩ := hts.exists_skipSpace (']' :: r)
      have hnext := afterItem_next hb hskip hc
      have hlength : ts'.length ≤ steps := by
        simp only [List.length_append, List.length_cons] at hsteps
        omega
      rw [hskip'] at hnext
      simp only [List.cons_append] at hfirst ⊢
      simp only [readItemsWith, hfirst, hnext, Halt.lift, bind, Except.bind, ih hts' steps hlength,
        List.reverse_cons, List.append_assoc, List.singleton_append]

theorem reads_list {vs : List Tree} {xs : List α} (hread : List.Forall₂ (Reads read) vs xs) :
    Reads (readListOf read) (.array vs) xs := by
  intro t ht w rest hw _
  have hopen : ∀ u, skipSpace (w ++ '[' :: u) = '[' :: u := fun u => by
    rw [skipSpace_blanks hw, skipSpace_cons_of_not (by decide)]
  cases ht with
  | @emptyArray w' hw' =>
    cases hread
    have hclose : skipSpace (w' ++ ']' :: rest) = ']' :: rest := by
      rw [skipSpace_blanks hw', skipSpace_cons_of_not (by decide)]
    simp [readListOf, hopen, hclose]
  | @array _ t hitems =>
    obtain ⟨c, cs, hskip, hc⟩ := hitems.skipSpace_append (']' :: rest)
    obtain ⟨t', ht', hskip', -⟩ := hitems.exists_skipSpace (']' :: rest)
    have hall := readItemsWith_text hread ht' ((c :: cs).length + 1)
      (by rw [← hskip, hskip']; simp; omega) [] rest
    rw [← hskip', hskip, List.reverse_nil, List.nil_append] at hall
    simp only [List.cons_append, List.append_assoc, List.nil_append, readListOf, hopen, hskip]
    split
    · next heq => cases heq
    · next heq => exact absurd (List.cons.inj heq).1 hc
    · exact hall

def ReadsMember (read : Read α) (m : List Mark × Tree) (entry : String × α) : Prop :=
  (∃ s, unescape m.1 = some s ∧ entry.1 = String.ofList s) ∧ Reads read m.2 entry.2

/-- What follows the key of a member, up to the end of the object. -/
theorem endsNumber_member {d e r : List Char} {ms : List (List Mark × Tree)} (hd : Blanks d)
    (he : e = [] ∧ ms = [] ∨ ∃ ts, e = ',' :: ts ∧ MembersText Blanks ms ts) :
    EndsNumber (d ++ (e ++ '\x7d' :: r)) :=
  endsNumber_follow hd (Or.inr rfl) (he.imp And.left fun ⟨ts, hts, _⟩ => ⟨ts, hts⟩)

theorem readEntriesWith_text {v : Tree} {x : α} {ms : List (List Mark × Tree)}
    {xs : List (String × α)} (hv : Reads read v x) (hms : List.Forall₂ (ReadsMember read) ms xs)
    {b c s d e : List Char} (hb : Blanks b) (hc : Blanks c) (hs : ValueText Blanks v s)
    (hd : Blanks d) (he : e = [] ∧ ms = [] ∨ ∃ ts, e = ',' :: ts ∧ MembersText Blanks ms ts)
    (steps : Nat) (hsteps : e.length < steps) (acc : List (String × α)) (key : String)
    (r : List Char) :
    readEntriesWith read steps acc key (b ++ ':' :: (c ++ (s ++ (d ++ (e ++ '\x7d' :: r))))) =
      .ok (acc.reverse ++ (key, x) :: xs, r) := by
  induction hms generalizing v x b c s d e steps acc key with
  | nil =>
    obtain ⟨steps, rfl⟩ : ∃ n, steps = n + 1 := ⟨steps - 1, by omega⟩
    have hvalue := hv s hs c _ hc (endsNumber_member (r := r) hd he)
    rcases he with ⟨rfl, -⟩ | ⟨ts, rfl, hts⟩
    · simp only [List.nil_append] at hvalue ⊢
      simp only [readEntriesWith, readColon_append hb, hvalue, afterMember_done hd, Halt.lift, bind,
        Except.bind, pure, Except.pure, List.reverse_cons]
    · exact absurd hts MembersText.ne_nil
  | @cons m entry ms xs hm hms ih =>
    obtain ⟨steps, rfl⟩ : ∃ n, steps = n + 1 := ⟨steps - 1, by omega⟩
    have hvalue := hv s hs c _ hc (endsNumber_member (r := r) hd he)
    rcases he with ⟨-, hnil⟩ | ⟨ts, rfl, hts⟩
    · cases hnil
    · obtain ⟨k, v'⟩ := m
      obtain ⟨key', x'⟩ := entry
      obtain ⟨⟨chars, hkey, rfl⟩, hv'⟩ := hm
      obtain ⟨a', b', c', s', d', e', ha', hk', hb', hc', hs', hd', rfl, he'⟩ := hts.cons_inv
      have hnext := afterMember_next hd ha' (marksText k ++ '"' :: (b' ++ ':' :: (c' ++ (s' ++ (d' ++
        (e' ++ '\x7d' :: r))))))
      have hstring := readString_of_unescape hk' hkey (b' ++ ':' :: (c' ++ (s' ++ (d' ++
        (e' ++ '\x7d' :: r)))))
      have hlength : e'.length < steps := by
        simp only [List.length_append, List.length_cons] at hsteps
        omega
      simp only [List.cons_append, List.append_assoc] at hvalue ⊢
      simp only [readEntriesWith, readColon_append hb, hvalue, hnext, hstring, Halt.lift, bind,
        Except.bind, ih hv' hb' hc' hs' hd' he' steps hlength, List.reverse_cons, List.append_assoc,
        List.singleton_append]

theorem reads_map {ms : List (List Mark × Tree)} {xs : List (String × α)}
    (hms : List.Forall₂ (ReadsMember read) ms xs) : Reads (readMapOf read) (.object ms) xs := by
  intro t ht w rest hw _
  have hopen : ∀ u, skipSpace (w ++ '\x7b' :: u) = '\x7b' :: u := fun u => by
    rw [skipSpace_blanks hw, skipSpace_cons_of_not (by decide)]
  cases ht with
  | @emptyObject w' hw' =>
    cases hms
    have hclose : skipSpace (w' ++ '\x7d' :: rest) = '\x7d' :: rest := by
      rw [skipSpace_blanks hw', skipSpace_cons_of_not (by decide)]
    simp [readMapOf, hopen, hclose]
  | @object _ t hmembers =>
    cases hms with
    | nil => exact absurd hmembers MembersText.ne_nil
    | @cons m entry ms xs hm hms =>
      obtain ⟨k, v⟩ := m
      obtain ⟨key, x⟩ := entry
      obtain ⟨⟨chars, hkey, rfl⟩, hv⟩ := hm
      obtain ⟨a, b, c, s, d, e, ha, hk, hb, hc, hs, hd, rfl, he⟩ := hmembers.cons_inv
      have hquote : ∀ u, skipSpace (a ++ '"' :: u) = '"' :: u := fun u => by
        rw [skipSpace_blanks ha, skipSpace_cons_of_not (by decide)]
      have hstring := readString_of_unescape hk hkey (b ++ ':' :: (c ++ (s ++ (d ++
        (e ++ '\x7d' :: rest)))))
      have hall := readEntriesWith_text hv hms hb hc hs hd he
        ((b ++ ':' :: (c ++ (s ++ (d ++ (e ++ '\x7d' :: rest))))).length + 1)
        (by simp only [List.length_append, List.length_cons]; omega) [] (String.ofList chars) rest
      simp only [List.cons_append, List.append_assoc, List.nil_append, readMapOf, hopen, hquote,
        hstring, Halt.lift, bind, Except.bind, hall, List.reverse_nil]

/-! ### Records -/

namespace Record

variable {σ : Type} {r : Record σ}

/-- A member under a key is taken into what is gathered, whatever stands around its colon. -/
def Takes (r : Record σ) (gathered : σ) (key : String) (v : Tree) (after : σ) : Prop :=
  ∀ t, ValueText Blanks v t → ∀ b c rest, Blanks b → Blanks c → EndsNumber rest →
    r.readMember gathered key (b ++ ':' :: (c ++ (t ++ rest))) = .ok (after, rest)

theorem takes_field {gathered after : σ} {key : String} {v : Tree} {field : Component σ}
    (hfind : r.fields.find? (·.key == key) = some field) (hgiven : field.isGiven gathered = false)
    (hread : Reads (field.read gathered) v after) : r.Takes gathered key v after := by
  intro t ht b c rest hb hc hrest
  simp only [readMember, hfind, hgiven, Bool.false_eq_true, if_false, readColon_append hb, Halt.lift,
    bind, Except.bind]
  exact hread t ht c rest hc hrest

inductive Gathers (r : Record σ) : σ → List (List Mark × Tree) → σ → Prop
  | nil (gathered : σ) : Gathers r gathered [] gathered
  | cons {k : List Mark} {v : Tree} {ms : List (List Mark × Tree)} {key : List Char}
      {gathered next after : σ} (hkey : unescape k = some key)
      (hv : r.Takes gathered (String.ofList key) v next) (hms : Gathers r next ms after) :
      Gathers r gathered ((k, v) :: ms) after

theorem Gathers.append {gathered next after : σ} {ms ns : List (List Mark × Tree)}
    (h : r.Gathers gathered ms next) (hns : r.Gathers next ns after) :
    r.Gathers gathered (ms ++ ns) after := by
  induction h with
  | nil => exact hns
  | cons hkey hv _ ih => exact .cons hkey hv (ih hns)

theorem readMembers_text {gathered next after : σ} {v : Tree} {ms : List (List Mark × Tree)}
    {key : String} (hv : r.Takes gathered key v next) (hms : r.Gathers next ms after)
    {b c s d e : List Char} (hb : Blanks b) (hc : Blanks c) (hs : ValueText Blanks v s)
    (hd : Blanks d) (he : e = [] ∧ ms = [] ∨ ∃ ts, e = ',' :: ts ∧ MembersText Blanks ms ts)
    (steps : Nat) (hsteps : e.length < steps) (rest : List Char) :
    r.readMembers steps gathered key
        (b ++ ':' :: (c ++ (s ++ (d ++ (e ++ '\x7d' :: rest))))) = .ok (after, rest) := by
  induction hms generalizing gathered key v b c s d e steps with
  | nil next =>
    obtain ⟨steps, rfl⟩ : ∃ n, steps = n + 1 := ⟨steps - 1, by omega⟩
    have hmember := hv s hs b c _ hb hc (endsNumber_member (r := rest) hd he)
    rcases he with ⟨rfl, -⟩ | ⟨ts, rfl, hts⟩
    · simp only [List.nil_append] at hmember ⊢
      simp only [readMembers, hmember, afterMember_done hd, Halt.lift, bind, Except.bind, pure,
        Except.pure]
    · exact absurd hts MembersText.ne_nil
  | @cons k v' ms chars next next' after hkey hv' _ ih =>
    obtain ⟨steps, rfl⟩ : ∃ n, steps = n + 1 := ⟨steps - 1, by omega⟩
    have hmember := hv s hs b c _ hb hc (endsNumber_member (r := rest) hd he)
    rcases he with ⟨-, hnil⟩ | ⟨ts, rfl, hts⟩
    · cases hnil
    · obtain ⟨a', b', c', s', d', e', ha', hk', hb', hc', hs', hd', rfl, he'⟩ := hts.cons_inv
      have hnext := afterMember_next hd ha' (marksText k ++ '"' :: (b' ++ ':' :: (c' ++ (s' ++ (d' ++
        (e' ++ '\x7d' :: rest))))))
      have hstring := readString_of_unescape hk' hkey (b' ++ ':' :: (c' ++ (s' ++ (d' ++
        (e' ++ '\x7d' :: rest)))))
      have hlength : e'.length < steps := by
        simp only [List.length_append, List.length_cons] at hsteps
        omega
      simp only [List.cons_append, List.append_assoc] at hmember ⊢
      simp only [readMembers, hmember, hnext, hstring, Halt.lift, bind, Except.bind,
        ih hv' hb' hc' hs' hd' he' steps hlength]

/-- A record is read from an object whose members give it all that it requires. -/
theorem reads {empty after : σ} {ms : List (List Mark × Tree)} (h : r.Gathers empty ms after)
    (hmissing : r.missing? after = none) : Reads (r.read empty) (.object ms) after := by
  intro t ht w rest hw _
  have hopen : ∀ u, skipSpace (w ++ '\x7b' :: u) = '\x7b' :: u := fun u => by
    rw [skipSpace_blanks hw, skipSpace_cons_of_not (by decide)]
  cases ht with
  | @emptyObject w' hw' =>
    cases h
    have hclose : skipSpace (w' ++ '\x7d' :: rest) = '\x7d' :: rest := by
      rw [skipSpace_blanks hw', skipSpace_cons_of_not (by decide)]
    simp [Record.read, readObject, hopen, hclose, hmissing, bind, Except.bind, pure, Except.pure]
  | @object _ t hmembers =>
    cases h with
    | nil => exact absurd hmembers MembersText.ne_nil
    | @cons k v ms chars _ next _ hkey hv hms =>
      obtain ⟨a, b, c, s, d, e, ha, hk, hb, hc, hs, hd, rfl, he⟩ := hmembers.cons_inv
      have hquote : ∀ u, skipSpace (a ++ '"' :: u) = '"' :: u := fun u => by
        rw [skipSpace_blanks ha, skipSpace_cons_of_not (by decide)]
      have hstring := readString_of_unescape hk hkey (b ++ ':' :: (c ++ (s ++ (d ++
        (e ++ '\x7d' :: rest)))))
      have hall := readMembers_text hv hms hb hc hs hd he
        ((b ++ ':' :: (c ++ (s ++ (d ++ (e ++ '\x7d' :: rest))))).length + 1)
        (by simp only [List.length_append, List.length_cons]; omega) rest
      simp only [List.cons_append, List.append_assoc, List.nil_append, Record.read, hopen, readObject,
        hquote, hstring, Halt.lift, bind, Except.bind, hall, place, hmissing, pure, Except.pure]

end Record

theorem parseWith_of_reads {v : Tree} {x : α} (h : Reads read v x) {t w : List Char}
    (ht : ValueText Blanks v t) (hw : Blanks w) : parseWith read (t ++ w) = .ok x := by
  have hread := h t ht [] w blanks_nil (endsNumber_of_blanks hw)
  rw [List.nil_append] at hread
  simp only [parseWith, hread, endText_blanks hw]
  rfl

end LintRelay.Json
