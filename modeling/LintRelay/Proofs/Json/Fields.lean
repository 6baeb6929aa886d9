import LintRelay.Proofs.Json.Typed
import Mathlib.Data.List.Find
import Mathlib.Data.List.Pairwise
/-! Records and the order of their members. What a record is read from is a relation between trees
and records: an object whose members are fields, each at most once, or others, or a list of the
fields. Where fields are independent of each other, their order makes no difference, nor do members
that are not fields. -/
namespace LintRelay.Json

open Except (bind_eq_ok)

theorem endList_append {b : List Char} (hb : Blanks b) (r : List Char) :
    endList (b ++ ']' :: r) = .ok r := by
  simp [endList, skipSpace_blanks hb, skipSpace_cons_of_not (c := ']') (by decide)]

theorem endList_eq_ok {cs r : List Char} (h : endList cs = .ok r) :
    ∃ b, Blanks b ∧ cs = b ++ ']' :: r := by
  obtain ⟨b, hb, hcs⟩ := exists_blanks_skipSpace cs
  unfold endList at h
  split at h
  · simp at h
  · next heq =>
    obtain rfl : _ = r := by simpa using h
    exact ⟨b, hb, by rw [hcs, heq]⟩
  · split at h <;> simp at h
  · simp at h

namespace Record

variable {σ : Type} {r : Record σ} {acts : Component σ → Tree → (σ → σ) → Prop}

/-- A member under a key. A field acts on what was collected before, if it was not given there;
other members do nothing. -/
inductive Adds (r : Record σ) (acts : Component σ → Tree → (σ → σ) → Prop) (s : σ) (key : String)
    (v : Tree) : σ → Prop
  | field {f : Component σ} {act : σ → σ} (hfind : r.fields.find? (·.key == key) = some f)
      (hgiven : f.isGiven s = false) (hact : acts f v act) : Adds r acts s key v (act s)
  | other (hfind : r.fields.find? (·.key == key) = none) : Adds r acts s key v s

/-- Members that are collected one after the other. -/
inductive Collects (r : Record σ) (acts : Component σ → Tree → (σ → σ) → Prop) :
    σ → List (List Mark × Tree) → σ → Prop
  | nil (s : σ) : Collects r acts s [] s
  | cons {k : List Mark} {key : List Char} {v : Tree} {ms : List (List Mark × Tree)}
      {s next after : σ} (hkey : unescape k = some key)
      (hv : r.Adds acts s (String.ofList key) v next) (hms : Collects r acts next ms after) :
      Collects r acts s ((k, v) :: ms) after

/-- Fields in the order in which they are declared; those that are left out at the end are not
required. -/
inductive Lists (acts : Component σ → Tree → (σ → σ) → Prop) :
    List (Component σ) → σ → List Tree → σ → Prop
  | nil {fields : List (Component σ)} (h : ∀ f ∈ fields, f.required = false) (s : σ) :
      Lists acts fields s [] s
  | cons {f : Component σ} {fields : List (Component σ)} {v : Tree} {vs : List Tree} {act : σ → σ}
      {s after : σ} (hact : acts f v act) (hvs : Lists acts fields (act s) vs after) :
      Lists acts (f :: fields) s (v :: vs) after

/-- The trees from which a record is read, and what is read from them. -/
inductive Spells (r : Record σ) (acts : Component σ → Tree → (σ → σ) → Prop) (empty : σ) :
    Tree → σ → Prop
  | object {ms : List (List Mark × Tree)} {s : σ} (h : Collects r acts empty ms s)
      (hmissing : r.missing? s = none) : Spells r acts empty (.object ms) s
  | list {vs : List Tree} {s : σ} (h : Lists acts r.fields empty vs s) :
      Spells r acts empty (.array vs) s

/-- Fields are read from the trees by which they act, and from no others. -/
structure Reading (r : Record σ) (acts : Component σ → Tree → (σ → σ) → Prop) : Prop where
  reads : ∀ f ∈ r.fields, ∀ v act, acts f v act → ∀ s, Reads (f.read s) v (act s)
  only : ∀ f ∈ r.fields, ∀ s,
    ReadsOnly (f.read s) fun v after => ∃ act, acts f v act ∧ after = act s

/-! ### Objects -/

theorem Adds.takes (hr : r.Reading acts) {s after : σ} {key : String} {v : Tree}
    (h : r.Adds acts s key v after) : r.Takes s key v after := by
  cases h with
  | @field f act hfind hgiven hact =>
    have hmem : f ∈ r.fields := List.mem_of_find?_eq_some hfind
    exact takes_field hfind hgiven (hr.reads f hmem v act hact s)
  | other hfind =>
    intro t ht b c rest hb hc hrest
    simp only [readMember, hfind, readColon_append hb, skipValue_text ht hc hrest, Halt.lift, bind,
      Except.bind, pure, Except.pure]

theorem Collects.gathers (hr : r.Reading acts) {s after : σ} {ms : List (List Mark × Tree)}
    (h : Collects r acts s ms after) : r.Gathers s ms after := by
  induction h with
  | nil s => exact .nil s
  | cons hkey hv _ ih => exact .cons hkey (hv.takes hr) ih

theorem readMember_eq_ok (hr : r.Reading acts) {s after : σ} {key : String} {cs rest : List Char}
    (h : r.readMember s key cs = .ok (after, rest)) :
    ∃ b c v t, Blanks b ∧ Blanks c ∧ ValueText Blanks v t ∧ r.Adds acts s key v after ∧
      cs = b ++ ':' :: (c ++ (t ++ rest)) := by
  rw [readMember] at h
  split at h
  · next f hfind =>
    split at h
    · simp [throw, throwThe, MonadExceptOf.throw, bind, Except.bind] at h
    · next hgiven =>
      obtain ⟨cs₁, hcolon, hvalue⟩ := bind_eq_ok.mp h
      obtain ⟨b, hb, rfl⟩ := readColon_eq_ok (Halt.lift_eq_ok.mp hcolon)
      obtain ⟨c, v, t, hc, ht, rfl, act, hact, rfl⟩ :=
        hr.only f (List.mem_of_find?_eq_some hfind) s cs₁ after rest hvalue
      exact ⟨b, c, v, t, hb, hc, ht, .field hfind (by simpa using hgiven) hact, rfl⟩
  · next hfind =>
    obtain ⟨cs₁, hcolon, hvalue⟩ := bind_eq_ok.mp h
    obtain ⟨b, hb, rfl⟩ := readColon_eq_ok (Halt.lift_eq_ok.mp hcolon)
    obtain ⟨rest', hskip, hend⟩ := bind_eq_ok.mp hvalue
    obtain ⟨rfl, rfl⟩ : s = after ∧ rest' = rest := by simpa [pure, Except.pure] using hend
    obtain ⟨c, v, t, hc, ht, rfl⟩ := skipValue_eq_ok (Halt.lift_eq_ok.mp hskip)
    exact ⟨b, c, v, t, hb, hc, ht, .other hfind, rfl⟩

theorem readMembers_eq_ok (hr : r.Reading acts) {steps : Nat} {s after : σ} {key : String}
    {cs rest : List Char} (h : r.readMembers steps s key cs = .ok (after, rest)) :
    ∃ v ms next, AfterKey v ms cs rest ∧ r.Adds acts s key v next ∧
      r.Collects acts next ms after := by
  induction steps generalizing s key cs with
  | zero => simp [readMembers] at h
  | succ steps ih =>
    obtain ⟨⟨next, cs₁⟩, hmember, hend⟩ := bind_eq_ok.mp h
    obtain ⟨b, c, v, t, hb, hc, ht, hadds, rfl⟩ := readMember_eq_ok hr hmember
    obtain ⟨follow, hfollow, htail⟩ := bind_eq_ok.mp hend
    obtain ⟨d, hd, hcases⟩ := afterMember_eq_ok (Halt.lift_eq_ok.mp hfollow)
    rcases hcases with ⟨rest', rfl, rfl⟩ | ⟨a, cs₂, rfl, ha, rfl⟩
    · obtain ⟨rfl, rfl⟩ : next = after ∧ rest' = rest := by simpa [pure, Except.pure] using htail
      exact ⟨v, [], next, .last hb hc ht hd, hadds, .nil next⟩
    · obtain ⟨⟨u, cs₃⟩, hstring, hmembers⟩ := bind_eq_ok.mp htail
      obtain ⟨k, hk, rfl, hu⟩ := readString_nil_eq_ok (Halt.lift_eq_ok.mp hstring)
      obtain ⟨v', ms, next', hafter, hadds', hcollects⟩ := ih hmembers
      exact ⟨v, (k, v') :: ms, next, .next hb hc ht hd ha hk hafter, hadds,
        .cons hu hadds' hcollects⟩

theorem place_eq_ok {α : Type} {leave : List Char → List Char} {x : Except Halt α} {a : α} :
    place leave x = .ok a ↔ x = .ok a := by
  cases x with
  | error halt => cases halt <;> simp [place]
  | ok b => simp [place]

theorem readObject_eq_ok (hr : r.Reading acts) {empty after : σ} {cs rest : List Char}
    (h : r.readObject empty cs = .ok (after, rest)) :
    ∃ ms t, ValueText Blanks (.object ms) t ∧ '\x7b' :: cs = t ++ rest ∧
      r.Collects acts empty ms after ∧ r.missing? after = none := by
  obtain ⟨a, ha, hcs⟩ := exists_blanks_skipSpace cs
  rw [readObject] at h
  split at h
  · simp [bind, Except.bind] at h
  · next cs' heq =>
    obtain ⟨_, hempty, hend⟩ := bind_eq_ok.mp h
    obtain rfl := Except.ok.inj hempty
    dsimp only at hend
    split at hend
    · simp [throw, throwThe, MonadExceptOf.throw] at hend
    · next hmissing =>
      obtain ⟨rfl, rfl⟩ : empty = after ∧ cs' = rest := by simpa [pure, Except.pure] using hend
      rw [heq] at hcs
      exact ⟨[], _, .emptyObject ha, by rw [hcs]; simp, .nil empty, hmissing⟩
  · next cs' heq =>
    obtain ⟨⟨u, cs₃⟩, hstring, hplace⟩ := bind_eq_ok.mp h
    obtain ⟨⟨s, rest'⟩, hmembers, hend⟩ := bind_eq_ok.mp hplace
    dsimp only at hend
    split at hend
    · simp [throw, throwThe, MonadExceptOf.throw] at hend
    · next hmissing =>
      obtain ⟨rfl, rfl⟩ : s = after ∧ rest' = rest := by simpa [pure, Except.pure] using hend
      obtain ⟨k, hk, rfl, hu⟩ := readString_nil_eq_ok (Halt.lift_eq_ok.mp hstring)
      obtain ⟨v, ms, next, hafter, hadds, hcollects⟩ :=
        readMembers_eq_ok hr (place_eq_ok.mp hmembers)
      obtain ⟨t, ht, htext⟩ := hafter.exists_object ha hk
      exact ⟨_, t, ht, by rw [← htext, hcs, heq], .cons hu hadds hcollects, hmissing⟩
  · simp [bind, Except.bind] at h

/-! ### Lists -/

theorem readFields_next_eq_ok (hr : r.Reading acts) {fields : List (Component σ)}
    (hfields : ∀ f ∈ fields, f ∈ r.fields) {index : Nat} {s after : σ} {cs rest : List Char}
    (h : r.readFields fields index false s cs = .ok (after, rest)) :
    ∃ vs b e, Blanks b ∧ Lists acts fields s vs after ∧ cs = b ++ (e ++ ']' :: rest) ∧
      (e = [] ∧ vs = [] ∨ ∃ ts, e = ',' :: ts ∧ ItemsText Blanks vs ts) := by
  induction fields generalizing index s cs with
  | nil =>
    rw [readFields] at h
    obtain ⟨rest', hlist, hend⟩ := bind_eq_ok.mp h
    obtain ⟨rfl, rfl⟩ : s = after ∧ rest' = rest := by simpa [pure, Except.pure] using hend
    obtain ⟨b, hb, rfl⟩ := endList_eq_ok (Halt.lift_eq_ok.mp hlist)
    exact ⟨[], b, [], hb, .nil (by simp) s, rfl, Or.inl ⟨rfl, rfl⟩⟩
  | cons f fields ih =>
    obtain ⟨hf, hrest⟩ := List.forall_mem_cons.mp hfields
    rw [readFields, if_neg (by simp)] at h
    obtain ⟨follow, hfollow, htail⟩ := bind_eq_ok.mp h
    obtain ⟨b, hb, hcases⟩ := afterItem_eq_ok (Halt.lift_eq_ok.mp hfollow)
    rcases hcases with ⟨rest', rfl, rfl⟩ | ⟨w, cs₁, rfl, hw, rfl⟩
    · cases hrequired : (f :: fields).findIdx? (·.required) with
      | some i => simp [hrequired] at htail
      | none =>
        obtain ⟨rfl, rfl⟩ : s = after ∧ rest' = rest := by simpa [hrequired] using htail
        exact ⟨[], b, [], hb, .nil (List.findIdx?_eq_none_iff.mp hrequired) s, rfl,
          Or.inl ⟨rfl, rfl⟩⟩
    · obtain ⟨⟨s', cs₂⟩, hvalue, hfields'⟩ := bind_eq_ok.mp htail
      obtain ⟨w', v, t, hw', ht, rfl, act, hact, rfl⟩ := hr.only f hf s cs₁ s' cs₂ hvalue
      obtain ⟨vs, b', e, hb', hlists, rfl, he⟩ := ih hrest hfields'
      have hitems := ItemsText.of_follow (hw.append hw') ht hb' he
      exact ⟨v :: vs, b, _, hb, .cons hact hlists, by simp, Or.inr ⟨_, rfl, hitems⟩⟩

theorem readFields_first_eq_ok (hr : r.Reading acts) {fields : List (Component σ)}
    (hfields : ∀ f ∈ fields, f ∈ r.fields) {index : Nat} {s after : σ} {cs rest : List Char}
    (h : r.readFields fields index true s cs = .ok (after, rest)) :
    ∃ vs t, ValueText Blanks (.array vs) t ∧ '[' :: cs = t ++ rest ∧
      Lists acts fields s vs after := by
  cases fields with
  | nil =>
    rw [readFields] at h
    obtain ⟨rest', hlist, hend⟩ := bind_eq_ok.mp h
    obtain ⟨rfl, rfl⟩ : s = after ∧ rest' = rest := by simpa [pure, Except.pure] using hend
    obtain ⟨b, hb, rfl⟩ := endList_eq_ok (Halt.lift_eq_ok.mp hlist)
    exact ⟨[], _, .emptyArray hb, by simp, .nil (by simp) s⟩
  | cons f fields =>
    obtain ⟨hf, hrest⟩ := List.forall_mem_cons.mp hfields
    obtain ⟨w, hw, hcs⟩ := exists_blanks_skipSpace cs
    rw [readFields, if_pos rfl] at h
    split at h
    · simp at h
    · next rest' heq =>
      rw [heq] at hcs
      cases hrequired : (f :: fields).findIdx? (·.required) with
      | some i => simp [hrequired] at h
      | none =>
        obtain ⟨rfl, rfl⟩ : s = after ∧ rest' = rest := by simpa [hrequired] using h
        exact ⟨[], _, .emptyArray hw, by rw [hcs]; simp,
          .nil (List.findIdx?_eq_none_iff.mp hrequired) s⟩
    · obtain ⟨⟨s', cs₂⟩, hvalue, hfields'⟩ := bind_eq_ok.mp h
      obtain ⟨w', v, t, hw', ht, hskip, act, hact, rfl⟩ := hr.only f hf s _ s' cs₂ hvalue
      obtain ⟨vs, b, e, hb, hlists, rfl, he⟩ := readFields_next_eq_ok hr hrest hfields'
      have hitems := ItemsText.of_follow (hw.append hw') ht hb he
      exact ⟨v :: vs, _, .array hitems, by rw [hcs, hskip]; simp, .cons hact hlists⟩

/-- A record is read from the trees that spell it, and from no others. -/
theorem readsOnly_spells (hr : r.Reading acts) (empty : σ) :
    ReadsOnly (r.read empty) (r.Spells acts empty) := by
  intro cs s rest h
  obtain ⟨w, hw, hcs⟩ := exists_blanks_skipSpace cs
  rw [Record.read] at h
  split at h
  · next cs' heq =>
    obtain ⟨vs, t, ht, htext, hlists⟩ :=
      readFields_first_eq_ok hr (fun f hf => hf) (place_eq_ok.mp h)
    exact ⟨w, _, t, hw, ht, by rw [hcs, heq, htext], .list hlists⟩
  · next cs' heq =>
    obtain ⟨ms, t, ht, htext, hcollects, hmissing⟩ := readObject_eq_ok hr h
    exact ⟨w, _, t, hw, ht, by rw [hcs, heq, htext], .object hcollects hmissing⟩
  · simp [refuse] at h

theorem readFields_next_text (hr : r.Reading acts) {fields : List (Component σ)}
    (hfields : ∀ f ∈ fields, f ∈ r.fields) {s after : σ} {vs : List Tree}
    (h : Lists acts fields s vs after) {b e : List Char} (hb : Blanks b)
    (he : e = [] ∧ vs = [] ∨ ∃ ts, e = ',' :: ts ∧ ItemsText Blanks vs ts) (index : Nat)
    (rest : List Char) :
    r.readFields fields index false s (b ++ (e ++ ']' :: rest)) = .ok (after, rest) := by
  induction h generalizing b e index with
  | @nil fields hrequired s =>
    rcases he with ⟨rfl, -⟩ | ⟨ts, rfl, hts⟩
    · cases fields with
      | nil =>
        simp [readFields, endList_append hb, Halt.lift, bind, Except.bind, pure, Except.pure]
      | cons f fields =>
        have hnone := List.findIdx?_eq_none_iff.mpr hrequired
        simp [readFields, afterItem_done hb, Halt.lift, bind, Except.bind, hnone]
    · exact absurd hts ItemsText.ne_nil
  | @cons f fields v vs act s after hact _ ih =>
    obtain ⟨hf, hrest⟩ := List.forall_mem_cons.mp hfields
    rcases he with ⟨-, hnil⟩ | ⟨ts, rfl, hts⟩
    · cases hnil
    · obtain ⟨a, t, b', e', ha, ht, hb', rfl, he'⟩ := hts.cons_inv
      obtain ⟨c, cs, rfl, hspace, hc⟩ := ht.exists_cons
      have hends : EndsNumber (b' ++ (e' ++ ']' :: rest)) :=
        endsNumber_follow hb' (Or.inl rfl) (he'.imp And.left (Exists.imp fun _ => And.left))
      have hskip : skipSpace (a ++ (c :: cs ++ (b' ++ (e' ++ ']' :: rest)))) =
          c :: (cs ++ (b' ++ (e' ++ ']' :: rest))) := by
        rw [skipSpace_blanks ha, List.cons_append, skipSpace_cons_of_not hspace]
      have hnext := afterItem_next hb hskip (by simp at hc; exact hc.1)
      have hvalue := hr.reads f hf v act hact s (c :: cs) ht [] _ blanks_nil hends
      rw [hskip] at hnext
      rw [List.nil_append, List.cons_append] at hvalue
      simp only [List.append_assoc, List.cons_append] at hnext ⊢
      simp [readFields, hnext, Halt.lift, bind, Except.bind, hvalue, ih hrest hb' he']

theorem readFields_first_text (hr : r.Reading acts) {fields : List (Component σ)}
    (hfields : ∀ f ∈ fields, f ∈ r.fields) {s after : σ} {vs : List Tree}
    (h : Lists acts fields s vs after) {body : List Char}
    (ht : ValueText Blanks (.array vs) ('[' :: body)) (index : Nat) (rest : List Char) :
    r.readFields fields index true s (body ++ rest) = .ok (after, rest) := by
  cases ht with
  | @emptyArray w hw =>
    have hclose : skipSpace (w ++ ']' :: rest) = ']' :: rest := by
      rw [skipSpace_blanks hw, skipSpace_cons_of_not (by decide)]
    cases h with
    | nil hrequired =>
      cases fields with
      | nil =>
        simp [readFields, endList_append hw, Halt.lift, bind, Except.bind, pure, Except.pure]
      | cons f fields =>
        have hnone := List.findIdx?_eq_none_iff.mpr hrequired
        simp [readFields, hclose, hnone]
  | @array _ t hitems =>
    cases h with
    | nil => exact absurd hitems ItemsText.ne_nil
    | @cons f fields v vs act _ _ hact hvs =>
      obtain ⟨hf, hrest⟩ := List.forall_mem_cons.mp hfields
      obtain ⟨a, t, b, e, ha, ht, hb, rfl, he⟩ := hitems.cons_inv
      obtain ⟨c, cs, rfl, hspace, hc⟩ := ht.exists_cons
      have hends : EndsNumber (b ++ (e ++ ']' :: rest)) :=
        endsNumber_follow hb (Or.inl rfl) (he.imp And.left (Exists.imp fun _ => And.left))
      have hskip : skipSpace (a ++ (c :: cs ++ (b ++ (e ++ ']' :: rest)))) =
          c :: (cs ++ (b ++ (e ++ ']' :: rest))) := by
        rw [skipSpace_blanks ha, List.cons_append, skipSpace_cons_of_not hspace]
      have hvalue := hr.reads f hf v act hact s (c :: cs) ht [] _ blanks_nil hends
      have hnext := readFields_next_text hr hrest hvs hb he (index + 1) rest
      rw [List.nil_append, List.cons_append] at hvalue
      simp only [List.append_assoc, List.cons_append, List.nil_append] at hskip ⊢
      rw [readFields, if_pos rfl, hskip]
      split
      · next heq => cases heq
      · next heq =>
        rw [(List.cons.inj heq).1] at hc
        exact absurd hc (by decide)
      · simp only [hvalue, bind, Except.bind]
        exact hnext

theorem Spells.reads (hr : r.Reading acts) {empty s : σ} {v : Tree} (h : r.Spells acts empty v s) :
    Reads (r.read empty) v s := by
  cases h with
  | object hcollects hmissing => exact Record.reads (hcollects.gathers hr) hmissing
  | @list vs _ hlists =>
    intro t ht w rest hw _
    obtain ⟨body, rfl⟩ : ∃ body, t = '[' :: body := by
      cases ht with
      | emptyArray => exact ⟨_, rfl⟩
      | array => exact ⟨_, rfl⟩
    have hfields := readFields_first_text hr (fun f hf => hf) hlists ht 0 rest
    rw [Record.read, skipSpace_blanks hw, List.cons_append, skipSpace_cons_of_not (by decide)]
    exact place_eq_ok.mpr hfields

/-! ### The order of members -/

/-- Neither of two fields sees what the other one does. -/
structure Apart (acts : Component σ → Tree → (σ → σ) → Prop) (f g : Component σ) : Prop where
  comm : ∀ v act v' act', acts f v act → acts g v' act' → ∀ s, act (act' s) = act' (act s)
  keeps : ∀ v act, acts f v act → ∀ s, g.isGiven (act s) = g.isGiven s
  kept : ∀ v act, acts g v act → ∀ s, f.isGiven (act s) = f.isGiven s

theorem Apart.symm {f g : Component σ} (h : Apart acts f g) : Apart acts g f where
  comm := fun v act v' act' hact hact' s => (h.comm v' act' v act hact' hact s).symm
  keeps := h.kept
  kept := h.keeps

/-- A field that acts is given then, and fields stay apart. -/
structure Independent (r : Record σ) (acts : Component σ → Tree → (σ → σ) → Prop) : Prop where
  gives : ∀ f ∈ r.fields, ∀ v act, acts f v act → ∀ s, f.isGiven (act s) = true
  apart : r.fields.Pairwise (Apart acts)

theorem Independent.apart_of_ne (hr : r.Independent acts) {f g : Component σ} (hf : f ∈ r.fields)
    (hg : g ∈ r.fields) (hne : f ≠ g) : Apart acts f g := by
  have : Std.Symm (Apart acts) := ⟨fun _ _ => Apart.symm⟩
  exact hr.apart.forall hf hg hne

theorem Adds.swap (hr : r.Independent acts) {s next after : σ} {key key' : String} {v v' : Tree}
    (h : r.Adds acts s key v next) (h' : r.Adds acts next key' v' after) :
    ∃ next', r.Adds acts s key' v' next' ∧ r.Adds acts next' key v after := by
  cases h with
  | other hfind => exact ⟨after, h', .other hfind⟩
  | @field f act hfind hgiven hact =>
    cases h' with
    | other hfind' => exact ⟨s, .other hfind', .field hfind hgiven hact⟩
    | @field g act' hfind' hgiven' hact' =>
      have hf : f ∈ r.fields := List.mem_of_find?_eq_some hfind
      have hg : g ∈ r.fields := List.mem_of_find?_eq_some hfind'
      -- A field that comes twice would be given already.
      have hne : f ≠ g := by
        rintro rfl
        rw [hr.gives f hf v act hact s] at hgiven'
        cases hgiven'
      have hapart := hr.apart_of_ne hf hg hne
      have hother : g.isGiven s = false := by rw [← hapart.keeps v act hact s, hgiven']
      refine ⟨act' s, .field hfind' hother hact', ?_⟩
      rw [← hapart.comm v act v' act' hact hact' s]
      exact .field hfind (by rw [hapart.kept v' act' hact' s, hgiven]) hact

theorem Adds.isGiven_eq (hr : r.Independent acts) {s after : σ} {key : String} {v : Tree}
    (h : r.Adds acts s key v after) {f : Component σ} (hf : f ∈ r.fields) (hkey : f.key ≠ key) :
    f.isGiven after = f.isGiven s := by
  cases h with
  | other => rfl
  | @field g act hfind hgiven hact =>
    have hg : g ∈ r.fields := List.mem_of_find?_eq_some hfind
    have hgkey : g.key = key := by simpa using List.find?_some hfind
    have hne : g ≠ f := by
      rintro rfl
      exact hkey hgkey
    exact (hr.apart_of_ne hg hf hne).keeps v act hact s

theorem Collects.isGiven_eq (hr : r.Independent acts) {ms : List (List Mark × Tree)} {s after : σ}
    (h : r.Collects acts s ms after) {f : Component σ} (hf : f ∈ r.fields)
    (hkeys : ∀ m ∈ ms, unescape m.1 ≠ some f.key.toList) : f.isGiven after = f.isGiven s := by
  induction h with
  | nil => rfl
  | @cons k key v ms s next after hkey hv _ ih =>
    obtain ⟨hhead, hrest⟩ := List.forall_mem_cons.mp hkeys
    have hother : f.key ≠ String.ofList key := by
      intro heq
      exact hhead (by rw [hkey, heq, String.toList_ofList])
    rw [ih hrest, hv.isGiven_eq hr hf hother]

theorem Collects.perm (hr : r.Independent acts) {ms ms' : List (List Mark × Tree)}
    (hms : ms.Perm ms') {s after : σ} (h : r.Collects acts s ms after) :
    r.Collects acts s ms' after := by
  induction hms generalizing s with
  | nil => exact h
  | cons m _ ih =>
    cases h with
    | cons hkey hv hms => exact .cons hkey hv (ih hms)
  | swap m m' ms =>
    cases h with
    | cons hkey hv hrest =>
      cases hrest with
      | cons hkey' hv' hms =>
        obtain ⟨next, hfirst, hsecond⟩ := hv.swap hr hv'
        exact .cons hkey' hfirst (.cons hkey hsecond hms)
  | trans _ _ ih ih' => exact ih' (ih h)

def Foreign (r : Record σ) (m : List Mark × Tree) : Prop :=
  ∃ key, unescape m.1 = some key ∧ String.ofList key ∉ r.fields.map (·.key)

theorem Foreign.adds (acts : Component σ → Tree → (σ → σ) → Prop) {m : List Mark × Tree}
    (hm : r.Foreign m) (s : σ) :
    ∃ key, unescape m.1 = some key ∧ r.Adds acts s (String.ofList key) m.2 s := by
  obtain ⟨key, hkey, hother⟩ := hm
  refine ⟨key, hkey, .other ?_⟩
  rw [List.find?_eq_none]
  intro f hf heq
  exact hother (List.mem_map.mpr ⟨f, hf, by simpa using heq⟩)

theorem collects_foreign {ms : List (List Mark × Tree)} (hms : ∀ m ∈ ms, r.Foreign m) (s : σ) :
    r.Collects acts s ms s := by
  induction ms with
  | nil => exact .nil s
  | cons m ms ih =>
    obtain ⟨hm, hrest⟩ := List.forall_mem_cons.mp hms
    obtain ⟨key, hkey, hadds⟩ := hm.adds acts s
    exact .cons hkey hadds (ih hrest)

theorem Collects.append {s next after : σ} {ms ns : List (List Mark × Tree)}
    (h : r.Collects acts s ms next) (hns : r.Collects acts next ns after) :
    r.Collects acts s (ms ++ ns) after := by
  induction h with
  | nil => exact hns
  | cons hkey hv _ ih => exact .cons hkey hv (ih hns)

theorem Collects.of_append {s after : σ} {ms ns : List (List Mark × Tree)}
    (h : r.Collects acts s (ms ++ ns) after) :
    ∃ next, r.Collects acts s ms next ∧ r.Collects acts next ns after := by
  induction ms generalizing s with
  | nil => exact ⟨s, .nil s, h⟩
  | cons m ms ih =>
    cases h with
    | cons hkey hv hrest =>
      obtain ⟨next, hms, hns⟩ := ih hrest
      exact ⟨next, .cons hkey hv hms, hns⟩

theorem missing?_congr {s s' : σ}
    (h : ∀ f ∈ r.fields, f.required = true → f.isGiven s = f.isGiven s') :
    r.missing? s = r.missing? s' := by
  rw [missing?, missing?]
  congr 1
  refine List.find?_congr fun f hf => ?_
  cases hrequired : f.required with
  | true => rw [h f hf hrequired]
  | false => rfl

section Congruence

variable {rel : Tree → Tree → Prop} (hrel : ∀ f v v' act, acts f v act → rel v v' → acts f v' act)

include hrel

/-- Values may be replaced by others by which the fields act alike. -/
theorem Collects.congr {ms ms' : List (List Mark × Tree)}
    (hms : List.Forall₂ (fun m m' => m.1 = m'.1 ∧ rel m.2 m'.2) ms ms') {s after : σ}
    (h : r.Collects acts s ms after) : r.Collects acts s ms' after := by
  induction hms generalizing s with
  | nil => exact h
  | @cons m m' ms ms' hm _ ih =>
    obtain ⟨k, v⟩ := m
    obtain ⟨k', v'⟩ := m'
    obtain ⟨rfl, hv⟩ := hm
    cases h with
    | cons hkey hadds hrest =>
      cases hadds with
      | field hfind hgiven hact =>
        exact .cons hkey (.field hfind hgiven (hrel _ v v' _ hact hv)) (ih hrest)
      | other hfind => exact .cons hkey (.other hfind) (ih hrest)

theorem Lists.congr {vs vs' : List Tree} (hvs : List.Forall₂ rel vs vs')
    {fields : List (Component σ)} {s after : σ} (h : Lists acts fields s vs after) :
    Lists acts fields s vs' after := by
  induction hvs generalizing fields s with
  | nil => exact h
  | @cons v v' vs vs' hv _ ih =>
    cases h with
    | cons hact hrest => exact .cons (hrel _ v v' _ hact hv) (ih hrest)

end Congruence

/-- Members in another order, and more members that are not fields. -/
def Extends (r : Record σ) (ms ms' : List (List Mark × Tree)) : Prop :=
  ∃ foreign, (∀ m ∈ foreign, r.Foreign m) ∧ ms'.Perm (ms ++ foreign)

theorem extends_of_perm {ms ms' : List (List Mark × Tree)} (h : ms'.Perm ms) : r.Extends ms ms' :=
  ⟨[], by simp, by simpa using h⟩

theorem extends_namedTreesOf {ms ms' foreign : List (String × Value)}
    (hforeign : ∀ k ∈ foreign.map Prod.fst, k ∉ r.fields.map (·.key))
    (h : ms'.Perm (ms ++ foreign)) : r.Extends (namedTreesOf ms) (namedTreesOf ms') := by
  refine ⟨namedTreesOf foreign, ?_, ?_⟩
  · rw [namedTreesOf_eq_map, List.forall_mem_map]
    intro m hm
    refine ⟨_, unescape_marksOf _, ?_⟩
    rw [String.ofList_toList]
    exact hforeign m.1 (List.mem_map_of_mem hm)
  · simp only [namedTreesOf_eq_map]
    exact List.map_append ▸ h.map _

/-- Neither order nor members that are not fields count. -/
theorem Collects.extend (hr : r.Independent acts) {ms ms' : List (List Mark × Tree)}
    (hms : r.Extends ms ms') {s after : σ} (h : r.Collects acts s ms after) :
    r.Collects acts s ms' after := by
  obtain ⟨foreign, hforeign, hperm⟩ := hms
  exact (h.append (collects_foreign hforeign after)).perm hr hperm.symm

end Record
end LintRelay.Json
