import Mathlib.Data.List.Infix
import Mathlib.Data.List.Forall2
/-! Facts on lists and on results that are about neither configurations nor texts: the first hit of a
search, a map that may fail, and when a result is the good one. -/

namespace List

theorem dropWhile_append_cons {α : Type} {p : α → Bool} {b : α} (hb : p b = false)
    (front rest : List α) : (front ++ b :: rest).dropWhile p = front.dropWhile p ++ b :: rest := by
  rw [List.dropWhile_append]
  split
  · next hempty => simp [hb, List.isEmpty_iff.mp hempty]
  · rfl

theorem find?_map_bind {α β γ : Type} {l : List α} {f : α → β} {g : α → γ} {p : β → Bool}
    {q : γ → Bool} {k : β → Option γ} (hpq : ∀ a ∈ l, p (f a) = q (g a))
    (hk : ∀ a ∈ l, p (f a) = true → k (f a) = some (g a)) :
    ((l.map f).find? p).bind k = (l.map g).find? q := by
  induction l with
  | nil => rfl
  | cons a l ih =>
    obtain ⟨hpa, hpl⟩ := List.forall_mem_cons.mp hpq
    obtain ⟨hka, hkl⟩ := List.forall_mem_cons.mp hk
    cases hp : p (f a) with
    | true => simp [hp, ← hpa, hka hp]
    | false => simpa [hp, ← hpa] using ih hpl hkl

theorem findSome?_bind {α β γ : Type} {l : List α} {f : α → Option β} {g : β → Option γ}
    (h : ∀ a b, f a = some b → ∃ c, g b = some c) :
    (l.findSome? f).bind g = l.findSome? fun a => (f a).bind g := by
  induction l with
  | nil => rfl
  | cons a l ih =>
    cases hf : f a with
    | none => simpa [hf] using ih
    | some b =>
      obtain ⟨c, hc⟩ := h a b hf
      simp [hf, hc]

theorem findSome?_congr {α β : Type} {l : List α} {f g : α → Option β} (h : ∀ a ∈ l, f a = g a) :
    l.findSome? f = l.findSome? g := by
  induction l with
  | nil => rfl
  | cons a l ih =>
    obtain ⟨ha, hl⟩ := List.forall_mem_cons.mp h
    simp [List.findSome?_cons, ha, ih hl]

theorem findSome?_inits_concat {α β : Type} (front : List α) (last : α) (look : List α → Option β) :
    (front ++ [last]).inits.reverse.findSome? look =
      (look (front ++ [last])).or (front.inits.reverse.findSome? look) := by
  rw [List.inits_append]
  cases hlook : look (front ++ [last]) <;> simp [hlook]

/-- Among the initial parts of a list that contain a base, the longest one with a hit is that among all
of them, if a hit above the base does not count. -/
theorem findSome?_inits_append {α β : Type} {base : List α} {look : List α → Option β}
    {inside : β → Bool} (hin : ∀ names b, look (base ++ names) = some b → inside b = true)
    (habove : ∀ front b, front <+: base → front ≠ base → look front = some b → inside b = false)
    (names : List α) :
    (names.inits.reverse.findSome? fun ns => look (base ++ ns)) =
      ((base ++ names).inits.reverse.findSome? look).filter inside := by
  induction names using List.reverseRecOn with
  | nil =>
    have hrest : ∀ front last, base = front ++ [last] →
        (front.inits.reverse.findSome? look).filter inside = none := by
      rintro front last rfl
      rw [Option.filter_eq_none_iff]
      intro b hb
      obtain ⟨ns, hns, hlook⟩ := List.exists_of_findSome?_eq_some hb
      have hinit : ns <+: front := (List.mem_inits _ _).mp (List.mem_reverse.mp hns)
      have hne : ns ≠ front ++ [last] := by
        rintro rfl
        have hle := hinit.length_le
        simp only [List.length_append, List.length_singleton] at hle
        omega
      simp [habove ns b (hinit.trans (List.prefix_append _ _)) hne hlook]
    have hbase : ∀ b, look base = some b → inside b = true := by simpa using hin []
    rw [List.append_nil]
    rcases List.eq_nil_or_concat base with rfl | ⟨front, last, hconcat⟩
    · cases hlook : look [] with
      | none => simp [hlook]
      | some b => simp [hlook, Option.filter_some, hbase b hlook]
    · rw [List.concat_eq_append] at hconcat
      simp only [List.inits, List.reverse_singleton, List.findSome?_singleton, List.append_nil]
      rw [hconcat, findSome?_inits_concat, ← hconcat]
      cases hlook : look base with
      | none => simpa [hlook] using (hrest front last hconcat).symm
      | some b => simp [Option.filter_some, hbase b hlook]
  | append_singleton names name ih =>
    rw [findSome?_inits_concat, ← List.append_assoc, findSome?_inits_concat, ih]
    rw [List.append_assoc]
    cases hlook : look (base ++ (names ++ [name])) with
    | none => simp
    | some b => simp [Option.filter_some, hin _ b hlook]

theorem forall₂_of_mapM {α β : Type} {f : α → Option β} {as : List α} {bs : List β}
    (h : as.mapM f = some bs) : List.Forall₂ (fun a b => f a = some b) as bs := by
  induction as generalizing bs with
  | nil =>
    obtain rfl : [] = bs := by simpa using h
    exact .nil
  | cons a as ih =>
    simp only [List.mapM_cons, Option.bind_eq_bind, Option.bind_eq_some_iff, Option.pure_def,
      Option.some.injEq] at h
    obtain ⟨b, hb, bs', hbs, rfl⟩ := h
    exact .cons hb (ih hbs)

theorem mapM_eq_none_iff {α β : Type} {f : α → Option β} {as : List α} :
    as.mapM f = none ↔ ∃ a ∈ as, f a = none := by
  induction as with
  | nil => simp
  | cons a as ih =>
    cases ha : f a with
    | none => simp [List.mapM_cons, ha]
    | some b =>
      rw [List.mapM_cons, ha]
      cases hrest : as.mapM f with
      | none =>
        obtain ⟨x, hx, hfx⟩ := ih.mp hrest
        exact ⟨fun _ => ⟨x, List.mem_cons_of_mem a hx, hfx⟩, fun _ => rfl⟩
      | some bs =>
        refine ⟨fun h => (by cases h), ?_⟩
        rintro ⟨x, hx, hfx⟩
        rcases List.mem_cons.mp hx with rfl | hx
        · rw [ha] at hfx
          cases hfx
        · rw [ih.mpr ⟨x, hx, hfx⟩] at hrest
          cases hrest

end List

namespace Except

@[simp] theorem toOption_ok {ε α : Type} (a : α) : (Except.ok a : Except ε α).toOption = some a := rfl

@[simp] theorem toOption_error {ε α : Type} (e : ε) :
    (Except.error e : Except ε α).toOption = none := rfl

theorem toOption_bind {ε α β : Type} (x : Except ε α) (f : α → Except ε β) :
    (x >>= f).toOption = x.toOption.bind fun a => (f a).toOption := by
  cases x <;> rfl

theorem bind_eq_ok {ε α β : Type} {x : Except ε α} {f : α → Except ε β} {b : β} :
    x >>= f = .ok b ↔ ∃ a, x = .ok a ∧ f a = .ok b := by
  cases x <;> simp [bind, Except.bind]

theorem eq_ok_of_toOption {ε α : Type} {x : Except ε α} {a : α} (h : x.toOption = some a) :
    x = .ok a := by
  cases x with
  | error e => simp at h
  | ok b => simpa using h

theorem mapError_eq_ok_iff {ε δ α : Type} {f : ε → δ} {e : Except ε α} {a : α} :
    e.mapError f = .ok a ↔ e = .ok a := by
  cases e <;> simp [Except.mapError]

end Except
