import LintRelay.Proofs.Reload
import LintRelay.Proofs.Search
/-! The way up from a path below a directory. It passes the directory, spelled as it was or by a front
part of that without idle pieces, and before that only paths that have names of their own below it. -/
namespace LintRelay.Path

variable {p q d r e : Path}

/-! ### What a parent looks like -/

theorem names_ne_nil_of_head (hne : p.isEmpty = false) (hhead : p.head = []) : p.names ≠ [] := by
  obtain ⟨bs⟩ := p
  cases bs with
  | nil => cases hne
  | cons b rest =>
    obtain ⟨first, others, hrest⟩ := List.exists_cons_of_ne_nil (pieces_ne_nil rest)
    have hslash : ¬ b = slash := by
      rintro rfl
      simp [head] at hhead
    have hpieces : pieces (b :: rest) = (b :: first) :: others := by simp [pieces, hslash, hrest]
    have hidle : isIdle (b :: first) = false := by
      by_contra hidle
      obtain ⟨rfl, rfl⟩ : b = dot ∧ first = [] := by simpa [isIdle] using hidle
      have hstart : rest = [] ∨ rest.head? = some slash := by
        cases rest with
        | nil => exact Or.inl rfl
        | cons c rest =>
          by_cases hc : c = slash
          · exact Or.inr (by rw [hc]; rfl)
          · obtain ⟨second, more, hmore⟩ := List.exists_cons_of_ne_nil (pieces_ne_nil rest)
            simp [pieces, hc, hmore] at hrest
      rcases hstart with rfl | hstart
      · simp [head, hslash] at hhead
      · simp [head, hslash, hstart] at hhead
    intro hnone
    have hmem : b :: first ∈ names ⟨b :: rest⟩ :=
      List.mem_filter.mpr ⟨by rw [hpieces]; exact List.mem_cons_self, by simp [hidle]⟩
    rw [hnone] at hmem
    cases hmem

theorem names_of_up? {n : Nat} (h : p.up? n = some q) :
    q.names = p.names.take (p.names.length - n) := by
  induction n generalizing p with
  | zero =>
    obtain rfl := Option.some.inj h
    simp
  | succ n ih =>
    obtain ⟨parent, hparent, hq⟩ := Option.bind_eq_some_iff.mp h
    rw [ih hq, names_parent? hparent, List.dropLast_eq_take, List.take_take, List.length_take]
    congr 1
    omega

theorem exists_names_of_up? {below : List Bytes} {m : Nat} (hnames : p.names = d.names ++ below)
    (hm : m < below.length) (h : p.up? m = some e) :
    ∃ rest, e.names = d.names ++ rest ∧ rest ≠ [] ∧ rest <+: below := by
  refine ⟨below.take (below.length - m), ?_, ?_, List.take_prefix _ _⟩
  · rw [names_of_up? h, hnames, List.length_append, Nat.add_sub_assoc hm.le, List.take_length_add_append]
  · intro hnil
    have hlength := congrArg List.length hnil
    rw [List.length_take, List.length_nil] at hlength
    omega

theorem Alike.isEmpty_eq (h : e.Alike d) : e.isEmpty = d.isEmpty := by
  have hempty : ∀ {a b : Path}, a.Alike b → a.isEmpty = true → b.isEmpty = true := by
    rintro ⟨as⟩ b ⟨hhead, hnames⟩ ha
    obtain rfl : as = [] := by simpa [isEmpty] using ha
    by_contra hb
    exact names_ne_nil_of_head (by simpa using hb) hhead.symm hnames.symm
  rw [Bool.eq_iff_iff]
  exact ⟨hempty h, hempty ⟨h.1.symm, h.2.symm⟩⟩

theorem Alike.join (h : e.Alike d) (hr : r.isAbsolute = false) : (e.join r).Alike (d.join r) := by
  refine ⟨?_, by rw [names_join e hr, names_join d hr, h.2]⟩
  cases hd : d.isEmpty with
  | true =>
    rw [(join_eq_self_iff hr).mpr (h.isEmpty_eq.trans hd), (join_eq_self_iff hr).mpr hd]
  | false => rw [head_join (h.isEmpty_eq.trans hd) hr, head_join hd hr, h.1]

end LintRelay.Path
