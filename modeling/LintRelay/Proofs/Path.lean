import LintRelay.Path
import Mathlib.Data.List.Infix
/-! The names in a path. What a path leads to depends on whether it starts at the root and on its
names; joining appends names, a parent has all names but the last, and the ancestors of a path have
the first few of its names, longest first. -/
namespace LintRelay
namespace Path

theorem pieces_append_slash (a b : Bytes) : pieces (a ++ slash :: b) = pieces a ++ pieces b := by
  induction a with
  | nil => simp [pieces]
  | cons c a ih =>
    by_cases hc : c = slash
    · simp [pieces, hc, ih]
    · obtain ⟨p, ps, hps⟩ := List.exists_cons_of_ne_nil (pieces_ne_nil a)
      simp [pieces, hc, ih, hps]

theorem pieces_of_slash_not_mem {a : Bytes} (h : slash ∉ a) : pieces a = [a] := by
  induction a with
  | nil => rfl
  | cons c a ih =>
    obtain ⟨hc, ha⟩ := not_or.mp (List.mem_cons.not.mp h)
    have hne : c ≠ slash := fun heq => hc heq.symm
    simp [pieces, hne, ih ha]

theorem slash_not_mem_of_mem_pieces {bs q : Bytes} (h : q ∈ pieces bs) : slash ∉ q := by
  induction bs generalizing q with
  | nil =>
    obtain rfl : q = [] := by simpa [pieces] using h
    exact List.not_mem_nil
  | cons b bs ih =>
    by_cases hb : b = slash
    · have h' : q = [] ∨ q ∈ pieces bs := by simpa [pieces, hb] using h
      rcases h' with rfl | h'
      · exact List.not_mem_nil
      · exact ih h'
    · obtain ⟨p, ps, hps⟩ := List.exists_cons_of_ne_nil (pieces_ne_nil bs)
      have h' : q = b :: p ∨ q ∈ ps := by simpa [pieces, hb, hps] using h
      rcases h' with rfl | h'
      · have hp : slash ∉ p := ih (by simp [hps])
        exact fun hmem => (List.mem_cons.mp hmem).elim (fun heq => hb heq.symm) hp
      · exact ih (by simp [hps, h'])

theorem joinPieces_cons (p : Bytes) {ps : List Bytes} (h : ps ≠ []) :
    joinPieces (p :: ps) = p ++ slash :: joinPieces ps := by
  cases ps with
  | nil => exact absurd rfl h
  | cons q ps => rfl

theorem joinPieces_append {ps qs : List Bytes} (hps : ps ≠ []) (hqs : qs ≠ []) :
    joinPieces (ps ++ qs) = joinPieces ps ++ slash :: joinPieces qs := by
  induction ps with
  | nil => exact absurd rfl hps
  | cons p ps ih =>
    cases ps with
    | nil => exact joinPieces_cons p hqs
    | cons r ps =>
      rw [List.cons_append, joinPieces_cons p (by simp), ih (by simp), joinPieces_cons p (by simp),
        List.append_assoc, List.cons_append]

theorem pieces_joinPieces {ps : List Bytes} (hne : ps ≠ []) (h : ∀ p ∈ ps, slash ∉ p) :
    pieces (joinPieces ps) = ps := by
  induction ps with
  | nil => exact absurd rfl hne
  | cons p ps ih =>
    obtain ⟨hp, hps⟩ := List.forall_mem_cons.mp h
    cases ps with
    | nil => exact pieces_of_slash_not_mem hp
    | cons q ps =>
      rw [joinPieces_cons p (by simp), pieces_append_slash, pieces_of_slash_not_mem hp,
        ih (by simp) hps, List.singleton_append]

/-- The pieces that are names. -/
def keepNames (ps : List Bytes) : List Bytes := ps.filter fun piece => !isIdle piece

theorem keepNames_append (ps qs : List Bytes) :
    keepNames (ps ++ qs) = keepNames ps ++ keepNames qs := List.filter_append ps qs

theorem names_mk (bs : Bytes) : names ⟨bs⟩ = keepNames (pieces bs) := rfl

@[simp] theorem names_empty : names ⟨[]⟩ = [] := rfl

theorem names_append_slash (a b : Bytes) : names ⟨a ++ slash :: b⟩ = names ⟨a⟩ ++ names ⟨b⟩ := by
  rw [names_mk, pieces_append_slash, keepNames_append]
  rfl

theorem names_slash_cons (b : Bytes) : names ⟨slash :: b⟩ = names ⟨b⟩ := names_append_slash [] b

structure IsName (name : Bytes) : Prop where
  slash : slash ∉ name
  idle : isIdle name = false
  parent : isParentName name = false

theorem of_mem_names {p : Path} {name : Bytes} (h : name ∈ p.names) :
    slash ∉ name ∧ isIdle name = false := by
  obtain ⟨hmem, hidle⟩ := List.mem_filter.mp h
  exact ⟨slash_not_mem_of_mem_pieces hmem, by simpa using hidle⟩

theorem names_singleton {name : Bytes} (hslash : slash ∉ name) (hidle : isIdle name = false) :
    names ⟨name⟩ = [name] := by
  simp [names, pieces_of_slash_not_mem hslash, hidle]

theorem not_isAbsolute_of_slash_not_mem {name : Bytes} (h : slash ∉ name) :
    isAbsolute ⟨name⟩ = false := by
  cases name with
  | nil => rfl
  | cons b name =>
    have hb : b ≠ slash := by
      rintro rfl
      exact h List.mem_cons_self
    simp [isAbsolute, hb]

theorem join_of_isAbsolute {base p : Path} (h : p.isAbsolute = true) : base.join p = p := by
  simp [join, h]

theorem names_join (base : Path) {p : Path} (h : p.isAbsolute = false) :
    (base.join p).names = base.names ++ p.names := by
  obtain ⟨bs⟩ := base
  simp only [join, h, Bool.false_eq_true, if_false]
  split
  · next hend =>
    rcases Bool.or_eq_true_iff.mp hend with hempty | hslash
    · obtain rfl : bs = [] := by simpa [isEmpty] using hempty
      rfl
    · obtain ⟨front, rfl⟩ := List.getLast?_eq_some_iff.mp (by simpa using hslash)
      rw [List.append_assoc, List.singleton_append, names_append_slash, names_append_slash,
        names_empty, List.append_nil]
  · exact names_append_slash bs p.bytes

theorem names_join_name {base : Path} {name : Bytes} (h : IsName name) :
    (base.join ⟨name⟩).names = base.names ++ [name] := by
  rw [names_join base (not_isAbsolute_of_slash_not_mem h.slash), names_singleton h.slash h.idle]

theorem exists_pieces_join (base : Path) {name : Bytes} (h : slash ∉ name) :
    ∃ front, pieces (base.join ⟨name⟩).bytes = front ++ [name] ∧ keepNames front = base.names := by
  obtain ⟨bs⟩ := base
  simp only [join, not_isAbsolute_of_slash_not_mem h, Bool.false_eq_true, if_false]
  split
  · next hend =>
    rcases Bool.or_eq_true_iff.mp hend with hempty | hslash
    · obtain rfl : bs = [] := by simpa [isEmpty] using hempty
      exact ⟨[], pieces_of_slash_not_mem h, rfl⟩
    · obtain ⟨front, rfl⟩ := List.getLast?_eq_some_iff.mp (by simpa using hslash)
      refine ⟨pieces front, ?_, ?_⟩
      · rw [List.append_assoc, List.singleton_append, pieces_append_slash,
          pieces_of_slash_not_mem h]
      · rw [names_append_slash, names_empty, List.append_nil]
        rfl
  · exact ⟨pieces bs, by rw [pieces_append_slash, pieces_of_slash_not_mem h], rfl⟩

theorem length_join_le (base : Path) {p : Path} (h : p.isAbsolute = false) :
    (base.join p).bytes.length ≤ base.bytes.length + 1 + p.bytes.length ∧
      base.bytes.length + p.bytes.length ≤ (base.join p).bytes.length := by
  simp only [join, h, Bool.false_eq_true, if_false]
  split
  · simp
  · simp only [List.length_append, List.length_cons]
    omega

theorem mem_join {base p : Path} {b : UInt8} (h : b ∈ (base.join p).bytes) :
    b ∈ base.bytes ∨ b = slash ∨ b ∈ p.bytes := by
  rw [join] at h
  split at h
  · exact Or.inr (Or.inr h)
  · split at h
    · rcases List.mem_append.mp h with h | h
      · exact Or.inl h
      · exact Or.inr (Or.inr h)
    · rcases List.mem_append.mp h with h | h
      · exact Or.inl h
      · exact Or.inr (List.mem_cons.mp h)

theorem isAbsolute_join (base p : Path) :
    (base.join p).isAbsolute = (p.isAbsolute || base.isAbsolute) := by
  obtain ⟨bs⟩ := base
  cases hp : p.isAbsolute with
  | true => simp [join_of_isAbsolute, hp]
  | false =>
    cases bs with
    | nil =>
      simp only [join, hp, isEmpty, List.isEmpty_nil, Bool.true_or, if_true, Bool.false_eq_true,
        if_false, List.nil_append]
      rfl
    | cons b bs =>
      simp only [join, hp, Bool.false_eq_true, if_false]
      split <;> simp [isAbsolute]

theorem names_eq_keepNames_body (p : Path) : p.names = keepNames p.body := by
  obtain ⟨bs⟩ := p
  cases bs with
  | nil => rfl
  | cons b rest =>
    by_cases hslash : b = slash
    · subst hslash
      rw [names_slash_cons]
      simp [body, head, names_mk]
    by_cases hdot : b = dot ∧ (rest = [] ∨ rest.head? = some slash)
    · obtain ⟨rfl, hrest⟩ := hdot
      have hhead : head ⟨dot :: rest⟩ = [dot] := by
        simp only [head, beq_iff_eq, hslash, if_false]
        rw [if_pos]
        simpa using hrest
      have hbody : body ⟨dot :: rest⟩ = pieces rest := by simp [body, hhead]
      rw [hbody]
      rcases hrest with rfl | hstart
      · rfl
      · obtain ⟨tail, rfl⟩ := List.head?_eq_some_iff.mp hstart
        rw [show dot :: slash :: tail = [dot] ++ slash :: tail from rfl, names_append_slash]
        have htail : pieces (slash :: tail) = [] :: pieces tail := by simp [pieces]
        rw [htail]
        rfl
    · have hhead : head ⟨b :: rest⟩ = [] := by
        simp only [head, beq_iff_eq, hslash, if_false]
        rw [if_neg]
        simpa using hdot
      simp [body, hhead, names_mk]

theorem exists_dropIdleEnd_append (ps : List Bytes) :
    ∃ idle, ps = dropIdleEnd ps ++ idle ∧ ∀ piece ∈ idle, isIdle piece = true := by
  refine ⟨(ps.reverse.takeWhile isIdle).reverse, ?_, ?_⟩
  · rw [dropIdleEnd, ← List.reverse_append, List.takeWhile_append_dropWhile, List.reverse_reverse]
  · intro piece hpiece
    exact List.all_eq_true.mp List.all_takeWhile piece (List.mem_reverse.mp hpiece)

theorem dropIdleEnd_isPrefix (ps : List Bytes) : dropIdleEnd ps <+: ps := by
  obtain ⟨idle, hps, -⟩ := exists_dropIdleEnd_append ps
  exact ⟨idle, hps.symm⟩

theorem keepNames_dropIdleEnd (ps : List Bytes) : keepNames (dropIdleEnd ps) = keepNames ps := by
  obtain ⟨idle, hps, hidle⟩ := exists_dropIdleEnd_append ps
  have hnone : keepNames idle = [] := by
    rw [keepNames, List.filter_eq_nil_iff]
    intro piece hpiece
    simp [hidle piece hpiece]
  conv_rhs => rw [hps, keepNames_append, hnone, List.append_nil]

/-- The last piece that is left is a name. -/
theorem not_isIdle_getLast_dropIdleEnd {ps : List Bytes} (h : dropIdleEnd ps ≠ []) :
    isIdle ((dropIdleEnd ps).getLast h) = false := by
  have hne : ps.reverse.dropWhile isIdle ≠ [] := by
    intro hnil
    exact h (by simp [dropIdleEnd, hnil])
  have hhead := List.head_dropWhile_not isIdle hne
  simpa [dropIdleEnd, List.getLast_reverse] using hhead

theorem joinPieces_isPrefix {ps qs : List Bytes} (h : ps <+: qs) :
    joinPieces ps <+: joinPieces qs := by
  obtain ⟨rest, rfl⟩ := h
  by_cases hps : ps = []
  · rw [hps]
    exact List.nil_prefix
  · by_cases hrest : rest = []
    · rw [hrest, List.append_nil]
    · exact ⟨_, (joinPieces_append hps hrest).symm⟩

theorem head_append_joinPieces_body (p : Path) : p.head ++ joinPieces p.body = p.bytes := by
  rw [body, joinPieces_pieces]
  obtain ⟨bs⟩ := p
  cases bs with
  | nil => rfl
  | cons b rest =>
    simp only [head]
    split
    · next h => simp [show b = slash by simpa using h]
    · split
      · next h =>
        have hb : b = dot := by
          simp only [Bool.and_eq_true, beq_iff_eq] at h
          exact h.1
        simp [hb]
      · rfl

theorem parent?_isPrefix {p q : Path} (h : p.parent? = some q) : q.bytes <+: p.bytes := by
  simp only [parent?] at h
  split at h
  · split at h
    · obtain rfl := Option.some.inj h
      exact List.nil_prefix
    · cases h
  · obtain rfl := Option.some.inj h
    have hfront : dropIdleEnd (dropIdleEnd p.body).dropLast <+: p.body :=
      (dropIdleEnd_isPrefix _).trans ((List.dropLast_prefix _).trans (dropIdleEnd_isPrefix _))
    obtain ⟨rest, hrest⟩ := joinPieces_isPrefix hfront
    refine ⟨rest, ?_⟩
    rw [List.append_assoc, hrest, head_append_joinPieces_body]

theorem names_joinPieces {ps : List Bytes} (h : ∀ p ∈ ps, slash ∉ p) :
    names ⟨joinPieces ps⟩ = keepNames ps := by
  cases ps with
  | nil => rfl
  | cons p ps => rw [names_mk, pieces_joinPieces (by simp) h]

theorem slash_not_mem_of_mem_body {p : Path} {piece : Bytes} (h : piece ∈ p.body) :
    slash ∉ piece := slash_not_mem_of_mem_pieces h

/-- A path starts right away, at the root, or at a dot with a slash or nothing after it. -/
theorem head_cases (p : Path) :
    (p.head = [] ∧ p.isAbsolute = false) ∨ (p.head = [slash] ∧ p.isAbsolute = true) ∨
      (p.head = [dot] ∧ p.isAbsolute = false ∧ p.body.head? = some []) := by
  obtain ⟨bs⟩ := p
  cases bs with
  | nil => exact Or.inl ⟨rfl, rfl⟩
  | cons b rest =>
    by_cases hslash : b = slash
    · exact Or.inr (Or.inl ⟨by simp [head, hslash], by simp [isAbsolute, hslash]⟩)
    have hrelative : isAbsolute ⟨b :: rest⟩ = false := by simp [isAbsolute, hslash]
    by_cases hdot : (b == dot && (rest.isEmpty || rest.head? == some slash)) = true
    · have hhead : head ⟨b :: rest⟩ = [dot] := by simp [head, hslash, hdot]
      refine Or.inr (Or.inr ⟨hhead, hrelative, ?_⟩)
      simp only [Bool.and_eq_true, Bool.or_eq_true, List.isEmpty_iff, beq_iff_eq] at hdot
      rcases hdot.2 with rfl | hstart
      · simp [body, hhead, pieces]
      · obtain ⟨tail, rfl⟩ := List.head?_eq_some_iff.mp hstart
        simp [body, hhead, pieces]
    · exact Or.inl ⟨by simp [head, hslash, hdot], hrelative⟩

theorem names_head_append {p : Path} {ps : List Bytes} (h : ps <+: p.body) :
    names ⟨p.head ++ joinPieces ps⟩ = keepNames ps := by
  have hslash : ∀ piece ∈ ps, slash ∉ piece := fun piece hpiece =>
    slash_not_mem_of_mem_body (h.subset hpiece)
  rcases head_cases p with ⟨hhead, -⟩ | ⟨hhead, -⟩ | ⟨hhead, -, hbody⟩
  · rw [hhead, List.nil_append, names_joinPieces hslash]
  · rw [hhead, List.singleton_append, names_slash_cons, names_joinPieces hslash]
  · cases ps with
    | nil =>
      rw [hhead]
      rfl
    | cons piece ps =>
      obtain ⟨rest, hrest⟩ := h
      obtain rfl : piece = [] := by simpa [← hrest] using hbody
      by_cases hps : ps = []
      · rw [hhead, hps]
        rfl
      · rw [hhead, joinPieces_cons [] hps, List.nil_append, names_append_slash,
          names_joinPieces fun piece hpiece => hslash piece (List.mem_cons_of_mem _ hpiece)]
        rfl

theorem names_parent? {p q : Path} (h : p.parent? = some q) : q.names = p.names.dropLast := by
  have hnames : p.names = keepNames (dropIdleEnd p.body) := by
    rw [keepNames_dropIdleEnd, names_eq_keepNames_body]
  simp only [parent?] at h
  split at h
  · next hempty =>
    split at h
    · obtain rfl := Option.some.inj h
      rw [hnames, List.isEmpty_iff.mp hempty]
      rfl
    · cases h
  · next hempty =>
    have hne : dropIdleEnd p.body ≠ [] := by simpa using hempty
    obtain rfl := Option.some.inj h
    have hfront : dropIdleEnd (dropIdleEnd p.body).dropLast <+: p.body :=
      (dropIdleEnd_isPrefix _).trans ((List.dropLast_prefix _).trans (dropIdleEnd_isPrefix _))
    have hlast : keepNames [(dropIdleEnd p.body).getLast hne] =
        [(dropIdleEnd p.body).getLast hne] := by
      simp [keepNames, not_isIdle_getLast_dropIdleEnd hne]
    rw [names_head_append hfront, keepNames_dropIdleEnd, hnames]
    conv_rhs => rw [← List.dropLast_append_getLast hne, keepNames_append, hlast]
    rw [List.dropLast_concat]

theorem names_of_parent?_eq_none {p : Path} (h : p.parent? = none) : p.names = [] := by
  simp only [parent?] at h
  split at h
  · next hempty =>
    rw [names_eq_keepNames_body, ← keepNames_dropIdleEnd, List.isEmpty_iff.mp hempty]
    rfl
  · cases h

theorem isAbsolute_parent? {p q : Path} (h : p.parent? = some q) : q.isAbsolute = p.isAbsolute := by
  obtain ⟨rest, hrest⟩ := parent?_isPrefix h
  obtain ⟨bs⟩ := q
  cases bs with
  | cons b bs => simp [isAbsolute, ← hrest]
  | nil =>
    rcases head_cases p with ⟨-, hp⟩ | ⟨hhead, -⟩ | ⟨-, hp, -⟩
    · exact hp.symm
    · -- From the root on, the parent keeps the slash.
      simp [parent?, hhead, show ¬ slash = dot by decide] at h
    · exact hp.symm

theorem parent?_length_lt {p q : Path} (h : p.parent? = some q) :
    q.bytes.length < p.bytes.length := by
  refine Nat.lt_of_le_of_ne (parent?_isPrefix h).length_le fun hlength => ?_
  obtain rfl : q = p := by
    have hbytes := (parent?_isPrefix h).eq_of_length hlength
    cases q
    cases p
    exact congrArg Path.mk hbytes
  -- A path that is its own parent has no names, so it is empty, and then it has no parent.
  have hnone : q.names = [] := by
    have hnames := congrArg List.length (names_parent? h)
    rw [List.length_dropLast] at hnames
    exact List.eq_nil_of_length_eq_zero (by omega)
  have hidle : dropIdleEnd q.body = [] := by
    by_contra hne
    have hmem : (dropIdleEnd q.body).getLast hne ∈ keepNames (dropIdleEnd q.body) :=
      List.mem_filter.mpr ⟨List.getLast_mem hne, by simp [not_isIdle_getLast_dropIdleEnd hne]⟩
    rw [keepNames_dropIdleEnd, ← names_eq_keepNames_body, hnone] at hmem
    cases hmem
  simp only [parent?, hidle, List.isEmpty_nil, if_true] at h
  split at h
  · obtain rfl := Option.some.inj h
    simp_all [head]
  · cases h

theorem ancestorsWithin_congr {p : Path} {m n : Nat} (hm : p.bytes.length ≤ m)
    (hn : p.bytes.length ≤ n) : p.ancestorsWithin m = p.ancestorsWithin n := by
  have hstop : ∀ k, p.parent? = none → p.ancestorsWithin k = [p] := by
    intro k h
    cases k <;> simp [ancestorsWithin, h]
  cases h : p.parent? with
  | none => rw [hstop m h, hstop n h]
  | some q =>
    have hlt := parent?_length_lt h
    obtain ⟨m, rfl⟩ := Nat.exists_eq_add_one_of_ne_zero (show m ≠ 0 by omega)
    obtain ⟨n, rfl⟩ := Nat.exists_eq_add_one_of_ne_zero (show n ≠ 0 by omega)
    simp only [ancestorsWithin, h, List.cons.injEq, true_and]
    exact ancestorsWithin_congr (by omega) (by omega)
termination_by p.bytes.length

theorem ancestors_eq (p : Path) :
    p.ancestors = p :: (p.parent?.map ancestors).getD [] := by
  cases h : p.parent? with
  | none => cases hn : p.bytes.length <;> simp [ancestors, ancestorsWithin, h, hn]
  | some q =>
    have hlt := parent?_length_lt h
    obtain ⟨n, hn⟩ := Nat.exists_eq_add_one_of_ne_zero (show p.bytes.length ≠ 0 by omega)
    simp only [ancestors, hn, ancestorsWithin, h, Option.map_some, Option.getD_some]
    rw [ancestorsWithin_congr (show q.bytes.length ≤ n by omega) (Nat.le_refl _)]

/-- What a search upwards passes through: paths of which the spelling and the names are the front of
those of the start. -/
theorem of_mem_ancestors {p d : Path} (h : d ∈ p.ancestors) :
    d.bytes <+: p.bytes ∧ d.names <+: p.names ∧ d.isAbsolute = p.isAbsolute := by
  rw [ancestors_eq] at h
  rcases List.mem_cons.mp h with rfl | h
  · exact ⟨List.prefix_rfl, List.prefix_rfl, rfl⟩
  · cases hq : p.parent? with
    | none => simp [hq] at h
    | some q =>
      have hlt := parent?_length_lt hq
      obtain ⟨hbytes, hnames, habsolute⟩ := of_mem_ancestors (p := q) (by simpa [hq] using h)
      rw [names_parent? hq] at hnames
      exact ⟨hbytes.trans (parent?_isPrefix hq), hnames.trans (List.dropLast_prefix _),
        habsolute.trans (isAbsolute_parent? hq)⟩
termination_by p.bytes.length

/-- A search that looks only at names tries the names of the start, all but the last of them, and
so on to none. -/
theorem findSome?_ancestors {α : Type} (p : Path) (look : List Bytes → Option α) :
    (p.ancestors.findSome? fun d => look d.names) = p.names.inits.reverse.findSome? look := by
  rw [ancestors_eq]
  cases h : p.parent? with
  | none => simp [names_of_parent?_eq_none h]
  | some q =>
    have hlt := parent?_length_lt h
    have hq := findSome?_ancestors q look
    rw [names_parent? h] at hq
    simp only [Option.map_some, Option.getD_some, List.findSome?_cons, hq]
    rcases List.eq_nil_or_concat p.names with hnil | ⟨front, last, hconcat⟩
    · -- The path is a dot: its parent is tried once more, to no effect.
      rw [hnil]
      cases hlook : look [] <;> simp [hlook]
    · rw [hconcat, List.concat_eq_append, List.dropLast_concat, List.inits_append]
      simp [List.findSome?_cons]
termination_by p.bytes.length

theorem names_foldl_join {ns : List Bytes} (h : ∀ name ∈ ns, slash ∉ name ∧ isIdle name = false)
    (start : Path) :
    (ns.foldl (fun base name => base.join ⟨name⟩) start).names = start.names ++ ns ∧
      (ns.foldl (fun base name => base.join ⟨name⟩) start).isAbsolute = start.isAbsolute := by
  induction ns generalizing start with
  | nil => simp
  | cons name ns ih =>
    obtain ⟨⟨hslash, hidle⟩, hrest⟩ := List.forall_mem_cons.mp h
    have hrelative := not_isAbsolute_of_slash_not_mem hslash
    obtain ⟨hnames, habsolute⟩ := ih hrest (start.join ⟨name⟩)
    rw [List.foldl_cons, hnames, habsolute, names_join start hrelative, isAbsolute_join, hrelative,
      names_singleton hslash hidle, List.append_assoc, List.singleton_append, Bool.false_or]
    exact ⟨rfl, rfl⟩

/-- A path from the root has the names of the current directory, if it did not start there before,
and then its own. -/
theorem absolute_spec (cwd p : Path) :
    (absolute cwd p).names = (if p.isAbsolute then [] else cwd.names) ++ p.names ∧
      (absolute cwd p).isAbsolute = (p.isAbsolute || cwd.isAbsolute) := by
  let start : Path :=
    if p.isAbsolute then (if p.hasDoubleRoot then ⟨[slash, slash]⟩ else ⟨[slash]⟩) else cwd
  have hstart : start.names = (if p.isAbsolute then [] else cwd.names) ∧
      start.isAbsolute = (p.isAbsolute || cwd.isAbsolute) := by
    dsimp only [start]
    cases p.isAbsolute with
    | true => cases p.hasDoubleRoot <;> exact ⟨rfl, rfl⟩
    | false => exact ⟨rfl, rfl⟩
  obtain ⟨hnames, habsolute⟩ :=
    names_foldl_join (fun name hname => of_mem_names (p := p) hname) start
  rw [hstart.1] at hnames
  rw [hstart.2] at habsolute
  rw [absolute]
  split
  · rw [names_join _ rfl, isAbsolute_join, names_empty, List.append_nil]
    exact ⟨hnames, habsolute⟩
  · exact ⟨hnames, habsolute⟩

end Path
end LintRelay
