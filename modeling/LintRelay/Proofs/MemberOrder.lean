import LintRelay.Config
import LintRelay.Proofs.Json.Fields
import Mathlib.Data.List.Forall2
/-! The order of members in a configuration. A text is a configuration if and only if its tree
spells one, and a tree still spells the same configuration with its members in another order and
with members that nobody knows, in the configuration and in each of its analyzers. -/
namespace LintRelay

open Json

theorem Transport.readsOnly : ReadsOnly Transport.read (Reads Transport.read) := by
  intro cs t rest h
  obtain ⟨⟨s, rest'⟩, htext, hname⟩ := Except.bind_eq_ok.mp h
  dsimp only at hname
  split at hname
  · next t' hfound =>
    obtain ⟨rfl, rfl⟩ : t' = t ∧ rest' = rest := by simpa [pure, Except.pure] using hname
    obtain ⟨w, v, text, hw, hv, hcs, hread⟩ := readsOnly_text "a string" cs s rest' htext
    refine ⟨w, v, text, hw, hv, hcs, ?_⟩
    intro text' hv' w' rest hw' hrest
    simp only [Transport.read, hread text' hv' w' rest hw' hrest, bind, Except.bind, hfound, pure,
      Except.pure]
  · simp [throw, throwThe, MonadExceptOf.throw] at hname

namespace Analyzer

theorem readsOnly_path : ReadsOnly readPath (Reads readPath) := by
  refine ((readsOnly_text "path string").map Path.ofString).mono ?_
  rintro v p ⟨s, hs, rfl⟩
  exact hs.map Path.ofString

theorem readsOnly_strings :
    ReadsOnly (readListOf (readText "a string")) (Reads (readListOf (readText "a string"))) := by
  refine (readsOnly_list (readsOnly_text "a string")).mono ?_
  rintro v xs ⟨vs, rfl, hvs⟩
  exact reads_list hvs

theorem readsOnly_environment : ReadsOnly readEnvironment (Reads readEnvironment) := by
  refine ((readsOnly_map (readsOnly_text "a string")).map Environment.ofList).mono ?_
  rintro v env ⟨vars, ⟨ms, rfl, hms⟩, rfl⟩
  exact (reads_map hms).map Environment.ofList

/-- A field acts by a tree if it reads it so, whatever the draft; and it does so on some text. -/
def Acts (f : Component Draft) (v : Tree) (act : Draft → Draft) : Prop :=
  (∀ d, Reads (f.read d) v (act d)) ∧ ∃ cs rest, ∀ d, f.read d cs = .ok (act d, rest)

section Field

variable {α β : Type} {key key' : String} {required required' : Bool} {read : Read α}
  {read' : Read β} {get : Draft → Option α} {get' : Draft → Option β} {set : Draft → α → Draft}
  {set' : Draft → β → Draft}

theorem readsOnly_draftField (hread : ReadsOnly read (Reads read)) (d : Draft) :
    ReadsOnly ((draftField key required read get set).read d) fun v d' =>
      ∃ act, Acts (draftField key required read get set) v act ∧ d' = act d := by
  intro cs d' rest h
  obtain ⟨⟨a, rest'⟩, ha, hset⟩ := Except.bind_eq_ok.mp h
  obtain ⟨rfl, rfl⟩ : set d a = d' ∧ rest' = rest := by simpa [pure, Except.pure] using hset
  obtain ⟨w, v, t, hw, ht, hcs, hv⟩ := hread cs a rest' ha
  refine ⟨w, v, t, hw, ht, hcs, fun d => set d a, ⟨fun d => hv.map (set d), cs, rest', ?_⟩, rfl⟩
  intro d
  simp only [draftField, ha]
  rfl

theorem eq_set_of_acts {v : Tree} {act : Draft → Draft}
    (h : Acts (draftField key required read get set) v act) : ∃ a, act = fun d => set d a := by
  obtain ⟨-, cs, rest, hread⟩ := h
  obtain ⟨⟨a, rest'⟩, ha, -⟩ := Except.bind_eq_ok.mp (hread {})
  refine ⟨a, funext fun d => ?_⟩
  have hd := hread d
  simp only [draftField, ha, bind, Except.bind, pure, Except.pure] at hd
  exact (Prod.mk.inj (Except.ok.inj hd)).1.symm

theorem isGiven_of_acts (hget : ∀ d a, get (set d a) = some a) (v : Tree) (act : Draft → Draft)
    (h : Acts (draftField key required read get set) v act) (d : Draft) :
    (draftField key required read get set).isGiven (act d) = true := by
  obtain ⟨a, rfl⟩ := eq_set_of_acts h
  simp [draftField, hget]

theorem apart_draftField (hcomm : ∀ d a b, set (set' d b) a = set' (set d a) b)
    (hget' : ∀ d a, get' (set d a) = get' d) (hget : ∀ d b, get (set' d b) = get d) :
    Record.Apart Acts (draftField key required read get set)
      (draftField key' required' read' get' set') where
  comm := by
    intro v act v' act' hact hact' d
    obtain ⟨a, rfl⟩ := eq_set_of_acts hact
    obtain ⟨b, rfl⟩ := eq_set_of_acts hact'
    exact hcomm d a b
  keeps := by
    intro v act hact d
    obtain ⟨a, rfl⟩ := eq_set_of_acts hact
    simp [draftField, hget']
  kept := by
    intro v act hact d
    obtain ⟨b, rfl⟩ := eq_set_of_acts hact
    simp [draftField, hget]

end Field

theorem record_reading : record.Reading Acts where
  reads := fun _ _ _ _ hact => hact.1
  only := by
    simp only [record, List.forall_mem_cons, List.not_mem_nil, false_implies, implies_true,
      and_true]
    exact ⟨readsOnly_draftField (readsOnly_text _), readsOnly_draftField readsOnly_strings,
      readsOnly_draftField (readsOnly_text _), readsOnly_draftField readsOnly_strings,
      readsOnly_draftField (readsOnly_optional readsOnly_path),
      readsOnly_draftField Transport.readsOnly,
      readsOnly_draftField (readsOnly_optional readsOnly_count),
      readsOnly_draftField readsOnly_bool, readsOnly_draftField readsOnly_environment⟩

theorem record_independent : record.Independent Acts where
  gives := by
    simp only [record, List.forall_mem_cons, List.not_mem_nil, false_implies, implies_true,
      and_true]
    refine ⟨?_, ?_, ?_, ?_, ?_, ?_, ?_, ?_, ?_⟩ <;> exact isGiven_of_acts fun _ _ => rfl
  apart := by
    simp only [record, List.pairwise_cons, List.forall_mem_cons, List.not_mem_nil, false_implies,
      implies_true, and_true, List.Pairwise.nil]
    refine ⟨⟨?_, ?_, ?_, ?_, ?_, ?_, ?_, ?_⟩, ⟨?_, ?_, ?_, ?_, ?_, ?_, ?_⟩,
      ⟨?_, ?_, ?_, ?_, ?_, ?_⟩, ⟨?_, ?_, ?_, ?_, ?_⟩, ⟨?_, ?_, ?_, ?_⟩, ⟨?_, ?_, ?_⟩, ⟨?_, ?_⟩,
      ?_⟩ <;>
      exact apart_draftField (fun _ _ _ => rfl) (fun _ _ => rfl) fun _ _ => rfl

/-- The trees that spell an analyzer. -/
def Spelled (v : Tree) (a : Analyzer) : Prop := ∃ d, record.Spells Acts {} v d ∧ d.finish = a

theorem Spelled.reads {v : Tree} {a : Analyzer} (h : Spelled v a) : Reads Analyzer.read v a := by
  obtain ⟨d, hd, rfl⟩ := h
  exact (hd.reads record_reading).map Draft.finish

theorem readsOnly_spelled : ReadsOnly Analyzer.read Spelled :=
  (Record.readsOnly_spells record_reading {}).map Draft.finish

/-- Trees of an analyzer. If it is an object, its members stand in another order, or there are more
of them that are not fields. -/
inductive Rearranged : Tree → Tree → Prop
  | refl (v : Tree) : Rearranged v v
  | object {ms ms' : List (List Mark × Tree)} (h : record.Extends ms ms') :
      Rearranged (.object ms) (.object ms')

/-- The fields of an analyzer by name. -/
example : record.fields.map (·.key) = ["name", "extensions", "command", "args", "working_dir",
    "transport", "timeout_secs", "skip_preamble", "env"] := rfl

theorem Spelled.rearrange {v v' : Tree} {a : Analyzer} (h : Spelled v a) (hv : Rearranged v v') :
    Spelled v' a := by
  cases hv with
  | refl => exact h
  | object hms =>
    obtain ⟨d, hd, rfl⟩ := h
    cases hd with
    | object hcollects hmissing =>
      exact ⟨d, .object (hcollects.extend record_independent hms) hmissing, rfl⟩

end Analyzer

namespace Config

def Acts (_ : Component (Option (List Analyzer))) (v : Tree)
    (act : Option (List Analyzer) → Option (List Analyzer)) : Prop :=
  ∃ vs as, v = .array vs ∧ List.Forall₂ Analyzer.Spelled vs as ∧ act = fun _ => some as

theorem record_reading : record.Reading Acts where
  reads := by
    simp only [record, List.mem_singleton]
    rintro f rfl v act ⟨vs, as, rfl, hvs, rfl⟩ s
    have hitems : List.Forall₂ (Reads Analyzer.read) vs as := hvs.imp fun _ _ h => h.reads
    exact (reads_list hitems).map some
  only := by
    simp only [record, List.mem_singleton]
    rintro f rfl s
    refine ((readsOnly_list Analyzer.readsOnly_spelled).map some).mono ?_
    rintro v after ⟨as, ⟨vs, rfl, hvs⟩, rfl⟩
    exact ⟨fun _ => some as, ⟨vs, as, rfl, hvs, rfl⟩, rfl⟩

theorem record_independent : record.Independent Acts where
  gives := by
    simp only [record, List.mem_singleton]
    rintro f rfl v act ⟨vs, as, rfl, hvs, rfl⟩ s
    rfl
  apart := List.pairwise_singleton _ _

def Spelled (v : Tree) (c : Config) : Prop :=
  ∃ as, record.Spells Acts none v as ∧ ⟨as.getD [], none⟩ = c

theorem Spelled.reads {v : Tree} {c : Config} (h : Spelled v c) : Reads Config.read v c := by
  obtain ⟨as, has, rfl⟩ := h
  exact (has.reads record_reading).map fun as => (⟨as.getD [], none⟩ : Config)

theorem readsOnly_spelled : ReadsOnly Config.read Spelled :=
  (Record.readsOnly_spells record_reading none).map fun as => (⟨as.getD [], none⟩ : Config)

/-- A text is a configuration if and only if it is a text of a tree that spells it. -/
theorem parse_eq_ok_iff {t : List Char} {c : Config} :
    parse t = .ok c ↔ ∃ v, Document v t ∧ Spelled v c :=
  parseWith_eq_ok_iff (fun _ _ h => h.reads) readsOnly_spelled

/-- The same value, or the same list of analyzers, each of them rearranged. -/
inductive ListRearranged : Tree → Tree → Prop
  | refl (v : Tree) : ListRearranged v v
  | list {vs vs' : List Tree} (h : List.Forall₂ Analyzer.Rearranged vs vs') :
      ListRearranged (.array vs) (.array vs')

/-- Trees of a configuration. Its analyzers are rearranged, and if it is an object, its members
stand in another order, or there are more of them that are not fields. -/
inductive Rearranged : Tree → Tree → Prop
  | object {ms ns ms' : List (List Mark × Tree)}
      (hvalues : List.Forall₂ (fun m n => m.1 = n.1 ∧ ListRearranged m.2 n.2) ms ns)
      (h : record.Extends ns ms') : Rearranged (.object ms) (.object ms')
  | list {vs vs' : List Tree} (h : List.Forall₂ ListRearranged vs vs') :
      Rearranged (.array vs) (.array vs')

theorem Acts.rearrange (f : Component (Option (List Analyzer))) (v v' : Tree)
    (act : Option (List Analyzer) → Option (List Analyzer)) (h : Acts f v act)
    (hv : ListRearranged v v') : Acts f v' act := by
  cases hv with
  | refl => exact h
  | @list vs vs' hvs =>
    obtain ⟨_, as, hlist, has, rfl⟩ := h
    obtain rfl := Tree.array.inj hlist
    refine ⟨vs', as, rfl, ?_, rfl⟩
    clear hlist
    induction hvs generalizing as with
    | nil => exact has
    | cons hv _ ih =>
      cases has with
      | cons ha hrest => exact .cons (ha.rearrange hv) (ih _ hrest)

theorem Spelled.rearrange {v v' : Tree} {c : Config} (h : Spelled v c) (hv : Rearranged v v') :
    Spelled v' c := by
  obtain ⟨as, has, rfl⟩ := h
  cases hv with
  | object hvalues hms =>
    cases has with
    | object hcollects hmissing =>
      have hsame := hcollects.congr Acts.rearrange hvalues
      exact ⟨as, .object (hsame.extend record_independent hms) hmissing, rfl⟩
  | list hvs =>
    cases has with
    | list hlists => exact ⟨as, .list (hlists.congr Acts.rearrange hvs), rfl⟩

/-- The order of members makes no difference, nor do members that are not known. A text that is a
configuration has one tree, and every text of that tree rearranged, with more members in it, is the
same configuration. -/
theorem parse_rearranged {t : List Char} {c : Config} (h : parse t = .ok c) :
    c.source = none ∧ (∃ v, Document v t) ∧
      ∀ v v' t', Document v t → Rearranged v v' → Document v' t' → parse t' = .ok c := by
  obtain ⟨v, hv, hspelled⟩ := parse_eq_ok_iff.mp h
  refine ⟨?_, ⟨v, hv⟩, ?_⟩
  · obtain ⟨as, -, rfl⟩ := hspelled
    rfl
  · intro u v' t' hu hrearranged hv'
    obtain rfl := hu.unique hv
    exact parse_eq_ok_iff.mpr ⟨v', hv', hspelled.rearrange hrearranged⟩

def minimal : List (String × Value) :=
  [("name", .string "a"), ("extensions", .array [.string "x"]), ("command", .string "c")]

def unknown : List (String × Value) := [("zone", .array [.object [("name", .null)]])]

def plain : Value := .object [("analyzers", .array [.object minimal])]

def shuffled : Value :=
  .object [("source", .string "/x"), ("analyzers", .array [.object (minimal ++ unknown).reverse])]

theorem rearranged_shuffled : Rearranged (.ofValue plain) (.ofValue shuffled) := by
  have hanalyzer : Analyzer.record.Extends (namedTreesOf minimal)
      (namedTreesOf (minimal ++ unknown).reverse) :=
    Record.extends_namedTreesOf (by decide) (List.reverse_perm (minimal ++ unknown))
  have hvalues : List.Forall₂ (fun m n => m.1 = n.1 ∧ ListRearranged m.2 n.2)
      (namedTreesOf [("analyzers", .array [.object minimal])])
      (namedTreesOf [("analyzers", .array [.object (minimal ++ unknown).reverse])]) :=
    .cons ⟨rfl, .list (.cons (.object hanalyzer) .nil)⟩ .nil
  have hforeign : ∀ k ∈ [("source", Value.string "/x")].map Prod.fst,
      k ∉ record.fields.map (·.key) := by decide
  exact .object hvalues (Record.extends_namedTreesOf hforeign (.swap _ _ []))

theorem parse_rearranged_shuffled :
    parse plain.pretty = .ok ⟨[{ name := "a", extensions := ["x"], command := "c" }], none⟩ ∧
      Document (.ofValue plain) plain.pretty ∧ Rearranged (.ofValue plain) (.ofValue shuffled) ∧
      Document (.ofValue shuffled) shuffled.pretty ∧
      parse shuffled.pretty =
        .ok ⟨[{ name := "a", extensions := ["x"], command := "c" }], none⟩ := by
  have hparse : parse plain.pretty =
      .ok ⟨[{ name := "a", extensions := ["x"], command := "c" }], none⟩ := by rfl
  have hplain : Document (.ofValue plain) plain.pretty :=
    document_pretty plain (by simp [plain, minimal, Value.Tokens, TokensMembers, TokensItems])
  have hshuffled : Document (.ofValue shuffled) shuffled.pretty :=
    document_pretty shuffled (by
      simp [shuffled, minimal, unknown, Value.Tokens, TokensMembers, TokensItems])
  exact ⟨hparse, hplain, rearranged_shuffled, hshuffled,
    (parse_rearranged hparse).2.2 _ _ _ hplain rearranged_shuffled hshuffled⟩

end Config
end LintRelay
