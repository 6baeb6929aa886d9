import LintRelay.Proofs.Lint
import LintRelay.Proofs.MemberOrder
import LintRelay.Proofs.Utf8
/-! The variables of an analyzer. Whatever the order in which they are given, by calls or by the
members of an object, the command lists each key once, with its last value, in the order of the
bytes of the keys. -/
namespace LintRelay

open Json

/-! ### The values of keys -/

theorem lookup_cons_ite (k : String) (var : String × String) (vars : List (String × String)) :
    (var :: vars).lookup k = if k = var.1 then some var.2 else vars.lookup k := by
  obtain ⟨k', v⟩ := var
  by_cases hk : k = k'
  · simp [hk]
  · simp [List.lookup_cons, hk, beq_eq_false_iff_ne.mpr hk]

theorem lookup_insertVariable (key value : String) (vars : List (String × String)) (k : String) :
    (insertVariable key value vars).lookup k = if k = key then some value else vars.lookup k := by
  induction vars with
  | nil => rw [insertVariable, lookup_cons_ite]
  | cons head rest ih =>
    obtain ⟨k', v'⟩ := head
    rw [insertVariable]
    split
    · next heq =>
      obtain rfl : k' = key := by simpa using heq
      simp only [lookup_cons_ite]
      split <;> rfl
    · next hne =>
      split
      · rw [lookup_cons_ite]
      · -- A key that is found at the head is not the one that is put in behind it.
        have hkey : k' ≠ key := by simpa using hne
        rw [lookup_cons_ite, lookup_cons_ite, ih]
        split
        · next hk => rw [if_neg (hk ▸ hkey)]
        · rfl

theorem lookup_eq_none_of_forall_lt {vars : List (String × String)} {k : String}
    (h : ∀ var ∈ vars, k < var.1) : vars.lookup k = none := by
  rw [List.lookup_eq_none_iff]
  intro var hvar
  simpa using fun heq : k = var.1 => String.lt_irrefl k (heq ▸ h var hvar)

namespace Ascending

variable {vars vars' : List (String × String)}

theorem filter_eq (h : Ascending vars) (k : String) :
    (vars.filter fun var => var.1 == k) = (vars.lookup k).toList.map (Prod.mk k) := by
  induction vars with
  | nil => rfl
  | cons head rest ih =>
    obtain ⟨k', v⟩ := head
    obtain ⟨hhead, hrest⟩ := List.pairwise_cons.mp h
    rw [lookup_cons_ite]
    by_cases hk : k = k'
    · subst hk
      have hnone : rest.lookup k = none := lookup_eq_none_of_forall_lt hhead
      simp [ih hrest, hnone]
    · simp [hk, Ne.symm hk, ih hrest]

theorem mem_iff (h : Ascending vars) {var : String × String} :
    var ∈ vars ↔ vars.lookup var.1 = some var.2 := by
  have hmem : var ∈ vars ↔ var ∈ vars.filter fun other => other.1 == var.1 := by simp
  rw [hmem, h.filter_eq]
  obtain ⟨k, v⟩ := var
  simp

theorem nodup (h : Ascending vars) : vars.Nodup := by
  refine List.Pairwise.imp ?_ h
  rintro var _ hlt rfl
  exact String.lt_irrefl _ hlt

theorem eq_of_lookup (h : Ascending vars) (h' : Ascending vars')
    (hsame : ∀ k, vars.lookup k = vars'.lookup k) : vars = vars' := by
  have hperm : vars.Perm vars' := by
    rw [List.perm_ext_iff_of_nodup h.nodup h'.nodup]
    intro var
    rw [h.mem_iff, h'.mem_iff, hsame]
  refine hperm.eq_of_pairwise ?_ h h'
  intro var var' _ _ hlt hgt
  exact absurd (String.lt_trans hlt hgt) (String.lt_irrefl _)

end Ascending

namespace Environment

theorem eq_of_lookup {env env' : Environment}
    (h : ∀ k, env.vars.lookup k = env'.vars.lookup k) : env = env' := by
  obtain ⟨vars, hvars⟩ := env
  obtain ⟨vars', hvars'⟩ := env'
  obtain rfl : vars = vars' := hvars.eq_of_lookup hvars' h
  rfl

def insertAll (env : Environment) (vars : List (String × String)) : Environment :=
  vars.foldl (fun env var => env.insert var.1 var.2) env

theorem lookup_insertAll (env : Environment) (vars : List (String × String)) (k : String) :
    (env.insertAll vars).vars.lookup k = (vars.reverse.lookup k).or (env.vars.lookup k) := by
  induction vars generalizing env with
  | nil => rfl
  | cons var vars ih =>
    have hstep : (env.insert var.1 var.2).vars.lookup k =
        ([var].lookup k).or (env.vars.lookup k) := by
      rw [insert, lookup_insertVariable]
      rw [lookup_cons_ite, List.lookup_nil]
      split <;> rfl
    rw [List.reverse_cons, List.lookup_append, Option.or_assoc, ← hstep]
    exact ih (env.insert var.1 var.2)

end Environment

namespace Analyzer

def withEnvs (a : Analyzer) (calls : List (String × String)) : Analyzer :=
  calls.foldl (fun a call => a.withEnv call.1 call.2) a

theorem withEnvs_eq (a : Analyzer) (calls : List (String × String)) :
    a.withEnvs calls = { a with env := a.env.insertAll calls } := by
  induction calls generalizing a with
  | nil => rfl
  | cons call calls ih => exact ih (a.withEnv call.1 call.2)

/-- The value of a key after calls: the last one that is given for it, else the one that it had. -/
def valueAfter? (a : Analyzer) (calls : List (String × String)) (key : String) : Option String :=
  (calls.reverse.lookup key).or (a.env.vars.lookup key)

theorem lookup_withEnvs (a : Analyzer) (calls : List (String × String)) (key : String) :
    (a.withEnvs calls).env.vars.lookup key = a.valueAfter? calls key := by
  rw [withEnvs_eq]
  exact a.env.lookup_insertAll calls key

/-- Calls make the same analyzer if and only if they come to the same values. -/
theorem withEnvs_eq_iff {a : Analyzer} {calls other : List (String × String)} :
    a.withEnvs calls = a.withEnvs other ↔ ∀ k, a.valueAfter? calls k = a.valueAfter? other k := by
  simp only [← lookup_withEnvs]
  constructor
  · intro h k
    rw [h]
  · intro h
    have henv : (a.withEnvs calls).env = (a.withEnvs other).env := Environment.eq_of_lookup h
    simp only [withEnvs_eq] at henv ⊢
    rw [henv]

/-! ### Variables in JSON -/

/-- A member that gives a variable: its key, and the text that is its value. -/
def Gives (m : List Mark × Tree) (var : String × String) : Prop :=
  unescape m.1 = some var.1.toList ∧
    ∃ marks, m.2 = .string marks ∧ unescape marks = some var.2.toList

theorem Gives.readsMember {m : List Mark × Tree} {var : String × String} (h : Gives m var) :
    ReadsMember (readText "a string") m var := by
  obtain ⟨hkey, marks, hm, hmarks⟩ := h
  refine ⟨⟨_, hkey, String.ofList_toList.symm⟩, ?_⟩
  rw [hm, ← String.ofList_toList (s := var.2)]
  exact reads_text "a string" hmarks

def envField : Component Draft :=
  draftField "env" false readEnvironment (·.env) fun d env => { d with env := some env }

theorem find_envField : record.fields.find? (·.key == "env") = some envField := rfl

theorem envField_mem : envField ∈ record.fields := List.mem_of_find?_eq_some find_envField

theorem acts_env {es : List (List Mark × Tree)} {vars : List (String × String)}
    (hes : List.Forall₂ Gives es vars) {t : List Char} (ht : ValueText Blanks (.object es) t) :
    Acts envField (.object es) fun d => { d with env := some (.ofList vars) } := by
  have hmembers : List.Forall₂ (ReadsMember (readText "a string")) es vars :=
    hes.imp fun _ _ h => h.readsMember
  have hreads (d : Draft) :
      Reads (envField.read d) (.object es) { d with env := some (.ofList vars) } :=
    ((reads_map hmembers).map Environment.ofList).map fun env =>
      ({ d with env := some env } : Draft)
  refine ⟨hreads, [] ++ (t ++ []), [], fun d => ?_⟩
  exact hreads d t ht [] [] blanks_nil (by simp [EndsNumber])

theorem required_ne_env {f : Component Draft} (hf : f ∈ record.fields) (h : f.required = true) :
    f.key ≠ "env" := by
  revert f
  simp [record, draftField]

theorem missing_of_env {d d' : Draft} {v : Tree} (h : record.Adds Acts d "env" v d') :
    record.missing? d' = record.missing? d :=
  Record.missing?_congr fun _ hf hrequired =>
    h.isGiven_eq record_independent hf (required_ne_env hf hrequired)

section Env

variable {ms : List (List Mark × Tree)} {k : List Mark} {v : Tree} {a : Analyzer}
  (hkey : unescape k = some "env".toList)

include hkey

theorem Spelled.add_env (hms : ∀ m ∈ ms, unescape m.1 ≠ some "env".toList) {env : Environment}
    (hact : Acts envField v fun d => { d with env := some env }) (h : Spelled (.object ms) a) :
    a.env = .empty ∧ Spelled (.object (ms ++ [(k, v)])) { a with env := env } := by
  obtain ⟨d, hd, rfl⟩ := h
  cases hd with
  | object hcollects hmissing =>
    have hgiven : envField.isGiven d = false :=
      hcollects.isGiven_eq record_independent envField_mem hms
    have hnone : d.env = none := by simpa [envField, draftField] using hgiven
    have hadds : record.Adds Acts d "env" v { d with env := some env } :=
      .field find_envField hgiven hact
    refine ⟨by simp [Draft.finish, hnone], { d with env := some env }, .object ?_ ?_, rfl⟩
    · exact hcollects.append (.cons hkey (by simpa using hadds) (.nil _))
    · rw [missing_of_env hadds, hmissing]

theorem Spelled.drop_env (h : Spelled (.object (ms ++ [(k, v)])) a) :
    ∃ b, Spelled (.object ms) b := by
  obtain ⟨d', hd', rfl⟩ := h
  cases hd' with
  | object hcollects hmissing =>
    obtain ⟨d, hms, hlast⟩ := hcollects.of_append
    cases hlast with
    | cons hkey' hadds hnil =>
      cases hnil
      obtain rfl := Option.some.inj (hkey.symm.trans hkey')
      rw [String.ofList_toList] at hadds
      exact ⟨d.finish, d, .object hms (by rw [← missing_of_env hadds, hmissing]), rfl⟩

end Env

theorem parse_eq_ok_iff_spelled {v : Tree} {t : List Char} (h : Document v t) {a : Analyzer} :
    parse t = .ok a ↔ Spelled v a := by
  have hparse : parse t = .ok a ↔ ∃ v, Document v t ∧ Spelled v a :=
    parseWith_eq_ok_iff (fun _ _ h => h.reads) readsOnly_spelled
  rw [hparse]
  constructor
  · rintro ⟨v', hv', hspelled⟩
    exact h.unique hv' ▸ hspelled
  · exact fun hspelled => ⟨v, h, hspelled⟩

/-- Reading variables from an object is the same as giving them by calls, in the order of the
members, whichever place the object has and whatever blanks there are. -/
theorem parse_env {ms ms' es : List (List Mark × Tree)} {k : List Mark}
    {vars : List (String × String)} {t t' : List Char} (ht : Document (.object ms) t)
    (hms : ∀ m ∈ ms, unescape m.1 ≠ some "env".toList) (hkey : unescape k = some "env".toList)
    (hes : List.Forall₂ Gives es vars) (hperm : ms'.Perm (ms ++ [(k, .object es)]))
    (ht' : Document (.object ms') t') :
    (parse t').toOption = (parse t).toOption.map (·.withEnvs vars) := by
  obtain ⟨s, hs⟩ := ht'.exists_valueText (hperm.symm.subset (by simp) : (k, .object es) ∈ ms')
  have hact := acts_env hes hs
  have hadd (a : Analyzer) (h : parse t = .ok a) : parse t' = .ok (a.withEnvs vars) := by
    obtain ⟨henv, hspelled⟩ := ((parse_eq_ok_iff_spelled ht).mp h).add_env hkey hms hact
    have hwith : a.withEnvs vars = { a with env := .ofList vars } := by
      rw [withEnvs_eq, henv]
      rfl
    rw [parse_eq_ok_iff_spelled ht', hwith]
    exact hspelled.rearrange (.object (Record.extends_of_perm hperm))
  cases h : parse t with
  | ok a => rw [hadd a h]; rfl
  | error e =>
    cases h' : parse t' with
    | error e' => rfl
    | ok a' =>
      -- What is an analyzer with variables is one without them, too.
      have hlast := ((parse_eq_ok_iff_spelled ht').mp h').rearrange
        (.object (Record.extends_of_perm hperm.symm))
      obtain ⟨b, hb⟩ := hlast.drop_env hkey
      rw [(parse_eq_ok_iff_spelled ht).mpr hb] at h
      cases h

/-- The variables of a command are canonical. They are listed in the order of the bytes of their
keys, each key once, with the value that it has after the calls. So the order of calls makes no
difference but for the last value of each key, neither to the command, nor to the JSON form, nor to
what a dry run shows. An object of variables in JSON stands for calls in the order of its
members. -/
theorem variables_canonical (a : Analyzer) (calls : List (String × String)) :
    ((a.withEnvs calls).baseCommand.env.Pairwise fun x y =>
      Bytes.ofString x.1 < Bytes.ofString y.1) ∧
    (∀ k, ((a.withEnvs calls).baseCommand.env.filter fun x => x.1 == k) =
      (a.valueAfter? calls k).toList.map (Prod.mk k)) ∧
    (∀ other, (∀ k, a.valueAfter? calls k = a.valueAfter? other k) ↔
      (a.withEnvs calls).baseCommand = (a.withEnvs other).baseCommand) ∧
    (∀ other, (∀ k, a.valueAfter? calls k = a.valueAfter? other k) →
      (a.withEnvs calls).json? = (a.withEnvs other).json? ∧
      ∀ runner options w w' r, options.dryRun = true →
        Lint.routed? options w = some (a.withEnvs calls, r) →
        Lint.routed? options w' = some (a.withEnvs other, r) →
        ((Lint.run runner options).run w).1 = .ok 0 ∧
        ((Lint.run runner options).run w').1 = .ok 0 ∧
        ((Lint.run runner options).run w).2.stdout =
          w.stdout ++ Lint.preview ((a.withEnvs calls).commandFor r) ∧
        ((Lint.run runner options).run w').2.stdout =
          w'.stdout ++ Lint.preview ((a.withEnvs calls).commandFor r)) ∧
    ∀ ms ms' es k t t', Document (.object ms) t →
      (∀ m ∈ ms, unescape m.1 ≠ some "env".toList) → unescape k = some "env".toList →
      List.Forall₂ Gives es calls → ms'.Perm (ms ++ [(k, .object es)]) →
      Document (.object ms') t' →
      (parse t').toOption = (parse t).toOption.map (·.withEnvs calls) := by
  refine ⟨?_, fun k => ?_, fun other => ?_, fun other hsame => ?_, ?_⟩
  · exact (a.withEnvs calls).env.ascending.imp fun h => Utf8.encode_lt_encode (String.lt_iff.mp h)
  · rw [← lookup_withEnvs]
    exact (a.withEnvs calls).env.ascending.filter_eq k
  · constructor
    · intro hsame
      rw [withEnvs_eq_iff.mpr hsame]
    · intro hcommand k
      rw [← lookup_withEnvs, ← lookup_withEnvs]
      exact congrArg (fun c : Command => c.env.lookup k) hcommand
  · rw [withEnvs_eq_iff.mpr hsame]
    refine ⟨rfl, fun runner options w w' r hdry hw hw' => ?_⟩
    obtain ⟨hcode, hshown⟩ := Lint.run_of_routed runner hdry hw
    obtain ⟨hcode', hshown'⟩ := Lint.run_of_routed runner hdry hw'
    exact ⟨hcode, hcode', hshown, hshown'⟩
  · intro ms ms' es k t t' ht hms hkey hes hperm ht'
    exact parse_env ht hms hkey hes hperm ht'

def tool : Analyzer := { name := "a", extensions := ["x"], command := "c" }

/-- Calls that give a key twice, and the keys in another order than that of their bytes. -/
def repeated : List (String × String) := [("é", "1"), ("A", "2"), ("é", "3")]

def once : List (String × String) := [("A", "2"), ("é", "3")]

def membersWith (vars : List (String × String)) : List (String × Value) :=
  ("env", .object (vars.map fun var => (var.1, .string var.2))) :: Config.minimal

def worldWith (vars : List (String × String)) : World where
  files := ⟨[([Bytes.ofString "techlint.json"], .file (Bytes.ofString
      (Value.compactText (.object [("analyzers", .array [.object (membersWith vars)])])))),
    ([Bytes.ofString "f.x"], .file [])]⟩

def dryOptions : CommandLine.LintOptions where
  file := .ofString "f.x"
  id := "1"
  dryRun := true

theorem forall₂_gives (vars : List (String × String)) :
    List.Forall₂ Gives (namedTreesOf (vars.map fun var => (var.1, .string var.2))) vars := by
  induction vars with
  | nil => exact .nil
  | cons var vars ih =>
    exact .cons ⟨unescape_marksOf _, _, rfl, unescape_marksOf _⟩ ih

theorem variables_canonical_repeated :
    (∀ k, tool.valueAfter? repeated k = tool.valueAfter? once k) ∧
    (tool.withEnvs repeated).baseCommand.env = [("A", "2"), ("é", "3")] ∧
    (tool.withEnvs repeated).json? = (tool.withEnvs once).json? ∧
    ((Lint.run (.scripted (.ok {})) dryOptions).run (worldWith repeated)).2.stdout =
      ((Lint.run (.scripted (.ok {})) dryOptions).run (worldWith once)).2.stdout ∧
    parse (Value.pretty (.object (membersWith repeated))) = .ok (tool.withEnvs repeated) := by
  have hsame (k : String) : tool.valueAfter? repeated k = tool.valueAfter? once k := by
    simp only [valueAfter?, repeated, once, List.reverse_cons, List.reverse_nil, List.nil_append,
      List.cons_append, lookup_cons_ite]
    split_ifs <;> rfl
  have hrouted : Lint.routed? dryOptions (worldWith repeated) =
      some (tool.withEnvs repeated, ⟨.ofString "/f.x", "1"⟩) := by decide +kernel
  have hrouted' : Lint.routed? dryOptions (worldWith once) =
      some (tool.withEnvs once, ⟨.ofString "/f.x", "1"⟩) := by decide +kernel
  have hplain : Document (.object (namedTreesOf Config.minimal))
      (Value.pretty (.object Config.minimal)) :=
    document_pretty (.object Config.minimal) (by
      simp [Config.minimal, Value.Tokens, TokensMembers, TokensItems])
  have hwith : Document (.object (namedTreesOf (membersWith repeated)))
      (Value.pretty (.object (membersWith repeated))) :=
    document_pretty (.object (membersWith repeated)) (by
      simp [membersWith, repeated, Config.minimal, Value.Tokens, TokensMembers, TokensItems])
  obtain ⟨-, -, -, hequal, hjson⟩ := variables_canonical tool repeated
  obtain ⟨hform, hdry⟩ := hequal once hsame
  obtain ⟨-, -, hshown, hshown'⟩ := hdry (.scripted (.ok {})) dryOptions (worldWith repeated)
    (worldWith once) _ rfl hrouted hrouted'
  have hparse := hjson _ _ _ (marksOf "env".toList) _ _ hplain (by decide) (unescape_marksOf _)
    (forall₂_gives repeated) (List.perm_append_singleton _ _).symm hwith
  exact ⟨hsame, by decide, hform, hshown.trans hshown'.symm, Except.eq_ok_of_toOption hparse⟩

end Analyzer
end LintRelay
