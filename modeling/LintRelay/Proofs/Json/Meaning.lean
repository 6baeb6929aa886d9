import LintRelay.Json.Reader
import LintRelay.Proofs.Json.Lexeme
/-! What a tree means. Read exactly, a number is its token and an object is its members. What is
stored departs from that in two places: an exponent is respelled, and an object that starts with
the number key is a number. The trees on which this makes no difference are the faithful ones. -/
namespace LintRelay.Json

/-- How values are made of tokens: what is kept of a number, and the key that turns an object into
a number, if there is one. -/
structure Dialect where
  keep : List Char → List Char
  key? : Option String

namespace Dialect

def exact : Dialect := ⟨id, none⟩

def stored : Dialect := ⟨keptToken, some numberKey⟩

/-- Whether the first key of an object is the one that turns it into a number. -/
def marks (d : Dialect) : List (List Mark × Tree) → Bool
  | [] => false
  | (k, _) :: _ =>
    match unescape k with
    | some s => d.key? == some (String.ofList s)
    | none => false

/-- The number that a marked object stands for: its only member is a string that spells one. -/
def keyed? (d : Dialect) : List (List Mark × Tree) → Option Value
  | [(_, .string ms)] =>
    (unescape ms).bind fun s =>
      if NumberText s then some (.number (String.ofList (d.keep s))) else none
  | _ => none

@[simp] theorem marks_exact (ms : List (List Mark × Tree)) : exact.marks ms = false := by
  cases ms with
  | nil => rfl
  | cons m ms => cases h : unescape m.1 <;> simp [marks, exact, h]

end Dialect

/-- The members of an object in the order in which their keys first come, each with its last
value. -/
def gather (members : List (String × Value)) : List (String × Value) :=
  members.foldl (fun acc m => insertMember acc m.1 m.2) []

mutual

/-- The value of a tree; none if a surrogate has no partner or a marked object spells no number. -/
def Tree.value? (d : Dialect) : Tree → Option Value
  | .null => some .null
  | .bool b => some (.bool b)
  | .number token => some (.number (String.ofList (d.keep token)))
  | .string ms => (unescape ms).map fun s => .string (String.ofList s)
  | .array items => (itemValues? d items).map .array
  | .object members =>
    if d.marks members then d.keyed? members
    else (memberValues? d members).map fun ms => .object (gather ms)

def itemValues? (d : Dialect) : List Tree → Option (List Value)
  | [] => some []
  | v :: vs => (v.value? d).bind fun x => (itemValues? d vs).map (x :: ·)

def memberValues? (d : Dialect) : List (List Mark × Tree) → Option (List (String × Value))
  | [] => some []
  | (k, v) :: ms =>
    (unescape k).bind fun s =>
      (v.value? d).bind fun x => (memberValues? d ms).map ((String.ofList s, x) :: ·)

end

mutual

/-- The trees that are stored as they are written: no exponent would be respelled and no object
starts with the number key. A member whose name comes again is not kept, so it only has to be
readable. -/
def Tree.Faithful : Tree → Prop
  | .number token => keptToken token = token
  | .array items => FaithfulItems items
  | .object members => Dialect.stored.marks members = false ∧ FaithfulMembers members
  | _ => True

def FaithfulItems : List Tree → Prop
  | [] => True
  | v :: vs => v.Faithful ∧ FaithfulItems vs

def FaithfulMembers : List (List Mark × Tree) → Prop
  | [] => True
  | (k, v) :: ms =>
    ((∀ m ∈ ms, unescape m.1 ≠ unescape k) → v.Faithful) ∧ (v.value? .stored).isSome = true ∧
      FaithfulMembers ms

end

/-- The last value under a key. -/
def lastMember? (members : List (String × Value)) (key : String) : Option Value :=
  match members with
  | [] => none
  | (k, v) :: rest =>
    match lastMember? rest key with
    | some w => some w
    | none => if k == key then some v else none

theorem lastMember?_isSome_iff (members : List (String × Value)) (key : String) :
    (lastMember? members key).isSome = true ↔ key ∈ members.map Prod.fst := by
  induction members with
  | nil => simp [lastMember?]
  | cons m rest ih =>
    obtain ⟨k, v⟩ := m
    simp only [lastMember?, List.map_cons, List.mem_cons, ← ih]
    cases h : lastMember? rest key with
    | some w => simp
    | none =>
      by_cases hk : k = key
      · simp [hk]
      · have hk' : ¬ key = k := fun h => hk h.symm
        simp [hk, hk']

theorem lookupMember_insertMember (members : List (String × Value)) (k key : String) (v : Value) :
    lookupMember (insertMember members k v) key =
      if k == key then some v else lookupMember members key := by
  induction members with
  | nil => simp [insertMember, lookupMember]
  | cons m rest ih =>
    obtain ⟨l, w⟩ := m
    by_cases hl : l = k
    · subst hl
      by_cases hk : l = key <;> simp [insertMember, lookupMember, hk]
    · by_cases hk : l = key
      · subst hk
        have hne : ¬ k = l := fun h => hl h.symm
        simp [insertMember, lookupMember, hl, hne]
      · simp [insertMember, lookupMember, hl, hk, ih]

theorem keys_insertMember (members : List (String × Value)) (key : String) (v : Value) :
    (insertMember members key v).map Prod.fst =
      if key ∈ members.map Prod.fst then members.map Prod.fst
      else members.map Prod.fst ++ [key] := by
  induction members with
  | nil => simp [insertMember]
  | cons m rest ih =>
    obtain ⟨k, w⟩ := m
    by_cases hk : k = key
    · simp [insertMember, hk]
    · have hk' : ¬ key = k := fun h => hk h.symm
      by_cases hin : key ∈ rest.map Prod.fst
      · rw [if_pos hin] at ih
        rw [if_pos (by simp only [List.map_cons, List.mem_cons]; exact Or.inr hin)]
        simp [insertMember, hk, ih]
      · rw [if_neg hin] at ih
        rw [if_neg (by simp only [List.map_cons, List.mem_cons, not_or]; exact ⟨hk', hin⟩)]
        simp [insertMember, hk, ih]

theorem lookupMember_foldl (members acc : List (String × Value)) (key : String) :
    lookupMember (members.foldl (fun acc m => insertMember acc m.1 m.2) acc) key =
      (lastMember? members key).or (lookupMember acc key) := by
  induction members generalizing acc with
  | nil => simp [lastMember?]
  | cons m rest ih =>
    obtain ⟨k, v⟩ := m
    rw [List.foldl_cons, ih, lookupMember_insertMember]
    cases h : lastMember? rest key with
    | some w => simp [lastMember?, h]
    | none => by_cases hk : k = key <;> simp [lastMember?, h, hk]

theorem lookupMember_gather (members : List (String × Value)) (key : String) :
    lookupMember (gather members) key = lastMember? members key := by
  rw [gather, lookupMember_foldl]
  simp [lookupMember]

theorem keys_foldl_congr {ms ns acc acd : List (String × Value)}
    (hacc : acc.map Prod.fst = acd.map Prod.fst) (hms : ms.map Prod.fst = ns.map Prod.fst) :
    (ms.foldl (fun acc m => insertMember acc m.1 m.2) acc).map Prod.fst =
      (ns.foldl (fun acc m => insertMember acc m.1 m.2) acd).map Prod.fst := by
  induction ms generalizing ns acc acd with
  | nil =>
    obtain rfl : ns = [] := List.map_eq_nil_iff.mp hms.symm
    exact hacc
  | cons m ms ih =>
    cases ns with
    | nil => simp at hms
    | cons n ns =>
      obtain ⟨hkey, hrest⟩ : m.1 = n.1 ∧ ms.map Prod.fst = ns.map Prod.fst := by
        simpa using hms
      rw [List.foldl_cons, List.foldl_cons]
      refine ih ?_ hrest
      rw [keys_insertMember, keys_insertMember, hacc, hkey]

theorem nodup_keys_insertMember {members : List (String × Value)}
    (h : (members.map Prod.fst).Nodup) (key : String) (v : Value) :
    ((insertMember members key v).map Prod.fst).Nodup := by
  rw [keys_insertMember]
  split
  · exact h
  · next hnot =>
    refine List.nodup_append.mpr ⟨h, by simp, ?_⟩
    rintro a ha b hb rfl
    exact hnot (by simpa [List.mem_singleton.mp hb] using ha)

theorem nodup_keys_foldl {members acc : List (String × Value)} (h : (acc.map Prod.fst).Nodup) :
    ((members.foldl (fun acc m => insertMember acc m.1 m.2) acc).map Prod.fst).Nodup := by
  induction members generalizing acc with
  | nil => exact h
  | cons m rest ih => exact ih (nodup_keys_insertMember h m.1 m.2)

theorem nodup_keys_gather (members : List (String × Value)) :
    ((gather members).map Prod.fst).Nodup := nodup_keys_foldl (by simp)

theorem lookupMember_eq_none {members : List (String × Value)} {key : String}
    (h : key ∉ members.map Prod.fst) : lookupMember members key = none := by
  induction members with
  | nil => rfl
  | cons m rest ih =>
    obtain ⟨k, v⟩ := m
    obtain ⟨hne, hrest⟩ : key ≠ k ∧ key ∉ rest.map Prod.fst := by
      simpa only [List.map_cons, List.mem_cons, not_or] using h
    have hk : ¬ k = key := fun h => hne h.symm
    simp [lookupMember, hk, ih hrest]

/-- Members with distinct keys are settled by their keys and by what is found under each. -/
theorem eq_of_keys_of_lookup {ms ns : List (String × Value)}
    (hkeys : ms.map Prod.fst = ns.map Prod.fst) (hnodup : (ms.map Prod.fst).Nodup)
    (hlook : ∀ key, lookupMember ms key = lookupMember ns key) : ms = ns := by
  induction ms generalizing ns with
  | nil => exact (List.map_eq_nil_iff.mp hkeys.symm).symm
  | cons m ms ih =>
    cases ns with
    | nil => simp at hkeys
    | cons n ns =>
      obtain ⟨k, v⟩ := m
      obtain ⟨l, w⟩ := n
      obtain ⟨hkl, hrest⟩ : k = l ∧ ms.map Prod.fst = ns.map Prod.fst := by
        simpa using hkeys
      subst hkl
      obtain ⟨hfresh, hnodup⟩ := List.nodup_cons.mp hnodup
      obtain rfl : v = w := by simpa [lookupMember] using hlook k
      have htail : ms = ns := by
        refine ih hrest hnodup fun key => ?_
        by_cases hk : k = key
        · subst hk
          rw [lookupMember_eq_none hfresh, lookupMember_eq_none (by rwa [← hrest])]
        · simpa [lookupMember, hk] using hlook key
      rw [htail]

theorem gather_eq_gather_iff {ms ns : List (String × Value)}
    (hkeys : ms.map Prod.fst = ns.map Prod.fst) :
    gather ms = gather ns ↔ ∀ key, lastMember? ms key = lastMember? ns key := by
  constructor
  · intro h key
    rw [← lookupMember_gather, ← lookupMember_gather, h]
  · intro h
    refine eq_of_keys_of_lookup (keys_foldl_congr rfl hkeys) (nodup_keys_gather ms) fun key => ?_
    rw [lookupMember_gather, lookupMember_gather, h]

theorem itemValues?_cons_eq_some {d : Dialect} {v : Tree} {vs : List Tree} {xs : List Value} :
    itemValues? d (v :: vs) = some xs ↔
      ∃ x ys, v.value? d = some x ∧ itemValues? d vs = some ys ∧ xs = x :: ys := by
  simp only [itemValues?, Option.bind_eq_some_iff, Option.map_eq_some_iff]
  constructor
  · rintro ⟨x, hx, ys, hys, rfl⟩
    exact ⟨x, ys, hx, hys, rfl⟩
  · rintro ⟨x, ys, hx, hys, rfl⟩
    exact ⟨x, hx, ys, hys, rfl⟩

theorem memberValues?_cons_eq_some {d : Dialect} {k : List Mark} {v : Tree}
    {ms : List (List Mark × Tree)} {xs : List (String × Value)} :
    memberValues? d ((k, v) :: ms) = some xs ↔
      ∃ s x ys, unescape k = some s ∧ v.value? d = some x ∧ memberValues? d ms = some ys ∧
        xs = (String.ofList s, x) :: ys := by
  simp only [memberValues?, Option.bind_eq_some_iff, Option.map_eq_some_iff]
  constructor
  · rintro ⟨s, hs, x, hx, ys, hys, rfl⟩
    exact ⟨s, x, ys, hs, hx, hys, rfl⟩
  · rintro ⟨s, x, ys, hs, hx, hys, rfl⟩
    exact ⟨s, hs, x, hx, ys, hys, rfl⟩

/-- The keys of the members are the same in every dialect. -/
theorem keys_memberValues? {d e : Dialect} {ms : List (List Mark × Tree)}
    {xs ys : List (String × Value)} (hx : memberValues? d ms = some xs)
    (hy : memberValues? e ms = some ys) : xs.map Prod.fst = ys.map Prod.fst := by
  induction ms generalizing xs ys with
  | nil =>
    obtain rfl : [] = xs := by simpa [memberValues?] using hx
    obtain rfl : [] = ys := by simpa [memberValues?] using hy
    rfl
  | cons m ms ih =>
    obtain ⟨k, v⟩ := m
    obtain ⟨s, x, xs, hs, -, hxs, rfl⟩ := memberValues?_cons_eq_some.mp hx
    obtain ⟨t, y, ys, ht, -, hys, rfl⟩ := memberValues?_cons_eq_some.mp hy
    obtain rfl : s = t := Option.some.inj (hs.symm.trans ht)
    simp [ih hxs hys]

theorem mem_keys_memberValues? {d : Dialect} {ms : List (List Mark × Tree)}
    {xs : List (String × Value)} (hx : memberValues? d ms = some xs) (s : List Char) :
    String.ofList s ∈ xs.map Prod.fst ↔ ∃ m ∈ ms, unescape m.1 = some s := by
  induction ms generalizing xs with
  | nil =>
    obtain rfl : [] = xs := by simpa [memberValues?] using hx
    simp
  | cons m ms ih =>
    obtain ⟨k, v⟩ := m
    obtain ⟨t, x, xs, ht, -, hxs, rfl⟩ := memberValues?_cons_eq_some.mp hx
    have hinj : String.ofList s = String.ofList t ↔ t = s := by
      rw [String.ofList_inj, eq_comm]
    simp only [List.map_cons, List.mem_cons, exists_eq_or_imp, ih hxs, ht, Option.some.injEq,
      hinj]

/-- Under equal keys, two members in front count only if their key does not come again. -/
theorem lastMember?_cons_agree {xs ys : List (String × Value)}
    (hkeys : xs.map Prod.fst = ys.map Prod.fst) (k : String) (x y : Value) :
    (∀ key, lastMember? ((k, x) :: xs) key = lastMember? ((k, y) :: ys) key) ↔
      (k ∉ xs.map Prod.fst → x = y) ∧ ∀ key, lastMember? xs key = lastMember? ys key := by
  have hsame : ∀ key, (lastMember? xs key).isSome = (lastMember? ys key).isSome := by
    intro key
    rw [Bool.eq_iff_iff, lastMember?_isSome_iff, lastMember?_isSome_iff, hkeys]
  constructor
  · intro h
    refine ⟨fun hk => ?_, fun key => ?_⟩
    · have hxs : lastMember? xs k = none := by
        simpa using mt (lastMember?_isSome_iff xs k).mp hk
      have hys : lastMember? ys k = none := by
        simpa [hxs] using (hsame k).symm
      simpa [lastMember?, hxs, hys] using h k
    · cases hx : lastMember? xs key with
      | none =>
        have hnone := hsame key
        rw [hx] at hnone
        exact (Option.not_isSome_iff_eq_none.mp (by simp [← hnone])).symm
      | some v =>
        obtain ⟨w, hw⟩ := Option.isSome_iff_exists.mp ((hsame key).symm.trans (by rw [hx]; rfl))
        simpa [lastMember?, hx, hw] using h key
  · rintro ⟨hfront, htail⟩ key
    simp only [lastMember?, htail key]
    cases hy : lastMember? ys key with
    | some w => rfl
    | none =>
      by_cases hk : k = key
      · subst hk
        have hnot : k ∉ xs.map Prod.fst := by
          rw [← lastMember?_isSome_iff, htail, hy]
          simp
        simp [hfront hnot]
      · simp [hk]

/-- A marked object never stands for an object. -/
theorem Dialect.keyed?_ne_object (d : Dialect) (ms : List (List Mark × Tree))
    (es : List (String × Value)) : d.keyed? ms ≠ some (.object es) := by
  unfold Dialect.keyed?
  split
  · simp only [ne_eq, Option.bind_eq_some_iff, not_exists, not_and]
    intro s _
    split <;> simp
  · simp

mutual

/-- A tree is stored with its exact value if and only if it is faithful. -/
theorem Tree.stored_eq_iff_faithful (t : Tree) {x : Value} (h : t.value? .exact = some x) :
    t.value? .stored = some x ↔ t.Faithful := by
  cases t with
  | null => simpa [Tree.value?, Tree.Faithful] using h
  | bool b => simpa [Tree.value?, Tree.Faithful] using h
  | number token =>
    obtain rfl : Value.number (String.ofList token) = x := by
      simpa [Tree.value?, Dialect.exact] using h
    simp [Tree.value?, Tree.Faithful, Dialect.stored, String.ofList_inj]
  | string ms => simpa [Tree.value?, Tree.Faithful] using h
  | array items =>
    obtain ⟨xs, hxs, rfl⟩ := Option.map_eq_some_iff.mp (by simpa [Tree.value?] using h)
    have ih := itemValues_stored_iff_faithful items hxs
    simpa [Tree.value?, Tree.Faithful] using ih
  | object members =>
    obtain ⟨es, hes, rfl⟩ := Option.map_eq_some_iff.mp (by simpa [Tree.value?] using h)
    have ih := memberValues_stored_iff_faithful members hes
    simp only [Tree.Faithful, ← ih, Tree.value?]
    cases hmark : Dialect.stored.marks members with
    | true => simpa using Dialect.keyed?_ne_object _ _ _
    | false =>
      simp only [Bool.false_eq_true, if_false, Option.map_eq_some_iff, Value.object.injEq,
        true_and]
      constructor
      · rintro ⟨ss, hss, heq⟩
        exact ⟨ss, hss, (gather_eq_gather_iff (keys_memberValues? hss hes)).mp heq⟩
      · rintro ⟨ss, hss, heq⟩
        exact ⟨ss, hss, (gather_eq_gather_iff (keys_memberValues? hss hes)).mpr heq⟩

theorem itemValues_stored_iff_faithful (vs : List Tree) {xs : List Value}
    (h : itemValues? .exact vs = some xs) :
    itemValues? .stored vs = some xs ↔ FaithfulItems vs := by
  cases vs with
  | nil => simpa [itemValues?, FaithfulItems] using h
  | cons v vs =>
    obtain ⟨x, ys, hx, hys, rfl⟩ := itemValues?_cons_eq_some.mp h
    have hhead := Tree.stored_eq_iff_faithful v hx
    have htail := itemValues_stored_iff_faithful vs hys
    simp only [FaithfulItems, ← hhead, ← htail, itemValues?_cons_eq_some]
    constructor
    · rintro ⟨x', ys', hx', hys', heq⟩
      obtain ⟨rfl, rfl⟩ := List.cons.inj heq
      exact ⟨hx', hys'⟩
    · rintro ⟨hx', hys'⟩
      exact ⟨x, ys, hx', hys', rfl⟩

theorem memberValues_stored_iff_faithful (ms : List (List Mark × Tree))
    {es : List (String × Value)} (h : memberValues? .exact ms = some es) :
    (∃ ss, memberValues? .stored ms = some ss ∧ ∀ key, lastMember? ss key = lastMember? es key) ↔
      FaithfulMembers ms := by
  match ms with
  | [] =>
    obtain rfl : [] = es := by simpa [memberValues?] using h
    simp [memberValues?, FaithfulMembers]
  | (k, v) :: ms =>
    obtain ⟨s, x, es, hs, hx, hes, rfl⟩ := memberValues?_cons_eq_some.mp h
    have hhead := Tree.stored_eq_iff_faithful v hx
    have htail := memberValues_stored_iff_faithful ms hes
    have hagain : (∀ m ∈ ms, unescape m.1 ≠ unescape k) ↔ String.ofList s ∉ es.map Prod.fst := by
      rw [mem_keys_memberValues? hes, hs]
      simp
    simp only [FaithfulMembers, ← hhead, ← htail, hagain]
    constructor
    · rintro ⟨ss, hss, hagree⟩
      obtain ⟨s', y, ys, hs', hy, hys, rfl⟩ := memberValues?_cons_eq_some.mp hss
      obtain rfl : s = s' := Option.some.inj (hs.symm.trans hs')
      have hkeys := keys_memberValues? hys hes
      obtain ⟨hfront, hrest⟩ := (lastMember?_cons_agree hkeys _ y x).mp hagree
      refine ⟨fun hnot => ?_, by simp [hy], ys, hys, hrest⟩
      rw [hy, hfront (by rwa [hkeys])]
    · rintro ⟨hfront, hsome, ys, hys, hrest⟩
      obtain ⟨y, hy⟩ := Option.isSome_iff_exists.mp hsome
      have hkeys := keys_memberValues? hys hes
      refine ⟨_, memberValues?_cons_eq_some.mpr ⟨s, y, ys, hs, hy, hys, rfl⟩,
        (lastMember?_cons_agree hkeys _ y x).mpr ⟨fun hnot => ?_, hrest⟩⟩
      exact Option.some.inj (hy.symm.trans (hfront (by rwa [← hkeys])))

end

end LintRelay.Json
