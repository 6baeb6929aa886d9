import LintRelay.Json.Lexeme
/-! The grammar of JSON texts, stated apart from the reader. A text derives a tree that keeps every
token as it was written; what may stand between two tokens is a parameter, so that texts with
blanks and texts without any are derived by the same rules. -/
namespace LintRelay.Json

/-- One character of a string as it is written: itself, an escape letter, or four hexadecimal
digits of a code unit. -/
inductive Mark where
  | plain (c : Char)
  | letter (c : Char)
  | code (a b c d : Char)
  deriving DecidableEq, Repr

namespace Mark

def text : Mark → List Char
  | .plain c => [c]
  | .letter c => ['\\', c]
  | .code a b c d => ['\\', 'u', a, b, c, d]

def IsHex (c : Char) : Prop := c ∈ "0123456789abcdefABCDEF".toList

instance decidableIsHex (c : Char) : Decidable (IsHex c) :=
  inferInstanceAs (Decidable (c ∈ "0123456789abcdefABCDEF".toList))

def Valid : Mark → Prop
  | .plain c => 0x20 ≤ c.toNat ∧ c ≠ '"' ∧ c ≠ '\\'
  | .letter c => c ∈ "\"\\/bfnrt".toList
  | .code a b c d => IsHex a ∧ IsHex b ∧ IsHex c ∧ IsHex d

instance decidableValid : (m : Mark) → Decidable m.Valid
  | .plain c => inferInstanceAs (Decidable (0x20 ≤ c.toNat ∧ c ≠ '"' ∧ c ≠ '\\'))
  | .letter c => inferInstanceAs (Decidable (c ∈ "\"\\/bfnrt".toList))
  | .code a b c d => inferInstanceAs (Decidable (IsHex a ∧ IsHex b ∧ IsHex c ∧ IsHex d))

end Mark

def marksText (marks : List Mark) : List Char := marks.flatMap Mark.text

/-- The characters that the marks of a string stand for; none if a surrogate has no partner. -/
def unescape : List Mark → Option (List Char)
  | [] => some []
  | .plain c :: ms => (unescape ms).map (c :: ·)
  | .letter l :: ms => (escapeChar? l).bind fun c => (unescape ms).map (c :: ·)
  | .code a b c d :: ms =>
    (hexValue? a b c d).bind fun n =>
      if isLowSurrogate n then none
      else if isHighSurrogate n then
        match ms with
        | .code e f g h :: ms =>
          (hexValue? e f g h).bind fun m =>
            if isLowSurrogate m then (unescape ms).map (pairChar n m :: ·) else none
        | _ => none
      else (unescape ms).map (Char.ofNat n :: ·)

def Digits (ds : List Char) : Prop := ds ≠ [] ∧ ∀ d ∈ ds, d.isDigit = true

/-- The integer part of a number: zero, or digits that do not start with zero. -/
inductive WholeText : List Char → Prop
  | zero : WholeText ['0']
  | digits {d : Char} {ds : List Char} (hd : d.isDigit = true) (h0 : d ≠ '0')
      (hds : ∀ x ∈ ds, x.isDigit = true) : WholeText (d :: ds)

inductive FractionText : List Char → Prop
  | absent : FractionText []
  | present {ds : List Char} (hds : Digits ds) : FractionText ('.' :: ds)

inductive ExponentText : List Char → Prop
  | absent : ExponentText []
  | unsigned {e : Char} {ds : List Char} (he : e = 'e' ∨ e = 'E') (hds : Digits ds) :
      ExponentText (e :: ds)
  | signed {e s : Char} {ds : List Char} (he : e = 'e' ∨ e = 'E') (hs : s = '+' ∨ s = '-')
      (hds : Digits ds) : ExponentText (e :: s :: ds)

/-- The tokens that are numbers. -/
inductive NumberText : List Char → Prop
  | positive {w f x : List Char} (hw : WholeText w) (hf : FractionText f) (hx : ExponentText x) :
      NumberText (w ++ (f ++ x))
  | negative {w f x : List Char} (hw : WholeText w) (hf : FractionText f) (hx : ExponentText x) :
      NumberText ('-' :: (w ++ (f ++ x)))

/-- What is kept of a number token: from the mark of its exponent on, a small e and a sign. -/
def keptToken : List Char → List Char
  | [] => []
  | c :: cs =>
    if c = 'e' ∨ c = 'E' then
      match cs with
      | [] => ['e', '+']
      | s :: ds => if s = '+' ∨ s = '-' then 'e' :: s :: ds else 'e' :: '+' :: s :: ds
    else c :: keptToken cs

/-- A JSON text without what stands between its tokens. -/
inductive Tree where
  | null
  | bool (b : Bool)
  | number (token : List Char)
  | string (marks : List Mark)
  | array (items : List Tree)
  | object (members : List (List Mark × Tree))
  deriving Inhabited, Repr

def Blanks (w : List Char) : Prop := ∀ c ∈ w, isSpace c = true

mutual

/-- The texts of a value, with gaps of the given kind around values and names. -/
inductive ValueText (gap : List Char → Prop) : Tree → List Char → Prop
  | wordNull : ValueText gap .null ['n', 'u', 'l', 'l']
  | wordTrue : ValueText gap (.bool true) ['t', 'r', 'u', 'e']
  | wordFalse : ValueText gap (.bool false) ['f', 'a', 'l', 's', 'e']
  | number {token : List Char} (h : NumberText token) : ValueText gap (.number token) token
  | string {marks : List Mark} (h : ∀ m ∈ marks, m.Valid) :
      ValueText gap (.string marks) ('"' :: (marksText marks ++ ['"']))
  | emptyArray {w : List Char} (hw : gap w) : ValueText gap (.array []) ('[' :: (w ++ [']']))
  | array {items : List Tree} {t : List Char} (h : ItemsText gap items t) :
      ValueText gap (.array items) ('[' :: (t ++ [']']))
  | emptyObject {w : List Char} (hw : gap w) :
      ValueText gap (.object []) ('\x7b' :: (w ++ ['\x7d']))
  | object {members : List (List Mark × Tree)} {t : List Char} (h : MembersText gap members t) :
      ValueText gap (.object members) ('\x7b' :: (t ++ ['\x7d']))

inductive ItemsText (gap : List Char → Prop) : List Tree → List Char → Prop
  | one {v : Tree} {a t b : List Char} (ha : gap a) (h : ValueText gap v t) (hb : gap b) :
      ItemsText gap [v] (a ++ (t ++ b))
  | cons {v : Tree} {vs : List Tree} {a t b ts : List Char} (ha : gap a) (h : ValueText gap v t)
      (hb : gap b) (hs : ItemsText gap vs ts) :
      ItemsText gap (v :: vs) (a ++ (t ++ (b ++ ',' :: ts)))

inductive MembersText (gap : List Char → Prop) : List (List Mark × Tree) → List Char → Prop
  | one {k : List Mark} {v : Tree} {a b c t d : List Char} (ha : gap a) (hk : ∀ m ∈ k, m.Valid)
      (hb : gap b) (hc : gap c) (h : ValueText gap v t) (hd : gap d) :
      MembersText gap [(k, v)]
        (a ++ '"' :: (marksText k ++ '"' :: (b ++ ':' :: (c ++ (t ++ d)))))
  | cons {k : List Mark} {v : Tree} {ms : List (List Mark × Tree)} {a b c t d ts : List Char}
      (ha : gap a) (hk : ∀ m ∈ k, m.Valid) (hb : gap b) (hc : gap c) (h : ValueText gap v t)
      (hd : gap d) (hs : MembersText gap ms ts) :
      MembersText gap ((k, v) :: ms)
        (a ++ '"' :: (marksText k ++ '"' :: (b ++ ':' :: (c ++ (t ++ (d ++ ',' :: ts))))))

end

/-- The texts of an array, with gaps outside its brackets too. -/
def ArrayText (gap : List Char → Prop) (items : List Tree) (t : List Char) : Prop :=
  ∃ a s b, gap a ∧ ValueText gap (.array items) s ∧ gap b ∧ t = a ++ (s ++ b)

mutual

/-- How many containers are open at once in the deepest place. -/
def Tree.depth : Tree → Nat
  | .array items => depthItems items + 1
  | .object members => depthMembers members + 1
  | _ => 0

def depthItems : List Tree → Nat
  | [] => 0
  | v :: vs => max v.depth (depthItems vs)

def depthMembers : List (List Mark × Tree) → Nat
  | [] => 0
  | (_, v) :: ms => max v.depth (depthMembers ms)

end

end LintRelay.Json
