/-! UTF-8 as a byte automaton. One step either completes a character, waits for more bytes or
rejects; the strict and the lossy reading differ only in what they do with a rejection. -/
namespace LintRelay

/-- Byte strings: file contents, process output and path names. -/
abbrev Bytes := List UInt8

namespace Utf8

/-- A sequence in progress. The next byte has to lie between `lo` and `hi`. -/
structure Sequence where
  owed : Nat
  lo : UInt8
  hi : UInt8
  code : Nat
  read : Nat
  deriving DecidableEq, Repr

inductive Step where
  | char (c : Char)
  | more (s : Sequence)
  | reject
  deriving DecidableEq, Repr

/-- The first byte of a sequence fixes its length and narrows its second byte, which keeps out
overlong forms, surrogates and everything above the last code point. -/
def first (b : UInt8) : Step :=
  if b < 0x80 then .char (Char.ofNat b.toNat)
  else if b < 0xC2 then .reject
  else if b < 0xE0 then .more ⟨1, 0x80, 0xBF, b.toNat - 0xC0, 1⟩
  else if b < 0xF0 then
    .more ⟨2, if b = 0xE0 then 0xA0 else 0x80, if b = 0xED then 0x9F else 0xBF, b.toNat - 0xE0, 1⟩
  else if b < 0xF5 then
    .more ⟨3, if b = 0xF0 then 0x90 else 0x80, if b = 0xF4 then 0x8F else 0xBF, b.toNat - 0xF0, 1⟩
  else .reject

def Sequence.next (s : Sequence) (b : UInt8) : Step :=
  if s.lo ≤ b ∧ b ≤ s.hi then
    let code := s.code * 64 + (b.toNat - 0x80)
    if s.owed ≤ 1 then .char (Char.ofNat code)
    else .more ⟨s.owed - 1, 0x80, 0xBF, code, s.read + 1⟩
  else .reject

def step : Option Sequence → UInt8 → Step
  | none, b => first b
  | some s, b => s.next b

/-- Why bytes are not UTF-8: a sequence that cannot go on, or one that the input cuts short. -/
inductive Defect where
  | invalid (count index : Nat)
  | incomplete (index : Nat)
  deriving DecidableEq, Repr

def Defect.message : Defect → String
  | .invalid count index => s!"invalid utf-8 sequence of {count} bytes from index {index}"
  | .incomplete index => s!"incomplete utf-8 byte sequence from index {index}"

/-- Where a sequence that stops at `index` began, and how many of its bytes were good. -/
def Defect.ofState (index : Nat) : Option Sequence → Defect
  | none => .invalid 1 index
  | some s => .invalid s.read (index - s.read)

def decodeFrom (state : Option Sequence) (index : Nat) (acc : List Char) :
    Bytes → Except Defect (List Char)
  | [] =>
    match state with
    | none => .ok acc.reverse
    | some s => .error (.incomplete (index - s.read))
  | b :: bs =>
    match step state b with
    | .char c => decodeFrom none (index + 1) (c :: acc) bs
    | .more s => decodeFrom (some s) (index + 1) acc bs
    | .reject => .error (.ofState index state)

def decode (bs : Bytes) : Except Defect (List Char) := decodeFrom none 0 [] bs

def replacement : Char := '�'

def lossyFrom (state : Option Sequence) (acc : List Char) : Bytes → List Char
  | [] =>
    match state with
    | none => acc.reverse
    | some _ => (replacement :: acc).reverse
  | b :: bs =>
    match step state b with
    | .char c => lossyFrom none (c :: acc) bs
    | .more s => lossyFrom (some s) acc bs
    | .reject =>
      match state with
      | none => lossyFrom none (replacement :: acc) bs
      | some _ =>
        match first b with
        | .char c => lossyFrom none (c :: replacement :: acc) bs
        | .more s => lossyFrom (some s) (replacement :: acc) bs
        | .reject => lossyFrom none (replacement :: replacement :: acc) bs

/-- Lossy reading: each longest prefix of a sequence that goes wrong becomes one replacement. -/
def lossy (bs : Bytes) : List Char := lossyFrom none [] bs

def encode (cs : List Char) : Bytes := cs.flatMap String.utf8EncodeChar

def size (cs : List Char) : Nat := cs.foldr (fun c n => c.utf8Size + n) 0

@[simp] theorem size_nil : size [] = 0 := rfl

@[simp] theorem size_cons (c : Char) (cs : List Char) : size (c :: cs) = c.utf8Size + size cs := rfl

@[simp] theorem encode_nil : encode [] = [] := rfl

@[simp] theorem encode_cons (c : Char) (cs : List Char) :
    encode (c :: cs) = String.utf8EncodeChar c ++ encode cs := by
  simp [encode]

theorem encode_append (cs ds : List Char) : encode (cs ++ ds) = encode cs ++ encode ds := by
  simp [encode]

end Utf8

def Bytes.ofString (s : String) : Bytes := Utf8.encode s.toList

def Bytes.text? (bs : Bytes) : Option String :=
  match Utf8.decode bs with
  | .ok cs => some (String.ofList cs)
  | .error _ => none

def Bytes.display (bs : Bytes) : String := String.ofList (Utf8.lossy bs)

end LintRelay
