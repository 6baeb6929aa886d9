import LintRelay.Text.Quoted
/-! Path names and the operations on them that look at nothing but the name. A path is its bytes;
two spellings of one place are two paths. -/
namespace LintRelay

structure Path where
  bytes : Bytes
  deriving DecidableEq, Repr, Inhabited

namespace Path

def ofString (s : String) : Path := ⟨Bytes.ofString s⟩

def slash : UInt8 := 47

def dot : UInt8 := 46

def text? (p : Path) : Option String := p.bytes.text?

def display (p : Path) : String := p.bytes.display

def isEmpty (p : Path) : Bool := p.bytes.isEmpty

def isAbsolute (p : Path) : Bool := p.bytes.head? == some slash

/-- Bytes between slashes; one piece more than there are slashes. -/
def pieces (bs : Bytes) : List Bytes :=
  match bs with
  | [] => [[]]
  | b :: bs =>
    if b == slash then [] :: pieces bs
    else
      match pieces bs with
      | [] => [[b]]
      | p :: ps => (b :: p) :: ps

def joinPieces : List Bytes → Bytes
  | [] => []
  | [p] => p
  | p :: ps => p ++ slash :: joinPieces ps

theorem pieces_ne_nil (bs : Bytes) : pieces bs ≠ [] := by
  cases bs with
  | nil => simp [pieces]
  | cons b bs =>
    simp only [pieces]
    split
    · simp
    · split <;> simp

theorem joinPieces_pieces (bs : Bytes) : joinPieces (pieces bs) = bs := by
  induction bs with
  | nil => rfl
  | cons b bs ih =>
    simp only [pieces]
    split
    · next h =>
      have hb : b = slash := by simpa using h
      have hne := pieces_ne_nil bs
      cases hp : pieces bs with
      | nil => exact absurd hp hne
      | cons q qs => rw [hp] at ih; simp [joinPieces, ih, hb]
    · split
      · next h => exact absurd h (pieces_ne_nil bs)
      · next p ps h =>
        rw [h] at ih
        cases ps with
        | nil => simpa [joinPieces] using ih
        | cons q qs => simpa [joinPieces] using ih

def isParentName (name : Bytes) : Bool := name == [dot, dot]

/-- A piece that names nothing: between two slashes, or the directory it stands in. -/
def isIdle (piece : Bytes) : Bool := piece.isEmpty || piece == [dot]

/-- A path starts at the root, at a dot of its own, or right away. -/
def head (p : Path) : Bytes :=
  match p.bytes with
  | b :: rest =>
    if b == slash then [slash]
    else if b == dot && (rest.isEmpty || rest.head? == some slash) then [dot]
    else []
  | [] => []

def body (p : Path) : List Bytes := pieces (p.bytes.drop p.head.length)

def dropIdleEnd (ps : List Bytes) : List Bytes := (ps.reverse.dropWhile isIdle).reverse

/-- Everything before the last component, as it was written; none for the root and for the empty
path. -/
def parent? (p : Path) : Option Path :=
  let ps := dropIdleEnd p.body
  if ps.isEmpty then
    if p.head == [dot] then some ⟨[]⟩ else none
  else some ⟨p.head ++ joinPieces (dropIdleEnd ps.dropLast)⟩

def ancestorsWithin (p : Path) : Nat → List Path
  | 0 => [p]
  | steps + 1 =>
    match p.parent? with
    | some q => p :: q.ancestorsWithin steps
    | none => [p]

/-- A path and all its parents, the path itself first. A parent is a shorter path, so there are no
more of them than bytes. -/
def ancestors (p : Path) : List Path := p.ancestorsWithin p.bytes.length

def fileName? (p : Path) : Option Bytes :=
  match (dropIdleEnd p.body).getLast? with
  | none => none
  | some name => if isParentName name then none else some name

/-- What follows the last dot of the name; a name that starts with its only dot has none. -/
def extension? (p : Path) : Option Bytes := do
  let name ← p.fileName?
  let after := (name.reverse.takeWhile (· != dot)).reverse
  let before := name.take (name.length - after.length - 1)
  if after.length == name.length || before.isEmpty then none else some after

def join (base p : Path) : Path :=
  if p.isAbsolute then p
  else if base.isEmpty || base.bytes.getLast? == some slash then ⟨base.bytes ++ p.bytes⟩
  else ⟨base.bytes ++ slash :: p.bytes⟩

def joinName (base : Path) (name : String) : Path := base.join (.ofString name)

def names (p : Path) : List Bytes := (pieces p.bytes).filter fun piece => !isIdle piece

/-- Whether a path starts with two slashes and no third, which keeps both. -/
def hasDoubleRoot (p : Path) : Bool :=
  p.bytes.take 2 == [slash, slash] && p.bytes.take 3 != [slash, slash, slash]

/-- The path from the root, given the current directory: idle pieces are dropped, a slash at the end
stays, and so does every step to a parent. -/
def absolute (cwd p : Path) : Path :=
  let start : Path :=
    if p.isAbsolute then (if p.hasDoubleRoot then ⟨[slash, slash]⟩ else ⟨[slash]⟩) else cwd
  let full := p.names.foldl (fun base name => base.join ⟨name⟩) start
  if p.bytes.getLast? == some slash then full.join ⟨[]⟩ else full

end Path
end LintRelay
