import LintRelay.Shell.Pattern
import LintRelay.Shell.Session
/-! Patterns of file names. A pattern is compared with the names in directories, one component after
the other; what it matches comes in the order of the bytes. -/
namespace LintRelay.Shell.Glob

open Process

/-- Whether a bracket closes before the component ends. -/
def closesBracket : Octets → Bool
  | [] => false
  | '/' :: _ => false
  | '\\' :: _ :: rest => closesAfter rest
  | _ :: rest => closesAfter rest
where
  closesAfter : Octets → Bool
    | ']' :: _ => true
    | rest => closesBracket rest

/-- Whether a pattern has a special character before its first slash; and that component, with what
follows it. -/
structure Component where
  text : Octets
  special : Bool
  rest : Option Octets

def component (seen : Octets) (special : Bool) : (steps : Nat) → Octets → Component
  | 0, _ => ⟨seen.reverse, special, none⟩
  | _, [] => ⟨seen.reverse, special, none⟩
  | steps + 1, c :: cs =>
    match c with
    | '*' | '?' => component (c :: seen) true steps cs
    | '[' =>
      let inside := if cs.head? == some '!' then cs.tail else cs
      component (c :: seen) (special || closesBracket inside) steps cs
    | '/' => ⟨seen.reverse, special, some cs⟩
    | '\\' =>
      match cs with
      | '/' :: cs => ⟨seen.reverse, special, some cs⟩
      | d :: cs => component (d :: '\\' :: seen) special steps cs
      | [] => component (c :: seen) special steps []
    | c => component (c :: seen) special steps cs

def unescaped (seen : Octets) : Octets → Octets
  | [] => seen.reverse
  | '\\' :: c :: cs => unescaped (c :: seen) cs
  | c :: cs => unescaped (c :: seen) cs

/-- The paths that a pattern matches below what is already found. A pattern without any special
component matches nothing. -/
def paths : (steps : Nat) → (isSpecial : Bool) → (found pattern : Octets) → Sh (List Octets)
  | 0, _, _, _ => return []
  | steps + 1, isSpecial, found, pattern => do
    let c := component [] false (pattern.length + 1) pattern
    if !c.special then
      let path := found ++ unescaped [] c.text
      match c.rest with
      | some rest => paths steps isSpecial (path ++ ['/']) rest
      | none =>
        if !isSpecial then return []
        match ← Sh.proc (Proc.info path) with
        | .ok _ => return [path]
        | .error _ => return []
    else
      let names ←
        match ← Sh.call (.list (if found.isEmpty then ['.'] else found)) with
        | .names names => pure (['.'] :: ['.', '.'] :: names)
        | _ => pure []
      let showsHidden := c.text.head? == some '.' || "\\.".toList.isPrefixOf c.text
      let p := Pattern.ofText c.text
      let hits := names.filter fun n =>
        (showsHidden || n.head? != some '.') && p.matchesText n
      match c.rest with
      | none => return hits.map (found ++ ·)
      | some rest =>
        let below ← hits.mapM fun n => paths steps true (found ++ n ++ ['/']) rest
        return below.flatten

/-- What a pattern stands for: the paths that it matches, in order; nothing if there are none. -/
def expand (pattern : Octets) : Sh (List Octets) := do
  let found ← paths (pattern.length + 1) false [] pattern
  return found.mergeSort Octets.le

end LintRelay.Shell.Glob
