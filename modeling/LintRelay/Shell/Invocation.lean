import LintRelay.Shell.Lookup
import LintRelay.Shell.Redirection
/-! What the words of a simple command have come to. The name of the command is known as soon as the
first word is worked out, and decides how the others are. -/
namespace LintRelay.Shell

/-- Fields that are worked out, and words that are not yet. -/
structure Filling where
  fields : List Octets := []
  rest : List Word

def Filling.reach (capture : Capture) (place : Nat) (fields : List Octets) :
    List Word → Sh Filling
  | [] => return ⟨fields, []⟩
  | w :: rest => do
    if place < fields.length then return ⟨fields, w :: rest⟩
    let more ← Expansion.fields capture w
    reach capture place (fields ++ more) rest

structure Invocation where
  /-- All fields, with those before the name of the command. -/
  shown : List Octets := []
  /-- The name of the command and its arguments. -/
  words : List Octets := []
  builtin : Option Builtin := none
  /-- Whether the shell ends on errors; nothing for a command without a name. -/
  special : Option Bool := none
  /-- Whether assignments are for the command only. -/
  isOwn : Bool := false
  /-- Whether functions are passed over. -/
  skipsFunctions : Bool := false
  path : Option Octets := none

namespace Invocation

def isExec (i : Invocation) : Bool := i.builtin.any (·.name == "exec")

/-- The options of `command`; where the name of the command after it is, if it is to be run. -/
def afterCommand (capture : Capture) : (steps : Nat) → Filling → (place : Nat) →
    (path : Option Octets) → Sh (Filling × Option (Nat × Option Octets))
  | 0, f, _, _ => return (f, none)
  | steps + 1, f, place, path => do
    let f ← Filling.reach capture place f.fields f.rest
    match f.fields[place]? with
    | none => return (f, none)
    | some ['-', '-'] =>
      let f ← Filling.reach capture (place + 1) f.fields f.rest
      if f.fields.length ≤ place + 1 then return (f, none)
      return (f, some (place + 1, path))
    | some ('-' :: c :: cs) =>
      if (c :: cs).all (· == 'p') then
        afterCommand capture steps f (place + 1) (some systemPath)
      else return (f, none)
    | some _ => return (f, some (place, path))

def resolve (capture : Capture) : (steps : Nat) → Filling → (place : Nat) → Invocation →
    Sh (Filling × Nat × Invocation)
  | 0, f, place, i => return (f, place, i)
  | steps + 1, f, place, i => do
    let s ← get
    match Lookup.inside? s (f.fields.getD place []) (!i.skipsFunctions) with
    | some (.builtin b) =>
      let i := { i with
        builtin := some b
        special := i.special <|> some b.special
        isOwn := if i.special.isNone then !b.special else true }
      if b.name != "command" then return (f, place, i)
      match ← afterCommand capture (f.rest.length + f.fields.length + 2) f (place + 1) i.path with
      | (f, none) => return (f, place, i)
      | (f, some (place, path)) =>
        resolve capture steps f place { i with builtin := none, skipsFunctions := true, path }
    | _ => return (f, place, { i with builtin := none, isOwn := true })

def ofWords (capture : Capture) (words : List Word) : Sh Invocation := do
  let f ← Filling.reach capture 0 [] words
  if f.fields.isEmpty then return {}
  let (f, place, i) ← resolve capture (words.length + f.fields.length + 2) f 0 {}
  let assigns := i.builtin.any (·.assigns)
  let rest ← f.rest.mapM fun w => do
    if assigns && (Word.assigned? w).isSome then
      return [← Expansion.text capture { assignment := true } w]
    else Expansion.fields capture w
  let shown := f.fields ++ rest.flatten
  return { i with shown, words := shown.drop place }

end Invocation
end LintRelay.Shell
