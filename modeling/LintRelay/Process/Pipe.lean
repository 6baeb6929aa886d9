import LintRelay.Process.Octets
/-! Pipes. What is written goes into pages; a pipe holds a few of them, and a page is free again only
when all of it has been read. -/
namespace LintRelay.Process

def pageSize : Nat := 4096

def maxPages : Nat := 16

structure Page where
  /-- What is still to be read, latest piece first. -/
  pieces : List Octets
  /-- How much has been written to the page, with what has been read since. -/
  filled : Nat

namespace Page

def content (p : Page) : Octets :=
  match p.pieces with
  | [text] => text
  | pieces => pieces.reverse.flatten

def ofText (text : Octets) : Page := ⟨[text], text.length⟩

def add (p : Page) (text : Octets) : Page := ⟨text :: p.pieces, p.filled + text.length⟩

theorem content_ofText (text : Octets) : (ofText text).content = text := by
  simp [content, ofText]

theorem content_eq (p : Page) : p.content = p.pieces.reverse.flatten := by
  unfold content
  split <;> simp_all

theorem content_add (p : Page) (text : Octets) : (p.add text).content = p.content ++ text := by
  simp [content_eq, add]

end Page

structure Pipe where
  id : Nat
  /-- Oldest first. -/
  pages : List Page := []
  /-- Whether somebody outside takes everything at once. -/
  drained : Bool := false
  /-- What was taken that way, latest piece first. -/
  taken : List Octets := []

namespace Pipe

def isEmpty (p : Pipe) : Bool := p.pages.isEmpty

/-- Adds to the last page, which has to have room. -/
def extend (text : Octets) : List Page → List Page
  | [] => []
  | [page] => [page.add text]
  | page :: pages => page :: extend text pages

/-- Puts text into new pages, at most `free` of them; what did not find room is left. -/
def addPages (pages : List Page) : (free : Nat) → Octets → List Page × Octets
  | _, [] => (pages, [])
  | 0, text => (pages, text)
  | free + 1, text => addPages (pages ++ [.ofText (text.take pageSize)]) free (text.drop pageSize)

/-- Writes as much as there is room for. What is over after whole pages may go to the last page. -/
def put (p : Pipe) (text : Octets) : Pipe × Octets :=
  if p.drained then ({ p with taken := text :: p.taken }, [])
  else
    let excess := text.length % pageSize
    let room := (p.pages.getLast?.map fun page => pageSize - page.filled).getD 0
    let (pages, text) :=
      if 0 < excess && excess ≤ room then (extend (text.take excess) p.pages, text.drop excess)
      else (p.pages, text)
    let (pages, rest) := addPages pages (maxPages - pages.length) text
    ({ p with pages }, rest)

def take (count : Nat) : List Page → List Octets × List Page
  | [] => ([], [])
  | page :: pages =>
    if count == 0 then ([], page :: pages)
    else
      let text := page.content
      if text.length ≤ count then
        let (texts, left) := take (count - text.length) pages
        (text :: texts, left)
      else ([text.take count], { page with pieces := [text.drop count] } :: pages)

def get (p : Pipe) (count : Nat) : Octets × Pipe :=
  let (texts, pages) := take count p.pages
  (texts.flatten, { p with pages })

def through (last : Char) (p : Pipe) : Nat :=
  count 0 p.pages
where
  count (soFar : Nat) : List Page → Nat
    | [] => soFar
    | page :: pages =>
      match page.content.findIdx? (· == last) with
      | some n => soFar + n + 1
      | none => count (soFar + page.content.length) pages

def total (p : Pipe) : Octets := p.taken.reverse.flatten

end Pipe
end LintRelay.Process
