import DocSite.RawPath

namespace DocSite

structure Path where
  text : String
  deriving DecidableEq, Repr, Inhabited

namespace Path

theorem text_inj {p q : Path} : p.text = q.text ↔ p = q := by
  cases p; cases q; simp

def segments (p : Path) : List String :=
  (Text.splitAll '/' p.text.toList).map String.ofList

def alphabet : PathAlphabet Char := ⟨'/', '.', by decide⟩

def components (p : Path) : List (PathPart Char) := alphabet.parts p.text.toList

def isAbsolute (p : Path) : Bool := p.text.toList.head? == some '/'

def SamePlace (p q : Path) : Prop := p.components = q.components

instance (p q : Path) : Decidable (p.SamePlace q) :=
  inferInstanceAs (Decidable (p.components = q.components))

/-- Puts `q` below `p`: an absolute `q` replaces `p`, and a separator is written only where `p`
is not empty and does not end in one. -/
def join (p q : Path) : Path :=
  if q.isAbsolute || p.text.isEmpty then q
  else if p.text.toList.getLast? == some '/' then ⟨p.text ++ q.text⟩
  else ⟨p.text ++ "/" ++ q.text⟩

/-- Splits off what no parent removes: the root, or a `.` that starts a relative path. -/
def splitHead (cs : List Char) : List Char × List Char :=
  match cs with
  | '/' :: rest => (['/'], rest)
  | ['.'] => (['.'], [])
  | '.' :: '/' :: rest => (['.'], '/' :: rest)
  | cs => ([], cs)

def isSkipped (segment : List Char) : Bool := segment == [] || segment == ['.']

/-- The path without its last component. The root and the empty path have no parent. -/
def parent (p : Path) : Option Path :=
  let (head, body) := splitHead p.text.toList
  match (Text.splitAll '/' body).reverse.dropWhile isSkipped with
  | _ :: before =>
    let kept := Text.joinWith ['/'] (before.dropWhile isSkipped).reverse
    some ⟨String.ofList (head ++ kept)⟩
  | [] => if head == ['.'] then some ⟨""⟩ else none

def raw (p : Path) : RawPath := .ofText p.text

/-- The path of `file` relative to `root`. A file outside `root` keeps all its components. -/
def relativeTo (root file : Path) : String := root.raw.relativeTo file.raw

end Path
end DocSite
