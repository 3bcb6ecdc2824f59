import DocSite.Markdown.Event
import DocSite.Markdown.Token

namespace DocSite.Markdown

inductive Inline where
  | text (s : List Char)
  | code (s : List Char)
  | html (s : List Char)
  | softBreak
  | hardBreak (backslash : Bool)
  | run (mark : Char) (count : Nat) (opens closes : Bool)
  | wrap (tag : Tag) (children : List Inline)
  deriving Inhabited

structure OpenRun where
  mark : Char
  /-- The length of the whole run. -/
  length : Nat
  /-- The number of marks that are left. -/
  left : Nat
  /-- The run can also end an emphasis. -/
  both : Bool
  /-- The parts after the run, last first. -/
  content : List Inline := []

namespace OpenRun

/-- Whether a run of this length ends an emphasis that the open run started. Tildes must be
equally many. If one of two runs both opens and closes, their lengths must not add up to a
multiple of three, unless both are. -/
def fits (r : OpenRun) (mark : Char) (length : Nat) (both : Bool) : Bool :=
  r.mark == mark && (mark != '~' || length == r.length) &&
    (!both && !r.both || (length + r.length) % 3 != 0 || length % 3 == 0)

def flatten (r : OpenRun) : List Inline :=
  r.content ++ [.text (List.replicate r.left r.mark)]

end OpenRun

/-- Phrases inside `n` pairs of marks: two pairs make a strong part, one that is left over makes
the outermost one. -/
def wrapMarks (mark : Char) : Nat → List Inline → List Inline
  | 0, inner => inner
  | 1, inner => [.wrap (if mark = '~' then .strikethrough else .emphasis) inner]
  | n + 2, inner =>
    wrapMarks mark n [.wrap (if mark = '~' then .strikethrough else .strong) inner]

structure Pairing where
  /-- The parts before the first open run, last first. -/
  base : List Inline := []
  /-- The open runs, the last one first. -/
  runs : List OpenRun := []
  /-- The number of open runs, from the first one on, that no run of tildes can end any more. -/
  tildeFloor : Nat := 0

namespace Pairing

/-- Adds parts, last first, behind the last open run. -/
def append (p : Pairing) (parts : List Inline) : Pairing :=
  match p.runs with
  | r :: runs => { p with runs := { r with content := parts ++ r.content } :: runs }
  | [] => { p with base := parts ++ p.base }

def push (p : Pairing) (r : OpenRun) : Pairing := { p with runs := r :: p.runs }

/-- Splits the open runs at the last one that satisfies `ok`, of which at least `floor` others lie
before it. -/
def splitOpen? (ok : OpenRun → Bool) (floor : Nat) :
    List OpenRun → Option (List OpenRun × OpenRun × List OpenRun)
  | [] => none
  | r :: rest =>
    if rest.length < floor then none
    else if ok r then some ([], r, rest)
    else (splitOpen? ok floor rest).map fun (inner, found, outer) => (r :: inner, found, outer)

/-- Ends emphases with a run of which `left` marks are left; the answer has the number of marks
that end nothing. -/
def close (mark : Char) (length : Nat) (both : Bool) : Nat → Nat → Pairing → Nat × Pairing
  | 0, left, p => (left, p)
  | fuel + 1, left, p =>
    if left = 0 then (0, p)
    else
      let floor := if mark = '~' then p.tildeFloor else 0
      match splitOpen? (·.fits mark length both) floor p.runs with
      | none =>
        (left, if mark = '~' then { p with tildeFloor := p.runs.length } else p)
      | some (inner, r, outer) =>
        let n := min left r.left
        let content := inner.flatMap OpenRun.flatten ++ r.content
        let wrapped := wrapMarks mark n content.reverse
        let p := { p with runs := outer, tildeFloor := min p.tildeFloor outer.length }
        let p := if n < r.left then p.push { r with left := r.left - n, content := wrapped }
          else p.append wrapped
        close mark length both fuel (left - n) p

def step (p : Pairing) (part : Inline) : Pairing :=
  match part with
  | .run mark length opens closes =>
    let both := opens && closes
    let (left, p) := if closes then close mark length both (length + 1) length p else (length, p)
    if left = 0 then p
    else if opens then p.push ⟨mark, length, left, both, []⟩
    else p.append [.text (List.replicate left mark)]
  | part => p.append [part]

/-- The parts when the phrase ends. Open runs stand for themselves. -/
def finish (p : Pairing) : List Inline := (p.runs.flatMap OpenRun.flatten ++ p.base).reverse

end Pairing

/-- A line break at the end of a phrase breaks nothing: its backslash stands for itself. -/
def keepLastBackslash (parts : List Inline) : List Inline :=
  match parts.getLast? with
  | some (.hardBreak true) => parts.dropLast ++ [.text ['\\']]
  | _ => parts

/-- The parts of a phrase with its emphases. Runs are paired from left to right: a run that closes
looks back for the nearest run that it can end. What is left of a run stands for itself. -/
def emphasize (parts : List Inline) : List Inline :=
  ((keepLastBackslash parts).foldl Pairing.step {}).finish

end DocSite.Markdown
