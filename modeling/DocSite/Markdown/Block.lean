import DocSite.Markdown.Token

namespace DocSite.Markdown

structure Phrase where
  tokens : List Token
  /-- The text from the start of the phrase to its end, with the marks of its holders. -/
  source : Cursor
  /-- What holds the phrase, the outermost first. -/
  holders : List Holder
  inTable : Bool
  deriving Repr

structure HtmlLine where
  indent : Nat
  text : String
  deriving DecidableEq, Repr

inductive Block where
  | paragraph (p : Phrase)
  | heading (level : Nat) (p : Phrase)
  | rule
  | code (text : String)
  | html (lines : List HtmlLine)
  | quote (children : List Block)
  /-- A list; the paragraphs of a tight one are not marked. -/
  | list (start : Option Nat) (tight : Bool) (items : List Block)
  | item (children : List Block)
  | table (columns : List Alignment) (head : List Phrase) (rows : List (List Phrase))
  deriving Inhabited

inductive FrameKind where
  | quote
  | list (tight : Bool) (delimiter : Char) (start : Option Nat)
  | item (indent : Nat)
  deriving Repr

structure Frame where
  kind : FrameKind
  children : List Block := []

namespace Frame

def holder? (f : Frame) : Option Holder :=
  match f.kind with
  | .quote => some .quote
  | .list .. => none
  | .item indent => some (.item indent)

def close (f : Frame) : Block :=
  match f.kind with
  | .quote => .quote f.children.reverse
  | .list tight _ start => .list start tight f.children.reverse
  | .item _ => .item f.children.reverse

def isTightList (f : Frame) : Bool :=
  match f.kind with
  | .list tight .. => tight
  | _ => false

def loosen (f : Frame) : Frame :=
  match f.kind with
  | .list _ delimiter start => { f with kind := .list false delimiter start }
  | _ => f

end Frame

structure Outline where
  /-- The open blocks, the innermost first. -/
  frames : List Frame := []
  /-- The finished blocks outside all open ones, the last one first. -/
  top : List Block := []
  /-- The innermost item has begun with a blank line. -/
  bareItem : Bool := false
  /-- The last line was blank. -/
  afterBlank : Bool := false
  /-- The definitions so far, in order. -/
  definitions : List Definition := []

namespace Outline

def holders (o : Outline) : List Holder := o.frames.reverse.filterMap Frame.holder?

/-- Whether a line belongs to all open blocks, and the position behind their marks. -/
def passMargin (o : Outline) (c : Cursor) : Bool × Margin :=
  let holders := o.holders
  let (n, m) := passHolders (.ofCursor c) holders
  (n == holders.length, m)

def append (o : Outline) (b : Block) : Outline :=
  match o.frames with
  | f :: frames => { o with frames := { f with children := b :: f.children } :: frames }
  | [] => { o with top := b :: o.top }

def push (o : Outline) (kind : FrameKind) : Outline := { o with frames := ⟨kind, []⟩ :: o.frames }

def pop (o : Outline) : Outline :=
  match o.frames with
  | f :: frames =>
    ({ o with frames, bareItem := o.bareItem && !f.isTightList }).append f.close
  | [] => o

def popTo (n : Nat) : Nat → Outline → Outline
  | 0, o => o
  | fuel + 1, o => if o.frames.length ≤ n then o else popTo n fuel o.pop

/-- The number of open blocks that belong to the first `n` holders, with the list that an item
lacks. -/
def depthOf (n : Nat) : List Frame → Nat
  | [] => 0
  | f :: frames =>
    match f.holder?, n with
    | none, n => depthOf n frames + 1
    | some _, 0 => 0
    | some _, n + 1 => depthOf n frames + 1

def keepHolders (o : Outline) (n : Nat) : Outline :=
  popTo (depthOf n o.frames.reverse) o.frames.length o

def finishBareItem (o : Outline) : Outline :=
  let o := match o.bareItem && o.afterBlank, o.frames with
    | true, f :: _ => if f.kind matches .item _ then o.pop else o
    | _, _ => o
  { o with bareItem := false }

/-- Marks the list around the innermost open block as loose after a blank line. -/
def noteBlank (o : Outline) : Outline :=
  if o.afterBlank then
    let frames := match o.frames with
      | f :: g :: frames => f :: g.loosen :: frames
      | frames => frames
    { o with frames, afterBlank := false }
  else o

/-- Makes room for a block that is no list item: closes a list whose items have ended. -/
def finishList (o : Outline) : Outline :=
  let o := o.finishBareItem
  let o := match o.frames with
    | f :: _ => if f.kind matches .list .. then o.pop else o
    | [] => o
  o.noteBlank

/-- Makes room for a list item: goes on with a list of the same sort or opens one. -/
def continueList (o : Outline) (mark : ListMark) : Outline :=
  let o := o.finishBareItem
  let fresh (o : Outline) : Outline :=
    { o.push (.list true mark.delimiter mark.number) with afterBlank := false }
  match o.frames with
  | [] => fresh o
  | f :: frames =>
    match f.kind with
    | .list tight delimiter start =>
      if delimiter = mark.delimiter then
        if o.afterBlank then
          { o with frames := ⟨.list false delimiter start, f.children⟩ :: frames,
                   afterBlank := false }
        else { o with frames := ⟨.list tight delimiter start, f.children⟩ :: frames }
      else fresh o.finishList
    | _ => fresh o.finishList

/-- Takes note of a blank line. In a quote it separates no items; an item that began with a blank
line cannot hold anything after another. -/
def blankLine (o : Outline) : Outline :=
  match o.frames with
  | f :: frames =>
    match f.kind with
    | .quote => o
    | .item _ =>
      if o.bareItem then
        { o with frames := { f with kind := .item 0 } :: frames, afterBlank := true }
      else { o with afterBlank := true }
    | .list .. => { o with afterBlank := true }
  | [] => { o with afterBlank := true }

/-- Adds a definition. Of several with one label the first counts. -/
def define (o : Outline) (d : Definition) : Outline :=
  { o with definitions := o.definitions ++ [d] }

def blocks (o : Outline) : List Block := (popTo 0 o.frames.length o).top.reverse

end Outline
end DocSite.Markdown
