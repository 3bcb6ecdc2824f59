import DocSite.Site.Highlight
import DocSite.Site.Progress

namespace DocSite.Bar

def width : Nat := 40

/-- How much is done, in percent. Where there is nothing to do all is done. -/
def percent (current total : Nat) : Nat :=
  if total = 0 then 100 else min current total * 100 / total

def body (percent : Nat) : String :=
  let filled := percent * width / 100
  if width ≤ filled then String.ofList (List.replicate width '=')
  else String.ofList
    (List.replicate filled '=' ++ '>' :: List.replicate (width - filled - 1) ' ')

def line (percent : Nat) : String :=
  "[" ++ body percent ++ "] " ++ Highlight.alignRight 3 percent ++ "%"

def clearLine : String := "\r\x1b[2K"

def draw (shown? : Option Nat) : ProgressCall → String × Option Nat
  | .update current total =>
    let p := percent current total
    if shown? = some p then ("", shown?) else (clearLine ++ line p, some p)
  | .finish => ("\n", shown?)

def drawAll (calls : List ProgressCall) : String :=
  (calls.foldl (fun (text, shown?) call =>
    let (more, shown?) := draw shown? call
    (text ++ more, shown?)) (("" : String), (none : Option Nat))).1

end DocSite.Bar
