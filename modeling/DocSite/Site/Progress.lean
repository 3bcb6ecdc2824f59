
namespace DocSite

inductive ProgressCall where
  /-- So many of all units are done. -/
  | update (current total : Nat)
  /-- The run is over. -/
  | finish
  deriving DecidableEq, Repr

/-- A counter over the units of work of a run. It never exceeds the number announced at the start.
-/
structure Progress where
  total : Nat := 0
  current : Nat := 0
  /-- Whether there is an observer. -/
  observed : Bool
  current_le_total : current ≤ total := by omega
  deriving DecidableEq, Repr

namespace Progress

def fresh (observed : Bool) : Progress := { observed }

def report (p : Progress) (call : ProgressCall) : List ProgressCall :=
  if p.observed then [call] else []

def start (p : Progress) (total : Nat) : Progress × List ProgressCall :=
  let next : Progress := { total, current := 0, observed := p.observed }
  (next, next.report (.update 0 total))

/-- Counts one unit. Beyond the announced number nothing happens. -/
def increment (p : Progress) : Progress × List ProgressCall :=
  if h : p.current < p.total then
    let next : Progress := { total := p.total, current := p.current + 1, observed := p.observed }
    (next, next.report (.update next.current next.total))
  else (p, [])

/-- Ends the run; the counter keeps its state. -/
def finish (p : Progress) : List ProgressCall := p.report .finish

def describe (p : Progress) : String :=
  "ProgressTracker \x7b total: " ++ toString p.total ++ ", current: " ++ toString p.current ++
    ", sink: " ++ (if p.observed then "true" else "false") ++ " \x7d"

end Progress
end DocSite
