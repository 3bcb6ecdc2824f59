import DocSite.Text.Cut

namespace DocSite.Toml.Moment

def digits? (n : Nat) (s : List Char) : Option (Nat × List Char) :=
  let ds := s.take n
  if ds.length = n ∧ ds.all Char.isDigit then
    some (ds.foldl (fun v c => v * 10 + (c.toNat - 48)) 0, s.drop n)
  else none

def skip? (c : Char) (s : List Char) : Option (List Char) := Text.after? [c] s

def pad2 (n : Nat) : String := if n < 10 then s!"0{n}" else toString n

def daysIn (year month : Nat) : Nat :=
  if month = 2 then
    if year % 4 = 0 ∧ (year % 100 ≠ 0 ∨ year % 400 = 0) then 29 else 28
  else if month = 4 ∨ month = 6 ∨ month = 9 ∨ month = 11 then 30 else 31

def date? (s : List Char) : Option (String × List Char) := do
  let (_, afterYear) ← digits? 4 s
  let (month, s') ← digits? 2 (← skip? '-' afterYear)
  let (day, rest) ← digits? 2 (← skip? '-' s')
  let (year, _) ← digits? 4 s
  if 1 ≤ month ∧ month ≤ 12 ∧ 1 ≤ day ∧ day ≤ daysIn year month then
    some (String.ofList (s.take 4) ++ "-" ++ pad2 month ++ "-" ++ pad2 day, rest)
  else none

/-- The digits of a fraction of a second: nine at most, without trailing zeros but one. -/
def fraction (ds : List Char) : String :=
  match ((ds.take 9).reverse.dropWhile (· == '0')).reverse with
  | [] => ".0"
  | ds => "." ++ String.ofList ds

/-- Reads a time; seconds may be left out. -/
def time? (s : List Char) : Option (String × List Char) := do
  let (hour, s) ← digits? 2 s
  let (minute, s) ← digits? 2 (← skip? ':' s)
  if 23 < hour ∨ 59 < minute then none
  let start := pad2 hour ++ ":" ++ pad2 minute
  match s with
  | ':' :: s =>
    let (second, s) ← digits? 2 s
    if 60 < second then none
    let whole := start ++ ":" ++ pad2 second
    match s with
    | '.' :: s =>
      match s.takeWhile Char.isDigit with
      | [] => none
      | ds => some (whole ++ fraction ds, s.dropWhile Char.isDigit)
    | s => some (whole, s)
  | s => some (start, s)

def offset? : List Char → Option (String × List Char)
  | 'Z' :: s => some ("Z", s)
  | 'z' :: s => some ("Z", s)
  | sign :: s => do
    if sign ≠ '+' ∧ sign ≠ '-' then none
    let (hour, s) ← digits? 2 s
    let (minute, s) ← digits? 2 (← skip? ':' s)
    if 23 < hour ∨ 59 < minute then none
    let sign := if hour = 0 ∧ minute = 0 then "+" else sign.toString
    some (sign ++ pad2 hour ++ ":" ++ pad2 minute, s)
  | [] => none

def timeAfterDate? (date : String) (s : List Char) : Option (String × List Char) :=
  let go (s : List Char) : Option (String × List Char) := do
    let (time, s) ← time? s
    let text := date ++ "T" ++ time
    match offset? s with
    | some (offset, s) => some (text ++ offset, s)
    | none => some (text, s)
  match s with
  | 'T' :: s => go s
  | 't' :: s => go s
  | ' ' :: c :: s => if c.isDigit then go (c :: s) else some (date, ' ' :: c :: s)
  | s => some (date, s)

def read? (s : List Char) : Option (String × List Char) :=
  match date? s with
  | some (date, s) => timeAfterDate? date s
  | none => time? s

end DocSite.Toml.Moment
