
namespace DocSite.Decimal

def twos (n : Nat) : Nat := Nat.pow 2 n

def tens (n : Nat) : Nat := Nat.pow 10 n

structure Interval where
  low : Nat
  mid : Nat
  high : Nat
  den : Nat
  /-- The ends belong to the interval. -/
  closed : Bool

/-- The interval of the finite nonzero number with the given bits; the sign is ignored. -/
def intervalOfBits (bits : Nat) : Interval :=
  let fraction : Nat := bits % twos 52
  let exponent : Nat := bits / twos 52 % twos 11
  let m : Nat := if exponent = 0 then fraction else twos 52 + fraction
  let e : Int := ((if exponent = 0 then 1 else exponent : Nat) : Int) - 1077
  let gap : Nat := if fraction = 0 ∧ 1 < exponent then 1 else 2
  let scale : Nat := twos e.toNat
  { low := (4 * m - gap) * scale, mid := 4 * m * scale, high := (4 * m + 2) * scale
    den := twos (-e).toNat, closed := m % 2 = 0 }

def Interval.holds (i : Interval) (d : Nat) (s : Int) : Bool :=
  let x := d * tens s.toNat * i.den
  let unit := tens (-s).toNat
  if i.closed then i.low * unit ≤ x && x ≤ i.high * unit
  else i.low * unit < x && x < i.high * unit

/-- The number of decimal digits before the point: the `k` with `10 ^ (k - 1) ≤ x < 10 ^ k`. -/
def magnitude (num den : Nat) : Int :=
  if den ≤ num then (Nat.toDigits 10 (num / den)).length
  else
    let k : Int := (Nat.toDigits 10 (den / num)).length
    if num * tens (k.toNat - 1) = den then 2 - k
    else 1 - k

def Interval.onGrid? (i : Interval) (k : Int) (n : Nat) : Option (Nat × Int) :=
  let s := k - n
  let num := i.mid * tens (-s).toNat
  let den := i.den * tens s.toNat
  let d := num / den
  let twiceRest := 2 * (num % den)
  let up := den < twiceRest || (den == twiceRest && d % 2 == 1)
  match i.holds d s, i.holds (d + 1) s with
  | true, true => some (if up then d + 1 else d, s)
  | true, false => some (d, s)
  | false, true => some (d + 1, s)
  | false, false => none

def dropZeros : Nat → Nat → Int → Nat × Int
  | 0, d, s => (d, s)
  | n + 1, d, s => if d % 10 = 0 then dropZeros n (d / 10) (s + 1) else (d, s)

/-- The shortest `(d, s)` with `d * 10 ^ s` in the interval: for one digit, two digits and so on,
the two neighbours of the number on that decimal grid are tested. Seventeen digits always suffice.
-/
def Interval.shortest (i : Interval) : Nat × Int :=
  let k := magnitude i.mid i.den
  match (List.range 17).findSome? fun n => i.onGrid? k (n + 1) with
  | some (d, s) => dropZeros 20 d s
  | none => (0, 0)

/-- Where positional notation is used: for a leading digit of value `10 ^ e` with
`least ≤ e ≤ most`; without bounds it is always used. -/
structure Layout where
  bounds : Option (Int × Int)

/-- Positional notation from `1e-5` up to below `1e16`; exponents carry their sign. -/
def compact : Layout := ⟨some (-5, 15)⟩

def positional : Layout := ⟨none⟩

/-- Writes `d * 10 ^ s`; a number without fraction ends in `.0`. -/
def write (layout : Layout) (d : Nat) (s : Int) : String :=
  let digits := Nat.toDigits 10 d
  let point : Int := digits.length + s
  let inside := match layout.bounds with
    | none => true
    | some (least, most) => least < point && point - 1 ≤ most
  let zeros (n : Int) := List.replicate n.toNat '0'
  String.ofList <|
    if inside then
      if 0 ≤ s then digits ++ zeros s ++ ['.', '0']
      else if 0 < point then digits.take point.toNat ++ '.' :: digits.drop point.toNat
      else '0' :: '.' :: zeros (-point) ++ digits
    else
      let exponent := point - 1
      let mantissa := match digits with
        | [c] => [c]
        | c :: rest => c :: '.' :: rest
        | [] => []
      mantissa ++ 'e' :: (if exponent < 0 then '-' else '+') :: Nat.toDigits 10 exponent.natAbs

def ofFloat (layout : Layout) (x : Float) : String :=
  let bits := x.toBits.toNat
  let sign := if bits / twos 63 = 1 then "-" else ""
  if bits % twos 63 = 0 then sign ++ "0.0"
  else
    let (d, s) := (intervalOfBits (bits % twos 63)).shortest
    sign ++ write layout d s

/-- Reads `mantissa * 10 ^ exponent`, correctly rounded. Exponents far outside the range of the
format are cut off first, since they make every mantissa vanish or overflow. -/
def toFloat (mantissa : Nat) (exponent : Int) : Float :=
  if mantissa = 0 then 0
  else
    let size : Int := (Nat.toDigits 10 mantissa).length
    if size + exponent < -400 then 0
    else if 400 < size + exponent then 1.0 / 0.0
    else if exponent < 0 then Float.ofScientific mantissa true exponent.natAbs
    else Float.ofScientific mantissa false exponent.toNat

end DocSite.Decimal
