
namespace DocSite.Text

def isBlank (c : Char) : Bool :=
  let n := c.toNat
  (9 ≤ n && n ≤ 13) || n == 0x20 || n == 0x85 || n == 0xA0 || n == 0x1680 ||
    (0x2000 ≤ n && n ≤ 0x200A) || n == 0x2028 || n == 0x2029 || n == 0x202F || n == 0x205F ||
    n == 0x3000

def dropEndWhile {α : Type} (p : α → Bool) (s : List α) : List α :=
  (s.reverse.dropWhile p).reverse

def trimWhile {α : Type} (p : α → Bool) (s : List α) : List α :=
  dropEndWhile p (s.dropWhile p)

def trim (s : String) : String :=
  String.ofList (trimWhile isBlank s.toList)

def trimEnd (s : String) : String :=
  String.ofList (dropEndWhile isBlank s.toList)

def dropLeading (c : Char) (s : String) : String :=
  String.ofList (s.toList.dropWhile (· == c))

def trimChar (c : Char) (s : String) : String :=
  String.ofList (trimWhile (· == c) s.toList)

end DocSite.Text
