import DocSite.Decimal
import DocSite.Dict

namespace DocSite

/-- A value of a document: the entries of an object stand in ascending order of their keys. -/
inductive Value where
  | null
  | bool (b : Bool)
  | int (n : Int)
  | float (x : Float)
  | str (s : String)
  | list (items : List Value)
  | object (fields : List (String × Value))
  deriving Inhabited, BEq

namespace Value

def ofText? : Option String → Value
  | some s => .str s
  | none => .null

def ofNat? : Option Nat → Value
  | some n => .int n
  | none => .null

def ofTexts (items : List String) : Value := .list (items.map .str)

/-- The object of fields in any order; of two fields with one name the later counts. -/
def ofFields (fields : List (String × Value)) : Value := .object (Dict.ofList fields)

end Value
end DocSite
