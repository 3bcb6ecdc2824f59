import DocSite.Dict

namespace DocSite

/-- A value of a document. Dates and times are kept as texts. -/
inductive Toml where
  | str (s : String)
  | int (n : Int)
  | float (x : Float)
  | bool (b : Bool)
  | moment (text : String)
  | array (items : List Toml)
  | table (fields : List (String × Toml))
  deriving Inhabited

namespace Toml

/-- How a table came into being. A table may be opened by one header only, dotted keys extend only
tables that dotted keys created, and inline tables are closed. -/
inductive Origin where
  /-- It was opened by a header, or is the top of the document or of an inline table. -/
  | header
  /-- A longer header passed through it. -/
  | implied
  /-- A dotted key passed through it. -/
  | dotted
  deriving DecidableEq

inductive Item where
  | value (v : Toml)
  | table (origin : Origin) (fields : List (String × Item))
  | tables (rows : List (List (String × Item)))
  deriving Inhabited

/-- The fields of a table under construction, in the order of their keys' first use. -/
abbrev Fields := List (String × Item)

def setField (key : String) (item : Item) : Fields → Fields
  | [] => [(key, item)]
  | (k, i) :: rest => if k = key then (k, item) :: rest else (k, i) :: setField key item rest

/-- Applies `act` to the table at the end of a path. Missing tables on the way are created with
the given origin; of an array of tables the last one is meant. -/
def openPath (way : Origin) (act : Origin → Fields → Option Fields) :
    List String → Origin → Fields → Option Fields
  | [], origin, fields => act origin fields
  | key :: path, _, fields =>
    match fields.lookup key with
    | none => do
      let sub ← openPath way act path way []
      some (setField key (.table way sub) fields)
    | some (.table origin sub) =>
      if way = .dotted ∧ origin = .header then none
      else do
        let sub ← openPath way act path origin sub
        some (setField key (.table origin sub) fields)
    | some (.tables rows) => do
      let sub ← openPath way act path .header (rows.getLast?.getD [])
      some (setField key (.tables (rows.dropLast ++ [sub])) fields)
    | some (.value _) => none

/-- Adds a key with its value. A dotted key may not end in a table that a header opened. -/
def addPair (path : List String) (value : Toml) (fields : Fields) : Option Fields :=
  let act (origin : Origin) (fields : Fields) : Option Fields :=
    if 1 < path.length ∧ origin ≠ .dotted then none
    else do
      let key ← path.getLast?
      if (fields.lookup key).isSome then none else some (setField key (.value value) fields)
  openPath .dotted act path.dropLast .header fields

def addTable (path : List String) (fields : Fields) : Option Fields :=
  let act (_ : Origin) (fields : Fields) : Option Fields := do
    let key ← path.getLast?
    match fields.lookup key with
    | none => some (setField key (.table .header []) fields)
    | some (.table .implied sub) => some (setField key (.table .header sub) fields)
    | some _ => none
  openPath .implied act path.dropLast .header fields

def addRow (path : List String) (fields : Fields) : Option Fields :=
  let act (_ : Origin) (fields : Fields) : Option Fields := do
    let key ← path.getLast?
    match fields.lookup key with
    | none => some (setField key (.tables [[]]) fields)
    | some (.tables rows) => some (setField key (.tables (rows ++ [[]])) fields)
    | some _ => none
  openPath .implied act path.dropLast .header fields

mutual

def Item.toToml : Item → Toml
  | .value v => v
  | .table _ fields => .table (toTomlFields fields)
  | .tables rows => .array (toTomlRows rows)

def toTomlFields : List (String × Item) → List (String × Toml)
  | [] => []
  | (key, item) :: rest => (key, item.toToml) :: toTomlFields rest

def toTomlRows : List (List (String × Item)) → List Toml
  | [] => []
  | row :: rest => .table (toTomlFields row) :: toTomlRows rest

end

def ofPairs? (pairs : List (List String × Toml)) : Option Toml :=
  (pairs.foldlM (fun fields (path, value) => addPair path value fields) []).map
    fun fields => .table (toTomlFields fields)

inductive Statement where
  | header (path : List String)
  | row (path : List String)
  | pair (path : List String) (value : Toml)

/-- Applies a statement to the fields of the document; pairs go to the table of the last header. -/
def step (state : List String × Fields) (s : Statement) : Option (List String × Fields) :=
  let (current, fields) := state
  match s with
  | .header path => (addTable path fields).map fun fields => (path, fields)
  | .row path => (addRow path fields).map fun fields => (path, fields)
  | .pair path value =>
    (openPath .implied (fun _ => addPair path value) current .header fields).map
      fun fields => (current, fields)

def ofStatements? (statements : List Statement) : Option (List (String × Toml)) :=
  (statements.foldlM step ([], [])).map fun (_, fields) => toTomlFields fields

end Toml
end DocSite
