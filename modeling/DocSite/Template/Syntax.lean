import DocSite.Template.Datum

namespace DocSite

namespace Template

inductive Operator where
  | eq | ne | lt | le | gt | ge
  /-- Whether the left value occurs in the right one. -/
  | within
  | add | sub | mul | div | quotient | remainder | power
  /-- The texts of both values. -/
  | concat
  deriving DecidableEq, Repr

/-- An expression. Arguments of calls may carry a name. -/
inductive Expr where
  | const (d : Datum)
  | name (x : String)
  | list (items : List Expr)
  | dict (entries : List (Expr × Expr))
  | negate (e : Expr)
  | not (e : Expr)
  | both (a b : Expr)
  | either (a b : Expr)
  | binary (op : Operator) (a b : Expr)
  | choice (cond yes : Expr) (no : Option Expr)
  | field (e : Expr) (name : String)
  | item (e key : Expr)
  | slice (e : Expr) (start stop step : Option Expr)
  | filter (e : Expr) (name : String) (args : List (Option String × Expr))
  | test (e : Expr) (name : String) (args : List (Option String × Expr))
  | call (f : Expr) (args : List (Option String × Expr))
  deriving Inhabited

abbrev Argument := Option String × Expr

abbrev FilterCall := String × List Argument

inductive Target where
  | name (x : String)
  | list (items : List Target)
  /-- A part of a value; no value has parts that can be assigned to. -/
  | part
  deriving Inhabited

abbrev Params := List (String × Option Expr)

inductive Stmt where
  | text (s : String)
  | print (e : Expr)
  | doNothing (e : Expr)
  /-- Repeats `body` for the items that satisfy `cond`; without any, `rest` is run. -/
  | each (target : Target) (source : Expr) (cond : Option Expr) (again : Bool)
      (body rest : List Stmt)
  | choose (cond : Expr) (yes no : List Stmt)
  | bind (bindings : List (Target × Expr)) (body : List Stmt)
  | assign (target : Target) (e : Expr)
  /-- Assigns the text that `body` writes. -/
  | capture (target : Target) (filters : List FilterCall) (body : List Stmt)
  /-- Changes how values are escaped. -/
  | escaping (mode : Expr) (body : List Stmt)
  | filtered (filters : List FilterCall) (body : List Stmt)
  | block (name : String) (body : List Stmt)
  /-- Makes another template the frame of this one. -/
  | extend (template : Expr)
  /-- Runs another template in this place. -/
  | insert (template : Expr) (optional : Bool)
  | useAs (template : Expr) (target : Target)
  | useNames (template : Expr) (names : List (String × String))
  /-- Declares a macro; `callsBack` tells whether its body names what it is wrapped around. -/
  | define (name : String) (params : Params) (body : List Stmt) (callsBack : Bool)
  /-- Calls a macro that may call back `body`. -/
  | wrap (f : Expr) (args : List Argument) (params : Params) (body : List Stmt)
      (callsBack : Bool)
  deriving Inhabited

mutual

def Stmt.blocks : Stmt → List (String × List Stmt)
  | .block name body => (name, body) :: blocksOf body
  | .each _ _ _ _ body rest | .choose _ body rest => blocksOf body ++ blocksOf rest
  | .bind _ body | .capture _ _ body | .escaping _ body | .filtered _ body => blocksOf body
  | .text _ | .print _ | .doNothing _ | .assign .. | .extend _ | .insert .. | .useAs .. |
    .useNames .. | .define .. | .wrap .. => []

def blocksOf : List Stmt → List (String × List Stmt)
  | [] => []
  | s :: stmts => s.blocks ++ blocksOf stmts

end

end Template

structure Template where
  body : List Template.Stmt
  deriving Inhabited

def Template.blocks (t : Template) : List (String × List Template.Stmt) :=
  Template.blocksOf t.body

end DocSite
