import DocSite.Text.NameOrder

namespace DocSite

abbrev Dict (α : Type) := List (String × α)

namespace Dict

/-- Adds an entry at its place; an entry with the same key is replaced. -/
def insert {α : Type} (k : String) (v : α) : Dict α → Dict α
  | [] => [(k, v)]
  | (j, w) :: rest =>
    match Text.compareText k j with
    | .lt => (k, v) :: (j, w) :: rest
    | .eq => (k, v) :: rest
    | .gt => (j, w) :: insert k v rest

def find? {α : Type} (k : String) (d : Dict α) : Option α := d.lookup k

/-- The dictionary of entries in any order; of two entries with one key the later counts. -/
def ofList {α : Type} (entries : List (String × α)) : Dict α :=
  entries.foldl (fun d e => insert e.1 e.2 d) []

def keys {α : Type} (d : Dict α) : List String := d.map (·.1)

end Dict
end DocSite
