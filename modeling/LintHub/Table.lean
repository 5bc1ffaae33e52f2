/-!
# Tables

* `Table` holds values by names, one for each name, in the order of the names.
* `Table.insert` and `Table.erase` change one name; `Table.get?` is the view.
-/

namespace LintHub

/-- Values by names. -/
abbrev Table (α : Type) := List (String × α)

namespace Table

variable {α : Type}

def get? (t : Table α) (name : String) : Option α := t.lookup name

def insert (t : Table α) (name : String) (a : α) : Table α :=
  match t with
  | [] => [(name, a)]
  | head :: rest =>
    match compare name head.1 with
    | .lt => (name, a) :: head :: rest
    | .eq => (name, a) :: rest
    | .gt => head :: Table.insert rest name a

def erase (t : Table α) (name : String) : Table α := t.filter fun entry => entry.1 != name

/-- The table of pairs; the last of a name counts. -/
def ofList (pairs : List (String × α)) : Table α := pairs.foldl (fun t (name, a) => t.insert name a) []

end Table

end LintHub
