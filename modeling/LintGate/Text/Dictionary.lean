/-!
Dictionaries: entries in ascending order of their keys, at most one for each key.
-/

namespace LintGate

abbrev Dictionary (α : Type) := List (String × α)

namespace Dictionary

/-- The dictionary with `value` at `key`, in the place of the value that was there. -/
def insert (key : String) (value : α) : Dictionary α → Dictionary α
  | [] => [(key, value)]
  | (k, v) :: rest =>
    match compare key k with
    | .lt => (key, value) :: (k, v) :: rest
    | .eq => (key, value) :: rest
    | .gt => (k, v) :: insert key value rest

/-- The dictionary of the entries, the last of equal keys winning. -/
def ofEntries (entries : List (String × α)) : Dictionary α :=
  entries.foldl (fun d e => insert e.1 e.2 d) []

/-- The value at a key. -/
def get? (key : String) (d : Dictionary α) : Option α :=
  (d.find? (·.1 == key)).map (·.2)

end Dictionary

end LintGate
