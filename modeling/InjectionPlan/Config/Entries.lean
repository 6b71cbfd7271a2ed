/-!
# Entries under keys

Lists of entries in which a key stands at most once when they are built with `put`.
-/

namespace InjectionPlan.Entries

variable {α : Type}

def get? (key : String) : List (String × α) → Option α
  | [] => none
  | (name, value) :: rest => if name = key then some value else get? key rest

/-- The entries with another value for a key. A new key comes last. -/
def put (key : String) (value : α) : List (String × α) → List (String × α)
  | [] => [(key, value)]
  | (name, old) :: rest =>
    if name = key then (key, value) :: rest else (name, old) :: put key value rest

end InjectionPlan.Entries
