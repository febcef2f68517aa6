/-!
Lists of entries in ascending order of their keys, each key at most once.
-/

namespace EventRelay.Ascending

variable {κ ν : Type}

/-- Changes the entry of a key, or adds one in its place; `change` is told what stood there. -/
def alter [Ord κ] (key : κ) (change : Option ν → ν) : List (κ × ν) → List (κ × ν)
  | [] => [(key, change none)]
  | (k, v) :: rest =>
    match compare key k with
    | .lt => (key, change none) :: (k, v) :: rest
    | .eq => (k, change (some v)) :: rest
    | .gt => (k, v) :: alter key change rest

/-- Sets the entry of a key. -/
def insert [Ord κ] (key : κ) (v : ν) (entries : List (κ × ν)) : List (κ × ν) :=
  alter key (fun _ => v) entries

/-- The entry of a key. -/
def find? [Ord κ] (key : κ) : List (κ × ν) → Option ν
  | [] => none
  | (k, v) :: rest => if compare key k = .eq then some v else find? key rest

end EventRelay.Ascending
