/-!
`put` overwrites and `putNew` keeps what is there; neither moves a key, so the order of the keys is
the order of their first mention.
-/

namespace RequestFilter

abbrev KeyedList (α β : Type) := List (α × β)

namespace KeyedList

variable {α β : Type} [DecidableEq α]

def get? (k : α) : KeyedList α β → Option β
  | [] => none
  | (k', v) :: rest => if k = k' then some v else get? k rest

/-- Writes `v` under `k`, in the place of an earlier value or else at the end. -/
def put (k : α) (v : β) : KeyedList α β → KeyedList α β
  | [] => [(k, v)]
  | (k', v') :: rest => if k = k' then (k', v) :: rest else (k', v') :: put k v rest

def putNew (k : α) (v : β) : KeyedList α β → KeyedList α β
  | [] => [(k, v)]
  | (k', v') :: rest => if k = k' then (k', v') :: rest else (k', v') :: putNew k v rest

def add (k : α) (v : β) : KeyedList α (List β) → KeyedList α (List β)
  | [] => [(k, [v])]
  | (k', vs) :: rest => if k = k' then (k', vs ++ [v]) :: rest else (k', vs) :: add k v rest

def ofPairs (pairs : List (α × β)) : KeyedList α β :=
  pairs.foldl (fun map pair => put pair.1 pair.2 map) []

def firsts (pairs : List (α × β)) : KeyedList α β :=
  pairs.foldl (fun map pair => putNew pair.1 pair.2 map) []

def group (pairs : List (α × β)) : KeyedList α (List β) :=
  pairs.foldl (fun map pair => add pair.1 pair.2 map) []

end KeyedList

end RequestFilter
