/-!
# Ordered maps with names as keys

A name map is a list of named values. `put` keeps the position of a name that is present already,
so the order of a map is the order in which its names came first; `find?` reads a value by name.
Names are texts unless another type of names is given.
-/

namespace ScriptTypings

/-- Named values in order; maps built by `put` name each value once. -/
abbrev NameMap (α : Type) (ν : Type := String) := List (ν × α)

namespace NameMap

variable {ν α β : Type}

def names (m : NameMap α ν) : List ν :=
  m.map Prod.fst

def mapValues (f : α → β) (m : NameMap α ν) : NameMap β ν :=
  m.map fun entry => (entry.1, f entry.2)

variable [DecidableEq ν]

def find? (name : ν) : NameMap α ν → Option α
  | [] => none
  | (n, a) :: rest => if n = name then some a else find? name rest

def has (name : ν) (m : NameMap α ν) : Bool :=
  m.any fun entry => entry.1 = name

/-- Sets the value of a name: in place if the name is present, else at the end. -/
def put (name : ν) (value : α) : NameMap α ν → NameMap α ν
  | [] => [(name, value)]
  | (n, a) :: rest => if n = name then (n, value) :: rest else (n, a) :: put name value rest

/-- Removes a name and its values. -/
def erase (name : ν) (m : NameMap α ν) : NameMap α ν :=
  m.filter fun entry => entry.1 ≠ name

/-- The map got by setting the pairs in turn: first position, last value. -/
def ofPairs (pairs : List (ν × α)) : NameMap α ν :=
  pairs.foldl (fun m p => put p.1 p.2 m) []

/-- Sets the pairs of the second map in the first. -/
def update (m : NameMap α ν) (pairs : List (ν × α)) : NameMap α ν :=
  pairs.foldl (fun m p => put p.1 p.2 m) m

/-- The entries in ascending order of their names, by code point. -/
def sorted (m : NameMap α) : NameMap α :=
  m.mergeSort fun a b => decide (a.1 ≤ b.1)

@[simp] theorem find?_nil (name : ν) : find? name ([] : NameMap α ν) = none := rfl

theorem find?_put_self (name : ν) (value : α) (m : NameMap α ν) :
    find? name (put name value m) = some value := by
  induction m with
  | nil => simp [put, find?]
  | cons entry rest ih =>
    obtain ⟨n, a⟩ := entry
    by_cases h : n = name <;> simp [put, find?, h, ih]

theorem find?_put_of_ne {name other : ν} (h : other ≠ name) (value : α) (m : NameMap α ν) :
    find? other (put name value m) = find? other m := by
  induction m with
  | nil => simp [put, find?, h.symm]
  | cons entry rest ih =>
    obtain ⟨n, a⟩ := entry
    by_cases hn : n = name
    · subst hn
      simp [put, find?, h.symm]
    · simp [put, find?, hn, ih]

theorem names_put (name : ν) (value : α) (m : NameMap α ν) :
    (put name value m).names = if name ∈ m.names then m.names else m.names ++ [name] := by
  induction m with
  | nil => simp [put, names]
  | cons entry rest ih =>
    obtain ⟨n, a⟩ := entry
    by_cases hn : n = name
    · simp [put, names, hn]
    · have hn' : name ≠ n := fun e => hn e.symm
      simp only [names] at ih
      by_cases hm : name ∈ List.map Prod.fst rest <;>
        simp [put, names, hn, hn', ih, hm]

end NameMap

end ScriptTypings
