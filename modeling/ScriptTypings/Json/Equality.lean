import ScriptTypings.Json.Basic

/-!
# Equality of JSON values

Equality is decided member by member; objects are equal if their members are in the same order.
-/

namespace ScriptTypings.Json

mutual

def decideEq : (a b : Json) → Decidable (a = b)
  | null, b =>
    match b with
    | null => isTrue rfl
    | bool _ | whole _ | real _ | text _ | list _ | object _ => isFalse nofun
  | bool x, b =>
    match b with
    | bool y => decidable_of_iff (x = y) (by simp)
    | null | whole _ | real _ | text _ | list _ | object _ => isFalse nofun
  | whole x, b =>
    match b with
    | whole y => decidable_of_iff (x = y) (by simp)
    | null | bool _ | real _ | text _ | list _ | object _ => isFalse nofun
  | real x, b =>
    match b with
    | real y => decidable_of_iff (x = y) (by simp)
    | null | bool _ | whole _ | text _ | list _ | object _ => isFalse nofun
  | text x, b =>
    match b with
    | text y => decidable_of_iff (x = y) (by simp)
    | null | bool _ | whole _ | real _ | list _ | object _ => isFalse nofun
  | list x, b =>
    match b with
    | list y => @decidable_of_iff _ (x = y) (by simp) (decideEqItems x y)
    | null | bool _ | whole _ | real _ | text _ | object _ => isFalse nofun
  | object x, b =>
    match b with
    | object y => @decidable_of_iff _ (x = y) (by simp) (decideEqMembers x y)
    | null | bool _ | whole _ | real _ | text _ | list _ => isFalse nofun

def decideEqItems : (a b : List Json) → Decidable (a = b)
  | [], [] => isTrue rfl
  | [], _ :: _ => isFalse nofun
  | _ :: _, [] => isFalse nofun
  | x :: xs, y :: ys =>
    match decideEq x y, decideEqItems xs ys with
    | isTrue h, isTrue h' => isTrue (by rw [h, h'])
    | isFalse h, _ => isFalse fun e => h (List.cons.inj e).1
    | _, isFalse h => isFalse fun e => h (List.cons.inj e).2

def decideEqMembers : (a b : List (String × Json)) → Decidable (a = b)
  | [], [] => isTrue rfl
  | [], _ :: _ => isFalse nofun
  | _ :: _, [] => isFalse nofun
  | (n, x) :: xs, (m, y) :: ys =>
    match decideEq x y, decideEqMembers xs ys with
    | isTrue h, isTrue h' =>
      if hn : n = m then isTrue (by rw [h, h', hn]) else isFalse fun e => hn (by simp_all)
    | isFalse h, _ => isFalse fun e => h (by simp_all)
    | _, isFalse h => isFalse fun e => h (by simp_all)

end

instance : DecidableEq Json := decideEq

end ScriptTypings.Json
