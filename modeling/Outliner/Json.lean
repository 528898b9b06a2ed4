import Outliner.Number.Binary

/-!
# JSON values

Objects are lists of members in the order in which their keys first arrived. `Members.put` keeps the
position of a key that is present and adds a new key at the end, so it keeps the keys distinct.
-/

namespace Outliner

inductive Json where
  | null
  | bool (b : Bool)
  | int (n : Int)
  | float (x : Binary64)
  | str (s : String)
  | arr (elements : List Json)
  | obj (members : List (String × Json))

abbrev Members := List (String × Json)

namespace Members

def put (key : String) (value : Json) : Members → Members
  | [] => [(key, value)]
  | m :: ms => if m.1 = key then (key, value) :: ms else m :: put key value ms

def get? : Members → String → Option Json
  | [], _ => none
  | m :: ms, key => if m.1 = key then some m.2 else get? ms key

def keys (ms : Members) : List String :=
  ms.map Prod.fst

/-- The members of an object in which `ms` were written: of equal keys the first gives the position
and the last the value. -/
def ofList (ms : List (String × Json)) : Members :=
  ms.foldl (fun done m => put m.1 m.2 done) []

variable {ms : Members} {key key' : String} {value : Json}

theorem get?_put_self : (put key value ms).get? key = some value := by
  induction ms with
  | nil => simp [put, get?]
  | cons m ms ih =>
    simp only [put]
    split
    · simp [get?]
    · next h => simpa [get?, h] using ih

theorem get?_put_of_ne (h : key ≠ key') : (put key value ms).get? key' = ms.get? key' := by
  induction ms with
  | nil => simp [put, get?, h]
  | cons m ms ih =>
    simp only [put]
    split
    · next hm => simp [get?, hm, h]
    · simp only [get?, ih]

/-- Writing to a key that is present moves nothing. -/
theorem keys_put_of_mem (h : key ∈ ms.keys) : (put key value ms).keys = ms.keys := by
  induction ms with
  | nil => simp [keys] at h
  | cons m ms ih =>
    simp only [put]
    split
    · next hm => simp [keys, hm]
    · next hm =>
      have := ih (by simpa [keys, Ne.symm hm] using h)
      simpa [keys] using this

/-- A new key goes to the end. -/
theorem keys_put_of_not_mem (h : key ∉ ms.keys) :
    (put key value ms).keys = ms.keys ++ [key] := by
  induction ms with
  | nil => rfl
  | cons m ms ih =>
    simp only [keys, List.map_cons, List.mem_cons, not_or] at h
    simp only [put, if_neg (Ne.symm h.1)]
    simpa [keys] using ih h.2

end Members

end Outliner
