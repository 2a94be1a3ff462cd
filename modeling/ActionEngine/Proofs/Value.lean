import ActionEngine.Value

/-!
# Telling values apart

Whether two values are the same can be computed, by going through both at once.
-/

namespace ActionEngine.Value

mutual

def same : Value → Value → Bool
  | null, null => true
  | bool a, bool b => a == b
  | int m, int n => m == n
  | float x, float y => x = y
  | text s, text s' => s == s'
  | bytes bs, bytes bs' => bs == bs'
  | list items, list items' => sameItems items items'
  | tuple items, tuple items' => sameItems items items'
  | record fields, record fields' => sameFields fields fields'
  | range location length, range location' length' => location == location' && length == length'
  | foreign, foreign => true
  | _, _ => false

def sameItems : List Value → List Value → Bool
  | [], [] => true
  | v :: vs, v' :: vs' => same v v' && sameItems vs vs'
  | _, _ => false

def sameFields : List (LooseText × Value) → List (LooseText × Value) → Bool
  | [], [] => true
  | (key, v) :: fields, (key', v') :: fields' =>
    key == key' && same v v' && sameFields fields fields'
  | _, _ => false

end

mutual

theorem same_iff (v v' : Value) : same v v' = true ↔ v = v' := by
  cases v with
  | list items => cases v' <;> simp [same, sameItems_iff items]
  | tuple items => cases v' <;> simp [same, sameItems_iff items]
  | record fields => cases v' <;> simp [same, sameFields_iff fields]
  | _ => cases v' <;> simp [same]

theorem sameItems_iff (vs vs' : List Value) : sameItems vs vs' = true ↔ vs = vs' := by
  cases vs with
  | nil => cases vs' <;> simp [sameItems]
  | cons v vs =>
      cases vs' with
      | nil => simp [sameItems]
      | cons v' vs' => simp [sameItems, same_iff v, sameItems_iff vs]

theorem sameFields_iff (fields fields' : List (LooseText × Value)) :
    sameFields fields fields' = true ↔ fields = fields' := by
  match fields with
  | [] => cases fields' <;> simp [sameFields]
  | (key, v) :: fields =>
      cases fields' with
      | nil => simp [sameFields]
      | cons f' fields' =>
          obtain ⟨key', v'⟩ := f'
          simp [sameFields, same_iff v, sameFields_iff fields]

end

instance : DecidableEq Value :=
  fun v v' => decidable_of_iff _ (same_iff v v')

end ActionEngine.Value
