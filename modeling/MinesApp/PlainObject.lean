import MinesApp.OrderedMap

/-!
# Properties written on a plain object

An object literal `{}` used as a dictionary is a map of its own properties with one exception:
a write to the name `__proto__` reaches the setter that the object inherits, and adds no
property.  Every other name behaves as a key of a map.  The lemmas say which properties a run
of writes leaves.
-/

namespace MinesApp.PlainObject

open List OrderedMap

variable {Value : Type}

/-- `object[name] = value` on an object that inherits from `Object.prototype`. -/
def assign (object : OrderedMap String Value) (name : String) (value : Value) :
    OrderedMap String Value :=
  if name = "__proto__" then object else object.set name value

/-- The writes of a loop, one after the other, on an empty object. -/
def assignAll (writes : List (String × Value)) : OrderedMap String Value :=
  writes.foldl (fun object write => assign object write.1 write.2) empty

variable {writes : List (String × Value)} {object : OrderedMap String Value} {name : String}
  {value : Value}

theorem get?_assign (object : OrderedMap String Value) (name other : String) (value : Value) :
    (assign object name value).get? other =
      if other = name ∧ name ≠ "__proto__" then some value else object.get? other := by
  unfold assign
  by_cases hproto : name = "__proto__"
  · simp [hproto]
  · simp [hproto, get?_set]

theorem get?_foldl_assign (hname : name ≠ "__proto__")
    (hsame : ∀ write ∈ writes, write.1 = name → write.2 = value)
    (hfound : name ∈ writes.map Prod.fst ∨ object.get? name = some value) :
    (writes.foldl (fun object write => assign object write.1 write.2) object).get? name =
      some value := by
  induction writes generalizing object with
  | nil => simpa using hfound
  | cons write rest ih =>
    have hrest : ∀ other ∈ rest, other.1 = name → other.2 = value :=
      fun other hother => hsame other (mem_cons_of_mem _ hother)
    apply ih hrest
    by_cases hhead : write.1 = name
    · right
      rw [get?_assign, if_pos ⟨hhead.symm, hhead ▸ hname⟩]
      rw [hsame write mem_cons_self hhead]
    · rw [get?_assign, if_neg (fun h => hhead h.1.symm)]
      rcases hfound with hmem | hheld
      · left
        rcases mem_cons.mp hmem with heq | hmem
        · exact absurd heq.symm hhead
        · exact hmem
      · exact .inr hheld

/-- A name to which one value only was written reads as that value. -/
theorem get?_assignAll (hname : name ≠ "__proto__") (hfound : name ∈ writes.map Prod.fst)
    (hsame : ∀ write ∈ writes, write.1 = name → write.2 = value) :
    (assignAll writes).get? name = some value :=
  get?_foldl_assign hname hsame (.inl hfound)

theorem mem_keys_assign {other : String} :
    other ∈ (assign object name value).keys ↔
      other ∈ object.keys ∨ (other = name ∧ name ≠ "__proto__") := by
  rw [OrderedMap.mem_keys, OrderedMap.mem_keys, get?_assign]
  by_cases h : other = name ∧ name ≠ "__proto__"
  · simp [h]
  · rw [if_neg h, or_iff_left h]

theorem mem_keys_assignAll :
    name ∈ (assignAll writes).keys ↔ name ∈ writes.map Prod.fst ∧ name ≠ "__proto__" := by
  have hfold : ∀ object : OrderedMap String Value,
      name ∈ (writes.foldl (fun object write => assign object write.1 write.2) object).keys ↔
        name ∈ object.keys ∨ (name ∈ writes.map Prod.fst ∧ name ≠ "__proto__") := by
    induction writes with
    | nil => simp
    | cons write rest ih =>
      intro object
      rw [foldl_cons, ih, mem_keys_assign, map_cons, mem_cons]
      constructor
      · rintro ((hheld | ⟨rfl, hproto⟩) | ⟨hmem, hproto⟩)
        · exact .inl hheld
        · exact .inr ⟨.inl rfl, hproto⟩
        · exact .inr ⟨.inr hmem, hproto⟩
      · rintro (hheld | ⟨rfl | hmem, hproto⟩)
        · exact .inl (.inl hheld)
        · exact .inl (.inr ⟨rfl, hproto⟩)
        · exact .inr ⟨hmem, hproto⟩
  rw [assignAll, hfold]
  simp [OrderedMap.keys, empty]

end MinesApp.PlainObject
