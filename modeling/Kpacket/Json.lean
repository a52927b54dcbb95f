import Kpacket.Bytes
import Kpacket.KeyMap
import Mathlib.Data.Rat.Defs

/-!
# JSON values

Objects are sorted association lists, as `std::map` keeps them. `obj` builds an object from a list
of entries, `set` and `erase` change one key. `Plain` values (sorted objects, no floats) are closed
under the three; equations between plain objects are proved key by key (`Plain.ext`).
-/

inductive Json
  | null
  | boolean (b : Bool)
  | integer (n : Int)
  | float (q : Rat)
  | string (s : Bytes)
  | array (xs : List Json)
  | object (fields : List (Bytes × Json))

namespace Json

/-- An object from a list of entries. -/
def obj (fields : List (Bytes × Json)) : Json := .object (KeyMap.ofList fields)

def lookup (j : Json) (k : Bytes) : Option Json :=
  match j with
  | .object m => KeyMap.lookup k m
  | _ => none

/-- Add or overwrite a key; values other than objects stay as they are. -/
def set (j : Json) (k : Bytes) (x : Json) : Json :=
  match j with
  | .object m => .object (KeyMap.insert k x m)
  | j => j

def erase (j : Json) (k : Bytes) : Json :=
  match j with
  | .object m => .object (KeyMap.erase k m)
  | j => j

def isObject : Json → Bool
  | .object _ => true
  | _ => false

mutual
/-- Objects are sorted by key, without duplicates, at every depth, and no number is a float. -/
def Plain : Json → Prop
  | .float _ => False
  | .array xs => PlainAll xs
  | .object m => KeyMap.Sorted m ∧ PlainFields m
  | _ => True
def PlainAll : List Json → Prop
  | [] => True
  | x :: xs => Plain x ∧ PlainAll xs
def PlainFields : List (Bytes × Json) → Prop
  | [] => True
  | (_, x) :: m => Plain x ∧ PlainFields m
end

mutual
/-- Every string and key in the value is UTF-8. -/
def Utf8 : Json → Prop
  | .string s => IsUtf8 s
  | .array xs => Utf8All xs
  | .object m => Utf8Fields m
  | _ => True
def Utf8All : List Json → Prop
  | [] => True
  | x :: xs => Utf8 x ∧ Utf8All xs
def Utf8Fields : List (Bytes × Json) → Prop
  | [] => True
  | (k, x) :: m => IsUtf8 k ∧ Utf8 x ∧ Utf8Fields m
end

theorem plainFields_iff {m : List (Bytes × Json)} : PlainFields m ↔ ∀ e ∈ m, e.2.Plain := by
  induction m with
  | nil => simp [PlainFields]
  | cons e m ih => simp [PlainFields, ih]

theorem utf8Fields_iff {m : List (Bytes × Json)} :
    Utf8Fields m ↔ ∀ e ∈ m, IsUtf8 e.1 ∧ e.2.Utf8 := by
  induction m with
  | nil => simp [Utf8Fields]
  | cons e m ih => simp [Utf8Fields, ih, and_assoc]

/-! ### Keys -/

theorem lookup_set {j : Json} (h : j.isObject = true) (k k' : Bytes) (x : Json) :
    (j.set k x).lookup k' = if k' = k then some x else j.lookup k' := by
  cases j <;> simp_all [isObject, set, lookup, KeyMap.lookup_insert]

theorem lookup_erase (j : Json) (k k' : Bytes) :
    (j.erase k).lookup k' = if k' = k then none else j.lookup k' := by
  cases j <;> simp [erase, lookup, KeyMap.lookup_erase]

theorem lookup_obj (fields : List (Bytes × Json)) (k : Bytes) :
    (obj fields).lookup k = KeyMap.lookup k fields := KeyMap.lookup_ofList k fields

@[simp] theorem isObject_set (j : Json) (k : Bytes) (x : Json) :
    (j.set k x).isObject = j.isObject := by
  cases j <;> rfl

@[simp] theorem isObject_erase (j : Json) (k : Bytes) : (j.erase k).isObject = j.isObject := by
  cases j <;> rfl

@[simp] theorem isObject_obj (fields : List (Bytes × Json)) : (obj fields).isObject = true := rfl

theorem plain_string (s : Bytes) : (string s).Plain := trivial

theorem plain_integer (n : Int) : (integer n).Plain := trivial

namespace Plain

theorem obj {fields : List (Bytes × Json)} (h : ∀ e ∈ fields, e.2.Plain) :
    (Json.obj fields).Plain := by
  refine ⟨KeyMap.sorted_ofList fields, plainFields_iff.mpr ?_⟩
  induction fields with
  | nil => simp [KeyMap.ofList]
  | cons e fields ih =>
    intro e' he'
    rcases KeyMap.mem_insert he' with rfl | he'
    · exact h e (by simp)
    · exact ih (fun e he => h e (by simp [he])) e' he'

theorem obj_of_fields {fields : List (Bytes × Json)} (h : PlainFields fields) :
    (Json.obj fields).Plain := obj (plainFields_iff.mp h)

theorem set {j : Json} (h : j.Plain) (k : Bytes) {x : Json} (hx : x.Plain) : (j.set k x).Plain := by
  cases j with
  | object m =>
    refine ⟨h.1.insert k x, plainFields_iff.mpr fun e he => ?_⟩
    rcases KeyMap.mem_insert he with rfl | he
    · exact hx
    · exact plainFields_iff.mp h.2 e he
  | _ => exact h

theorem erase {j : Json} (h : j.Plain) (k : Bytes) : (j.erase k).Plain := by
  cases j with
  | object m =>
    exact ⟨h.1.erase k, plainFields_iff.mpr fun e he =>
      plainFields_iff.mp h.2 e (List.mem_of_mem_filter he)⟩
  | _ => exact h

theorem ext {j j' : Json} (h : j.Plain) (h' : j'.Plain) (ho : j.isObject = true)
    (ho' : j'.isObject = true) (hl : ∀ k, j.lookup k = j'.lookup k) : j = j' := by
  cases j <;> simp only [isObject, Bool.false_eq_true] at ho
  cases j' <;> simp only [isObject, Bool.false_eq_true] at ho'
  rw [h.1.ext h'.1 hl]

end Plain

/-! ### Text -/

namespace Utf8

theorem obj {fields : List (Bytes × Json)} (h : ∀ e ∈ fields, IsUtf8 e.1 ∧ e.2.Utf8) :
    (Json.obj fields).Utf8 := by
  refine utf8Fields_iff.mpr ?_
  induction fields with
  | nil => simp [KeyMap.ofList]
  | cons e fields ih =>
    intro e' he'
    rcases KeyMap.mem_insert he' with rfl | he'
    · exact h e (by simp)
    · exact ih (fun e he => h e (by simp [he])) e' he'

theorem set {j : Json} (h : j.Utf8) {k : Bytes} (hk : IsUtf8 k) {x : Json} (hx : x.Utf8) :
    (j.set k x).Utf8 := by
  cases j with
  | object m =>
    refine utf8Fields_iff.mpr fun e he => ?_
    rcases KeyMap.mem_insert he with rfl | he
    · exact ⟨hk, hx⟩
    · exact utf8Fields_iff.mp h e he
  | _ => exact h

theorem erase {j : Json} (h : j.Utf8) (k : Bytes) : (j.erase k).Utf8 := by
  cases j with
  | object m =>
    exact utf8Fields_iff.mpr fun e he => utf8Fields_iff.mp h e (List.mem_of_mem_filter he)
  | _ => exact h

theorem lookup {j x : Json} (h : j.Utf8) {k : Bytes} (hx : j.lookup k = some x) : x.Utf8 := by
  cases j with
  | object m => exact (utf8Fields_iff.mp h _ (KeyMap.mem_of_lookup hx)).2
  | _ => cases hx

end Utf8

end Json
