import Mathlib.Data.Rat.Floor
import Mathlib.Data.List.Basic
import Mathlib.Tactic.Common

/-! Values of a scripting language as its JSON parser builds them: numbers with infinities, arrays
and objects by their own properties in property order. An absent property reads as undefined, `none`
here; a zero has no sign. -/
namespace Library

inductive ScriptNumber
  | nan
  | infinity (negative : Bool)
  | finite (q : ℚ)
  deriving DecidableEq

namespace ScriptNumber

/-- `m ≤ n`; false when one is not a number. -/
def le : ScriptNumber → ScriptNumber → Bool
  | nan,_ => false
  | _,nan => false
  | infinity true,_ => true
  | _,infinity false => true
  | finite q,finite r => decide (q ≤ r)
  | _,_ => false

/-- `m < n`; false when one is not a number. -/
def lt : ScriptNumber → ScriptNumber → Bool
  | nan,_ => false
  | _,nan => false
  | infinity true,infinity true => false
  | infinity true,_ => true
  | infinity false,_ => false
  | finite _,infinity negative => !negative
  | finite q,finite r => decide (q < r)

@[simp] theorem le_finite (q r : ℚ) : le (finite q) (finite r) = decide (q ≤ r) := rfl
@[simp] theorem lt_finite (q r : ℚ) : lt (finite q) (finite r) = decide (q < r) := rfl

end ScriptNumber

inductive ScriptValue
  | null
  | bool (b : Bool)
  | number (n : ScriptNumber)
  | string (s : String)
  /-- The properties are those set by name. -/
  | array (items : List ScriptValue) (props : List (String × ScriptValue))
  | object (props : List (String × ScriptValue))

abbrev ScriptObject := List (String × ScriptValue)

section Properties

variable {o : ScriptObject} {k j : String} {v : ScriptValue}

def getProp (o : ScriptObject) (k : String) : Option ScriptValue :=
  (o.find? fun e => e.1 == k).map Prod.snd

/-- In place when the property exists, else after the others. -/
def setProp : ScriptObject → String → ScriptValue → ScriptObject
  | [],k,v => [(k,v)]
  | e :: o,k,v => if e.1 = k then (k,v) :: o else e :: setProp o k v

def deleteProp (o : ScriptObject) (k : String) : ScriptObject := o.filter fun e => e.1 != k

def assignProp (o : ScriptObject) (k : String) : Option ScriptValue → ScriptObject
  | none => o
  | some v => setProp o k v

@[simp] theorem getProp_nil (k : String) : getProp [] k = none := rfl

theorem getProp_cons (e : String × ScriptValue) (o : ScriptObject) (k : String) :
    getProp (e :: o) k = if e.1 = k then some e.2 else getProp o k := by
  rw [getProp,getProp,List.find?_cons]
  by_cases h : e.1 = k
  · simp [h]
  · have hne : (e.1 == k) = false := by simpa using h
    rw [hne,if_neg h]

@[simp] theorem getProp_setProp (o : ScriptObject) (k : String) (v : ScriptValue) (j : String) :
    getProp (setProp o k v) j = if j = k then some v else getProp o j := by
  induction o with
  | nil =>
    rw [setProp,getProp_cons]
    by_cases h : j = k
    · simp [h]
    · simp [h,Ne.symm h]
  | cons e o ih =>
    rw [setProp]
    split
    · rename_i he
      subst he
      rw [getProp_cons,getProp_cons]
      by_cases h : j = e.1
      · simp [h]
      · simp [h,Ne.symm h]
    · rename_i he
      rw [getProp_cons,getProp_cons,ih]
      by_cases hj : e.1 = j
      · subst hj
        simp [he]
      · simp [hj]

@[simp] theorem getProp_deleteProp (o : ScriptObject) (k j : String) :
    getProp (deleteProp o k) j = if j = k then none else getProp o j := by
  induction o with
  | nil => simp [deleteProp]
  | cons e o ih =>
    rw [deleteProp] at ih ⊢
    by_cases he : e.1 = k
    · have hout : (e :: o).filter (fun e => e.1 != k) = o.filter fun e => e.1 != k := by simp [he]
      rw [hout,ih,getProp_cons]
      by_cases hj : j = k
      · simp [hj]
      · have hne : ¬e.1 = j := fun h => hj (h.symm.trans he)
        simp [hj,hne]
    · have hin : (e :: o).filter (fun e => e.1 != k) = e :: o.filter fun e => e.1 != k := by
        simp [he]
      rw [hin,getProp_cons,getProp_cons,ih]
      by_cases hj : e.1 = j
      · subst hj
        simp [he]
      · simp [hj]

@[simp] theorem getProp_assignProp (o : ScriptObject) (k : String) (a : Option ScriptValue)
    (j : String) :
    getProp (assignProp o k a) j = if j = k then a.or (getProp o k) else getProp o j := by
  cases a with
  | none =>
    by_cases h : j = k
    · simp [assignProp,h]
    · simp [assignProp,h]
  | some v =>
    by_cases h : j = k
    · simp [assignProp,h]
    · simp [assignProp,h]

theorem setProp_of_getProp (h : getProp o k = some v) : setProp o k v = o := by
  induction o with
  | nil => cases h
  | cons e o ih =>
    rw [getProp_cons] at h
    rw [setProp]
    split
    · rename_i he
      rw [if_pos he] at h
      obtain rfl := Option.some.inj h
      rw [← he]
    · rename_i he
      rw [if_neg he] at h
      rw [ih h]

theorem deleteProp_of_getProp (h : getProp o k = none) : deleteProp o k = o := by
  refine List.filter_eq_self.mpr fun e he => ?_
  rw [getProp,Option.map_eq_none_iff,List.find?_eq_none] at h
  simpa using h e he

theorem assignProp_of_getProp {a : Option ScriptValue} (h : ∀ v, a = some v → getProp o k = some v) :
    assignProp o k a = o := by
  cases a with
  | none => rfl
  | some v => exact setProp_of_getProp (h v rfl)

end Properties

namespace ScriptValue

/-- The properties set by name of a value for which `typeof` is `object` and which is not null. -/
def props? : ScriptValue → Option ScriptObject
  | array _ props => some props
  | object props => some props
  | _ => none

def withProps : ScriptValue → ScriptObject → ScriptValue
  | array items _,props => array items props
  | object _,props => object props
  | v,_ => v

/-- `Object.entries`: the items of an array by their indices, then what was set by name. -/
def entries : ScriptValue → List (String × ScriptValue)
  | array items props => (items.zipIdx.map fun e => (Nat.repr e.2,e.1)) ++ props
  | object props => props
  | _ => []

def truthy : Option ScriptValue → Bool
  | none => false
  | some null => false
  | some (bool b) => b
  | some (number n) => n ≠ .nan ∧ n ≠ .finite 0
  | some (string s) => s ≠ ""
  | some _ => true

def string? : Option ScriptValue → Option String
  | some (string s) => some s
  | _ => none

def number? : Option ScriptValue → Option ScriptNumber
  | some (number n) => some n
  | _ => none

def finite? : Option ScriptValue → Option ℚ
  | some (number (.finite q)) => some q
  | _ => none

def integer? (v : Option ScriptValue) : Option ℤ :=
  (finite? v).bind fun q => if q.den = 1 then some q.num else none

def rat (q : ℚ) : ScriptValue := number (.finite q)

@[simp] theorem finite?_rat (q : ℚ) : finite? (some (rat q)) = some q := rfl
@[simp] theorem number?_rat (q : ℚ) : number? (some (rat q)) = some (.finite q) := rfl

@[simp] theorem integer?_rat (z : ℤ) : integer? (some (rat z)) = some z := by
  simp [integer?]

theorem eq_rat_of_finite? {v : Option ScriptValue} {q : ℚ} (h : finite? v = some q) :
    v = some (rat q) := by
  rcases v with _ | v
  · cases h
  cases v with
  | number n => cases n <;> cases h; rfl
  | _ => cases h

theorem eq_rat_of_integer? {v : Option ScriptValue} {z : ℤ} (h : integer? v = some z) :
    v = some (rat z) := by
  obtain ⟨q,hq,hz⟩ := Option.bind_eq_some_iff.mp h
  split at hz
  · rename_i hden
    obtain rfl := Option.some.inj hz
    rw [eq_rat_of_finite? hq,Rat.coe_int_num_of_den_eq_one hden]
  · cases hz

theorem eq_string_of_string? {v : Option ScriptValue} {s : String} (h : string? v = some s) :
    v = some (string s) := by
  rcases v with _ | v
  · cases h
  cases v <;> cases h
  rfl

@[simp] theorem props?_object (props : ScriptObject) : (object props).props? = some props := rfl
@[simp] theorem entries_object (props : ScriptObject) : (object props).entries = props := rfl

theorem props?_withProps {v : ScriptValue} {props props' : ScriptObject}
    (h : v.props? = some props) : (v.withProps props').props? = some props' := by
  cases v <;> cases h <;> rfl

theorem withProps_self {v : ScriptValue} {props : ScriptObject} (h : v.props? = some props) :
    v.withProps props = v := by
  cases v <;> cases h <;> rfl

end ScriptValue

section Conversion

structure NumberText where
  parse : String → ScriptNumber
  print : ScriptNumber → String

mutual

/-- The text of a value. An object that has a property `toString` of its own has none: what JSON
can put there is no function, and the conversion throws. -/
def ScriptValue.text (conv : NumberText) : ScriptValue → Option String
  | .null => some "null"
  | .bool b => some (if b then "true" else "false")
  | .number n => some (conv.print n)
  | .string s => some s
  | .array items _ => (joinTexts conv items).map fun texts => ",".intercalate texts
  | .object props => if (getProp props "toString").isSome then none else some "[object Object]"

/-- The texts of the items of an array; null is left blank. -/
def joinTexts (conv : NumberText) : List ScriptValue → Option (List String)
  | [] => some []
  | .null :: items => (joinTexts conv items).map ("" :: ·)
  | item :: items =>
    (item.text conv).bind fun s => (joinTexts conv items).map (s :: ·)

end

/-- The number a value is compared as; `none` when the conversion throws. -/
def toNumber? (conv : NumberText) : Option ScriptValue → Option ScriptNumber
  | none => some .nan
  | some .null => some (.finite 0)
  | some (.bool b) => some (.finite (if b then 1 else 0))
  | some (.number n) => some n
  | some v => (v.text conv).map conv.parse

@[simp] theorem toNumber?_rat (conv : NumberText) (q : ℚ) :
    toNumber? conv (some (.rat q)) = some (.finite q) := rfl

end Conversion

end Library
