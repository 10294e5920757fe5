import Cockpit.Number.Layout
import Cockpit.Text.Quoted

/-!
# Untyped values

Catalogs, settings files, telemetry packets and authored programs hold data
whose type nobody has checked.  A `Value` is one such datum.  An object keeps
its entries in the order in which their keys first came.

Two relations compare values.  Equality as data is decidable (`Value.decEq`).
The comparison that look-ups and commands use is `Value.same`.  It identifies
numbers of all kinds by value, with the truth values as `1` and `0`, and it
never holds of NaN.

The text of an integer is described up to `Number.digitLimit` digits.  That a
longer one has no text is not modelled.
-/

namespace Cockpit

/-- An untyped datum. -/
inductive Value where
  | null
  | bool (b : Bool)
  | int (n : Int)
  | float (x : Double)
  | text (s : String)
  | list (items : List Value)
  | object (entries : List (String × Value))
  deriving Inhabited, Repr

/-- The entries of an object. -/
abbrev Entries := List (String × Value)

namespace Value

/-! ## Equality as data -/

mutual

/-- Equality of values as data. -/
def decEq : (a b : Value) → Decidable (a = b)
  | .null, .null => isTrue rfl
  | .bool a, .bool b => decidable_of_iff (a = b) (by simp)
  | .int a, .int b => decidable_of_iff (a = b) (by simp)
  | .float a, .float b => decidable_of_iff (a = b) (by simp)
  | .text a, .text b => decidable_of_iff (a = b) (by simp)
  | .list a, .list b =>
    match decEqList a b with
    | isTrue h => isTrue (by rw [h])
    | isFalse h => isFalse (by simpa using h)
  | .object a, .object b =>
    match decEqEntries a b with
    | isTrue h => isTrue (by rw [h])
    | isFalse h => isFalse (by simpa using h)
  | .null, .bool _ | .null, .int _ | .null, .float _ | .null, .text _ | .null, .list _
  | .null, .object _ | .bool _, .null | .bool _, .int _ | .bool _, .float _ | .bool _, .text _
  | .bool _, .list _ | .bool _, .object _ | .int _, .null | .int _, .bool _ | .int _, .float _
  | .int _, .text _ | .int _, .list _ | .int _, .object _ | .float _, .null | .float _, .bool _
  | .float _, .int _ | .float _, .text _ | .float _, .list _ | .float _, .object _
  | .text _, .null | .text _, .bool _ | .text _, .int _ | .text _, .float _ | .text _, .list _
  | .text _, .object _ | .list _, .null | .list _, .bool _ | .list _, .int _ | .list _, .float _
  | .list _, .text _ | .list _, .object _ | .object _, .null | .object _, .bool _
  | .object _, .int _ | .object _, .float _ | .object _, .text _ | .object _, .list _
    => isFalse (by simp)

/-- Equality of lists of values as data. -/
def decEqList : (as bs : List Value) → Decidable (as = bs)
  | [], [] => isTrue rfl
  | a :: as, b :: bs =>
    match decEq a b, decEqList as bs with
    | isTrue h, isTrue g => isTrue (by rw [h, g])
    | isFalse h, _ => isFalse fun e => h (List.cons.inj e).1
    | _, isFalse g => isFalse fun e => g (List.cons.inj e).2
  | [], _ :: _ | _ :: _, [] => isFalse (by simp)

/-- Equality of entries as data. -/
def decEqEntries : (as bs : List (String × Value)) → Decidable (as = bs)
  | [], [] => isTrue rfl
  | (k, a) :: as, (l, b) :: bs =>
    match decEq a b, decEqEntries as bs, decidable_of_iff (k = l) Iff.rfl with
    | isTrue h, isTrue g, isTrue e => isTrue (by rw [h, g, e])
    | isFalse h, _, _ => isFalse fun e => h (Prod.mk.inj (List.cons.inj e).1).2
    | _, isFalse g, _ => isFalse fun e => g (List.cons.inj e).2
    | _, _, isFalse d => isFalse fun e => d (Prod.mk.inj (List.cons.inj e).1).1
  | [], _ :: _ | _ :: _, [] => isFalse (by simp)

end

instance : DecidableEq Value := decEq

/-! ## Kinds -/

/-- The name of a value's type in messages. -/
def typeName : Value → String
  | .null => "NoneType"
  | .bool _ => "bool"
  | .int _ => "int"
  | .float _ => "float"
  | .text _ => "str"
  | .list _ => "list"
  | .object _ => "dict"

/-- Whether a value counts as set: null, false, zero and the empty ones do not. -/
def isSet : Value → Bool
  | .null => false
  | .bool b => b
  | .int n => n != 0
  | .float x => !x.isZero
  | .text s => s != ""
  | .list xs => !xs.isEmpty
  | .object es => !es.isEmpty

/-- The value as a number, where the truth values are `1` and `0`. -/
def wholeNumber? : Value → Option Int
  | .int n => some n
  | .bool b => some (if b then 1 else 0)
  | _ => none

/-! ## Text -/

/-- Numbers are positional from `1e-4` to below `1e16`, with exponents of two digits. -/
def numberLayout : Layout := ⟨-4, 16, 2⟩

mutual

/-- The text of a value inside a list or object, where texts are quoted. -/
def nested : Value → String
  | .null => "None"
  | .bool b => if b then "True" else "False"
  | .int n => toString n
  | .float x => x.write numberLayout
  | .text s => Text.quote s
  | .list xs => "[" ++ ", ".intercalate (nestedList xs) ++ "]"
  | .object es => "\x7b" ++ ", ".intercalate (nestedEntries es) ++ "\x7d"

/-- The texts of the items of a list. -/
def nestedList : List Value → List String
  | [] => []
  | x :: xs => x.nested :: nestedList xs

/-- The texts of the entries of an object. -/
def nestedEntries : List (String × Value) → List String
  | [] => []
  | (k, x) :: es => (Text.quote k ++ ": " ++ x.nested) :: nestedEntries es

end

/-- The text of a value in a message or an argument: a text is itself. -/
def toText : Value → String
  | .text s => s
  | v => v.nested

/-! ## Comparison by value -/

/-- Whether two numbers of possibly different kinds are equal. -/
def sameNumber : Value → Value → Bool
  | .float x, .float y => x.compare? y == some .eq
  | .float x, w => w.wholeNumber?.any fun n => x.compareInt? n == some .eq
  | v, .float y => v.wholeNumber?.any fun n => y.compareInt? n == some .eq
  | v, w =>
    match v.wholeNumber?, w.wholeNumber? with
    | some m, some n => m == n
    | _, _ => false

mutual

/-- Whether two values are equal, with numbers by value. -/
def same : Value → Value → Bool
  | .null, .null => true
  | .text a, .text b => a == b
  | .list as, .list bs => sameList as bs
  | .object as, .object bs => as.length == bs.length && sameEntries as bs
  | v, w => sameNumber v w

/-- Whether two lists are equal item by item. -/
def sameList : List Value → List Value → Bool
  | [], [] => true
  | a :: as, b :: bs => a.same b && sameList as bs
  | _, _ => false

/-- Whether every entry has an equal one under the same key. -/
def sameEntries : List (String × Value) → List (String × Value) → Bool
  | [], _ => true
  | (k, a) :: as, bs =>
    (match bs.lookup k with
      | some b => a.same b
      | none => false) && sameEntries as bs

end

/-- Whether a value can be a name in a table.  Lists and objects cannot. -/
def isName : Value → Bool
  | .list _ => false
  | .object _ => false
  | _ => true

end Value

/-! ## Objects -/

namespace Entries

/-- The value under a key. -/
def get? (es : Entries) (key : String) : Option Value := es.lookup key

/-- The value under a key, or null. -/
def getD (es : Entries) (key : String) (default : Value) : Value := (es.lookup key).getD default

/-- Puts a value under a key: in the place of the old one, or at the end. -/
def put (es : Entries) (key : String) (v : Value) : Entries :=
  if es.any (·.1 == key) then es.map fun e => if e.1 = key then (key, v) else e
  else es ++ [(key, v)]

theorem lookup_replace_self {es : Entries} {key : String} (h : es.any (·.1 == key))
    (v : Value) : (es.map fun e => if e.1 = key then (key, v) else e).lookup key = some v := by
  induction es with
  | nil => simp at h
  | cons e es ih =>
    obtain ⟨k, b⟩ := e
    by_cases he : k = key
    · simp [he]
    · have hb : (key == k) = false := by simpa using Ne.symm he
      have ht : es.any (·.1 == key) := by simpa [he] using h
      simpa [he, List.lookup_cons, hb] using ih ht

theorem lookup_replace_of_ne (es : Entries) {key other : String} (h : other ≠ key) (v : Value) :
    (es.map fun e => if e.1 = key then (key, v) else e).lookup other = es.lookup other := by
  induction es with
  | nil => rfl
  | cons e es ih =>
    obtain ⟨k, b⟩ := e
    by_cases he : k = key
    · subst he
      have hb : (other == k) = false := by simpa using h
      simpa [List.lookup_cons, hb] using ih
    · simp only [List.map_cons, if_neg he, List.lookup_cons, ih]

theorem lookup_eq_none_of_any {es : Entries} {key : String} (h : ¬ es.any (·.1 == key)) :
    es.lookup key = none := by
  rw [List.lookup_eq_none_iff]
  intro e he
  simpa using fun hk : key = e.1 => h (List.any_eq_true.2 ⟨e, he, by simp [hk]⟩)

theorem get?_put_self (es : Entries) (key : String) (v : Value) :
    (es.put key v).get? key = some v := by
  unfold put get?
  split
  · exact lookup_replace_self ‹_› v
  · rw [List.lookup_append, lookup_eq_none_of_any ‹_›]
    simp

theorem get?_put_of_ne (es : Entries) {key other : String} (h : other ≠ key) (v : Value) :
    (es.put key v).get? other = es.get? other := by
  unfold put get?
  split
  · exact lookup_replace_of_ne es h v
  · have hb : (other == key) = false := by simpa using h
    rw [List.lookup_append]
    simp [List.lookup_cons, hb]

/-- An object from entries in reading order.  The last value of a key wins. -/
def ofList (es : List (String × Value)) : Entries := es.foldl (fun d e => put d e.1 e.2) []

end Entries

end Cockpit
