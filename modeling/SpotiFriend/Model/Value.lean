import Mathlib.Algebra.Field.Rat
import SpotiFriend.Store.Collection
import SpotiFriend.Text.Substring

/-!
# Values and documents

What a Firestore document holds, and what the app reads from it: `doc.get("email") as?
String` is `(f .email).bind Value.asString`.  Firestore compares numbers by value and Swift
bridges them likewise, so there is one kind of number: `as? Double` takes every number, `as?
Int` the whole ones.  A boolean comes as an `NSNumber` and passes both casts.
-/

namespace SpotiFriend

/-- Swift's `Double`: the finite values, with one zero, the two infinities and `nan`. -/
inductive Double
  | fin (q : ℚ)
  | inf (negative : Bool)
  | nan
  deriving DecidableEq

namespace Double

/-- The nearest integer, and of two the even one. -/
def nearest (q : ℚ) : ℤ :=
  if q - q.floor < 1 / 2 ∨ q - q.floor = 1 / 2 ∧ q.floor % 2 = 0 then q.floor else q.floor + 1

/-- The exponent of the leading binary digit. -/
def leading (q : ℚ) : ℤ :=
  let e : ℤ := q.num.natAbs.log2 - q.den.log2
  if (2 : ℚ) ^ e ≤ |q| then e else e - 1

/-- The number rounded to 53 binary digits, of which none is below `2 ^ -1074`. -/
def round (q : ℚ) : Double :=
  let ulp : ℚ := 2 ^ max (leading q - 52) (-1074)
  let r := nearest (q / ulp) * ulp
  if |r| < 2 ^ 1024 then .fin r else .inf (q < 0)

def mul : Double → Double → Double
  | .fin a, .fin b => round (a * b)
  | .nan, _ => .nan
  | _, .nan => .nan
  | .inf s, .fin b => if b = 0 then .nan else .inf (s != decide (b < 0))
  | .fin a, .inf t => if a = 0 then .nan else .inf (t != decide (a < 0))
  | .inf s, .inf t => .inf (s != t)

/-- `x <= y`, which is false as soon as one side is `nan`. -/
def le : Double → Double → Bool
  | .nan, _ => false
  | _, .nan => false
  | .fin a, .fin b => a ≤ b
  | .inf s, .fin _ => s
  | .fin _, .inf t => !t
  | .inf s, .inf t => s || !t

theorem le_nan (x : Double) : x.le .nan = false := by cases x <;> rfl

theorem le_trans {x y z : Double} (hxy : x.le y = true) (hyz : y.le z = true) : x.le z = true := by
  cases x <;> cases y <;> cases z <;> simp_all [Double.le]
  · exact hxy.trans hyz
  · grind

theorem le_total {x y : Double} (hx : x ≠ .nan) (hy : y ≠ .nan) :
    x.le y = true ∨ y.le x = true := by
  cases x <;> cases y <;> simp_all [Double.le]
  · exact Rat.le_total
  · next a b => cases a <;> simp

theorem le_or_le (mapRadius mapRadius' : Double) :
    (∀ x : Double, x.le mapRadius = true → x.le mapRadius' = true) ∨
      ∀ x : Double, x.le mapRadius' = true → x.le mapRadius = true := by
  by_cases h : mapRadius = .nan
  · exact Or.inl (fun x hx => by rw [h, le_nan] at hx; cases hx)
  · by_cases h' : mapRadius' = .nan
    · exact Or.inr (fun x hx => by rw [h', le_nan] at hx; cases hx)
    · exact (le_total h h').imp (fun hle x hx => le_trans hx hle) (fun hle x hx => le_trans hx hle)

/-! ### `Double(String)` -/

/-- Split off a sign; `true` is a minus. -/
def cutSign : List Char → Bool × List Char
  | '-' :: s => (true, s)
  | '+' :: s => (false, s)
  | s => (false, s)

def isHexdig (c : Char) : Bool := c.isDigit || ('a' ≤ c && c ≤ 'f')

/-- The number that the digits write. -/
def digits (radix : ℕ) (s : List Char) : ℕ :=
  s.foldl (fun n c => radix * n + if c.isDigit then c.toNat - '0'.toNat else c.toNat - 'a'.toNat + 10)
    0

/-- The exponent that the part after the digits gives; no part is the exponent `0`. -/
def exponent (mark : Char) : List Char → Option ℤ
  | [] => some 0
  | c :: s =>
    if c = mark then
      let (minus, ds) := cutSign s
      if ds ≠ [] ∧ ds.all Char.isDigit then
        some (if minus then -(digits 10 ds : ℤ) else digits 10 ds)
      else none
    else none

/-- A number without its sign: digits, a point and more digits, an exponent to the base. -/
def numeral (radix : ℕ) (isDigit : Char → Bool) (mark : Char) (base : ℚ) (s : List Char) :
    Option ℚ :=
  let (whole, s) := s.span isDigit
  let (fraction, s) :=
    match s with
    | '.' :: s => s.span isDigit
    | s => ([], s)
  if whole = [] ∧ fraction = [] then none
  else
    (exponent mark s).map (fun e : ℤ =>
      digits radix (whole ++ fraction) / (radix : ℚ) ^ fraction.length * base ^ e)

/-- `nan`, perhaps with a payload in parentheses. -/
def isNaN (s : List Char) : Bool :=
  match s with
  | 'n' :: 'a' :: 'n' :: '(' :: s =>
    s.getLast? = some ')' && s.dropLast.all (fun c => c.isAlphanum || c = '_')
  | s => s = "nan".toList

/-- The value of the text in lower case, without its sign. -/
def ofUnsigned (s : List Char) : Option Double :=
  if s = "inf".toList ∨ s = "infinity".toList then some (.inf false)
  else if isNaN s then some .nan
  else
    match s with
    | '0' :: 'x' :: s => (numeral 16 isHexdig 'p' 2 s).map round
    | s => (numeral 10 Char.isDigit 'e' 10 s).map round

def neg : Double → Double
  | .fin q => .fin (-q)
  | .inf s => .inf !s
  | .nan => .nan

/-- `Double(text)`. -/
def ofText (text : String) : Option Double :=
  let (minus, s) := cutSign (text.toList.map Char.toLower)
  (ofUnsigned s).map (fun x => if minus then neg x else x)

example : ofText "-0x1.8p3" = some (.fin (-12)) := by decide +kernel

example : ofText "0.1" = ofText "0.10000000000000001" := by decide +kernel

end Double

/-- What a field may hold.  The code tells apart no more than these: every other
value (a map, `null`, an array that is not all strings) is `other`. -/
inductive Value
  | string (s : String)
  | number (x : Double)
  | bool (b : Bool)
  | timestamp (t : ℤ)
  | strings (l : List String)
  | other
  deriving DecidableEq

namespace Value

def asString : Value → Option String
  | .string s => some s
  | _ => none

def asDouble : Value → Option Double
  | .number x => some x
  | .bool b => some (.fin b.toNat)
  | _ => none

def asInt : Value → Option ℤ
  | .number (.fin q) => if q.den = 1 then some q.num else none
  | .bool b => some b.toNat
  | _ => none

def asTimestamp : Value → Option ℤ
  | .timestamp t => some t
  | _ => none

def asStrings : Value → Option (List String)
  | .strings l => some l
  | _ => none

/-- A whole number as it is written to a document. -/
def int (n : ℤ) : Value := .number (.fin n)

@[simp] theorem asInt_int (n : ℤ) : (int n).asInt = some n := by
  simp [int, asInt]

@[simp] theorem asString_string (s : String) : (string s).asString = some s := rfl

@[simp] theorem asDouble_number (x : Double) : (number x).asDouble = some x := rfl

@[simp] theorem asStrings_strings (l : List String) : (strings l).asStrings = some l := rfl

theorem asString_eq_some {v : Value} {s : String} : v.asString = some s ↔ v = .string s := by
  cases v <;> simp [asString]

theorem asStrings_eq_some {v : Value} {l : List String} :
    v.asStrings = some l ↔ v = .strings l := by
  cases v <;> simp [asStrings]

theorem asDouble_eq_some {v : Value} {x : Double} :
    v.asDouble = some x ↔ v = .number x ∨ ∃ b : Bool, v = .bool b ∧ x = .fin b.toNat := by
  cases v <;> simp [asDouble, eq_comm]

end Value

/-- The fields that the app reads or writes. -/
inductive Field
  | title
  | author
  | email
  | latitude
  | longitude
  | spotifyLink
  | date
  | hasFound
  | username
  | password
  | profilePicURL
  | mapRadius
  | totalPlaylistsCreated
  | totalPlaylistsFound
  deriving DecidableEq

abbrev Fields := Field → Option Value

abbrev Doc := Store.Document Fields

/-- What a dictionary gives a field: a value, or `FieldValue.serverTimestamp()`. -/
inductive Entry
  | value (v : Value)
  | serverTimestamp
  deriving DecidableEq

/-- What the server stores for the entry at time `now`. -/
def Entry.resolve (now : ℤ) : Entry → Value
  | .value v => v
  | .serverTimestamp => .timestamp now

/-- A dictionary of fields to write. -/
abbrev Dict := List (Field × Entry)

namespace Dict

/-- The fields that the server stores when it handles the dictionary at time `now`. -/
def fields (d : Dict) (now : ℤ) : Fields := fun k => (d.lookup k).map (Entry.resolve now)

/-- `setData(merge: true)`: the fields of the dictionary are replaced, the others stay;
a document that is not there is made. -/
def merge (d : Dict) (now : ℤ) (old : Option Fields) : Fields := fun k =>
  (d.fields now k).or (old.bind (· k))

theorem merge_some (d : Dict) (now : ℤ) (f : Fields) (k : Field) :
    d.merge now (some f) k = (d.fields now k).or (f k) := rfl

@[simp] theorem fields_nil (now : ℤ) (k : Field) : fields [] now k = none := rfl

@[simp] theorem fields_cons (k' : Field) (e : Entry) (d : Dict) (now : ℤ) (k : Field) :
    fields ((k', e) :: d) now k = if k = k' then some (e.resolve now) else fields d now k := by
  by_cases h : k = k'
  · simp [fields, h]
  · simp [fields, List.lookup_cons, h, beq_false_of_ne h]

end Dict

structure Coordinate where
  latitude : Double
  longitude : Double
  deriving DecidableEq

end SpotiFriend
