import Mathlib.Data.List.Sort
import Mathlib.Data.Rat.Floor
import Mathlib.Data.String.Basic

/-!
# Claim values as the interpreter sees them

A claim carries an arbitrary JSON value.  Two notions of sameness matter
downstream and they are not the same: the *stored* value, compared when a
projection is hashed, and the *interpreter's* `==`, under which `1`, `1.0` and
`True` are one value and a NaN differs from itself.  Both are defined here.

Python reads the Unicode character database for `str.lower` and for the decimal
digits `int` and `float` accept.  Those two tables are the class `PyText`; every
result of the development holds for any such tables.
-/

namespace Atlas

/-- The parts of the Unicode character database that Python's `str` methods
consult: `str.lower`, and the decimal value of a digit character. -/
class PyText where
  lower : String → String
  decimal : Char → Option Nat

/-- The ASCII rows of the tables, enough to run the model on ASCII inputs. -/
instance (priority := low) asciiText : PyText where
  lower s := s.map Char.toLower
  decimal c := if c.isDigit then some (c.toNat - '0'.toNat) else none

/-- Texts are equal when their characters are. -/
instance lawfulBEq_chars : LawfulBEq (List Char) := inferInstance

/-- An IEEE double: a finite value, an infinity or a NaN. -/
inductive PyFloat where
  | finite (q : ℚ)
  | inf (negative : Bool)
  | nan
deriving DecidableEq, Repr

/-- A Python number that came out of JSON. -/
inductive PyNum where
  | int (n : Int)
  | float (f : PyFloat)
deriving DecidableEq, Repr

/-- The exact value of a number: an `int` and a `float` compare equal exactly
when these agree. -/
def PyNum.exact : PyNum → PyFloat
  | int n => .finite n
  | float f => f

/-- A JSON value.  Objects are association lists with distinct keys. -/
inductive Json where
  | null
  | bool (b : Bool)
  | num (n : PyNum)
  | str (s : String)
  | arr (xs : List Json)
  | obj (kvs : List (String × Json))
deriving Repr, Inhabited

/-! ## Stored equality -/

mutual
/-- Structural equality of stored JSON values. -/
def Json.beq : Json → Json → Bool
  | .null, .null => true
  | .bool a, .bool b => a == b
  | .num a, .num b => a == b
  | .str a, .str b => a == b
  | .arr xs, .arr ys => Json.beqList xs ys
  | .obj xs, .obj ys => Json.beqFields xs ys
  | _, _ => false

def Json.beqList : List Json → List Json → Bool
  | [], [] => true
  | x :: xs, y :: ys => Json.beq x y && Json.beqList xs ys
  | _, _ => false

def Json.beqFields : List (String × Json) → List (String × Json) → Bool
  | [], [] => true
  | (k, x) :: xs, (l, y) :: ys => k == l && Json.beq x y && Json.beqFields xs ys
  | _, _ => false
end

mutual
theorem Json.beq_iff : ∀ a b : Json, Json.beq a b = true ↔ a = b
  | .null, b => by cases b <;> simp [Json.beq]
  | .bool a, b => by cases b <;> simp [Json.beq]
  | .num a, b => by cases b <;> simp [Json.beq]
  | .str a, b => by cases b <;> simp [Json.beq]
  | .arr xs, b => by
      cases b <;> simp [Json.beq]
      exact Json.beqList_iff xs _
  | .obj xs, b => by
      cases b <;> simp [Json.beq]
      exact Json.beqFields_iff xs _

theorem Json.beqList_iff : ∀ xs ys : List Json, Json.beqList xs ys = true ↔ xs = ys
  | [], ys => by cases ys <;> simp [Json.beqList]
  | x :: xs, ys => by
      cases ys with
      | nil => simp [Json.beqList]
      | cons y ys => simp [Json.beqList, Json.beq_iff x y, Json.beqList_iff xs ys]

theorem Json.beqFields_iff : ∀ xs ys : List (String × Json),
    Json.beqFields xs ys = true ↔ xs = ys
  | [], ys => by cases ys <;> simp [Json.beqFields]
  | (k, x) :: xs, ys => by
      cases ys with
      | nil => simp [Json.beqFields]
      | cons y ys =>
          obtain ⟨l, y⟩ := y
          simp [Json.beqFields, Json.beq_iff x y, Json.beqFields_iff xs ys]
end

instance : DecidableEq Json := fun a b =>
  decidable_of_iff _ (Json.beq_iff a b)

/-! ## Text -/

/-- `str.isspace` for one character. -/
def isSpace (c : Char) : Bool :=
  let n := c.toNat
  (0x9 ≤ n && n ≤ 0xd) || (0x1c ≤ n && n ≤ 0x20) || n == 0x85 || n == 0xa0 ||
    n == 0x1680 || (0x2000 ≤ n && n ≤ 0x200a) || n == 0x2028 || n == 0x2029 ||
    n == 0x202f || n == 0x205f || n == 0x3000

/-- `str.strip()` on the characters of a string. -/
def stripChars (cs : List Char) : List Char :=
  ((cs.dropWhile isSpace).reverse.dropWhile isSpace).reverse

/-- `str.strip()`. -/
def strip (s : String) : String := String.ofList (stripChars s.toList)

/-- The words of `str.split()`: maximal runs of non-space characters.  The
first argument is the word being read. -/
def splitWords : List Char → List Char → List (List Char)
  | word, [] => if word.isEmpty then [] else [word]
  | word, c :: cs =>
      if isSpace c then
        if word.isEmpty then splitWords [] cs else word :: splitWords [] cs
      else splitWords (word ++ [c]) cs

/-- `" ".join(value.strip().lower().split())`. -/
def collapse [PyText] (s : String) : String :=
  " ".intercalate ((splitWords [] (PyText.lower (strip s)).toList).map String.ofList)

/-! ## Numerals -/

/-- A digit part with optional single underscores between digits: the value
read, the number of digits, and the rest of the input. -/
def digitPart [PyText] : Nat → Nat → List Char → Option (Nat × Nat × List Char)
  | value, count, [] => if count = 0 then none else some (value, count, [])
  | value, count, c :: cs =>
      match PyText.decimal c with
      | some d => digitPart (value * 10 + d) (count + 1) cs
      | none =>
          if count = 0 then none
          else
            match c, cs with
            | '_', d :: ds =>
                match PyText.decimal d with
                | some v => digitPart (value * 10 + v) (count + 1) ds
                | none => some (value, count, c :: cs)
            | _, _ => some (value, count, c :: cs)

/-- An optional sign; `true` for a minus. -/
def signPart : List Char → Bool × List Char
  | '-' :: cs => (true, cs)
  | '+' :: cs => (false, cs)
  | cs => (false, cs)

/-- CPython's default `sys.int_max_str_digits`. -/
def intMaxStrDigits : Nat := 4300

/-- `int(text)`; `none` is the `ValueError`. -/
def pyInt [PyText] (cs : List Char) : Option Int :=
  let (negative, rest) := signPart cs
  match digitPart 0 0 rest with
  | some (value, count, []) =>
      if intMaxStrDigits < count then none
      else some (if negative then -(value : Int) else value)
  | _ => none

/-- Round half to even. -/
def roundHalfEven (q : ℚ) : Int :=
  let lo := ⌊q⌋
  let frac := q - lo
  if frac < 1 / 2 then lo
  else if 1 / 2 < frac then lo + 1
  else if lo % 2 = 0 then lo else lo + 1

/-- The exponent of the last place of the double nearest to a positive
rational: 53 bits of precision, no smaller than the subnormal step. -/
def lastPlace (q : ℚ) : Int :=
  let e : Int := (Nat.log2 (q.num.natAbs) : Int) - Nat.log2 q.den
  let e := if (2 : ℚ) ^ e ≤ q then e else e - 1
  max (e - 52) (-1074)

/-- The double nearest to a rational, ties to even, overflow to infinity. -/
def roundDouble (q : ℚ) : PyFloat :=
  if q = 0 then .finite 0
  else
    let ulp : ℚ := (2 : ℚ) ^ lastPlace |q|
    let r : ℚ := (roundHalfEven (|q| / ulp) : ℚ) * ulp
    if (2 : ℚ) ^ (1024 : Int) ≤ r then .inf (q < 0)
    else .finite (if q < 0 then -r else r)

/-- An optional exponent; `none` when what is left is not one. -/
def exponentPart [PyText] : List Char → Option Int
  | [] => some 0
  | 'e' :: cs =>
      let (negative, rest) := signPart cs
      match digitPart 0 0 rest with
      | some (value, _, []) => some (if negative then -(value : Int) else value)
      | _ => none
  | _ => none

/-- The unsigned part of a `float` literal, already in lower case. -/
def unsignedFloat [PyText] (cs : List Char) : Option PyFloat :=
  if cs = "inf".toList ∨ cs = "infinity".toList then some (.inf false)
  else if cs = "nan".toList then some .nan
  else
    let (whole, digits, rest) := (digitPart 0 0 cs).getD (0, 0, cs)
    let (frac, places, rest) :=
      match rest with
      | '.' :: more => (digitPart 0 0 more).getD (0, 0, more)
      | _ => (0, 0, rest)
    if digits + places = 0 then none
    else
      match exponentPart rest with
      | none => none
      | some e =>
          some (roundDouble (((whole : ℚ) + frac / 10 ^ places) * (10 : ℚ) ^ e))

/-- Change the sign of a double. -/
def PyFloat.neg : PyFloat → PyFloat
  | finite q => finite (-q)
  | inf negative => inf (!negative)
  | nan => nan

/-- `float(text)`; `none` is the `ValueError`. -/
def pyFloat [PyText] (cs : List Char) : Option PyFloat :=
  let (negative, rest) := signPart cs
  (unsignedFloat rest).map fun f => if negative then f.neg else f

/-! ## The interpreter's equality -/

/-- `a == b` on numbers: exact comparison, and a NaN equals nothing. -/
def PyNum.pyEq (a b : PyNum) : Bool :=
  a.exact == b.exact && a.exact != .nan

/-- `True` and `False` are the numbers one and zero under `==`. -/
def boolNum (b : Bool) : PyNum := .int (if b then 1 else 0)

mutual
/-- Python's `==` on JSON values.  Booleans compare as numbers and the order of
an object's keys is immaterial. -/
def Json.pyEq : Json → Json → Bool
  | .null, .null => true
  | .bool a, .bool b => a == b
  | .bool a, .num b => (boolNum a).pyEq b
  | .num a, .bool b => a.pyEq (boolNum b)
  | .num a, .num b => a.pyEq b
  | .str a, .str b => a == b
  | .arr xs, .arr ys => Json.pyEqList xs ys
  | .obj xs, .obj ys => xs.length == ys.length && Json.pyEqFields xs ys
  | _, _ => false

def Json.pyEqList : List Json → List Json → Bool
  | [], [] => true
  | x :: xs, y :: ys => Json.pyEq x y && Json.pyEqList xs ys
  | _, _ => false

/-- Every entry of the first object is matched by the second. -/
def Json.pyEqFields : List (String × Json) → List (String × Json) → Bool
  | [], _ => true
  | (k, x) :: xs, ys =>
      (match ys.lookup k with
        | some y => Json.pyEq x y
        | none => false) && Json.pyEqFields xs ys
end

end Atlas
