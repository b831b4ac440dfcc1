import Atlas.Lib.Codes
import Atlas.ReProject

/-!
# The canonical text of a JSON value

`_canonical_json_bytes` is `json.dumps` with sorted keys, the shortest separators,
ASCII output and `allow_nan=False`.  Hashes are taken of this text, so what it
keeps of a value is what an idempotency key can tell apart: everything but the
order of the keys of an object.

The text of a finite double is `float.__repr__`, a parameter with the three
documented facts that matter: it is written with the characters of a number, it
shows a point or an exponent, and it reads back to the double.  The sign of a zero
is not kept by the values of the model.  An `int` of more than 4300 digits has no
text, as in the interpreter.
-/

namespace Atlas

open Codes

/-- The characters of a JSON number. -/
def numberChar (c : Char) : Bool := c.isDigit || c == '-' || c == '+' || c == '.' || c == 'e'

/-- `float.__repr__` of a finite double. -/
class FloatRepr where
  repr : ℚ → List Char
  chars : ∀ q, ∀ c ∈ repr q, numberChar c = true
  point : ∀ q, '.' ∈ repr q ∨ 'e' ∈ repr q
  inj : Function.Injective repr

/-- `int.__repr__`. -/
def intText : Int → List Char
  | .ofNat n => Nat.toDigits 10 n
  | .negSucc n => '-' :: Nat.toDigits 10 (n + 1)

/-! ## Strings -/

/-- `\\u` and four hexadecimal digits. -/
def escapeUnit (n : Nat) : List Char := '\\' :: 'u' :: hex 4 n

/-- `py_encode_basestring_ascii` on one character.  A character outside the basic
plane becomes a surrogate pair. -/
def escapeChar (c : Char) : List Char :=
  if c = '"' then ['\\', '"']
  else if c = '\\' then ['\\', '\\']
  else if c = '\n' then ['\\', 'n']
  else if c = '\r' then ['\\', 'r']
  else if c = '\t' then ['\\', 't']
  else if c = '\x0c' then ['\\', 'f']
  else if c = '\x08' then ['\\', 'b']
  else if ' ' ≤ c ∧ c ≤ '~' then [c]
  else if c.toNat < 0x10000 then escapeUnit c.toNat
  else
    let v := c.toNat - 0x10000
    escapeUnit (0xd800 + v / 0x400) ++ escapeUnit (0xdc00 + v % 0x400)

/-- Undo a two-character escape. -/
def unescape (c : Char) : Char :=
  if c = 'n' then '\n'
  else if c = 'r' then '\r'
  else if c = 't' then '\t'
  else if c = 'f' then '\x0c'
  else if c = 'b' then '\x08'
  else c

/-- Read what follows `\\u`: one unit, or the two of a surrogate pair. -/
def readUnits (cs : List Char) : Option (Char × List Char) := do
  let n ← readHex 0 (cs.take 4)
  if 0xd800 ≤ n ∧ n < 0xdc00 then
    let m ← readHex 0 ((cs.drop 6).take 4)
    some (Char.ofNat (0x10000 + (n - 0xd800) * 0x400 + (m - 0xdc00)), cs.drop 10)
  else some (Char.ofNat n, cs.drop 4)

/-- Read one character of a string literal. -/
def readChar : List Char → Option (Char × List Char)
  | [] => none
  | c :: cs =>
      if c = '\\' then
        match cs with
        | [] => none
        | e :: cs => if e = 'u' then readUnits cs else some (unescape e, cs)
      else some (c, cs)

/-- A string literal. -/
def quoted (s : String) : List Char := '"' :: (s.toList.flatMap escapeChar ++ ['"'])

section Text

variable [FloatRepr]

/-- The text of a number; the last three need `allow_nan`. -/
def numText : PyNum → List Char
  | .int n => intText n
  | .float (.finite q) => FloatRepr.repr q
  | .float (.inf false) => "Infinity".toList
  | .float (.inf true) => "-Infinity".toList
  | .float .nan => "NaN".toList

namespace Json

mutual
/-- `json.dumps` with the separators `","` and `":"`, keys in the given order. -/
def render : Json → List Char
  | .null => "null".toList
  | .bool true => "true".toList
  | .bool false => "false".toList
  | .num n => numText n
  | .str s => quoted s
  | .arr xs => '[' :: renderItems xs
  | .obj kvs => '\x7b' :: renderFields kvs

/-- An array after its bracket. -/
def renderItems : List Json → List Char
  | [] => [']']
  | x :: xs => render x ++ renderMoreItems xs

def renderMoreItems : List Json → List Char
  | [] => [']']
  | x :: xs => ',' :: (render x ++ renderMoreItems xs)

/-- An object after its brace. -/
def renderFields : List (String × Json) → List Char
  | [] => ['\x7d']
  | (k, x) :: kvs => quoted k ++ ':' :: (render x ++ renderMoreFields kvs)

def renderMoreFields : List (String × Json) → List Char
  | [] => ['\x7d']
  | (k, x) :: kvs => ',' :: (quoted k ++ ':' :: (render x ++ renderMoreFields kvs))
end

end Json

end Text

/-! ## What has a text -/

namespace Json

mutual
/-- `json.dumps` raises no `ValueError`: every number has a text. -/
def dumpable : Json → Bool
  | .num (.int n) => (Nat.toDigits 10 n.natAbs).length ≤ intMaxStrDigits
  | .num (.float (.finite _)) => true
  | .num (.float _) => false
  | .arr xs => dumpableItems xs
  | .obj kvs => dumpableFields kvs
  | _ => true

def dumpableItems : List Json → Bool
  | [] => true
  | x :: xs => dumpable x && dumpableItems xs

def dumpableFields : List (String × Json) → Bool
  | [] => true
  | (_, x) :: kvs => dumpable x && dumpableFields kvs
end

theorem canonicalList_eq (xs : List Json) : canonicalList xs = xs.map canonical := by
  induction xs with
  | nil => rfl
  | cons x xs ih => rw [canonicalList, ih, List.map_cons]

theorem canonicalFields_eq (kvs : List (String × Json)) :
    canonicalFields kvs = kvs.map fun kv => (kv.1, canonical kv.2) := by
  induction kvs with
  | nil => rfl
  | cons kv kvs ih =>
      obtain ⟨k, x⟩ := kv
      rw [canonicalFields, ih, List.map_cons]

theorem dumpableItems_eq (xs : List Json) :
    dumpableItems xs = xs.all dumpable := by
  induction xs with
  | nil => rfl
  | cons x xs ih => rw [dumpableItems, ih, List.all_cons]

theorem dumpableFields_eq (kvs : List (String × Json)) :
    dumpableFields kvs = kvs.all fun kv => dumpable kv.2 := by
  induction kvs with
  | nil => rfl
  | cons kv kvs ih =>
      obtain ⟨k, x⟩ := kv
      rw [dumpableFields, ih, List.all_cons]

end Json

/-! ## Reading the text back -/

theorem take_hex {n : Nat} (hn : n < 0x10000) (r : List Char) :
    (hex 4 n ++ r).take 4 = hex 4 n ∧ (hex 4 n ++ r).drop 4 = r := by
  have hlen : (hex 4 n).length = 4 := length_hex (by omega) hn
  exact ⟨List.take_left' hlen, List.drop_left' hlen⟩

theorem readUnits_basic {c : Char} (hc : c.toNat < 0x10000) (r : List Char) :
    readUnits (hex 4 c.toNat ++ r) = some (c, r) := by
  obtain ⟨htake, hdrop⟩ := take_hex hc r
  -- A character is no surrogate.
  have hrange : ¬ (0xd800 ≤ c.toNat ∧ c.toNat < 0xdc00) := by
    rcases c.valid with h | h
    · have hlt : c.toNat < 0xd800 := h
      omega
    · have hlt : 0xdfff < c.toNat := h.1
      omega
  rw [readUnits, htake, readHex_hex]
  simp only [Option.bind_eq_bind, Option.bind_some, if_neg hrange, hdrop, Char.ofNat_toNat]

theorem readUnits_pair {n m : Nat} (hn : 0xd800 ≤ n ∧ n < 0xdc00) (hm : m < 0x10000)
    (r : List Char) : readUnits (hex 4 n ++ (escapeUnit m ++ r)) =
      some (Char.ofNat (0x10000 + (n - 0xd800) * 0x400 + (m - 0xdc00)), r) := by
  obtain ⟨htake, hdrop⟩ := take_hex (by omega : n < 0x10000) (escapeUnit m ++ r)
  obtain ⟨htake₂, hdrop₂⟩ := take_hex hm r
  have hsix : (hex 4 n ++ (escapeUnit m ++ r)).drop 6 = hex 4 m ++ r := by
    rw [show 6 = 4 + 2 from rfl, ← List.drop_drop, hdrop]
    rfl
  have hten : (hex 4 n ++ (escapeUnit m ++ r)).drop 10 = r := by
    rw [show 10 = 6 + 4 from rfl, ← List.drop_drop, hsix, hdrop₂]
  rw [readUnits, htake, hsix, hten, htake₂, readHex_hex, readHex_hex]
  simp only [Option.bind_eq_bind, Option.bind_some, if_pos hn]

theorem readChar_plain {c : Char} (hc : c ≠ '\\') (cs : List Char) :
    readChar (c :: cs) = some (c, cs) := by
  rw [readChar.eq_def]
  exact if_neg hc

theorem readChar_escapeUnit (n : Nat) (r : List Char) :
    readChar (escapeUnit n ++ r) = readUnits (hex 4 n ++ r) := rfl

theorem readChar_escapeChar (c : Char) (r : List Char) :
    readChar (escapeChar c ++ r) = some (c, r) := by
  unfold escapeChar
  split_ifs with h₁ h₂ h₃ h₄ h₅ h₆ h₇ h₈ h₉
  · rw [h₁]; rfl
  · rw [h₂]; rfl
  · rw [h₃]; rfl
  · rw [h₄]; rfl
  · rw [h₅]; rfl
  · rw [h₆]; rfl
  · rw [h₇]; rfl
  · exact readChar_plain h₂ r
  · rw [readChar_escapeUnit, readUnits_basic h₉]
  · have hmax : c.toNat < 0x110000 := by
      rcases c.valid with h | h
      · have hlt : c.toNat < 0xd800 := h
        omega
      · exact h.2
    have hvalue : 0x10000 + (0xd800 + (c.toNat - 0x10000) / 0x400 - 0xd800) * 0x400 +
        (0xdc00 + (c.toNat - 0x10000) % 0x400 - 0xdc00) = c.toNat := by omega
    rw [List.append_assoc, readChar_escapeUnit, readUnits_pair (by omega) (by omega), hvalue,
      Char.ofNat_toNat]

theorem escapeChar_instant : Instant escapeChar := instant_of_read readChar_escapeChar

theorem escapeChar_head (c : Char) : ∃ d ds, escapeChar c = d :: ds ∧ d ≠ '"' := by
  unfold escapeChar
  split_ifs with h₁ h₂ h₃ h₄ h₅ h₆ h₇ h₈ h₉
  case pos => exact ⟨_, _, rfl, by decide⟩
  all_goals first
    | exact ⟨_, _, rfl, by decide⟩
    | exact ⟨_, _, rfl, h₁⟩

/-- A string literal ends at its closing quote. -/
theorem quoted_instant : Instant quoted := by
  intro s t r r' h
  have hbody : s.toList.flatMap escapeChar ++ '"' :: r = t.toList.flatMap escapeChar ++ '"' :: r' := by
    have htail := (List.cons.inj h).2
    simpa only [List.append_eq, List.append_assoc, List.singleton_append] using htail
  obtain ⟨hchars, hrest⟩ := escapeChar_instant.sequence escapeChar_head hbody
  exact ⟨String.toList_inj.mp hchars, hrest⟩

/-! ## Numbers -/

theorem intText_chars (n : Int) : ∀ c ∈ intText n, c.isDigit = true ∨ c = '-' := by
  intro c hc
  cases n with
  | ofNat n => exact .inl (Nat.isDigit_of_mem_toDigits (by omega) (by omega) hc)
  | negSucc n =>
      rcases List.mem_cons.mp hc with rfl | hc
      · exact .inr rfl
      · exact .inl (Nat.isDigit_of_mem_toDigits (by omega) (by omega) hc)

theorem minus_notMem_toDigits (n : Nat) : '-' ∉ Nat.toDigits 10 n := by
  intro hmem
  have hdigit := Nat.isDigit_of_mem_toDigits (by omega) (by omega) hmem
  exact absurd hdigit (by decide)

theorem intText_injective : Function.Injective intText := by
  intro a b h
  cases a with
  | ofNat a =>
      cases b with
      | ofNat b => exact congrArg Int.ofNat (toDigits_ten_injective h)
      | negSucc b =>
          refine absurd ?_ (minus_notMem_toDigits a)
          rw [show Nat.toDigits 10 a = '-' :: Nat.toDigits 10 (b + 1) from h]
          exact List.mem_cons_self
  | negSucc a =>
      cases b with
      | ofNat b =>
          refine absurd ?_ (minus_notMem_toDigits b)
          rw [← show '-' :: Nat.toDigits 10 (a + 1) = Nat.toDigits 10 b from h]
          exact List.mem_cons_self
      | negSucc b =>
          have hdigits := toDigits_ten_injective (List.cons.inj h).2
          rw [Nat.succ.inj hdigits]

section Render

variable [FloatRepr]

/-- A number without an exponent or a point is an `int`. -/
theorem intText_ne_repr (n : Int) (q : ℚ) : intText n ≠ FloatRepr.repr q := by
  intro h
  have hpoint : '.' ∈ intText n ∨ 'e' ∈ intText n := by
    rw [h]
    exact FloatRepr.point q
  rcases hpoint with hc | hc
  · exact absurd (intText_chars n _ hc) (by decide)
  · exact absurd (intText_chars n _ hc) (by decide)

namespace Json

omit [FloatRepr] in
/-- A number that has a text is an `int` or a finite double. -/
theorem num_cases {n : PyNum} (h : dumpable (.num n) = true) :
    (∃ i, n = .int i) ∨ ∃ q, n = .float (.finite q) := by
  cases n with
  | int i => exact .inl ⟨i, rfl⟩
  | float f =>
      cases f with
      | finite q => exact .inr ⟨q, rfl⟩
      | inf b => simp [dumpable] at h
      | nan => simp [dumpable] at h

theorem numText_chars {n : PyNum} (h : dumpable (.num n) = true) :
    ∀ c ∈ numText n, numberChar c = true := by
  intro c hc
  rcases num_cases h with ⟨i, rfl⟩ | ⟨q, rfl⟩
  · rcases intText_chars i c hc with hd | rfl
    · simp [numberChar, hd]
    · rfl
  · exact FloatRepr.chars q c hc

theorem numText_inj {a b : PyNum} (ha : dumpable (.num a) = true)
    (hb : dumpable (.num b) = true) (h : numText a = numText b) : a = b := by
  rcases num_cases ha with ⟨i, rfl⟩ | ⟨p, rfl⟩
  · rcases num_cases hb with ⟨j, rfl⟩ | ⟨q, rfl⟩
    · change intText i = intText j at h
      rw [intText_injective h]
    · exact absurd h (intText_ne_repr i q)
  · rcases num_cases hb with ⟨j, rfl⟩ | ⟨q, rfl⟩
    · exact absurd h.symm (intText_ne_repr j p)
    · change FloatRepr.repr p = FloatRepr.repr q at h
      rw [FloatRepr.inj h]

theorem numText_ne_nil {n : PyNum} (h : dumpable (.num n) = true) : numText n ≠ [] := by
  rcases num_cases h with ⟨i, rfl⟩ | ⟨q, rfl⟩
  · cases i with
    | ofNat n => exact Nat.toDigits_ne_nil
    | negSucc n => exact List.cons_ne_nil _ _
  · intro hnil
    have hpoint := FloatRepr.point q
    rw [show FloatRepr.repr q = [] from hnil] at hpoint
    simp at hpoint

/-! ## The text determines the value -/

/-- What a first character says about the value: the seven forms, with `true` and
`false` apart, and the bracket that closes an array. -/
def leads (c : Char) : Nat :=
  if c = 'n' then 0
  else if c = 't' then 1
  else if c = 'f' then 2
  else if c = '"' then 3
  else if c = '[' then 4
  else if c = '\x7b' then 5
  else if c = ']' then 6
  else 7

def form : Json → Nat
  | .null => 0
  | .bool true => 1
  | .bool false => 2
  | .str _ => 3
  | .arr _ => 4
  | .obj _ => 5
  | .num _ => 7

omit [FloatRepr] in
theorem form_ne (j : Json) : j.form ≠ 6 := by
  cases j with
  | bool b => cases b <;> simp [form]
  | _ => simp [form]

omit [FloatRepr] in
theorem leads_of_numberChar {c : Char} (hc : numberChar c = true) : leads c = 7 := by
  have hne : ∀ d, numberChar d = false → c ≠ d := by
    intro d hd heq
    rw [heq, hd] at hc
    exact absurd hc (by decide)
  simp [leads, hne 'n' rfl, hne 't' rfl, hne 'f' rfl, hne '"' rfl, hne '[' rfl, hne '\x7b' rfl,
    hne ']' rfl]

theorem render_head {j : Json} (h : j.dumpable = true) :
    ∃ c cs, j.render = c :: cs ∧ leads c = j.form := by
  cases j with
  | null => exact ⟨_, _, rfl, rfl⟩
  | bool b => cases b <;> exact ⟨_, _, rfl, rfl⟩
  | str s => exact ⟨_, _, rfl, rfl⟩
  | arr xs => exact ⟨_, _, rfl, rfl⟩
  | obj kvs => exact ⟨_, _, rfl, rfl⟩
  | num n =>
      obtain ⟨c, cs, hcs⟩ := List.exists_cons_of_ne_nil (numText_ne_nil h)
      have hc : c ∈ numText n := by
        rw [hcs]
        exact List.mem_cons_self
      exact ⟨c, cs, hcs, leads_of_numberChar (numText_chars h c hc)⟩

theorem form_eq {a b : Json} {r r' : List Char} (ha : a.dumpable = true)
    (hb : b.dumpable = true) (h : a.render ++ r = b.render ++ r') : a.form = b.form := by
  obtain ⟨c, cs, hc, hlc⟩ := render_head ha
  obtain ⟨d, ds, hd, hld⟩ := render_head hb
  rw [hc, hd] at h
  rw [← hlc, ← hld, (List.cons.inj h).1]

/-- No value begins like the end of an array. -/
theorem render_ne_close {j : Json} (hj : j.dumpable = true) {r r' : List Char} :
    j.render ++ r ≠ ']' :: r' := by
  intro h
  obtain ⟨c, cs, hc, hlead⟩ := render_head hj
  rw [hc] at h
  rw [(List.cons.inj h).1] at hlead
  exact form_ne j hlead.symm

/-- What may follow a value in a text. -/
def After (r : List Char) : Prop := Leaves numberChar r

omit [FloatRepr] in
theorem after_cons {c : Char} (hc : numberChar c = false) (cs : List Char) : After (c :: cs) :=
  leaves_cons hc cs

theorem after_moreItems (xs : List Json) (r : List Char) : After (renderMoreItems xs ++ r) := by
  cases xs with
  | nil => exact after_cons rfl _
  | cons x xs => exact after_cons rfl _

theorem after_moreFields (kvs : List (String × Json)) (r : List Char) :
    After (renderMoreFields kvs ++ r) := by
  cases kvs with
  | nil => exact after_cons rfl _
  | cons kv kvs => exact after_cons rfl _

mutual
/-- Two texts that begin with a value begin with the same value. -/
theorem render_inj : ∀ (a b : Json) (r r' : List Char), a.dumpable = true →
    b.dumpable = true → After r → After r' → a.render ++ r = b.render ++ r' → a = b ∧ r = r'
  | .null, b, r, r', ha, hb, _, _, h => by
      have hform := form_eq ha hb h
      cases b with
      | null => exact ⟨rfl, List.append_cancel_left h⟩
      | bool b => cases b <;> simp [form] at hform
      | _ => simp [form] at hform
  | .bool x, b, r, r', ha, hb, _, _, h => by
      have hform := form_eq ha hb h
      cases b with
      | bool y =>
          have hxy : x = y := by cases x <;> cases y <;> simp_all [form]
          subst hxy
          exact ⟨rfl, List.append_cancel_left h⟩
      | _ => cases x <;> simp [form] at hform
  | .num x, b, r, r', ha, hb, hr, hr', h => by
      have hform := form_eq ha hb h
      cases b with
      | num y =>
          obtain ⟨htext, hrest⟩ := token_inj (numText_chars ha) (numText_chars hb) hr hr' h
          exact ⟨congrArg Json.num (numText_inj ha hb htext), hrest⟩
      | bool b => cases b <;> simp [form] at hform
      | _ => simp [form] at hform
  | .str x, b, r, r', ha, hb, _, _, h => by
      have hform := form_eq ha hb h
      cases b with
      | str y =>
          obtain ⟨rfl, hrest⟩ := quoted_instant x y r r' h
          exact ⟨rfl, hrest⟩
      | bool b => cases b <;> simp [form] at hform
      | _ => simp [form] at hform
  | .arr xs, b, r, r', ha, hb, _, _, h => by
      have hform := form_eq ha hb h
      cases b with
      | arr ys =>
          obtain ⟨rfl, hrest⟩ := renderItems_inj xs ys r r' ha hb (List.cons.inj h).2
          exact ⟨rfl, hrest⟩
      | bool b => cases b <;> simp [form] at hform
      | _ => simp [form] at hform
  | .obj kvs, b, r, r', ha, hb, _, _, h => by
      have hform := form_eq ha hb h
      cases b with
      | obj ys =>
          obtain ⟨rfl, hrest⟩ := renderFields_inj kvs ys r r' ha hb (List.cons.inj h).2
          exact ⟨rfl, hrest⟩
      | bool b => cases b <;> simp [form] at hform
      | _ => simp [form] at hform

theorem renderItems_inj : ∀ (xs ys : List Json) (r r' : List Char),
    dumpableItems xs = true → dumpableItems ys = true →
    renderItems xs ++ r = renderItems ys ++ r' → xs = ys ∧ r = r'
  | [], [], _, _, _, _, h => ⟨rfl, (List.cons.inj h).2⟩
  | [], y :: ys, r, r', _, hy, h => by
      have hser := (Bool.and_eq_true_iff.mp hy).1
      rw [renderItems, renderItems, List.append_assoc] at h
      exact absurd h.symm (render_ne_close hser)
  | x :: xs, [], r, r', hx, _, h => by
      have hser := (Bool.and_eq_true_iff.mp hx).1
      rw [renderItems, renderItems, List.append_assoc] at h
      exact absurd h (render_ne_close hser)
  | x :: xs, y :: ys, r, r', hx, hy, h => by
      obtain ⟨hx, hxs⟩ := Bool.and_eq_true_iff.mp hx
      obtain ⟨hy, hys⟩ := Bool.and_eq_true_iff.mp hy
      rw [renderItems, renderItems, List.append_assoc, List.append_assoc] at h
      obtain ⟨rfl, hmore⟩ := render_inj x y _ _ hx hy (after_moreItems xs r)
        (after_moreItems ys r') h
      obtain ⟨rfl, hrest⟩ := renderMoreItems_inj xs ys r r' hxs hys hmore
      exact ⟨rfl, hrest⟩

theorem renderMoreItems_inj : ∀ (xs ys : List Json) (r r' : List Char),
    dumpableItems xs = true → dumpableItems ys = true →
    renderMoreItems xs ++ r = renderMoreItems ys ++ r' → xs = ys ∧ r = r'
  | [], [], _, _, _, _, h => ⟨rfl, (List.cons.inj h).2⟩
  | [], y :: ys, _, _, _, _, h => absurd (List.cons.inj h).1 (by decide)
  | x :: xs, [], _, _, _, _, h => absurd (List.cons.inj h).1 (by decide)
  | x :: xs, y :: ys, r, r', hx, hy, h => by
      obtain ⟨hx, hxs⟩ := Bool.and_eq_true_iff.mp hx
      obtain ⟨hy, hys⟩ := Bool.and_eq_true_iff.mp hy
      have htail := (List.cons.inj h).2
      rw [List.append_eq, List.append_eq, List.append_assoc, List.append_assoc] at htail
      obtain ⟨rfl, hmore⟩ := render_inj x y _ _ hx hy (after_moreItems xs r)
        (after_moreItems ys r') htail
      obtain ⟨rfl, hrest⟩ := renderMoreItems_inj xs ys r r' hxs hys hmore
      exact ⟨rfl, hrest⟩

theorem renderFields_inj : ∀ (xs ys : List (String × Json)) (r r' : List Char),
    dumpableFields xs = true → dumpableFields ys = true →
    renderFields xs ++ r = renderFields ys ++ r' → xs = ys ∧ r = r'
  | [], [], _, _, _, _, h => ⟨rfl, (List.cons.inj h).2⟩
  | [], (k, y) :: ys, _, _, _, _, h => absurd (List.cons.inj h).1 (by decide)
  | (k, x) :: xs, [], _, _, _, _, h => absurd (List.cons.inj h).1 (by decide)
  | (k, x) :: xs, (l, y) :: ys, r, r', hx, hy, h => by
      obtain ⟨hvx, hxs⟩ := Bool.and_eq_true_iff.mp hx
      obtain ⟨hvy, hys⟩ := Bool.and_eq_true_iff.mp hy
      rw [renderFields, renderFields, List.append_assoc, List.append_assoc] at h
      obtain ⟨rfl, hvalue⟩ := quoted_instant _ _ _ _ h
      have htail := (List.cons.inj hvalue).2
      rw [List.append_eq, List.append_eq, List.append_assoc, List.append_assoc] at htail
      obtain ⟨rfl, hmore⟩ := render_inj x y _ _ hvx hvy (after_moreFields xs r)
        (after_moreFields ys r') htail
      obtain ⟨rfl, hrest⟩ := renderMoreFields_inj xs ys r r' hxs hys hmore
      exact ⟨rfl, hrest⟩

theorem renderMoreFields_inj : ∀ (xs ys : List (String × Json)) (r r' : List Char),
    dumpableFields xs = true → dumpableFields ys = true →
    renderMoreFields xs ++ r = renderMoreFields ys ++ r' → xs = ys ∧ r = r'
  | [], [], _, _, _, _, h => ⟨rfl, (List.cons.inj h).2⟩
  | [], (k, y) :: ys, _, _, _, _, h => absurd (List.cons.inj h).1 (by decide)
  | (k, x) :: xs, [], _, _, _, _, h => absurd (List.cons.inj h).1 (by decide)
  | (k, x) :: xs, (l, y) :: ys, r, r', hx, hy, h => by
      obtain ⟨hvx, hxs⟩ := Bool.and_eq_true_iff.mp hx
      obtain ⟨hvy, hys⟩ := Bool.and_eq_true_iff.mp hy
      have hkey := (List.cons.inj h).2
      rw [List.append_eq, List.append_eq, List.append_assoc, List.append_assoc] at hkey
      obtain ⟨rfl, hvalue⟩ := quoted_instant _ _ _ _ hkey
      have htail := (List.cons.inj hvalue).2
      rw [List.append_eq, List.append_eq, List.append_assoc, List.append_assoc] at htail
      obtain ⟨rfl, hmore⟩ := render_inj x y _ _ hvx hvy (after_moreFields xs r)
        (after_moreFields ys r') htail
      obtain ⟨rfl, hrest⟩ := renderMoreFields_inj xs ys r r' hxs hys hmore
      exact ⟨rfl, hrest⟩
end

/-! ## `json.dumps` -/

omit [FloatRepr] in
mutual
theorem dumpable_canonical : ∀ j : Json, (canonical j).dumpable = j.dumpable
  | .null | .bool _ | .num _ | .str _ => rfl
  | .arr xs => by
      rw [canonical, dumpable, dumpable]
      exact dumpable_canonicalList xs
  | .obj kvs => by
      rw [canonical, dumpable, dumpable, ← dumpable_canonicalFields kvs,
        dumpableFields_eq, dumpableFields_eq]
      exact (List.perm_insertionSort _ _).all_eq

theorem dumpable_canonicalList : ∀ xs : List Json,
    dumpableItems (canonicalList xs) = dumpableItems xs
  | [] => rfl
  | x :: xs => by
      rw [canonicalList, dumpableItems, dumpableItems, dumpable_canonical x,
        dumpable_canonicalList xs]

theorem dumpable_canonicalFields : ∀ kvs : List (String × Json),
    dumpableFields (canonicalFields kvs) = dumpableFields kvs
  | [] => rfl
  | (k, x) :: kvs => by
      rw [canonicalFields, dumpableFields, dumpableFields, dumpable_canonical x,
        dumpable_canonicalFields kvs]
end

/-- The text of a value with sorted keys. -/
def canonicalText (j : Json) : List Char := j.canonical.render

/-- **The canonical text tells values apart** up to the order of their keys. -/
theorem canonicalText_inj {a b : Json} (ha : a.dumpable = true) (hb : b.dumpable = true) :
    a.canonicalText = b.canonicalText ↔ a.canonical = b.canonical := by
  refine ⟨fun h => ?_, fun h => congrArg render h⟩
  have htext : a.canonical.render ++ [] = b.canonical.render ++ [] := congrArg (· ++ []) h
  exact (render_inj _ _ [] [] ((dumpable_canonical a).trans ha)
    ((dumpable_canonical b).trans hb) (leaves_nil _) (leaves_nil _) htext).1

/-- `_canonical_json_bytes`.  The text is ASCII, so its length counts bytes. -/
def canonicalBytes (label : String) (j : Json) : Except AtlasError (List Char) :=
  if j.dumpable then .ok j.canonicalText
  else .error (.domainValidation (label ++ " must be JSON-serializable"))

end Json

end Render

end Atlas
