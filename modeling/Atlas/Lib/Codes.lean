import Mathlib.Algebra.Ring.Nat

/-!
# Codes that can be read back

A text is a list of characters.  A code is *instant* when the words of a text
written with it can be told apart without looking at what follows them; a token,
a run of characters of one class, can be told apart when what follows begins
outside the class.  Numerals are read back by their value.
-/

namespace Codes

variable {α σ : Type*}

/-- The end of a word is seen from the word itself. -/
def Instant (code : α → List σ) : Prop :=
  ∀ a b r r', code a ++ r = code b ++ r' → a = b ∧ r = r'

theorem instant_of_read {code : α → List σ} {read : List σ → Option (α × List σ)}
    (hread : ∀ a r, read (code a ++ r) = some (a, r)) : Instant code := by
  intro a b r r' h
  have hsame := congrArg read h
  rw [hread, hread] at hsame
  simpa using hsame

/-- A sequence of words up to a closing character that no word begins with. -/
theorem Instant.sequence {code : α → List σ} (hcode : Instant code) {close : σ}
    (hclose : ∀ a, ∃ c cs, code a = c :: cs ∧ c ≠ close) {xs ys : List α} {r r' : List σ}
    (h : xs.flatMap code ++ close :: r = ys.flatMap code ++ close :: r') : xs = ys ∧ r = r' := by
  induction xs generalizing ys with
  | nil =>
      cases ys with
      | nil => simpa using h
      | cons y ys =>
          obtain ⟨c, cs, hc, hne⟩ := hclose y
          rw [List.flatMap_cons, hc] at h
          have hhead : close = c := (List.cons.inj h).1
          exact absurd hhead.symm hne
  | cons x xs ih =>
      cases ys with
      | nil =>
          obtain ⟨c, cs, hc, hne⟩ := hclose x
          rw [List.flatMap_cons, hc] at h
          have hhead : c = close := (List.cons.inj h).1
          exact absurd hhead hne
      | cons y ys =>
          rw [List.flatMap_cons, List.flatMap_cons, List.append_assoc, List.append_assoc] at h
          obtain ⟨rfl, hrest⟩ := hcode _ _ _ _ h
          obtain ⟨rfl, rfl⟩ := ih hrest
          exact ⟨rfl, rfl⟩

/-- The text is empty or begins outside the class. -/
def Leaves (p : σ → Bool) (r : List σ) : Prop := ∀ c cs, r = c :: cs → p c = false

theorem leaves_nil (p : σ → Bool) : Leaves p [] := by
  intro c cs h
  simp at h

theorem leaves_cons {p : σ → Bool} {c : σ} (hc : p c = false) (cs : List σ) :
    Leaves p (c :: cs) := by
  intro d ds h
  rw [← (List.cons.inj h).1]
  exact hc

/-- Two tokens of a class, each followed by a text that leaves the class. -/
theorem token_inj {p : σ → Bool} {xs ys r r' : List σ} (hxs : ∀ c ∈ xs, p c = true)
    (hys : ∀ c ∈ ys, p c = true) (hr : Leaves p r) (hr' : Leaves p r')
    (h : xs ++ r = ys ++ r') : xs = ys ∧ r = r' := by
  induction xs generalizing ys with
  | nil =>
      cases ys with
      | nil => exact ⟨rfl, h⟩
      | cons y ys =>
          have hy := hys y List.mem_cons_self
          rw [hr y (ys ++ r') h] at hy
          simp at hy
  | cons x xs ih =>
      cases ys with
      | nil =>
          have hx := hxs x List.mem_cons_self
          rw [hr' x (xs ++ r) h.symm] at hx
          simp at hx
      | cons y ys =>
          obtain ⟨rfl, htail⟩ := List.cons.inj h
          obtain ⟨rfl, rfl⟩ := ih (fun c hc => hxs c (List.mem_cons_of_mem _ hc))
            (fun c hc => hys c (List.mem_cons_of_mem _ hc)) htail
          exact ⟨rfl, rfl⟩

/-! ## Decimal numerals -/

theorem toDigits_ten_injective : Function.Injective (Nat.toDigits 10) := by
  intro a b h
  have hread := congrArg (fun cs => Nat.ofDigitChars 10 cs 0) h
  simpa only [Nat.ofDigitChars_ten_toDigits] using hread

theorem toString_nat_injective : Function.Injective (toString : Nat → String) := by
  intro a b h
  apply toDigits_ten_injective
  rw [← Nat.toList_repr, ← Nat.toList_repr]
  exact congrArg String.toList h

/-! ## Hexadecimal numerals -/

/-- The value of a hexadecimal digit in lower case. -/
def hexValue (c : Char) : Option Nat :=
  if c.isDigit then some (c.toNat - '0'.toNat)
  else if 'a' ≤ c ∧ c ≤ 'f' then some (c.toNat - 'a'.toNat + 10)
  else none

/-- Read a numeral from the left. -/
def readHex : Nat → List Char → Option Nat
  | v, [] => some v
  | v, c :: cs =>
      match hexValue c with
      | some d => readHex (16 * v + d) cs
      | none => none

/-- A numeral of at least so many digits. -/
def hex (width n : Nat) : List Char :=
  List.replicate (width - (Nat.toDigits 16 n).length) '0' ++ Nat.toDigits 16 n

theorem readHex_append (v : Nat) (xs ys : List Char) :
    readHex v (xs ++ ys) = (readHex v xs).bind fun w => readHex w ys := by
  induction xs generalizing v with
  | nil => rfl
  | cons c cs ih =>
      rw [List.cons_append, readHex, readHex]
      cases hexValue c with
      | none => rfl
      | some d => exact ih _

/-- What is read as a numeral consists of digits. -/
theorem readHex_mem {v n : Nat} {cs : List Char} (h : readHex v cs = some n) :
    ∀ c ∈ cs, (hexValue c).isSome := by
  induction cs generalizing v with
  | nil => simp
  | cons d ds ih =>
      rw [readHex] at h
      cases hd : hexValue d with
      | none =>
          rw [hd] at h
          cases h
      | some value =>
          rw [hd] at h
          intro c hc
          rcases List.mem_cons.mp hc with rfl | hc
          · rw [hd]
            rfl
          · exact ih h c hc

theorem hexValue_digitChar {d : Nat} (hd : d < 16) : hexValue d.digitChar = some d := by
  have hall : ∀ d : Fin 16, hexValue d.val.digitChar = some d.val := by decide
  exact hall ⟨d, hd⟩

theorem readHex_toDigits (n : Nat) : readHex 0 (Nat.toDigits 16 n) = some n := by
  induction n using Nat.strongRecOn with
  | ind n ih =>
      by_cases hn : n < 16
      · rw [Nat.toDigits_of_lt_base hn]
        simp [readHex, hexValue_digitChar hn]
      · have hdiv : n / 16 < n := Nat.div_lt_self (by omega) (by omega)
        rw [Nat.toDigits_of_base_le (by omega) (by omega), readHex_append, ih _ hdiv]
        simp only [Option.bind_some, readHex, hexValue_digitChar (Nat.mod_lt n (by omega : 0 < 16))]
        rw [Nat.div_add_mod]

theorem readHex_hex (width n : Nat) : readHex 0 (hex width n) = some n := by
  have hzeros : ∀ k, readHex 0 (List.replicate k '0') = some 0 := by
    intro k
    induction k with
    | zero => rfl
    | succ k ih => exact ih
  rw [hex, readHex_append, hzeros]
  exact readHex_toDigits n

/-- Numerals of one width read back to one number. -/
theorem hex_injective (width : Nat) : Function.Injective (hex width) := by
  intro a b h
  have hread := congrArg (readHex 0) h
  rw [readHex_hex, readHex_hex] at hread
  exact Option.some.inj hread

theorem length_hex {width n : Nat} (hw : 0 < width) (hn : n < 16 ^ width) :
    (hex width n).length = width := by
  have hle := (Nat.length_toDigits_le_iff (b := 16) (by omega) hw).mpr hn
  rw [hex, List.length_append, List.length_replicate]
  omega

theorem le_length_hex (width n : Nat) : width ≤ (hex width n).length := by
  rw [hex, List.length_append, List.length_replicate]
  omega

end Codes
