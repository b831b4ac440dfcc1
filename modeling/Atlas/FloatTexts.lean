import Atlas.Doubles
import Atlas.Numerals

/-!
# How `float` and `int` read a text

What is read of a digit part, of a sign and of the names of the infinities.  Two zeros behind the
sign change nothing, an integer is read as the nearest double, and a finite value is a double.
-/

namespace Atlas

/-- The ASCII digits are decimal. -/
class LawfulDigits [PyText] : Prop where
  decimal_digit : ∀ c, c.isDigit = true → PyText.decimal c = some (c.toNat - '0'.toNat)

/-- The ASCII tables. -/
instance : LawfulDigits where
  decimal_digit c hc := by simp [PyText.decimal, hc]

theorem decimal_zero [PyText] [LawfulDigits] : PyText.decimal '0' = some 0 :=
  LawfulDigits.decimal_digit '0' (by decide)

/-! ## Zeros before a numeral -/

section Zeros

variable [PyText]

theorem digitPart_digit {value count d : Nat} {c : Char} {cs : Text} (hc : PyText.decimal c = some d) :
    digitPart value count (c :: cs) = digitPart (value * 10 + d) (count + 1) cs := by
  conv_lhs => unfold digitPart
  simp only [hc]

theorem digitPart_none {value : Nat} {c : Char} {cs : Text} (hc : PyText.decimal c = none) :
    digitPart value 0 (c :: cs) = none := by
  unfold digitPart
  simp only [hc, if_pos]

theorem digitPart_stop {value count : Nat} {c : Char} {cs : Text} (hc : PyText.decimal c = none)
    (hcount : ¬ count = 0) (hno : ∀ d ds, c = '_' → cs = d :: ds → False) :
    digitPart value count (c :: cs) = some (value, count, c :: cs) := by
  unfold digitPart
  simp only [hc, if_neg hcount]

/-- After a digit there is a digit part, and how many digits were read before matters only by
whether there were any. -/
theorem digitPart_count (value : Nat) {count : Nat} (cs : Text) (k : Nat) (h : 0 < count) :
    ∃ r, digitPart value count cs = some r ∧ 0 < r.2.1 ∧
      digitPart value (count + k) cs = some (r.1, r.2.1 + k, r.2.2) := by
  have hpos (n : Nat) (hn : ¬ n = 0) : ¬ n + k = 0 := by omega
  induction value, count, cs using digitPart.induct with
  | case1 value => exact absurd h (by simp)
  | case2 value count hne =>
      exact ⟨(value, count, []), by simp [digitPart, hne], h, by simp [digitPart, hne]⟩
  | case3 value count c cs d hc ih =>
      obtain ⟨r, hr, hread, hrk⟩ := ih (by omega)
      rw [Nat.add_right_comm count 1 k] at hrk
      rw [digitPart_digit hc, digitPart_digit hc]
      exact ⟨r, hr, hread, hrk⟩
  | case4 value c cs hc => exact absurd h (by simp)
  | case5 value count hne d ds v hd hc ih =>
      obtain ⟨r, hr, hread, hrk⟩ := ih (by omega)
      rw [Nat.add_right_comm count 1 k] at hrk
      exact ⟨r, by simpa [digitPart, hc, hd, hne] using hr, hread,
        by simpa [digitPart, hc, hd, hne] using hrk⟩
  | case6 value count hne d ds hd hc =>
      exact ⟨(value, count, '_' :: d :: ds), by simp [digitPart, hc, hd, hne], h,
        by simp [digitPart, hc, hd, hne]⟩
  | case7 value count c cs hc hne hno =>
      exact ⟨(value, count, c :: cs), digitPart_stop hc hne hno, h,
        digitPart_stop hc (hpos count hne) hno⟩

/-- A digit part has digits. -/
theorem digits_pos {cs : Text} {r : Nat × Nat × Text} (h : digitPart 0 0 cs = some r) : 0 < r.2.1 := by
  cases cs with
  | nil => cases h
  | cons c cs =>
      cases hc : PyText.decimal c with
      | none =>
          rw [digitPart_none hc] at h
          cases h
      | some d =>
          obtain ⟨r', hr', hread, -⟩ := @digitPart_count _ (0 * 10 + d) 1 cs 0 (by omega)
          rw [digitPart_digit hc, hr'] at h
          obtain rfl := Option.some.inj h
          exact hread

/-- The digits after a point. -/
def fractionPart (rest : Text) : Nat × Nat × Text :=
  match rest with
  | '.' :: more => (digitPart 0 0 more).getD (0, 0, more)
  | _ => (0, 0, rest)

/-- What `unsignedFloat` makes of the digits before the point and the text behind them. -/
def floatTail (whole digits : Nat) (rest : Text) : Option PyFloat :=
  if digits + (fractionPart rest).2.1 = 0 then none
  else
    (exponentPart (fractionPart rest).2.2).map fun e =>
      roundDouble (((whole : ℚ) + (fractionPart rest).1 / 10 ^ (fractionPart rest).2.1) * (10 : ℚ) ^ e)

/-- The names of the values that are no finite numbers. -/
def floatNames : List Text := ["inf".toList, "infinity".toList, "nan".toList]

theorem unsignedFloat_eq {cs : Text} (h : cs ∉ floatNames) :
    unsignedFloat cs =
      floatTail ((digitPart 0 0 cs).getD (0, 0, cs)).1 ((digitPart 0 0 cs).getD (0, 0, cs)).2.1
        ((digitPart 0 0 cs).getD (0, 0, cs)).2.2 := by
  simp only [floatNames, List.mem_cons, List.not_mem_nil, or_false, not_or] at h
  obtain ⟨hinf, hinfinity, hnan⟩ := h
  unfold unsignedFloat floatTail
  rw [if_neg (not_or.mpr ⟨hinf, hinfinity⟩), if_neg hnan]
  generalize (digitPart 0 0 cs).getD (0, 0, cs) = r
  obtain ⟨whole, digits, rest⟩ := r
  unfold fractionPart
  dsimp only
  congr 1
  split
  · rename_i hexponent
    exact (Option.map_eq_none_iff.mpr hexponent).symm
  · rename_i hexponent
    refine (Option.map_eq_some_iff.mpr ?_).symm
    exact ⟨_, hexponent, rfl⟩

theorem floatTail_more {whole digits : Nat} {rest : Text} {f : PyFloat}
    (h : floatTail whole digits rest = some f) (k : Nat) :
    floatTail whole (digits + k) rest = some f := by
  unfold floatTail at h ⊢
  split at h
  · cases h
  · rename_i hne
    rw [if_neg (by omega)]
    exact h

theorem floatTail_value {whole digits : Nat} {rest : Text} {f : PyFloat}
    (h : floatTail whole digits rest = some f) : ∃ x : ℚ, 0 ≤ x ∧ f = roundDouble x := by
  unfold floatTail at h
  split at h
  · cases h
  · obtain ⟨e, -, rfl⟩ := Option.map_eq_some_iff.mp h
    refine ⟨_, mul_nonneg ?_ (zpow_pos (by norm_num) e).le, rfl⟩
    positivity

variable [LawfulDigits]

/-- **Two zeros in front** change nothing. -/
theorem unsignedFloat_zeros {cs : Text} (hnames : cs ∉ floatNames) {f : PyFloat}
    (h : unsignedFloat cs = some f) : unsignedFloat ('0' :: '0' :: cs) = some f := by
  have hzeros : '0' :: '0' :: cs ∉ floatNames := by simp [floatNames]
  have hzero : digitPart 0 0 ('0' :: '0' :: cs) = digitPart 0 2 cs := by
    rw [digitPart_digit decimal_zero, digitPart_digit decimal_zero]
  rw [unsignedFloat_eq hnames] at h
  rw [unsignedFloat_eq hzeros, hzero]
  cases cs with
  | nil => simp [digitPart, floatTail, fractionPart] at h
  | cons c cs =>
      cases hc : PyText.decimal c with
      | some d =>
          obtain ⟨r, hone, -, hthree⟩ := @digitPart_count _ (0 * 10 + d) 1 cs 2 (by omega)
          rw [digitPart_digit hc, hone] at h
          rw [digitPart_digit hc, hthree]
          exact floatTail_more h 2
      | none =>
          -- the text begins with a point, and its fraction is what is read
          rw [digitPart_none hc] at h
          by_cases hpoint : c = '.'
          · have hno : c ≠ '_' := by
              rw [hpoint]
              decide
            rw [digitPart_stop hc (by omega) fun _ _ hc _ => hno hc]
            exact floatTail_more h 2
          · simp [floatTail, fractionPart, hpoint] at h

/-- The sign of the first text, and behind it the second. -/
def behindSign (cs more : Text) : Text :=
  match cs with
  | '-' :: _ => '-' :: more
  | '+' :: _ => '+' :: more
  | _ => more

/-- The text has no sign. -/
def Unsigned (cs : Text) : Prop := ∀ c ∈ cs.head?, c ≠ '-' ∧ c ≠ '+'

omit [PyText] [LawfulDigits] in
theorem signPart_unsigned {cs : Text} (h : Unsigned cs) : signPart cs = (false, cs) := by
  unfold signPart
  split
  · exact absurd rfl (h _ rfl).1
  · exact absurd rfl (h _ rfl).2
  · rfl

omit [PyText] [LawfulDigits] in
/-- A text begins with a sign or has none. -/
theorem sign_cases (cs : Text) : (∃ r, cs = '-' :: r) ∨ (∃ r, cs = '+' :: r) ∨ Unsigned cs := by
  cases cs with
  | nil => exact .inr (.inr (by simp [Unsigned]))
  | cons c r =>
      by_cases hminus : c = '-'
      · exact .inl ⟨r, by rw [hminus]⟩
      · by_cases hplus : c = '+'
        · exact .inr (.inl ⟨r, by rw [hplus]⟩)
        · exact .inr (.inr (by simp [Unsigned, hminus, hplus]))

omit [PyText] [LawfulDigits] in
theorem behindSign_unsigned {cs : Text} (h : Unsigned cs) (more : Text) : behindSign cs more = more := by
  unfold behindSign
  split
  · exact absurd rfl (h _ rfl).1
  · exact absurd rfl (h _ rfl).2
  · rfl

omit [PyText] [LawfulDigits] in
theorem signPart_behindSign (cs : Text) {more : Text} (h : Unsigned more) :
    signPart (behindSign cs more) = ((signPart cs).1, more) := by
  rcases sign_cases cs with ⟨r, rfl⟩ | ⟨r, rfl⟩ | hcs
  · rfl
  · rfl
  · rw [behindSign_unsigned hcs, signPart_unsigned hcs, signPart_unsigned h]

omit [PyText] [LawfulDigits] in
theorem behindSign_signPart (cs : Text) : behindSign cs (signPart cs).2 = cs := by
  rcases sign_cases cs with ⟨r, rfl⟩ | ⟨r, rfl⟩ | hcs
  · rfl
  · rfl
  · rw [behindSign_unsigned hcs, signPart_unsigned hcs]

omit [LawfulDigits] in
theorem pyFloat_behindSign (cs : Text) {more : Text} (h : Unsigned more) :
    pyFloat (behindSign cs more) =
      (unsignedFloat more).map fun f => if (signPart cs).1 then f.neg else f := by
  unfold pyFloat
  rw [signPart_behindSign cs h]

/-! ## What `float` reads -/

omit [LawfulDigits] in
/-- A finite value of an unsigned text is rounded, and an infinite one positive. -/
theorem unsignedFloat_value {cs : Text} {f : PyFloat} (h : unsignedFloat cs = some f) :
    f = .inf false ∨ f = .nan ∨ ∃ q, cs ∉ floatNames ∧ f = .finite q ∧ roundDouble q = .finite q := by
  by_cases hnames : cs ∈ floatNames
  · simp only [floatNames, List.mem_cons, List.not_mem_nil, or_false] at hnames
    rcases hnames with rfl | rfl | rfl
    · exact .inl (Option.some.inj h).symm
    · exact .inl (Option.some.inj h).symm
    · exact .inr (.inl (Option.some.inj h).symm)
  · rw [unsignedFloat_eq hnames] at h
    obtain ⟨x, hx, rfl⟩ := floatTail_value h
    cases hround : roundDouble x with
    | finite q => exact .inr (.inr ⟨q, hnames, rfl, roundDouble_roundDouble hround⟩)
    | inf negative => exact .inl (by rw [roundDouble_eq_inf hx hround])
    | nan => exact .inr (.inl rfl)

omit [LawfulDigits] in
/-- A finite value that `float` reads is a double. -/
theorem roundDouble_pyFloat {cs : Text} {q : ℚ} (h : pyFloat cs = some (.finite q)) :
    (signPart cs).2 ∉ floatNames ∧ roundDouble q = .finite q := by
  unfold pyFloat at h
  dsimp only at h
  obtain ⟨f, hf, hq⟩ := Option.map_eq_some_iff.mp h
  rcases unsignedFloat_value hf with rfl | rfl | ⟨x, hnames, rfl, hx⟩
  · split at hq <;> cases hq
  · split at hq <;> cases hq
  · refine ⟨hnames, ?_⟩
    split at hq
    · obtain rfl := PyFloat.finite.inj hq
      rw [roundDouble_neg, hx]
      rfl
    · obtain rfl := PyFloat.finite.inj hq
      exact hx

/-- **Two zeros behind the sign** change nothing about a finite value. -/
theorem pyFloat_zeros {cs : Text} {q : ℚ} (h : pyFloat cs = some (.finite q)) :
    pyFloat (behindSign cs ('0' :: '0' :: (signPart cs).2)) = some (.finite q) := by
  have hnames := (roundDouble_pyFloat h).1
  rw [pyFloat_behindSign cs (by simp [Unsigned])]
  unfold pyFloat at h
  dsimp only at h
  obtain ⟨f, hf, hq⟩ := Option.map_eq_some_iff.mp h
  rw [unsignedFloat_zeros hnames hf, Option.map_some, hq]

omit [LawfulDigits] in
/-- The names of infinity, each behind the sign. -/
theorem pyFloat_infinity {cs name : Text} {negative : Bool}
    (hname : name = "inf".toList ∨ name = "infinity".toList)
    (h : pyFloat cs = some (.inf negative)) :
    pyFloat (behindSign cs name) = some (.inf negative) := by
  have hunsigned : Unsigned name := by rcases hname with rfl | rfl <;> simp [Unsigned]
  have hread : unsignedFloat name = some (.inf false) := by
    unfold unsignedFloat
    rw [if_pos hname]
  rw [pyFloat_behindSign cs hunsigned, hread]
  unfold pyFloat at h
  dsimp only at h
  obtain ⟨f, hf, hinf⟩ := Option.map_eq_some_iff.mp h
  rcases unsignedFloat_value hf with rfl | rfl | ⟨x, -, rfl, -⟩
  · rw [Option.map_some, hinf]
  · split at hinf <;> cases hinf
  · split at hinf <;> cases hinf

/-! ## Integers -/

omit [LawfulDigits] in
/-- What `int` reads, `float` reads. -/
theorem pyFloat_of_pyInt {cs : Text} {n : Int} (h : pyInt cs = some n)
    (hnames : (signPart cs).2 ∉ floatNames) : pyFloat cs = some (roundDouble n) := by
  unfold pyInt at h
  dsimp only at h
  split at h
  · rename_i value count hpart
    split at h
    · cases h
    · obtain rfl := Option.some.inj h
      have hcount : ¬ count = 0 := (digits_pos hpart).ne'
      have htail : unsignedFloat (signPart cs).2 = some (roundDouble value) := by
        rw [unsignedFloat_eq hnames, hpart]
        simp [floatTail, fractionPart, exponentPart, hcount]
      unfold pyFloat
      dsimp only
      rw [htail, Option.map_some]
      split
      · rw [← roundDouble_neg]
        push_cast
        rfl
      · simp
  · cases h

end Zeros

/-! ## The digits of a number -/

section Digits

theorem isDigit_of_mem_toDigits {n : Nat} {c : Char} (h : c ∈ Nat.toDigits 10 n) : c.isDigit = true :=
  Nat.isDigit_of_mem_toDigits (by omega) (by omega) h

theorem toDigits_notMem_floatNames (n : Nat) : Nat.toDigits 10 n ∉ floatNames := by
  intro hname
  have hletter : ∃ c ∈ Nat.toDigits 10 n, c.isDigit = false := by
    simp only [floatNames, List.mem_cons, List.not_mem_nil, or_false] at hname
    rcases hname with h | h | h <;> rw [h] <;> exact ⟨'n', by decide, rfl⟩
  obtain ⟨c, hc, hdigit⟩ := hletter
  rw [isDigit_of_mem_toDigits hc] at hdigit
  cases hdigit

theorem unsigned_toDigits (n : Nat) : Unsigned (Nat.toDigits 10 n) := by
  intro c hc
  have hdigit := isDigit_of_mem_toDigits (List.mem_of_mem_head? hc)
  constructor
  · rintro rfl
    revert hdigit
    decide
  · rintro rfl
    revert hdigit
    decide

variable [PyText] [LawfulDigits]

theorem decimal_digitChar {n : Nat} (h : n < 10) : PyText.decimal (Nat.digitChar n) = some n := by
  have hdigit : ∀ d < 10, (Nat.digitChar d).isDigit = true ∧ (Nat.digitChar d).toNat - '0'.toNat = d := by
    decide
  rw [LawfulDigits.decimal_digit _ (hdigit n h).1, (hdigit n h).2]

/-- The digits of a number are read as the number. -/
theorem digitPart_toDigits (n value count : Nat) (cs : Text) :
    digitPart value count (Nat.toDigits 10 n ++ cs) =
      digitPart (value * 10 ^ (Nat.toDigits 10 n).length + n) (count + (Nat.toDigits 10 n).length) cs := by
  induction n using Nat.strongRecOn generalizing cs with
  | ind n ih =>
      rcases Nat.lt_or_ge n 10 with hlt | hge
      · rw [Nat.toDigits_of_lt_base hlt, List.singleton_append, digitPart_digit (decimal_digitChar hlt)]
        simp
      · have hlast := decimal_digitChar (Nat.mod_lt n (by omega) : n % 10 < 10)
        have hvalue (k : Nat) :
            (value * 10 ^ k + n / 10) * 10 + n % 10 = value * 10 ^ (k + 1) + n := by
          have hsplit : n / 10 * 10 + n % 10 = n := by omega
          calc (value * 10 ^ k + n / 10) * 10 + n % 10
              = value * (10 ^ k * 10) + (n / 10 * 10 + n % 10) := by ring
            _ = value * 10 ^ (k + 1) + n := by rw [hsplit, pow_succ]
        rw [Nat.toDigits_of_base_le (by omega) hge, List.append_assoc, List.singleton_append,
          ih (n / 10) (by omega), digitPart_digit hlast, hvalue, List.length_append, List.length_singleton,
          Nat.add_assoc]

/-- `float` of the digits of a number is the nearest double. -/
theorem pyFloat_toDigits (n : Nat) : pyFloat (Nat.toDigits 10 n) = some (roundDouble n) := by
  have hlength : ¬ (Nat.toDigits 10 n).length = 0 := Nat.length_toDigits_pos.ne'
  have hpart : digitPart 0 0 (Nat.toDigits 10 n) = some (n, (Nat.toDigits 10 n).length, []) := by
    have h := digitPart_toDigits n 0 0 []
    rw [List.append_nil, zero_mul, zero_add, zero_add] at h
    rw [h]
    simp [digitPart, hlength]
  have hunsigned : unsignedFloat (Nat.toDigits 10 n) = some (roundDouble n) := by
    rw [unsignedFloat_eq (toDigits_notMem_floatNames n), hpart]
    simp [floatTail, fractionPart, exponentPart, hlength]
  unfold pyFloat
  rw [signPart_unsigned (unsigned_toDigits n)]
  dsimp only
  rw [hunsigned]
  rfl

end Digits

/-! ## Integers without leading zeros -/

/-- The digits of a positive number do not begin with a zero. -/
theorem head_toDigits {n : Nat} (h : 0 < n) : (Nat.toDigits 10 n).head? ≠ some '0' := by
  induction n using Nat.strongRecOn with
  | ind n ih =>
      rcases Nat.lt_or_ge n 10 with hlt | hge
      · have hdigit : ∀ d < 10, 0 < d → [Nat.digitChar d].head? ≠ some '0' := by decide
        rw [Nat.toDigits_of_lt_base hlt]
        exact hdigit n hlt h
      · rw [Nat.toDigits_of_base_le (by omega) hge]
        have hdiv := ih (n / 10) (by omega) (by omega)
        rw [List.head?_append]
        cases hhead : (Nat.toDigits 10 (n / 10)).head? with
        | none => exact absurd (List.head?_eq_none_iff.mp hhead) Nat.toDigits_ne_nil
        | some c => rwa [hhead] at hdiv

theorem signPart_toString_int (n : Int) :
    (signPart (toString n).toList).2 = Nat.toDigits 10 n.natAbs := by
  rw [toList_toString_int]
  split
  · have habs : n.toNat = n.natAbs := by omega
    rw [signPart_unsigned (unsigned_toDigits _), habs]
  · have habs : (-n).toNat = n.natAbs := by omega
    rw [habs]
    rfl

/-- The text of an integer has no two zeros behind its sign. -/
theorem toString_ne_zeros (n : Int) (cs rest : Text) :
    (toString n).toList ≠ behindSign cs ('0' :: '0' :: rest) := by
  intro h
  have hsign := signPart_toString_int n
  rw [h, signPart_behindSign cs (by simp [Unsigned])] at hsign
  rcases Nat.eq_zero_or_pos n.natAbs with hzero | hpos
  · rw [hzero] at hsign
    simp at hsign
  · have hhead := head_toDigits hpos
    rw [← hsign] at hhead
    exact hhead rfl

end Atlas
