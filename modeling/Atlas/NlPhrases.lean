import Atlas.NlQuery

/-!
# The phrases of a query

The passes over dates and counts take every match of their patterns: no pattern of theirs can
begin inside a match of an earlier one, apart from bare years, of which at most one is taken.
So what these passes read can be said of the text alone, by the patterns, without the parts
that were taken before.
-/

namespace Atlas

open Outcome Regex

/-! ## Numbers -/

section Numbers

variable [PyText] [PyRegex]

/-- The value of a text of digits. -/
def numberOf (text : List Char) : Nat := digitsValue (text.map fun c => (PyText.decimal c).getD 0)

/-- The text has decimal digits only. -/
def Digits (text : List Char) : Prop := ∀ c ∈ text, Tables.digit c = true

theorem readInt_digits {text : List Char} (h : Digits text) : readInt text = .ok (numberOf text) := by
  have hdigits : decimalDigits text = some (text.map fun c => (PyText.decimal c).getD 0) := by
    unfold decimalDigits
    induction text with
    | nil => rfl
    | cons c text ih =>
        have hc := h c List.mem_cons_self
        rw [PyRegex.digit_decimal] at hc
        obtain ⟨n, hn⟩ := Option.isSome_iff_exists.mp hc
        rw [List.mapM_cons, hn, ih fun d hd => h d (List.mem_cons_of_mem c hd)]
        simp [hn]
  unfold readInt numberOf
  rw [hdigits]
  rfl

omit [PyText] [PyRegex] in
theorem foldl_digits_lt {ds : List Nat} (h : ∀ d ∈ ds, d ≤ 9) {n k : Nat} (hn : n < 10 ^ k) :
    ds.foldl (fun n d => n * 10 + d) n < 10 ^ (k + ds.length) := by
  induction ds generalizing n k with
  | nil => simpa using hn
  | cons d ds ih =>
      have hd := h d List.mem_cons_self
      have hstep : n * 10 + d < 10 ^ (k + 1) := by
        rw [Nat.pow_succ]
        omega
      have hrest := ih (fun e he => h e (List.mem_cons_of_mem d he)) hstep
      rw [List.foldl_cons, List.length_cons]
      have hlength : k + 1 + ds.length = k + (ds.length + 1) := by omega
      rwa [hlength] at hrest

theorem decimal_getD_le (c : Char) : (PyText.decimal c).getD 0 ≤ 9 := by
  cases hc : PyText.decimal c with
  | none => simp
  | some n => simpa using PyRegex.decimal_le c n hc

theorem numberOf_lt (text : List Char) : numberOf text < 10 ^ text.length := by
  have hdigits : ∀ d ∈ text.map fun c => (PyText.decimal c).getD 0, d ≤ 9 := by
    intro d hd
    obtain ⟨c, -, rfl⟩ := List.mem_map.mp hd
    exact decimal_getD_le c
  have hlt := foldl_digits_lt hdigits (show 0 < 10 ^ 0 by decide)
  simpa [numberOf, digitsValue] using hlt

end Numbers

/-! ## Groups -/

section Groups

variable [PyText] [PyRegex] {c d : Place} {gs : List (List Char)} {query : List Char} {m : Match}

/-- The pattern can capture these groups. -/
def Captures (r : Pattern) (gs : List (List Char)) : Prop := ∃ c d : Place, (d, gs) ∈ run r c

theorem Captures.textOf {s : String} (h : Captures (textOf s) gs) : gs = [] := by
  obtain ⟨c, d, h⟩ := h
  exact (mem_run_literal h).1

theorem Captures.blanks {least : Nat} (h : Captures (.many .space least none) gs) : gs = [] := by
  obtain ⟨c, d, h⟩ := h
  exact (mem_run_many h).1

theorem Captures.oneOf {ss : List String} (h : Captures (oneOf ss) gs) : gs = [] := by
  induction ss with
  | nil =>
      obtain ⟨c, d, h⟩ := h
      cases List.mem_singleton.mp h
      rfl
  | cons s ss ih =>
      cases ss with
      | nil => exact h.textOf
      | cons t ss =>
          obtain ⟨c, d, h⟩ := h
          rcases mem_run_alt.mp h with h | h
          · exact Captures.textOf ⟨c, d, h⟩
          · exact ih ⟨c, d, h⟩

theorem Captures.digits {least : Nat} {most : Option Nat}
    (h : Captures (.group (.many .digit least most)) gs) :
    ∃ g, gs = [g] ∧ Digits g ∧ least ≤ g.length ∧ ∀ n ∈ most, g.length ≤ n := by
  obtain ⟨c, d, h⟩ := h
  obtain ⟨g, w, hrun, hw, rfl⟩ := mem_run_group.mp h
  obtain ⟨rfl, w', hw', hall, hleast, hmost⟩ := mem_run_many hrun
  have hsame : w = w' := List.append_cancel_right (hw.1.symm.trans hw'.1)
  subst hsame
  exact ⟨w, rfl, hall, hleast, hmost⟩

theorem Captures.monthName (h : Captures monthName gs) : ∃ g, gs = [g] := by
  obtain ⟨c, d, h⟩ := h
  obtain ⟨g, w, hrun, -, rfl⟩ := mem_run_group.mp h
  cases Captures.oneOf ⟨c, d, hrun⟩
  exact ⟨w, rfl⟩

/-- A year of four digits. -/
def IsYear (text : List Char) : Prop := Digits text ∧ text.length = 4

theorem Captures.fourDigits (h : Captures fourDigits gs) : ∃ g, gs = [g] ∧ IsYear g := by
  obtain ⟨g, rfl, hdigits, hleast, hmost⟩ := Captures.digits h
  exact ⟨g, rfl, hdigits, le_antisymm (hmost 4 rfl) hleast⟩

/-- The groups of a sequence are those of its parts. -/
theorem captures_upToEdge {rs : List Pattern} (h : (d, gs) ∈ run (upToEdge rs) c) :
    ∃ gss, List.Forall₂ Captures rs gss ∧ gs = gss.flatten := by
  induction rs generalizing c gs with
  | nil => exact ⟨[], .nil, (mem_run_edge.mp h).2.2⟩
  | cons r rs ih =>
      obtain ⟨c₁, g₁, g₂, hfirst, hrest, rfl⟩ := mem_run_seq.mp h
      obtain ⟨gss, hall, rfl⟩ := ih hrest
      exact ⟨g₁ :: gss, .cons ⟨c, c₁, hfirst⟩ hall, rfl⟩

/-- The body of a match between word boundaries. -/
theorem body_of {rs : List Pattern} (h : m.Of (wordBounded rs) query) :
    ∃ c d : Place, (d, m.groups) ∈ run (upToEdge rs) c ∧ c.Reads m.text d := by
  obtain ⟨c, d, -, -, hrun, hreads⟩ := h
  obtain ⟨c₁, g₁, g₂, hedge, hbody, hgroups⟩ := mem_run_seq.mp hrun
  obtain ⟨-, rfl, rfl⟩ := mem_run_edge.mp hedge
  rw [List.nil_append] at hgroups
  rw [hgroups]
  exact ⟨c₁, d, hbody, hreads⟩

theorem captures_of {rs : List Pattern} (h : m.Of (wordBounded rs) query) :
    ∃ gss, List.Forall₂ Captures rs gss ∧ m.groups = gss.flatten := by
  obtain ⟨c, d, hrun, -⟩ := body_of h
  exact captures_upToEdge hrun

/-- A phrase and a year. -/
theorem groups_phraseYear {s : String}
    (h : m.Of (wordBounded [textOf s, blanks, fourDigits]) query) :
    ∃ y, m.groups = [y] ∧ IsYear y := by
  obtain ⟨gss, hall, hgs⟩ := captures_of h
  obtain _ | ⟨h₁, _ | ⟨h₂, _ | ⟨h₃, _ | _⟩⟩⟩ := hall
  obtain ⟨y, rfl, hy⟩ := Captures.fourDigits h₃
  exact ⟨y, by rw [hgs, Captures.textOf h₁, Captures.blanks h₂]; rfl, hy⟩

theorem groups_between (h : m.Of betweenRe query) :
    ∃ y z, m.groups = [y, z] ∧ IsYear y ∧ IsYear z := by
  obtain ⟨gss, hall, hgs⟩ := captures_of h
  obtain _ | ⟨h₁, _ | ⟨h₂, _ | ⟨h₃, _ | ⟨h₄, _ | ⟨h₅, _ | ⟨h₆, _ | ⟨h₇, _ | _⟩⟩⟩⟩⟩⟩⟩ := hall
  obtain ⟨y, rfl, hy⟩ := Captures.fourDigits h₃
  obtain ⟨z, rfl, hz⟩ := Captures.fourDigits h₇
  refine ⟨y, z, ?_, hy, hz⟩
  rw [hgs, Captures.textOf h₁, Captures.blanks h₂, Captures.blanks h₄, Captures.textOf h₅,
    Captures.blanks h₆]
  rfl

theorem groups_monthRange (h : m.Of monthRangeRe query) :
    ∃ a b y, m.groups = [a, b, y] ∧ IsYear y := by
  obtain ⟨gss, hall, hgs⟩ := captures_of h
  obtain _ | ⟨h₁, _ | ⟨h₂, _ | ⟨h₃, _ | ⟨h₄, _ | ⟨h₅, _ | ⟨h₆, _ | ⟨h₇, _ | _⟩⟩⟩⟩⟩⟩⟩ := hall
  obtain ⟨a, rfl⟩ := Captures.monthName h₁
  obtain ⟨c, d, h₃⟩ := h₃
  obtain ⟨b, rfl⟩ := Captures.monthName h₅
  obtain ⟨y, rfl, hy⟩ := Captures.fourDigits h₇
  refine ⟨a, b, y, ?_, hy⟩
  rw [hgs, Captures.blanks h₂, (mem_run_literal h₃).1, Captures.blanks h₄, Captures.blanks h₆]
  rfl

theorem groups_count {phrases : List String} (h : m.Of (countRe phrases) query) :
    ∃ n, m.groups = [n] ∧ Digits n := by
  obtain ⟨gss, hall, hgs⟩ := captures_of h
  obtain _ | ⟨h₁, _ | ⟨h₂, _ | ⟨h₃, _ | ⟨h₄, _ | ⟨h₅, _ | _⟩⟩⟩⟩⟩ := hall
  obtain ⟨n, rfl, hn, -, -⟩ := Captures.digits h₃
  refine ⟨n, ?_, hn⟩
  rw [hgs, Captures.oneOf h₁, Captures.blanks h₂, Captures.blanks h₄, Captures.oneOf h₅]
  rfl

/-- A literal that keeps its case is read as it is. -/
theorem reads_exact {text w : List Char} (h : (d, gs) ∈ run (.literal false text) c)
    (hw : c.Reads w d) : w = text := by
  obtain ⟨-, w', hw', hall⟩ := mem_run_literal h
  have hsame : w = w' := List.append_cancel_right (hw.1.symm.trans hw'.1)
  subst hsame
  have heq : List.Forall₂ Eq text w := by
    refine List.Forall₂.imp ?_ hall
    intro p x hpx
    exact beq_iff_eq.mp hpx
  exact (List.forall₂_eq_eq_eq ▸ heq : text = w).symm

/-- A bare year is one of two centuries. -/
theorem text_year (h : m.Of yearRe query) :
    Digits m.text ∧ 1900 ≤ numberOf m.text ∧ numberOf m.text ≤ 2099 := by
  obtain ⟨c, d, hrun, hreads⟩ := body_of h
  obtain ⟨c₁, g₁, r₁, h₁, hrest, -⟩ := mem_run_seq.mp hrun
  obtain ⟨c₂, g₂, r₂, h₂, hedge, -⟩ := mem_run_seq.mp hrest
  obtain ⟨-, rfl, -⟩ := mem_run_edge.mp hedge
  obtain ⟨g, w, hcentury, hw, -⟩ := mem_run_group.mp h₁
  obtain ⟨-, x, hx, hdigits, hleast, hmost⟩ := mem_run_many h₂
  have htext : m.text = w ++ x := List.append_cancel_right (hreads.1.symm.trans (hw.trans hx).1)
  have hlength : x.length = 2 := le_antisymm (hmost 2 rfl) hleast
  obtain ⟨a, b, rfl⟩ : ∃ a b, x = [a, b] := List.length_eq_two.mp hlength
  have ha := decimal_getD_le a
  have hb := decimal_getD_le b
  have hyear : ∀ p q : Char, p.isDigit = true → q.isDigit = true → w = [p, q] →
      Digits m.text ∧ numberOf m.text = (p.toNat - '0'.toNat) * 1000 + (q.toNat - '0'.toNat) * 100 +
        (PyText.decimal a).getD 0 * 10 + (PyText.decimal b).getD 0 := by
    intro p q hp hq hw
    rw [htext, hw]
    have hdigit : ∀ x : Char, x.isDigit = true → Tables.digit x = true := by
      intro x hx
      rw [PyRegex.digit_decimal, PyRegex.decimal_digit x hx]
      rfl
    refine ⟨?_, ?_⟩
    · intro x hx
      rcases List.mem_append.mp hx with hx | hx
      · rcases List.mem_pair.mp hx with rfl | rfl
        · exact hdigit _ hp
        · exact hdigit _ hq
      · exact hdigits x hx
    · simp only [numberOf, digitsValue, PyRegex.decimal_digit p hp, PyRegex.decimal_digit q hq,
        List.cons_append, List.nil_append, List.map_cons, List.map_nil, List.foldl_cons,
        List.foldl_nil, Option.getD_some]
      omega
  rcases mem_run_alt.mp hcentury with hlit | hlit
  · obtain ⟨hall, hvalue⟩ := hyear '1' '9' rfl rfl (reads_exact hlit hw)
    rw [show ('1'.toNat - '0'.toNat) * 1000 + ('9'.toNat - '0'.toNat) * 100 = 1900 from rfl] at hvalue
    exact ⟨hall, by omega, by omega⟩
  · obtain ⟨hall, hvalue⟩ := hyear '2' '0' rfl rfl (reads_exact hlit hw)
    rw [show ('2'.toNat - '0'.toNat) * 1000 + ('0'.toNat - '0'.toNat) * 100 = 2000 from rfl] at hvalue
    exact ⟨hall, by omega, by omega⟩

end Groups

/-! ## Passes that skip nothing -/

section Passes

variable [PyText] [PyRegex] {query : List Char} {st : ParseState} {m : Match} {ms : List Match}

/-- The parts are matches of these patterns. -/
def SpansOf (rs : List Pattern) (query : List Char) (spans : List Span) : Prop :=
  ∀ s ∈ spans, ∃ r ∈ rs, ∃ m : Match, m.Of r query ∧ s = Span.of m

theorem SpansOf.append {rs rs' : List Pattern} {a b : List Span} (ha : SpansOf rs query a)
    (hb : SpansOf rs' query b) : SpansOf (rs ++ rs') query (a ++ b) := by
  intro s hs
  rcases List.mem_append.mp hs with hs | hs
  · obtain ⟨r, hr, hm⟩ := ha s hs
    exact ⟨r, List.mem_append_left _ hr, hm⟩
  · obtain ⟨r, hr, hm⟩ := hb s hs
    exact ⟨r, List.mem_append_right _ hr, hm⟩

/-- A match of a pattern that stands apart from those that were taken is free. -/
theorem holds_eq_false {rs : List Pattern} {e : Pattern} {spans : List Span}
    (hspans : SpansOf rs query spans) (hapart : (rs.all fun r => r.apart (.seq .edge e)) = true)
    (hm : m.Of (.seq .edge e) query) : (spans.any fun s => s.holds m) = false := by
  rw [List.any_eq_false]
  intro s hs hholds
  obtain ⟨r, hr, m₀, hm₀, rfl⟩ := hspans s hs
  unfold Span.holds at hholds
  rw [Bool.and_eq_true, decide_eq_true_eq, decide_eq_true_eq] at hholds
  exact apart_sound (List.all_eq_true.mp hapart r hr) hm₀ hm hholds

omit [PyText] [PyRegex] in
theorem taken_consume {parsed : ParsedQuery} {m' : Match} :
    (st.consume parsed m).taken m' = (st.taken m' || (Span.of m).holds m') := by
  unfold ParseState.taken ParseState.consume
  rw [List.any_append, List.any_cons, List.any_nil, Bool.or_false]

omit [PyText] [PyRegex] in
theorem holds_of_le {m' : Match} (h : m.stop ≤ m'.start) : (Span.of m).holds m' = false := by
  unfold Span.holds Span.of
  rw [Bool.and_eq_false_iff, decide_eq_false_iff_not, decide_eq_false_iff_not]
  right
  exact Nat.not_lt.mpr h

/-- What is read from the matches of a pattern, with where it stands. -/
def readings {α : Type} (f : Match → Option α) (ms : List Match) : List (Match × α) :=
  ms.filterMap fun m => (f m).map fun a => (m, a)

/-- The rule that reads something from a match and writes it. -/
def readingRule {α : Type} (f : Match → Option α)
    (w : α → ParsedQuery → Except NlError ParsedQuery) : Rule := fun parsed m =>
  match f m with
  | none => .ok none
  | some a => (w a parsed).map some

theorem spansOf_readings {α : Type} {f : Match → Option α} {r : Pattern} :
    SpansOf [r] query ((readings f (finditer r query)).map fun x => Span.of x.1) := by
  intro s hs
  obtain ⟨x, hx, rfl⟩ := List.mem_map.mp hs
  obtain ⟨m, hm, hread⟩ := List.mem_filterMap.mp hx
  obtain ⟨a, -, rfl⟩ := Option.map_eq_some_iff.mp hread
  exact ⟨r, List.mem_singleton_self r, m, of_mem_finditer hm, rfl⟩

omit [PyText] [PyRegex] in
theorem pass_cons {rule : Rule} :
    st.pass rule (m :: ms) = st.passOne rule m >>= fun st => st.pass rule ms := List.foldlM_cons

omit [PyText] [PyRegex] in
theorem passOne_taken {rule : Rule} (h : st.taken m = true) : st.passOne rule m = .ok st := if_pos h

omit [PyText] [PyRegex] in
theorem passOne_none {rule : Rule} (h : rule st.parsed m = .ok none) :
    st.passOne rule m = .ok st := by
  unfold ParseState.passOne
  rw [h]
  split <;> rfl

omit [PyText] [PyRegex] in
theorem passOne_some {rule : Rule} {parsed : ParsedQuery} (htaken : st.taken m = false)
    (h : rule st.parsed m = .ok (some parsed)) : st.passOne rule m = .ok (st.consume parsed m) := by
  unfold ParseState.passOne
  rw [htaken, h]
  rfl

omit [PyText] [PyRegex] in
theorem passOne_error {rule : Rule} {e : NlError} (htaken : st.taken m = false)
    (h : rule st.parsed m = .error e) : st.passOne rule m = .error e := by
  unfold ParseState.passOne
  rw [htaken, h]
  rfl

omit [PyText] [PyRegex] in
/-- **A pass whose matches are all free** reads them one after another. -/
theorem pass_reading {α : Type} {rule : Rule} {f : Match → Option α}
    {w : α → ParsedQuery → Except NlError ParsedQuery}
    (hrule : ∀ m ∈ ms, ∀ parsed, rule parsed m = readingRule f w parsed m)
    (hfree : ∀ m ∈ ms, st.taken m = false) (hpair : ms.Pairwise fun m m' => m.stop ≤ m'.start) :
    st.pass rule ms = (do
      let parsed ← (readings f ms).foldlM (fun parsed x => w x.2 parsed) st.parsed
      pure ⟨parsed, st.spans ++ (readings f ms).map fun x => Span.of x.1⟩) := by
  induction ms generalizing st with
  | nil => simp [ParseState.pass, readings, pure, Except.pure, bind, Except.bind]
  | cons m ms ih =>
      have hm := hrule m List.mem_cons_self st.parsed
      have hrest := fun m' (hm' : m' ∈ ms) => hrule m' (List.mem_cons_of_mem m hm')
      have hfree₁ := hfree m List.mem_cons_self
      obtain ⟨hnext, hpair⟩ := List.pairwise_cons.mp hpair
      unfold readingRule at hm
      rw [pass_cons]
      cases hf : f m with
      | none =>
          have hread : readings f (m :: ms) = readings f ms :=
            List.filterMap_cons_none (by rw [hf]; rfl)
          rw [hf] at hm
          rw [hread, passOne_none hm]
          exact ih hrest (fun m' hm' => hfree m' (List.mem_cons_of_mem m hm')) hpair
      | some a =>
          have hread : readings f (m :: ms) = (m, a) :: readings f ms :=
            List.filterMap_cons_some (by rw [hf]; rfl)
          rw [hf] at hm
          rw [hread, List.foldlM_cons]
          dsimp only at hm ⊢
          cases hw : w a st.parsed with
          | error e =>
              rw [hw] at hm
              rw [passOne_error hfree₁ hm]
              rfl
          | ok parsed =>
              rw [hw] at hm
              have hfree' : ∀ m' ∈ ms, (st.consume parsed m).taken m' = false := by
                intro m' hm'
                rw [taken_consume, hfree m' (List.mem_cons_of_mem m hm'), holds_of_le (hnext m' hm')]
                rfl
              have htail := ih hrest hfree' hpair
              rw [passOne_some hfree₁ hm, List.map_cons, List.append_cons]
              exact htail

/-- A pass over the matches of a pattern that stands apart from those before. -/
theorem pass_apart {α : Type} {rule : Rule} {f : Match → Option α} {rs : List Pattern} {e : Pattern}
    {w : α → ParsedQuery → Except NlError ParsedQuery} (hspans : SpansOf rs query st.spans)
    (hapart : (rs.all fun r => r.apart (.seq .edge e)) = true)
    (hrule : ∀ m, m.Of (.seq .edge e) query → ∀ parsed, rule parsed m = readingRule f w parsed m) :
    st.pass rule (finditer (.seq .edge e) query) = (do
      let parsed ← (readings f (finditer (.seq .edge e) query)).foldlM
        (fun parsed x => w x.2 parsed) st.parsed
      pure ⟨parsed, st.spans ++
        (readings f (finditer (.seq .edge e) query)).map fun x => Span.of x.1⟩) := by
  refine pass_reading (fun m hm => hrule m (of_mem_finditer hm)) ?_ pairwise_finditer
  intro m hm
  exact holds_eq_false hspans hapart (of_mem_finditer hm)

end Passes

end Atlas
