import Mathlib.Data.List.Basic
import Mathlib.Data.List.Forall2
import Mathlib.Data.List.TakeWhile

/-!
# Regular expressions of a backtracking engine

A pattern is run at a place of a text and gives the ends it can reach in the order in which the
engine tries them, each with the groups it captured; the match is the first.  `finditer` scans a
text from left to right and goes on behind each match.

Two patterns are *apart* when no word that a match of the first can hold may begin a match of the
second.  Which words these are is read off the pattern: its literals, and that its numbers begin
with a digit.  Then no match of the second begins inside a match of the first.
-/

namespace Regex

/-! ## Characters -/

/-- A letter without its case: the ASCII letters, and the four further letters that match one of
them when case is ignored. -/
def fold (c : Char) : Char :=
  if c = 'İ' ∨ c = 'ı' then 'i' else if c = 'ſ' then 's' else if c = '\u212a' then 'k' else c.toLower

/-- A character of ASCII. -/
def plain (c : Char) : Bool := c.toNat < 128

/-- What the engine reads from the Unicode character database: the classes `\d`, `\s` and `\w`,
and which characters match a literal one when case is ignored. -/
class Tables where
  digit : Char → Bool
  space : Char → Bool
  word : Char → Bool
  same : Char → Char → Bool
  digit_word : ∀ c, digit c = true → word c = true
  space_word : ∀ c, space c = true → word c = false
  word_plain : ∀ c, plain c = true → word c = (c.isAlphanum || c == '_')
  word_fold : ∀ c, (fold c).isAlphanum = true → word c = true
  digit_fold : ∀ c, (fold c).isAlpha = true → digit c = false
  same_plain : ∀ p c, plain p = true → (same p c = true ↔ fold c = fold p)

/-- A class of characters. -/
inductive CharSet where
  | digit
  | space
  | word
  | among (cs : List Char)
  | union (a b : CharSet)

def CharSet.has [Tables] : CharSet → Char → Bool
  | digit, c => Tables.digit c
  | space, c => Tables.space c
  | word, c => Tables.word c
  | among cs, c => cs.contains c
  | union a b, c => a.has c || b.has c

/-! ## Patterns -/

/-- A pattern.  Repetition is of one class, as often as possible first. -/
inductive Pattern where
  | nothing
  | many (s : CharSet) (least : Nat) (most : Option Nat)
  | literal (ignoreCase : Bool) (text : List Char)
  | seq (r s : Pattern)
  | alt (r s : Pattern)
  | group (r : Pattern)
  | edge
  | notAhead (r : Pattern)
  | notBehind (s : CharSet)

/-- A place in a text: what is before it, last character first, and what is after it. -/
structure Place where
  before : List Char
  after : List Char

namespace Place

/-- The place so many characters further on. -/
def advance (c : Place) (k : Nat) : Place := ⟨(c.after.take k).reverse ++ c.before, c.after.drop k⟩

/-- Between the two places stands this text. -/
def Reads (c : Place) (w : List Char) (d : Place) : Prop :=
  c.after = w ++ d.after ∧ d.before = w.reverse ++ c.before

theorem Reads.refl (c : Place) : c.Reads [] c := ⟨rfl, rfl⟩

theorem Reads.trans {c d e : Place} {w x : List Char} (h : c.Reads w d) (h' : d.Reads x e) :
    c.Reads (w ++ x) e := by
  refine ⟨?_, ?_⟩
  · rw [h.1, h'.1, List.append_assoc]
  · rw [h'.2, h.2, List.reverse_append, List.append_assoc]

theorem reads_advance (c : Place) {k : Nat} : c.Reads (c.after.take k) (c.advance k) :=
  ⟨(List.take_append_drop k c.after).symm, rfl⟩

/-- Two readings of one text from one place end at one place. -/
theorem Reads.unique {c d e : Place} {w : List Char} (h : c.Reads w d) (h' : c.Reads w e) : d = e := by
  obtain ⟨dbefore, dafter⟩ := d
  obtain ⟨ebefore, eafter⟩ := e
  have hafter : dafter = eafter := List.append_cancel_left (h.1.symm.trans h'.1)
  have hbefore : dbefore = ebefore := h.2.trans h'.2.symm
  rw [hafter, hbefore]

/-- A place on the way: of two places behind one, the nearer reads on to the farther. -/
theorem Reads.split {c d e : Place} {w x y : List Char} (h : c.Reads w d) (h' : c.Reads x e)
    (hx : x = w ++ y) : d.Reads y e := by
  subst hx
  refine ⟨?_, ?_⟩
  · have hcancel := h.1.symm.trans h'.1
    rw [List.append_assoc] at hcancel
    exact List.append_cancel_left hcancel
  · rw [h'.2, h.2, List.reverse_append, List.append_assoc]

variable [Tables]

def wordBefore (c : Place) : Bool := c.before.head?.any Tables.word

def wordAfter (c : Place) : Bool := c.after.head?.any Tables.word

/-- A word begins here. -/
def StartsWord (c : Place) : Prop := c.wordBefore = false ∧ c.wordAfter = true

end Place

section Run

variable [Tables]

/-- Whether a character matches one of the pattern. -/
def sameChar (ignoreCase : Bool) (p c : Char) : Bool :=
  if ignoreCase then Tables.same p c else p == c

/-- Whether the text begins with the literal. -/
def begins (ignoreCase : Bool) : List Char → List Char → Bool
  | [], _ => true
  | _ :: _, [] => false
  | p :: ps, c :: cs => sameChar ignoreCase p c && begins ignoreCase ps cs

/-- How many characters of the class stand here, up to a limit. -/
def countMany (s : CharSet) (most : Option Nat) (cs : List Char) : Nat :=
  let n := (cs.takeWhile s.has).length
  most.elim n (min n)

/-- The ends that a pattern reaches from a place, in the order they are tried, with the groups. -/
def run : Pattern → Place → List (Place × List (List Char))
  | .nothing, c => [(c, [])]
  | .many s least most, c =>
      let n := countMany s most c.after
      (List.range (n + 1 - least)).map fun i => (c.advance (n - i), [])
  | .literal ignoreCase text, c =>
      if begins ignoreCase text c.after then [(c.advance text.length, [])] else []
  | .seq r s, c =>
      (run r c).flatMap fun out => (run s out.1).map fun out' => (out'.1, out.2 ++ out'.2)
  | .alt r s, c => run r c ++ run s c
  | .group r, c =>
      (run r c).map fun out =>
        (out.1, c.after.take (out.1.before.length - c.before.length) :: out.2)
  | .edge, c => if c.wordBefore = c.wordAfter then [] else [(c, [])]
  | .notAhead r, c => if (run r c).isEmpty then [(c, [])] else []
  | .notBehind s, c => if c.before.head?.any s.has then [] else [(c, [])]

/-- A match: where it begins, its text and its groups. -/
structure Match where
  start : Nat
  text : List Char
  groups : List (List Char)
deriving DecidableEq, Repr

def Match.stop (m : Match) : Nat := m.start + m.text.length

/-- `match.group(n)`, from one. -/
def Match.group (m : Match) (n : Nat) : List Char := m.groups.getD (n - 1) []

omit [Tables] in
theorem Match.group_eq {m : Match} {gs : List (List Char)} (h : m.groups = gs) (n : Nat) :
    m.group n = gs.getD (n - 1) [] := by
  rw [group, h]

/-- `pattern.match` at a place. -/
def matchAt (r : Pattern) (c : Place) : Option Match :=
  (run r c).head?.map fun out =>
    ⟨c.before.length, c.after.take (out.1.before.length - c.before.length), out.2⟩

/-- The scan of a text; the first characters may belong to the match before.  The patterns it is
used with match no empty text. -/
def scan (r : Pattern) : List Char → Nat → List Char → List Match
  | _, _, [] => []
  | before, skip + 1, c :: cs => scan r (c :: before) skip cs
  | before, 0, c :: cs =>
      match matchAt r ⟨before, c :: cs⟩ with
      | none => scan r (c :: before) 0 cs
      | some m => m :: scan r (c :: before) (m.text.length - 1) cs

/-- `pattern.finditer(text)`. -/
def finditer (r : Pattern) (text : List Char) : List Match := scan r [] 0 text

end Run

/-! ## What a run reads -/

section Facts

variable [Tables] {c d : Place} {gs : List (List Char)} {r s : Pattern}

theorem mem_run_seq : (d, gs) ∈ run (.seq r s) c ↔
    ∃ c₁ g₁ g₂, (c₁, g₁) ∈ run r c ∧ (d, g₂) ∈ run s c₁ ∧ gs = g₁ ++ g₂ := by
  constructor
  · intro h
    obtain ⟨⟨c₁, g₁⟩, hfirst, hrest⟩ := List.mem_flatMap.mp h
    obtain ⟨⟨d', g₂⟩, hsecond, heq⟩ := List.mem_map.mp hrest
    cases heq
    exact ⟨c₁, g₁, g₂, hfirst, hsecond, rfl⟩
  · intro h
    obtain ⟨c₁, g₁, g₂, hfirst, hsecond, rfl⟩ := h
    exact List.mem_flatMap.mpr ⟨(c₁, g₁), hfirst, List.mem_map.mpr ⟨(d, g₂), hsecond, rfl⟩⟩

theorem mem_run_alt : (d, gs) ∈ run (.alt r s) c ↔ (d, gs) ∈ run r c ∨ (d, gs) ∈ run s c :=
  List.mem_append

theorem mem_run_edge : (d, gs) ∈ run .edge c ↔ c.wordBefore ≠ c.wordAfter ∧ d = c ∧ gs = [] := by
  unfold run
  by_cases h : c.wordBefore = c.wordAfter
  · simp [h]
  · simp [h]

theorem begins_iff {ignoreCase : Bool} {ps cs : List Char} : begins ignoreCase ps cs = true ↔
    ∃ w rest, cs = w ++ rest ∧ List.Forall₂ (fun p c => sameChar ignoreCase p c = true) ps w := by
  induction ps generalizing cs with
  | nil =>
      refine ⟨fun _ => ⟨[], cs, rfl, .nil⟩, fun _ => by simp [begins]⟩
  | cons p ps ih =>
      cases cs with
      | nil =>
          simp only [begins, Bool.false_eq_true, false_iff]
          intro h
          obtain ⟨w, rest, hw, hall⟩ := h
          cases hall
          cases hw
      | cons c cs =>
          simp only [begins, Bool.and_eq_true, ih]
          constructor
          · intro h
            obtain ⟨hc, w, rest, rfl, hall⟩ := h
            exact ⟨c :: w, rest, rfl, .cons hc hall⟩
          · intro h
            obtain ⟨w, rest, hw, hall⟩ := h
            cases hall with
            | cons hc hall =>
                cases hw
                exact ⟨hc, _, rest, rfl, hall⟩

theorem mem_run_literal {ignoreCase : Bool} {text : List Char}
    (h : (d, gs) ∈ run (.literal ignoreCase text) c) :
    gs = [] ∧ ∃ w, c.Reads w d ∧
      List.Forall₂ (fun p c => sameChar ignoreCase p c = true) text w := by
  unfold run at h
  split at h
  · rename_i hbegins
    cases List.mem_singleton.mp h
    obtain ⟨w, rest, hafter, hall⟩ := begins_iff.mp hbegins
    refine ⟨rfl, w, ?_, hall⟩
    have hlength : text.length = w.length := hall.length_eq
    have htake : c.after.take text.length = w := by
      rw [hafter, hlength, List.take_left]
    have hreads : c.Reads (c.after.take text.length) (c.advance text.length) := c.reads_advance
    rwa [htake] at hreads
  · cases h

theorem mem_run_many {t : CharSet} {least : Nat} {most : Option Nat}
    (h : (d, gs) ∈ run (.many t least most) c) :
    gs = [] ∧ ∃ w, c.Reads w d ∧ (∀ x ∈ w, t.has x = true) ∧ least ≤ w.length ∧
      ∀ n ∈ most, w.length ≤ n := by
  unfold run at h
  obtain ⟨i, hi, heq⟩ := List.mem_map.mp h
  cases heq
  have hi' := List.mem_range.mp hi
  have hcount : countMany t most c.after ≤ (c.after.takeWhile t.has).length ∧
      ∀ n ∈ most, countMany t most c.after ≤ n := by
    unfold countMany
    cases most with
    | none => simp
    | some n =>
        refine ⟨Nat.min_le_left _ _, ?_⟩
        intro n' hn'
        cases hn'
        exact Nat.min_le_right _ _
  have hlength : (c.after.take (countMany t most c.after - i)).length =
      countMany t most c.after - i := by
    rw [List.length_take, Nat.min_eq_left]
    have := (List.takeWhile_prefix t.has (l := c.after)).length_le
    omega
  refine ⟨rfl, _, c.reads_advance, ?_, ?_, ?_⟩
  · intro x hx
    have hinitial : c.after.take (countMany t most c.after - i) <+: c.after.takeWhile t.has := by
      refine List.prefix_of_prefix_length_le (List.take_prefix _ _) (List.takeWhile_prefix _) ?_
      rw [hlength]
      omega
    exact List.mem_takeWhile_imp (hinitial.subset hx)
  · rw [hlength]
    omega
  · intro n hn
    rw [hlength]
    have := hcount.2 n hn
    omega

/-- A run reads on. -/
theorem run_reads (h : (d, gs) ∈ run r c) : ∃ w, c.Reads w d := by
  induction r generalizing c d gs with
  | nothing =>
      cases List.mem_singleton.mp h
      exact ⟨[], .refl _⟩
  | many t least most =>
      obtain ⟨-, w, hreads, -⟩ := mem_run_many h
      exact ⟨w, hreads⟩
  | literal ignoreCase text =>
      obtain ⟨-, w, hreads, -⟩ := mem_run_literal h
      exact ⟨w, hreads⟩
  | seq r s ihr ihs =>
      obtain ⟨c₁, g₁, g₂, hfirst, hsecond, -⟩ := mem_run_seq.mp h
      obtain ⟨w, hw⟩ := ihr hfirst
      obtain ⟨x, hx⟩ := ihs hsecond
      exact ⟨w ++ x, hw.trans hx⟩
  | alt r s ihr ihs =>
      rcases mem_run_alt.mp h with h | h
      · exact ihr h
      · exact ihs h
  | group r ih =>
      obtain ⟨⟨d', g⟩, hrun, heq⟩ := List.mem_map.mp h
      cases heq
      exact ih hrun
  | edge =>
      obtain ⟨-, rfl, -⟩ := mem_run_edge.mp h
      exact ⟨[], .refl _⟩
  | notAhead r =>
      unfold run at h
      split at h
      · cases List.mem_singleton.mp h
        exact ⟨[], .refl _⟩
      · cases h
  | notBehind t =>
      unfold run at h
      split at h
      · cases h
      · cases List.mem_singleton.mp h
        exact ⟨[], .refl _⟩

omit [Tables] in
/-- The text between two places, as the engine cuts it out. -/
theorem Place.Reads.take {w : List Char} (h : c.Reads w d) :
    c.after.take (d.before.length - c.before.length) = w := by
  have hlength : d.before.length - c.before.length = w.length := by
    rw [h.2, List.length_append, List.length_reverse, Nat.add_sub_cancel]
  rw [hlength, h.1, List.take_left]

theorem mem_run_group : (d, gs) ∈ run (.group r) c ↔
    ∃ g w, (d, g) ∈ run r c ∧ c.Reads w d ∧ gs = w :: g := by
  constructor
  · intro h
    obtain ⟨⟨d', g⟩, hrun, heq⟩ := List.mem_map.mp h
    cases heq
    obtain ⟨w, hw⟩ := run_reads hrun
    exact ⟨g, w, hrun, hw, by rw [hw.take]⟩
  · intro h
    obtain ⟨g, w, hrun, hw, rfl⟩ := h
    exact List.mem_map.mpr ⟨(d, g), hrun, by rw [hw.take]⟩

/-! ## What a scan finds -/

/-- The match is one of the pattern in the text. -/
def Match.Of (m : Match) (r : Pattern) (text : List Char) : Prop :=
  ∃ c d : Place, c.before.reverse ++ c.after = text ∧ m.start = c.before.length ∧
    (d, m.groups) ∈ run r c ∧ c.Reads m.text d

theorem matchAt_some {m : Match} (h : matchAt r c = some m) :
    m.start = c.before.length ∧ ∃ d, (d, m.groups) ∈ run r c ∧ c.Reads m.text d := by
  obtain ⟨⟨d, g⟩, hhead, rfl⟩ := Option.map_eq_some_iff.mp h
  have hmem := List.mem_of_head? hhead
  obtain ⟨w, hw⟩ := run_reads hmem
  refine ⟨rfl, d, hmem, ?_⟩
  dsimp only
  rw [hw.take]
  exact hw

theorem mem_scan {m : Match} {before cs : List Char} {skip : Nat} (h : m ∈ scan r before skip cs) :
    m.Of r (before.reverse ++ cs) ∧ before.length + skip ≤ m.start := by
  induction cs generalizing before skip with
  | nil =>
      rw [scan] at h
      cases h
  | cons c cs ih =>
      have hnext : ∀ {skip'}, m ∈ scan r (c :: before) skip' cs →
          m.Of r (before.reverse ++ c :: cs) ∧ before.length + 1 + skip' ≤ m.start := by
        intro skip' hm
        obtain ⟨hof, hstart⟩ := ih hm
        rw [List.reverse_cons, List.append_assoc, List.singleton_append] at hof
        exact ⟨hof, hstart⟩
      cases skip with
      | succ skip =>
          rw [scan] at h
          obtain ⟨hof, hstart⟩ := hnext h
          exact ⟨hof, by omega⟩
      | zero =>
          rw [scan] at h
          cases hmatch : matchAt r ⟨before, c :: cs⟩ with
          | none =>
              rw [hmatch] at h
              obtain ⟨hof, hstart⟩ := hnext h
              exact ⟨hof, by omega⟩
          | some m' =>
              rw [hmatch] at h
              rcases List.mem_cons.mp h with rfl | h
              · obtain ⟨hstart, d, hrun, hreads⟩ := matchAt_some hmatch
                exact ⟨⟨⟨before, c :: cs⟩, d, rfl, hstart, hrun, hreads⟩, by rw [hstart]; simp⟩
              · obtain ⟨hof, hstart⟩ := hnext h
                exact ⟨hof, by omega⟩

theorem of_mem_finditer {m : Match} {text : List Char} (h : m ∈ finditer r text) : m.Of r text :=
  (mem_scan h).1

/-- **The matches of one scan follow one another.** -/
theorem pairwise_scan {before cs : List Char} {skip : Nat} :
    (scan r before skip cs).Pairwise fun m m' => m.stop ≤ m'.start := by
  induction cs generalizing before skip with
  | nil =>
      rw [scan]
      exact .nil
  | cons c cs ih =>
      cases skip with
      | succ skip =>
          rw [scan]
          exact ih
      | zero =>
          rw [scan]
          cases hmatch : matchAt r ⟨before, c :: cs⟩ with
          | none => exact ih
          | some m =>
              refine .cons ?_ ih
              intro m' hm'
              have hfirst : m.start = before.length := (matchAt_some hmatch).1
              have hstart := (mem_scan hm').2
              rw [List.length_cons] at hstart
              unfold Match.stop
              omega

theorem pairwise_finditer {text : List Char} :
    (finditer r text).Pairwise fun m m' => m.stop ≤ m'.start := pairwise_scan

end Facts

/-! ## Words in a pattern -/

/-- What a word of the text may begin with: a digit, the characters of a literal, or anything. -/
inductive Head where
  | digits
  | text (ignoreCase : Bool) (cs : List Char)
  | unknown

/-- An ASCII letter or digit. -/
def solid (c : Char) : Bool := plain c && (fold c).isAlphanum

/-- The parts of a literal from which a word may begin. -/
def wordParts : List Char → List (List Char)
  | [] => []
  | c :: cs => if solid c || cs.isEmpty then wordParts cs else cs :: wordParts cs

/-- No word character is in the class. -/
def CharSet.blank : CharSet → Bool
  | space => true
  | among cs => cs.all fun c => plain c && !(c.isAlphanum || c == '_')
  | union a b => a.blank && b.blank
  | _ => false

namespace Pattern

/-- The words that may begin in a match. -/
def heads : Pattern → List Head
  | .many .digit _ _ => [.digits]
  | .many s _ _ => if s.blank then [] else [.unknown]
  | .literal ignoreCase text => (text :: wordParts text).map (.text ignoreCase)
  | .seq r s => r.heads ++ s.heads
  | .alt r s => r.heads ++ s.heads
  | .group r => r.heads
  | _ => []

/-- What a match begins with. -/
def starts : Pattern → List Head
  | .many .digit (_ + 1) _ => [.digits]
  | .literal ignoreCase text => [.text ignoreCase text]
  | .seq .edge s => s.starts
  | .seq r _ => r.starts
  | .alt r s => r.starts ++ s.starts
  | .group r => r.starts
  | _ => [.unknown]

end Pattern

/-- Whether what begins so is a word. -/
def Head.isWord : Head → Bool
  | .digits => true
  | .text _ cs => cs.head?.any solid
  | .unknown => false

/-- Whether a text can begin with two literals. -/
def agree : List Char → List Char → Bool
  | p :: ps, q :: qs => !(plain p && plain q) || (fold p == fold q && agree ps qs)
  | _, _ => true

/-- The first character is an ASCII letter. -/
def beginsWithLetter (cs : List Char) : Bool := cs.head?.any fun c => plain c && (fold c).isAlpha

/-- Whether a text can begin both ways. -/
def Head.clash : Head → Head → Bool
  | .digits, .text _ cs => !beginsWithLetter cs
  | .text _ cs, .digits => !beginsWithLetter cs
  | .text _ cs, .text _ cs' => agree cs cs'
  | _, _ => true

/-- No word that a match of the first can hold begins a match of the second. -/
def Pattern.apart (r e : Pattern) : Bool :=
  e.starts.all fun h' => h'.isWord && r.heads.all fun h => !h.clash h'

section Words

variable [Tables]

/-- The text begins so. -/
def Head.Fits : Head → List Char → Prop
  | .digits, v => v.head?.any Tables.digit = true
  | .text ignoreCase cs, v => begins ignoreCase cs v = true
  | .unknown, _ => True

theorem fold_of_sameChar {ignoreCase : Bool} {p c : Char} (hp : plain p = true)
    (h : sameChar ignoreCase p c = true) : fold c = fold p := by
  unfold sameChar at h
  cases ignoreCase with
  | false =>
      rw [if_neg Bool.false_ne_true, beq_iff_eq] at h
      rw [h]
  | true => exact (Tables.same_plain p c hp).mp h

theorem word_of_solid {ignoreCase : Bool} {p c : Char} (hp : solid p = true)
    (h : sameChar ignoreCase p c = true) : Tables.word c = true := by
  obtain ⟨hplain, halnum⟩ := Bool.and_eq_true_iff.mp hp
  refine Tables.word_fold c ?_
  rw [fold_of_sameChar hplain h]
  exact halnum

theorem agree_of_begins {i j : Bool} {ps qs v : List Char} (h : begins i ps v = true)
    (h' : begins j qs v = true) : agree ps qs = true := by
  induction ps generalizing qs v with
  | nil => simp [agree]
  | cons p ps ih =>
      cases qs with
      | nil => simp [agree]
      | cons q qs =>
          cases v with
          | nil => cases h
          | cons c cs =>
              simp only [begins, Bool.and_eq_true] at h h'
              by_cases hplain : plain p = true ∧ plain q = true
              · have hsame : fold p = fold q := (fold_of_sameChar hplain.1 h.1).symm.trans
                  (fold_of_sameChar hplain.2 h'.1)
                simp [agree, hsame, ih h.2 h'.2]
              · have hnot : (plain p && plain q) = false := by
                  rw [Bool.and_eq_false_iff]
                  grind
                simp [agree, hnot]

/-- A digit begins no literal that begins with a letter. -/
theorem not_letter_of_digit {ignoreCase : Bool} {cs v : List Char}
    (hdigit : v.head?.any Tables.digit = true) (h : begins ignoreCase cs v = true) :
    beginsWithLetter cs = false := by
  unfold beginsWithLetter
  cases cs with
  | nil => rfl
  | cons p ps =>
      cases v with
      | nil => cases h
      | cons c v =>
          simp only [begins, Bool.and_eq_true] at h
          simp only [List.head?_cons, Option.any_some] at hdigit ⊢
          by_contra hletter
          rw [Bool.not_eq_false, Bool.and_eq_true] at hletter
          have hfold : (fold c).isAlpha = true := by
            rw [fold_of_sameChar hletter.1 h.1]
            exact hletter.2
          rw [Tables.digit_fold c hfold] at hdigit
          cases hdigit

theorem Head.clash_of_fits {h h' : Head} {v : List Char} (hfits : h.Fits v) (hfits' : h'.Fits v) :
    h.clash h' = true := by
  cases h with
  | unknown => cases h' <;> rfl
  | digits =>
      cases h' with
      | text i cs =>
          show (!beginsWithLetter cs) = true
          rw [not_letter_of_digit hfits hfits']
          rfl
      | _ => rfl
  | text i cs =>
      cases h' with
      | text j cs' => exact agree_of_begins hfits hfits'
      | digits =>
          show (!beginsWithLetter cs) = true
          rw [not_letter_of_digit hfits' hfits]
          rfl
      | unknown => rfl

/-- What begins a word begins with a word character. -/
theorem Head.word_of_fits {h : Head} {v : List Char} (hword : h.isWord = true) (hfits : h.Fits v) :
    v.head?.any Tables.word = true := by
  cases h with
  | unknown => cases hword
  | digits =>
      cases v with
      | nil => cases hfits
      | cons c v => exact Tables.digit_word c hfits
  | text i cs =>
      unfold Head.isWord at hword
      unfold Head.Fits at hfits
      cases cs with
      | nil => cases hword
      | cons p ps =>
          cases v with
          | nil => cases hfits
          | cons c v =>
              simp only [begins, Bool.and_eq_true] at hfits
              exact word_of_solid hword hfits.1

theorem CharSet.word_of_blank {t : CharSet} {c : Char} (hblank : t.blank = true)
    (h : t.has c = true) : Tables.word c = false := by
  induction t with
  | digit => cases hblank
  | space => exact Tables.space_word c h
  | word => cases hblank
  | among cs =>
      have hc : c ∈ cs := by simpa [CharSet.has] using h
      have hcond := List.all_eq_true.mp hblank c hc
      rw [Bool.and_eq_true, Bool.not_eq_true'] at hcond
      rw [Tables.word_plain c hcond.1]
      exact hcond.2
  | union a b iha ihb =>
      unfold CharSet.blank at hblank
      rw [Bool.and_eq_true] at hblank
      unfold CharSet.has at h
      rcases Bool.or_eq_true _ _ ▸ h with h | h
      · exact iha hblank.1 h
      · exact ihb hblank.2 h

omit [Tables] in
theorem mem_wordParts {a b : List Char} {q : Char} (hq : solid q = false) (hb : b ≠ []) :
    b ∈ wordParts (a ++ q :: b) := by
  induction a with
  | nil => simp [wordParts, hq, hb]
  | cons c a ih =>
      rw [List.cons_append, wordParts]
      split
      · exact ih
      · exact List.mem_cons_of_mem _ ih

variable {c d p : Place} {gs : List (List Char)} {r e : Pattern} {u v : List Char}

/-- A word that begins in a literal. -/
theorem literal_head {ignoreCase : Bool} {text w : List Char}
    (hall : List.Forall₂ (fun q x => sameChar ignoreCase q x = true) text w) (hw : w = u ++ v)
    (hp : c.Reads u p) (hd : p.Reads v d) (hv : v ≠ []) (hstart : p.StartsWord) :
    ∃ h ∈ (Pattern.literal ignoreCase text).heads, h.Fits p.after := by
  subst hw
  obtain ⟨a, b, hleft, hright, rfl⟩ : ∃ a b,
      List.Forall₂ (fun q x => sameChar ignoreCase q x = true) a u ∧
      List.Forall₂ (fun q x => sameChar ignoreCase q x = true) b v ∧ text = a ++ b := by
    refine ⟨text.take u.length, text.drop u.length, ?_, ?_, (List.take_append_drop _ _).symm⟩
    · exact List.forall₂_take_append _ _ _ hall
    · exact List.forall₂_drop_append _ _ _ hall
  have hfits : (Head.text ignoreCase b).Fits p.after := begins_iff.mpr ⟨v, d.after, hd.1, hright⟩
  have hmem : b ∈ (a ++ b) :: wordParts (a ++ b) := by
    rcases List.eq_nil_or_concat u with rfl | ⟨u', x, rfl⟩
    · cases hleft
      exact List.mem_cons_self
    · rcases List.eq_nil_or_concat a with rfl | ⟨a', q, rfl⟩
      · exact absurd hleft.length_eq (by simp)
      · -- The character before the word is no word character, so it is not solid in the literal.
        have hlast : sameChar ignoreCase q x = true := by
          have hreversed := List.forall₂_reverse_iff.mpr hleft
          rw [List.concat_eq_append, List.concat_eq_append, List.reverse_concat,
            List.reverse_concat] at hreversed
          cases hreversed with
          | cons hx _ => exact hx
        have hq : solid q = false := by
          by_contra hsolid
          rw [Bool.not_eq_false] at hsolid
          have hword := word_of_solid hsolid hlast
          have hbefore : p.wordBefore = true := by
            unfold Place.wordBefore
            rw [hp.2, List.concat_eq_append, List.reverse_concat]
            exact hword
          rw [hstart.1] at hbefore
          cases hbefore
        rw [List.concat_eq_append, List.append_assoc, List.singleton_append]
        have hb : b ≠ [] := by
          intro hnil
          subst hnil
          cases hright
          exact hv rfl
        exact List.mem_cons_of_mem _ (mem_wordParts hq hb)
  exact ⟨_, List.mem_map_of_mem hmem, hfits⟩

/-- **A word that begins in a match begins as the pattern says.** -/
theorem heads_sound (hrun : (d, gs) ∈ run r c) (hp : c.Reads u p) (hd : p.Reads v d) (hv : v ≠ [])
    (hstart : p.StartsWord) : ∃ h ∈ r.heads, h.Fits p.after := by
  have hnone : ∀ {c d : Place} {u v : List Char}, c.Reads [] d → c.Reads u p → p.Reads v d →
      v = [] := by
    intro c d u v hcd hp hd
    have hlength := congrArg List.length (hcd.2.symm.trans (hp.trans hd).2)
    simp only [List.length_append, List.length_reverse, List.length_nil] at hlength
    exact List.length_eq_zero_iff.mp (by omega)
  induction r generalizing c d gs u v with
  | nothing =>
      cases List.mem_singleton.mp hrun
      exact absurd (hnone (.refl _) hp hd) hv
  | many t least most =>
      obtain ⟨-, w, hw, hall, -⟩ := mem_run_many hrun
      have huv : w = u ++ v := by
        have h := hw.1.symm.trans (hp.trans hd).1
        exact List.append_cancel_right h
      obtain ⟨x, v', rfl⟩ := List.exists_cons_of_ne_nil hv
      have hx : t.has x = true := hall x (by rw [huv]; simp)
      have hafter : p.after.head? = some x := by
        rw [hd.1]
        rfl
      have hword : Tables.word x = true := by
        have := hstart.2
        unfold Place.wordAfter at this
        rwa [hafter] at this
      have hblank : t.blank = false := by
        by_contra hblank
        rw [Bool.not_eq_false] at hblank
        rw [CharSet.word_of_blank hblank hx] at hword
        cases hword
      cases t with
      | digit =>
          refine ⟨.digits, List.mem_singleton_self _, ?_⟩
          show p.after.head?.any Tables.digit = true
          rw [hafter]
          exact hx
      | _ => exact ⟨.unknown, by simp [Pattern.heads, hblank], trivial⟩
  | literal ignoreCase text =>
      obtain ⟨-, w, hw, hall⟩ := mem_run_literal hrun
      have huv : w = u ++ v := List.append_cancel_right (hw.1.symm.trans (hp.trans hd).1)
      exact literal_head hall huv hp hd hv hstart
  | seq r s ihr ihs =>
      obtain ⟨c₁, g₁, g₂, hfirst, hsecond, -⟩ := mem_run_seq.mp hrun
      obtain ⟨w, hw⟩ := run_reads hfirst
      obtain ⟨x, hx⟩ := run_reads hsecond
      have hsplit : w ++ x = u ++ v :=
        List.append_cancel_right ((hw.trans hx).1.symm.trans (hp.trans hd).1)
      have hright : ∀ a, u = w ++ a → ∃ h ∈ (Pattern.seq r s).heads, h.Fits p.after := by
        intro a hu
        obtain ⟨h, hmem, hfits⟩ := ihs hsecond (hw.split hp hu) hd hv
        exact ⟨h, List.mem_append_right _ hmem, hfits⟩
      rcases List.append_eq_append_iff.mp hsplit with ⟨a, hu, -⟩ | ⟨a, hwu, -⟩
      · exact hright a hu
      · by_cases ha : a = []
        · subst ha
          exact hright [] (by simp [hwu])
        · obtain ⟨h, hmem, hfits⟩ := ihr hfirst hp (hp.split hw hwu) ha
          exact ⟨h, List.mem_append_left _ hmem, hfits⟩
  | alt r s ihr ihs =>
      rcases mem_run_alt.mp hrun with hrun | hrun
      · obtain ⟨h, hmem, hfits⟩ := ihr hrun hp hd hv
        exact ⟨h, List.mem_append_left _ hmem, hfits⟩
      · obtain ⟨h, hmem, hfits⟩ := ihs hrun hp hd hv
        exact ⟨h, List.mem_append_right _ hmem, hfits⟩
  | group r ih =>
      obtain ⟨g, w, hrun, -, -⟩ := mem_run_group.mp hrun
      exact ih hrun hp hd hv
  | edge =>
      obtain ⟨-, rfl, -⟩ := mem_run_edge.mp hrun
      exact absurd (hnone (.refl _) hp hd) hv
  | notAhead r =>
      unfold run at hrun
      split at hrun
      · cases List.mem_singleton.mp hrun
        exact absurd (hnone (.refl _) hp hd) hv
      · cases hrun
  | notBehind t =>
      unfold run at hrun
      split at hrun
      · cases hrun
      · cases List.mem_singleton.mp hrun
        exact absurd (hnone (.refl _) hp hd) hv

/-- A match begins as the pattern says. -/
theorem starts_sound (hrun : (d, gs) ∈ run r c) : ∃ h ∈ r.starts, h.Fits c.after := by
  induction r generalizing c d gs with
  | many t least most =>
      obtain ⟨-, w, hw, hall, hleast, -⟩ := mem_run_many hrun
      cases t with
      | digit =>
          cases least with
          | zero => exact ⟨.unknown, List.mem_singleton_self _, trivial⟩
          | succ least =>
              cases w with
              | nil => simp at hleast
              | cons x w =>
                  refine ⟨.digits, List.mem_singleton_self _, ?_⟩
                  show c.after.head?.any Tables.digit = true
                  rw [hw.1]
                  exact hall x List.mem_cons_self
      | _ => exact ⟨.unknown, List.mem_singleton_self _, trivial⟩
  | literal ignoreCase text =>
      obtain ⟨-, w, hw, hall⟩ := mem_run_literal hrun
      exact ⟨_, List.mem_singleton_self _, begins_iff.mpr ⟨w, d.after, hw.1, hall⟩⟩
  | seq r s ihr ihs =>
      obtain ⟨c₁, g₁, g₂, hfirst, hsecond, -⟩ := mem_run_seq.mp hrun
      cases r with
      | edge =>
          obtain ⟨-, rfl, -⟩ := mem_run_edge.mp hfirst
          exact ihs hsecond
      | _ => exact ihr hfirst
  | alt r s ihr ihs =>
      rcases mem_run_alt.mp hrun with hrun | hrun
      · obtain ⟨h, hmem, hfits⟩ := ihr hrun
        exact ⟨h, List.mem_append_left _ hmem, hfits⟩
      · obtain ⟨h, hmem, hfits⟩ := ihs hrun
        exact ⟨h, List.mem_append_right _ hmem, hfits⟩
  | group r ih =>
      obtain ⟨g, w, hrun, -, -⟩ := mem_run_group.mp hrun
      exact ih hrun
  | _ => exact ⟨.unknown, List.mem_singleton_self _, trivial⟩

omit [Tables] in
/-- Of two places in a text, the first reads on to the second. -/
theorem Place.reads_of_le (htext : c.before.reverse ++ c.after = d.before.reverse ++ d.after)
    (hle : c.before.length ≤ d.before.length) : ∃ w, c.Reads w d := by
  rcases List.append_eq_append_iff.mp htext with ⟨w, hbefore, hafter⟩ | ⟨w, hbefore, hafter⟩
  · refine ⟨w, hafter, ?_⟩
    have h := congrArg List.reverse hbefore
    simpa using h
  · have hnil : w = [] := by
      have h := congrArg List.length hbefore
      simp only [List.length_append, List.length_reverse] at h
      exact List.length_eq_zero_iff.mp (by omega)
    subst hnil
    refine ⟨[], hafter.symm, ?_⟩
    have h := congrArg List.reverse hbefore
    simpa using h.symm

omit [Tables] in
/-- A place inside a part of the text cuts it in two. -/
theorem Place.Reads.cut {w : List Char} (hreads : c.Reads w d)
    (htext : c.before.reverse ++ c.after = p.before.reverse ++ p.after)
    (hle : c.before.length ≤ p.before.length) (hlt : p.before.length < d.before.length) :
    ∃ u v, c.Reads u p ∧ p.Reads v d ∧ v ≠ [] ∧ w = u ++ v := by
  obtain ⟨u, hu⟩ := Place.reads_of_le htext hle
  have hend : p.before.reverse ++ p.after = d.before.reverse ++ d.after := by
    rw [hreads.2, List.reverse_append, List.reverse_reverse, List.append_assoc, ← hreads.1, htext]
  obtain ⟨v, hv⟩ := Place.reads_of_le hend hlt.le
  refine ⟨u, v, hu, hv, ?_, List.append_cancel_right (hreads.1.symm.trans (hu.trans hv).1)⟩
  intro hnil
  have h := congrArg List.length hv.2
  rw [hnil, List.reverse_nil, List.nil_append] at h
  omega

omit [Tables] in
theorem Place.Reads.length {w : List Char} (h : c.Reads w d) :
    d.before.length = c.before.length + w.length := by
  rw [h.2, List.length_append, List.length_reverse, Nat.add_comm]

/-- **No match of a pattern that stands apart begins inside a match.** -/
theorem apart_sound {m m' : Match} {text : List Char} (hapart : r.apart (.seq .edge e) = true)
    (hm : m.Of r text) (hm' : m'.Of (.seq .edge e) text) : ¬ (m.start ≤ m'.start ∧ m'.start < m.stop) := by
  intro hinside
  obtain ⟨c, d, htext, hstart, hrun, hreads⟩ := hm
  obtain ⟨p, q, htext', hstart', hrun', -⟩ := hm'
  obtain ⟨p₁, g₁, g₂, hedge, -, -⟩ := mem_run_seq.mp hrun'
  obtain ⟨hboundary, rfl, -⟩ := mem_run_edge.mp hedge
  obtain ⟨h', hmem', hfits'⟩ := starts_sound hrun'
  have hcond := List.all_eq_true.mp hapart h' hmem'
  rw [Bool.and_eq_true] at hcond
  have hafter : p₁.wordAfter = true := Head.word_of_fits hcond.1 hfits'
  have hword : p₁.StartsWord := by
    refine ⟨?_, hafter⟩
    rw [hafter] at hboundary
    simpa using hboundary
  have hlength : d.before.length = m.stop := by rw [hreads.length, Match.stop, hstart]
  obtain ⟨u, v, hu, hv, hne, -⟩ := hreads.cut (htext.trans htext'.symm) (by omega) (by omega)
  obtain ⟨h, hmem, hfits⟩ := heads_sound hrun hu hv hne hword
  have hclash := List.all_eq_true.mp hcond.2 h hmem
  rw [Head.clash_of_fits hfits hfits'] at hclash
  cases hclash

/-! ## Length and inner edges -/

omit [Tables] in
/-- No empty text matches. -/
def Pattern.needsText : Pattern → Bool
  | .many _ least _ => 0 < least
  | .literal _ text => !text.isEmpty
  | .seq r s => r.needsText || s.needsText
  | .alt r s => r.needsText && s.needsText
  | .group r => r.needsText
  | _ => false

theorem ne_nil_of_needsText {w : List Char} (hr : r.needsText = true) (hrun : (d, gs) ∈ run r c)
    (hw : c.Reads w d) : w ≠ [] := by
  induction r generalizing c d gs w with
  | many t least most =>
      obtain ⟨-, w', hw', -, hleast, -⟩ := mem_run_many hrun
      have hsame : w = w' := List.append_cancel_right (hw.1.symm.trans hw'.1)
      have hpos : 0 < least := of_decide_eq_true hr
      rw [hsame]
      exact List.ne_nil_of_length_pos (by omega)
  | literal ignoreCase text =>
      obtain ⟨-, w', hw', hall⟩ := mem_run_literal hrun
      have hsame : w = w' := List.append_cancel_right (hw.1.symm.trans hw'.1)
      have hlength := hall.length_eq
      rw [hsame]
      intro hnil
      rw [hnil, List.length_nil, List.length_eq_zero_iff] at hlength
      simp [Pattern.needsText, hlength] at hr
  | seq r s ihr ihs =>
      obtain ⟨c₁, g₁, g₂, hfirst, hsecond, -⟩ := mem_run_seq.mp hrun
      obtain ⟨x, hx⟩ := run_reads hfirst
      obtain ⟨y, hy⟩ := run_reads hsecond
      have hsame : w = x ++ y := List.append_cancel_right (hw.1.symm.trans (hx.trans hy).1)
      rw [hsame]
      unfold Pattern.needsText at hr
      rcases Bool.or_eq_true_iff.mp hr with hr | hr
      · exact List.append_ne_nil_of_left_ne_nil (ihr hr hfirst hx) y
      · exact List.append_ne_nil_of_right_ne_nil x (ihs hr hsecond hy)
  | alt r s ihr ihs =>
      unfold Pattern.needsText at hr
      obtain ⟨hr, hs⟩ := Bool.and_eq_true_iff.mp hr
      rcases mem_run_alt.mp hrun with hrun | hrun
      · exact ihr hr hrun hw
      · exact ihs hs hrun hw
  | group r ih =>
      obtain ⟨g, x, hrun, -, -⟩ := mem_run_group.mp hrun
      exact ih hr hrun hw
  | _ => cases hr

/-- A match is longer than nothing. -/
theorem Match.Of.start_lt_stop {m : Match} {text : List Char} (h : m.Of r text)
    (hr : r.needsText = true) : m.start < m.stop := by
  obtain ⟨c, d, -, -, hrun, hreads⟩ := h
  have hpos := List.length_pos_iff.mpr (ne_nil_of_needsText hr hrun hreads)
  unfold Match.stop
  omega

/-- No word boundary lies inside a word of ASCII letters and digits. -/
theorem no_edge_inside {m m' : Match} {text : List Char} {word : List Char} {ignoreCase : Bool}
    (hsolid : word.all solid = true)
    (hm : m.Of (.seq .edge (.seq (.literal ignoreCase word) .edge)) text)
    (hm' : m'.Of (.seq .edge e) text) : ¬ (m.start < m'.start ∧ m'.start < m.stop) := by
  intro hinside
  obtain ⟨c, d, htext, hstart, hrun, hreads⟩ := hm
  obtain ⟨p, q, htext', hstart', hrun', -⟩ := hm'
  obtain ⟨p₁, g₁, g₂, hedge, -, -⟩ := mem_run_seq.mp hrun'
  obtain ⟨hboundary, rfl, -⟩ := mem_run_edge.mp hedge
  obtain ⟨c₁, _, _, hfirst, hrest, -⟩ := mem_run_seq.mp hrun
  obtain ⟨-, rfl, -⟩ := mem_run_edge.mp hfirst
  obtain ⟨d₁, _, _, hliteral, hlast, -⟩ := mem_run_seq.mp hrest
  obtain ⟨-, rfl, -⟩ := mem_run_edge.mp hlast
  obtain ⟨-, w, hw, hall⟩ := mem_run_literal hliteral
  have hword : ∀ x ∈ w, Tables.word x = true := by
    intro x hx
    obtain ⟨i, hi, rfl⟩ := List.mem_iff_getElem.mp hx
    have hlength := hall.length_eq
    have hsame := (List.forall₂_iff_get.mp hall).2 i (by omega) hi
    exact word_of_solid (List.all_eq_true.mp hsolid _ (List.getElem_mem _)) hsame
  have hlength : d.before.length = m.stop := by rw [hreads.length, Match.stop, hstart]
  obtain ⟨u, v, hu, hv, hne, rfl⟩ := hw.cut (htext.trans htext'.symm) (by omega) (by omega)
  have hafter : p₁.wordAfter = true := by
    obtain ⟨x, v', rfl⟩ := List.exists_cons_of_ne_nil hne
    unfold Place.wordAfter
    rw [hv.1]
    exact hword x (by simp)
  have hbefore : p₁.wordBefore = true := by
    rcases List.eq_nil_or_concat u with rfl | ⟨u', x, rfl⟩
    · have h := hu.length
      rw [List.length_nil] at h
      omega
    · unfold Place.wordBefore
      rw [hu.2, List.concat_eq_append, List.reverse_concat]
      exact hword x (by simp)
  exact hboundary (hbefore.trans hafter.symm)

end Words

end Regex
