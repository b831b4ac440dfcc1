import Atlas.ConflictDetector
import Atlas.MatchingLaws

/-!
# Collapsed text and numerals

The collapsed text of a string is its words with single blanks between them.  It is its own
`strip`, and collapsing it again changes nothing.

`_coerce_numeric` reads a NaN from three texts only.
-/

namespace Atlas

/-! ## Words -/

/-- Words are not empty and have no blanks. -/
def Words (ws : List Text) : Prop := ∀ w ∈ ws, w ≠ [] ∧ ∀ c ∈ w, isSpace c = false

/-- The words with single blanks between them. -/
def joinWords (ws : List Text) : Text := [' '].intercalate ws

theorem joinWords_cons {w : Text} {ws : List Text} (h : ws ≠ []) :
    joinWords (w :: ws) = w ++ ' ' :: joinWords ws := by
  unfold joinWords
  rw [List.intercalate_cons_of_ne_nil h]
  simp

@[simp] theorem joinWords_nil : joinWords [] = [] := rfl

@[simp] theorem joinWords_singleton (w : Text) : joinWords [w] = w := List.intercalate_singleton

theorem Words.tail {w : Text} {ws : List Text} (h : Words (w :: ws)) : Words ws :=
  fun x hx => h x (List.mem_cons_of_mem w hx)

theorem words_splitWords {cs word : Text} (hword : ∀ c ∈ word, isSpace c = false) :
    Words (splitWords word cs) := by
  induction cs generalizing word with
  | nil =>
      unfold splitWords
      split
      · intro w hw
        cases hw
      · rename_i hne
        intro w hw
        obtain rfl := List.mem_singleton.mp hw
        exact ⟨by simpa using hne, hword⟩
  | cons c cs ih =>
      unfold splitWords
      split
      · split
        · exact ih (by simp)
        · rename_i hne
          intro w hw
          rcases List.mem_cons.mp hw with rfl | hw
          · exact ⟨by simpa using hne, hword⟩
          · exact ih (by simp) w hw
      · rename_i hc
        refine ih ?_
        intro d hd
        rcases List.mem_append.mp hd with hd | hd
        · exact hword d hd
        · rw [List.mem_singleton.mp hd]
          simpa using hc

/-- The characters of the words of a text are its own. -/
theorem mem_splitWords {cs word w : Text} {c : Char} (hw : w ∈ splitWords word cs) (hc : c ∈ w) :
    c ∈ word ∨ c ∈ cs := by
  induction cs generalizing word with
  | nil =>
      unfold splitWords at hw
      split at hw
      · cases hw
      · rw [List.mem_singleton.mp hw] at hc
        exact .inl hc
  | cons d cs ih =>
      unfold splitWords at hw
      split at hw
      · split at hw
        · rcases ih hw with h | h
          · cases h
          · exact .inr (List.mem_cons_of_mem d h)
        · rcases List.mem_cons.mp hw with rfl | hw
          · exact .inl hc
          · rcases ih hw with h | h
            · cases h
            · exact .inr (List.mem_cons_of_mem d h)
      · rcases ih hw with h | h
        · rcases List.mem_append.mp h with h | h
          · exact .inl h
          · exact .inr (List.mem_cons.mpr (.inl (List.mem_singleton.mp h)))
        · exact .inr (List.mem_cons_of_mem d h)

theorem splitWords_append {w : Text} (hw : ∀ c ∈ w, isSpace c = false) (word rest : Text) :
    splitWords word (w ++ rest) = splitWords (word ++ w) rest := by
  induction w generalizing word with
  | nil => simp
  | cons c w ih =>
      have hc : isSpace c = false := hw c List.mem_cons_self
      rw [List.cons_append, splitWords, if_neg (by simp [hc]),
        ih fun d hd => hw d (List.mem_cons_of_mem c hd), List.append_assoc, List.singleton_append]

/-- Joined words are split again. -/
theorem splitWords_joinWords {ws : List Text} (h : Words ws) : splitWords [] (joinWords ws) = ws := by
  induction ws with
  | nil => rfl
  | cons w ws ih =>
      obtain ⟨hne, hw⟩ := h w List.mem_cons_self
      have hempty : w.isEmpty = false := by simpa using hne
      cases ws with
      | nil =>
          have hall := splitWords_append hw [] []
          rw [List.append_nil, List.nil_append] at hall
          rw [joinWords_singleton, hall, splitWords, hempty]
          rfl
      | cons v ws =>
          have hblank : isSpace ' ' = true := by decide
          rw [joinWords_cons (by simp), splitWords_append hw, List.nil_append, splitWords,
            if_pos hblank, hempty, ih h.tail]
          rfl

theorem head_joinWords {ws : List Text} (h : Words ws) : ∀ c ∈ (joinWords ws).head?, isSpace c = false := by
  intro c hc
  cases ws with
  | nil => cases hc
  | cons w ws =>
      obtain ⟨hne, hw⟩ := h w List.mem_cons_self
      obtain ⟨d, w, rfl⟩ := List.exists_cons_of_ne_nil hne
      have hhead : (joinWords ((d :: w) :: ws)).head? = some d := by
        cases ws with
        | nil => simp
        | cons v ws =>
            rw [joinWords_cons (by simp)]
            rfl
      rw [hhead] at hc
      obtain rfl := Option.some.inj hc
      exact hw d List.mem_cons_self

theorem last_joinWords {ws : List Text} (h : Words ws) :
    ∀ c ∈ (joinWords ws).getLast?, isSpace c = false := by
  induction ws with
  | nil =>
      intro c hc
      cases hc
  | cons w ws ih =>
      intro c hc
      cases ws with
      | nil =>
          rw [joinWords_singleton] at hc
          exact (h w List.mem_cons_self).2 c (List.mem_of_mem_getLast? hc)
      | cons v ws =>
          rw [joinWords_cons (by simp)] at hc
          have hne : joinWords (v :: ws) ≠ [] := by
            have hv := (h v (by simp)).1
            intro hnil
            cases ws with
            | nil => exact hv (by simpa using hnil)
            | cons u ws =>
                rw [joinWords_cons (by simp)] at hnil
                simp at hnil
          have hlast : (w ++ ' ' :: joinWords (v :: ws)).getLast? = (joinWords (v :: ws)).getLast? := by
            rw [List.append_cons, List.getLast?_append_of_ne_nil _ hne]
          rw [hlast] at hc
          exact ih h.tail c hc

theorem stripChars_joinWords {ws : List Text} (h : Words ws) :
    stripChars (joinWords ws) = joinWords ws :=
  stripChars_eq_self (head_joinWords h) (last_joinWords h)

theorem mem_joinWords {ws : List Text} {c : Char} (h : c ∈ joinWords ws) :
    c = ' ' ∨ ∃ w ∈ ws, c ∈ w := by
  induction ws with
  | nil => cases h
  | cons w ws ih =>
      cases ws with
      | nil => exact .inr ⟨w, List.mem_cons_self, by simpa using h⟩
      | cons v ws =>
          rw [joinWords_cons (by simp), List.mem_append, List.mem_cons] at h
          rcases h with h | rfl | h
          · exact .inr ⟨w, List.mem_cons_self, h⟩
          · exact .inl rfl
          · rcases ih h with rfl | ⟨x, hx, hcx⟩
            · exact .inl rfl
            · exact .inr ⟨x, List.mem_cons_of_mem w hx, hcx⟩

/-! ## Collapsed text -/

section Collapse

variable [PyText]

/-- The words of the collapsed text. -/
def collapsedWords (s : String) : List Text := splitWords [] (PyText.lower (strip s)).toList

theorem words_collapsedWords (s : String) : Words (collapsedWords s) := words_splitWords (by simp)

theorem toList_collapse (s : String) : (collapse s).toList = joinWords (collapsedWords s) := by
  unfold collapse joinWords collapsedWords
  rw [String.toList_intercalate, List.map_map]
  congr 1
  refine (List.map_congr_left fun w _ => ?_).trans (List.map_id _)
  simp

theorem stripChars_collapse (s : String) : stripChars (collapse s).toList = (collapse s).toList := by
  rw [toList_collapse, stripChars_joinWords (words_collapsedWords s)]

/-- Collapsed text is its own `strip`. -/
theorem strip_collapse (s : String) : strip (collapse s) = collapse s := by
  unfold strip
  rw [stripChars_collapse, String.ofList_toList]

variable [LawfulPyText]

theorem lowered_collapse (s : String) :
    ∀ c ∈ (collapse s).toList, PyText.lower (String.singleton c) = String.singleton c := by
  intro c hc
  rw [toList_collapse] at hc
  rcases mem_joinWords hc with rfl | ⟨w, hw, hcw⟩
  · exact lowered_space
  · rcases mem_splitWords hw hcw with h | h
    · cases h
    · exact LawfulPyText.lower_lowered _ c h

/-- Joined words in lower case are their own collapsed text. -/
theorem collapse_joinWords {ws : List Text} (h : Words ws)
    (hlower : ∀ c ∈ joinWords ws, PyText.lower (String.singleton c) = String.singleton c) :
    collapse (String.ofList (joinWords ws)) = String.ofList (joinWords ws) := by
  have hwords : collapsedWords (String.ofList (joinWords ws)) = ws := by
    unfold collapsedWords strip
    rw [String.toList_ofList, stripChars_joinWords h, lower_ofList hlower, String.toList_ofList,
      splitWords_joinWords h]
  rw [← String.toList_inj, toList_collapse, hwords, String.toList_ofList]

/-- A text that collapsing leaves alone. -/
structure Collapsed (cs : Text) : Prop where
  words : ∃ ws, Words ws ∧ joinWords ws = cs
  lower : ∀ c ∈ cs, PyText.lower (String.singleton c) = String.singleton c

theorem collapsed_collapse (s : String) : Collapsed (collapse s).toList :=
  ⟨⟨collapsedWords s, words_collapsedWords s, (toList_collapse s).symm⟩, lowered_collapse s⟩

theorem Collapsed.collapse_ofList {cs : Text} (h : Collapsed cs) :
    collapse (String.ofList cs) = String.ofList cs := by
  obtain ⟨⟨ws, hws, rfl⟩, hlower⟩ := h
  exact collapse_joinWords hws hlower

/-- A character of a word in lower case. -/
structure Letter (c : Char) : Prop where
  noSpace : isSpace c = false
  lower : PyText.lower (String.singleton c) = String.singleton c

theorem letter_of_ascii {c : Char} (hascii : c.toNat < 128) (hlower : c.toLower = c)
    (hspace : isSpace c = false) : Letter c := by
  refine ⟨hspace, ?_⟩
  have h := LawfulPyText.lower_ascii (String.singleton c) (by simpa using hascii)
  rw [← String.toList_inj, h]
  simp [hlower]

omit [LawfulPyText] in
theorem collapsed_of_letters {cs : Text} (h : ∀ c ∈ cs, Letter c) : Collapsed cs := by
  refine ⟨?_, fun c hc => (h c hc).lower⟩
  cases cs with
  | nil => exact ⟨[], by simp [Words], rfl⟩
  | cons c cs =>
      refine ⟨[c :: cs], ?_, joinWords_singleton _⟩
      intro w hw
      obtain rfl := List.mem_singleton.mp hw
      exact ⟨by simp, fun d hd => (h d hd).noSpace⟩

omit [PyText] [LawfulPyText] in
theorem joinWords_cons_char (c : Char) (w : Text) (ws : List Text) :
    joinWords ((c :: w) :: ws) = c :: joinWords (w :: ws) := by
  cases ws with
  | nil => simp
  | cons v ws =>
      rw [@joinWords_cons (c :: w) (v :: ws) (by simp), @joinWords_cons w (v :: ws) (by simp),
        List.cons_append]

omit [LawfulPyText] in
theorem Collapsed.cons {c : Char} {cs : Text} (h : Collapsed cs) (hc : Letter c) : Collapsed (c :: cs) := by
  obtain ⟨⟨ws, hws, rfl⟩, hlower⟩ := h
  refine ⟨?_, List.forall_mem_cons.mpr ⟨hc.lower, hlower⟩⟩
  cases ws with
  | nil => exact (@collapsed_of_letters _ [c] (by simpa using hc)).words
  | cons w ws =>
      refine ⟨(c :: w) :: ws, ?_, joinWords_cons_char c w ws⟩
      refine List.forall_mem_cons.mpr ⟨⟨by simp, ?_⟩, hws.tail⟩
      exact List.forall_mem_cons.mpr ⟨hc.noSpace, (hws w List.mem_cons_self).2⟩

omit [LawfulPyText] in
/-- A letter may be put behind the first one. -/
theorem Collapsed.insert {c d : Char} {cs : Text} (h : Collapsed (c :: cs)) (hc : Letter c)
    (hd : Letter d) : Collapsed (c :: d :: cs) := by
  obtain ⟨⟨ws, hws, hjoin⟩, hlower⟩ := h
  rw [List.forall_mem_cons] at hlower
  refine ⟨?_, List.forall_mem_cons.mpr ⟨hc.lower, List.forall_mem_cons.mpr ⟨hd.lower, hlower.2⟩⟩⟩
  cases ws with
  | nil => cases hjoin
  | cons w ws =>
      obtain ⟨hne, hw⟩ := hws w List.mem_cons_self
      obtain ⟨b, w, rfl⟩ := List.exists_cons_of_ne_nil hne
      rw [joinWords_cons_char, List.cons_eq_cons] at hjoin
      obtain ⟨rfl, rfl⟩ := hjoin
      refine ⟨(b :: d :: w) :: ws, ?_, by simp [joinWords_cons_char]⟩
      rw [List.forall_mem_cons] at hw
      refine List.forall_mem_cons.mpr ⟨⟨by simp, ?_⟩, hws.tail⟩
      exact List.forall_mem_cons.mpr ⟨hw.1, List.forall_mem_cons.mpr ⟨hd.noSpace, hw.2⟩⟩

end Collapse

/-! ## Texts that read as a NaN -/

theorem PyFloat.neg_eq_nan {f : PyFloat} : f.neg = .nan ↔ f = .nan := by
  cases f <;> simp [PyFloat.neg]

section Nan

variable [PyText]

theorem unsignedFloat_eq_nan {cs : Text} : unsignedFloat cs = some .nan ↔ cs = "nan".toList := by
  unfold unsignedFloat
  split
  · rename_i h
    refine iff_of_false (by simp) ?_
    rintro rfl
    revert h
    decide
  · split
    · rename_i h
      simp [h]
    · rename_i h
      refine iff_of_false ?_ h
      split
      split
      split
      · simp
      · split
        · simp
        · simpa using roundDouble_ne_nan _

/-- The texts of a NaN. -/
def nanTexts : List Text := ["nan".toList, "+nan".toList, "-nan".toList]

theorem pyFloat_eq_nan {cs : Text} : pyFloat cs = some .nan ↔ cs ∈ nanTexts := by
  have hneg (negative : Bool) (rest : Text) :
      ((unsignedFloat rest).map fun f => if negative then f.neg else f) = some .nan ↔
        rest = "nan".toList := by
    rw [← unsignedFloat_eq_nan]
    cases unsignedFloat rest with
    | none => simp
    | some f => cases negative <;> simp [PyFloat.neg_eq_nan]
  have hsign (cs : Text) : (∃ r, cs = '-' :: r) ∨ (∃ r, cs = '+' :: r) ∨
      (signPart cs = (false, cs) ∧ cs.head? ≠ some '-' ∧ cs.head? ≠ some '+') := by
    unfold signPart
    split
    · exact .inl ⟨_, rfl⟩
    · exact .inr (.inl ⟨_, rfl⟩)
    · rename_i hminus hplus
      refine .inr (.inr ⟨rfl, ?_, ?_⟩)
      · intro h
        obtain ⟨r, rfl⟩ := List.head?_eq_some_iff.mp h
        exact hminus r rfl
      · intro h
        obtain ⟨r, rfl⟩ := List.head?_eq_some_iff.mp h
        exact hplus r rfl
  unfold pyFloat nanTexts
  rcases hsign cs with ⟨r, rfl⟩ | ⟨r, rfl⟩ | ⟨hplain, hminus, hplus⟩
  · refine (hneg true r).trans ?_
    simp
  · refine (hneg false r).trans ?_
    simp
  · rw [hplain]
    refine (hneg false cs).trans ⟨fun h => by simp [h], fun h => ?_⟩
    simp only [List.mem_cons, List.not_mem_nil, or_false] at h
    rcases h with rfl | rfl | rfl
    · rfl
    · exact absurd rfl hplus
    · exact absurd rfl hminus

/-! ## Integers in decimal -/

omit [PyText] in
theorem toList_toString_int (n : Int) :
    (toString n).toList = if 0 ≤ n then Nat.toDigits 10 n.toNat else '-' :: Nat.toDigits 10 (-n).toNat := by
  rw [Int.toString_eq_repr, Int.repr_eq_if]
  split <;> simp

omit [PyText] in
/-- The text of an integer has digits and a minus. -/
theorem mem_toString_int {n : Int} {c : Char} (h : c ∈ (toString n).toList) :
    c.isDigit = true ∨ c = '-' := by
  rw [toList_toString_int] at h
  split at h
  · exact .inl (Nat.isDigit_of_mem_toDigits (by omega) (by omega) h)
  · rcases List.mem_cons.mp h with rfl | h
    · exact .inr rfl
    · exact .inl (Nat.isDigit_of_mem_toDigits (by omega) (by omega) h)

omit [PyText] in
theorem toString_int_notMem_nanTexts (n : Int) : (toString n).toList ∉ nanTexts := by
  intro h
  have hn : 'n' ∈ (toString n).toList := by
    simp only [nanTexts, List.mem_cons, List.not_mem_nil, or_false] at h
    rcases h with h | h | h <;> rw [h] <;> decide
  rcases mem_toString_int hn with h | h
  · revert h
    decide
  · revert h
    decide

/-- **NaN.**  A text is taken for a NaN exactly when it is one of three. -/
theorem coerceNumeric_eq_nan {s : String} :
    coerceNumeric s = .num .nan ↔ (strip s).toList ∈ nanTexts := by
  rcases coerceNumeric_eq s with ⟨n, hcanonical, hint⟩ | hfloat
  · refine iff_of_false (by simp [hint]) ?_
    rw [← hcanonical.2]
    exact toString_int_notMem_nanTexts _
  · rw [hfloat, ← pyFloat_eq_nan]
    cases pyFloat (strip s).toList <;> simp

end Nan

end Atlas
