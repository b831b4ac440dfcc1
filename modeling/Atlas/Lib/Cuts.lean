import Mathlib.Data.List.DropRight

/-!
# Cutting a list at a separator

A list is cut at the first occurrence of a separator into what stands before it
and what stands behind it, and at the last occurrence into everything up to it
and the part that follows.  Each cut is inverse to gluing: the pieces give the
list back, and a list glued from pieces that do not contain the separator is cut
into those pieces again.
-/

namespace Cuts

variable {α : Type*} [DecidableEq α]

/-- Everything before the first separator. -/
def before (sep : α) (cs : List α) : List α := cs.takeWhile fun c => !decide (c = sep)

/-- Everything behind the first separator, nothing if there is none. -/
def behind (sep : α) (cs : List α) : List α := (cs.dropWhile fun c => !decide (c = sep)).tail

/-- Everything up to the last separator, that one included. -/
def upToLast (sep : α) (cs : List α) : List α := cs.rdropWhile fun c => !decide (c = sep)

/-- Everything behind the last separator, the whole list if there is none. -/
def lastPart (sep : α) (cs : List α) : List α := cs.rtakeWhile fun c => !decide (c = sep)

variable {sep : α} {as bs cs : List α}

/-! ## The first separator -/

@[simp] theorem before_nil : before sep ([] : List α) = [] := rfl

@[simp] theorem behind_nil : behind sep ([] : List α) = [] := rfl

@[simp] theorem before_cons_self : before sep (sep :: cs) = [] := by
  simp [before]

@[simp] theorem behind_cons_self : behind sep (sep :: cs) = cs := by
  simp [behind]

theorem not_mem_before : sep ∉ before sep cs := by
  intro h
  simpa using List.mem_takeWhile_imp h

theorem mem_of_mem_before {c : α} (h : c ∈ before sep cs) : c ∈ cs :=
  (List.takeWhile_prefix _).subset h

theorem mem_of_mem_behind {c : α} (h : c ∈ behind sep cs) : c ∈ cs :=
  (List.dropWhile_sublist _).subset (List.mem_of_mem_tail h)

/-- A piece without the separator stays whole in front of the cut. -/
theorem before_append (h : sep ∉ as) : before sep (as ++ bs) = as ++ before sep bs := by
  refine List.takeWhile_append_of_pos fun c hc => ?_
  have hne : c ≠ sep := fun heq => h (heq ▸ hc)
  simp [hne]

theorem behind_append (h : sep ∉ as) : behind sep (as ++ bs) = behind sep bs := by
  unfold behind
  rw [List.dropWhile_append_of_pos]
  intro c hc
  have hne : c ≠ sep := fun heq => h (heq ▸ hc)
  simp [hne]

theorem before_of_not_mem (h : sep ∉ cs) : before sep cs = cs := by
  have hcut : before sep (cs ++ []) = cs ++ before sep [] := before_append h
  simpa using hcut

theorem behind_of_not_mem (h : sep ∉ cs) : behind sep cs = [] := by
  have hcut : behind sep (cs ++ []) = behind sep [] := behind_append h
  simpa using hcut

/-- **The pieces of a cut give the list back.** -/
theorem before_append_behind (h : sep ∈ cs) : before sep cs ++ sep :: behind sep cs = cs := by
  induction cs with
  | nil => cases h
  | cons c cs ih =>
      by_cases hc : c = sep
      · subst hc
        simp
      · have hrest : sep ∈ cs := (List.mem_cons.mp h).resolve_left (Ne.symm hc)
        have hcut : before sep (c :: cs) = c :: before sep cs := by simp [before, hc]
        have hleft : behind sep (c :: cs) = behind sep cs := by simp [behind, hc]
        rw [hcut, hleft, List.cons_append, ih hrest]

theorem length_cut (h : sep ∈ cs) : (before sep cs).length + (behind sep cs).length + 1 = cs.length := by
  have hlen := congrArg List.length (before_append_behind h)
  rw [List.length_append, List.length_cons] at hlen
  omega

/-! ## The last separator -/

theorem upToLast_append_lastPart (sep : α) (cs : List α) :
    upToLast sep cs ++ lastPart sep cs = cs :=
  List.rdropWhile_append_rtakeWhile

theorem not_mem_lastPart : sep ∉ lastPart sep cs := by
  intro h
  simpa using List.mem_rtakeWhile_imp h

theorem mem_of_mem_lastPart {c : α} (h : c ∈ lastPart sep cs) : c ∈ cs :=
  (List.rtakeWhile_suffix _ cs).subset h

theorem mem_of_mem_upToLast {c : α} (h : c ∈ upToLast sep cs) : c ∈ cs :=
  (List.rdropWhile_prefix _ cs).subset h

theorem upToLast_of_not_mem (h : sep ∉ cs) : upToLast sep cs = [] := by
  rw [upToLast, List.rdropWhile_eq_nil_iff]
  intro c hc
  have hne : c ≠ sep := fun heq => h (heq ▸ hc)
  simp [hne]

theorem lastPart_of_not_mem (h : sep ∉ cs) : lastPart sep cs = cs := by
  simpa [upToLast_of_not_mem h] using upToLast_append_lastPart sep cs

/-- A list cut at its last separator, both pieces at once. -/
theorem last_cut (h : sep ∉ bs) :
    upToLast sep (as ++ sep :: bs) = as ++ [sep] ∧ lastPart sep (as ++ sep :: bs) = bs := by
  induction bs using List.reverseRecOn with
  | nil =>
      constructor
      · rw [upToLast, List.rdropWhile_concat_neg]
        simp
      · rw [lastPart, List.rtakeWhile_concat_neg]
        simp
  | append_singleton bs c ih =>
      have hc : c ≠ sep := fun heq => h (by simp [heq])
      have hbs : sep ∉ bs := fun hmem => h (List.mem_append_left _ hmem)
      obtain ⟨hup, hlast⟩ := ih hbs
      have hshape : as ++ sep :: (bs ++ [c]) = (as ++ sep :: bs) ++ [c] := by simp
      constructor
      · rw [hshape, upToLast, List.rdropWhile_concat_pos _ _ _ (by simp [hc])]
        exact hup
      · rw [hshape, lastPart, List.rtakeWhile_concat_pos _ _ _ (by simp [hc])]
        exact congrArg (· ++ [c]) hlast

/-- What stands up to the last separator ends in it. -/
theorem upToLast_of_mem (h : sep ∈ cs) : ∃ as, upToLast sep cs = as ++ [sep] := by
  have hne : upToLast sep cs ≠ [] := by
    intro hnil
    rw [upToLast, List.rdropWhile_eq_nil_iff] at hnil
    simpa using hnil sep h
  have hlast : (upToLast sep cs).getLast hne = sep := by
    have hstop : ¬(!decide ((upToLast sep cs).getLast hne = sep)) :=
      List.rdropWhile_last_not (fun c => !decide (c = sep)) cs hne
    simpa using hstop
  have hglue := List.dropLast_append_getLast hne
  rw [hlast] at hglue
  exact ⟨(upToLast sep cs).dropLast, hglue.symm⟩

/-- Appending a text without the separator lengthens the last part and nothing
else. -/
theorem lastPart_append (h : sep ∉ bs) : lastPart sep (as ++ bs) = lastPart sep as ++ bs := by
  by_cases hmem : sep ∈ as
  · obtain ⟨ds, hds⟩ := upToLast_of_mem hmem
    have hcut : as = ds ++ sep :: lastPart sep as := by
      have hglue := upToLast_append_lastPart sep as
      rw [hds] at hglue
      simpa using hglue.symm
    have hnone : sep ∉ lastPart sep as ++ bs := by
      rw [List.mem_append]
      exact not_or.mpr ⟨not_mem_lastPart, h⟩
    have hshape : as ++ bs = ds ++ sep :: (lastPart sep as ++ bs) := by
      conv_lhs => rw [hcut]
      simp
    rw [hshape]
    exact (last_cut hnone).2
  · rw [lastPart_of_not_mem hmem, lastPart_of_not_mem]
    rw [List.mem_append]
    exact not_or.mpr ⟨hmem, h⟩

theorem upToLast_append (h : sep ∉ bs) : upToLast sep (as ++ bs) = upToLast sep as := by
  have hwhole := upToLast_append_lastPart sep (as ++ bs)
  rw [lastPart_append h, ← List.append_assoc] at hwhole
  have hcut := List.append_cancel_right hwhole
  conv_rhs at hcut => rw [← upToLast_append_lastPart sep as]
  exact List.append_cancel_right hcut

end Cuts
