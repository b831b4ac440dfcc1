import Mathlib.Logic.Relation

/-!
# Chains of pointers

A pointer relation gives every element at most one successor.  Where following
it from an element ends, it cannot have run in a circle, and it ends at one
element only.
-/

namespace Pointers

variable {α : Type*} {R : α → α → Prop} {a b c : α}

/-- Following the pointers from `a` ends at `b`. -/
def EndsAt (R : α → α → Prop) (a b : α) : Prop := Relation.ReflTransGen R a b ∧ ∀ c, ¬ R b c

theorem EndsAt.head (h : R a b) (hb : EndsAt R b c) : EndsAt R a c := ⟨.head h hb.1, hb.2⟩

/-- **A chain that ends does not run in a circle.** -/
theorem EndsAt.acyclic (hfun : ∀ a b c, R a b → R a c → b = c) (h : EndsAt R a b) :
    ¬ Relation.TransGen R a a := by
  obtain ⟨hpath, hend⟩ := h
  induction hpath using Relation.ReflTransGen.head_induction_on with
  | refl =>
      intro hcycle
      obtain ⟨c, hc, -⟩ := Relation.TransGen.head'_iff.mp hcycle
      exact hend c hc
  | @head x y hxy _ ih =>
      intro hcycle
      obtain ⟨z, hxz, hzx⟩ := Relation.TransGen.head'_iff.mp hcycle
      rw [← hfun x y z hxy hxz] at hzx
      exact ih (Relation.TransGen.tail' hzx hxy)

theorem EndsAt.unique (hfun : ∀ a b c, R a b → R a c → b = c) {b' : α} (h : EndsAt R a b)
    (h' : EndsAt R a b') : b = b' := by
  obtain ⟨hpath, hend⟩ := h
  obtain ⟨hpath', hend'⟩ := h'
  induction hpath using Relation.ReflTransGen.head_induction_on with
  | refl =>
      rcases Relation.ReflTransGen.cases_head hpath' with heq | ⟨c, hc, -⟩
      · exact heq
      · exact absurd hc (hend c)
  | @head x y hxy _ ih =>
      rcases Relation.ReflTransGen.cases_head hpath' with heq | ⟨z, hxz, hz⟩
      · subst heq
        exact absurd hxy (hend' y)
      · rw [← hfun x y z hxy hxz] at hz
        exact ih hz

end Pointers
