import Atlas.ProjectionBuilder
import Mathlib.Data.List.Lex
import Mathlib.Data.List.MinMax

/-!
# The winner of a field

`WinnerPolicy.choose_winner` takes the claim with the greatest key, and the key ends
in the claim's identifier.  So among claims with distinct identifiers the winner is
the one that no other claim beats, in whatever order the claims come.  The claim type
leads the key: the winner of the highest tier that a field has is the winner of all
its active claims.
-/

namespace Atlas

open Rows

theorem chooseWinner_eq_argmax (claims : List Claim) (sources : List Source) :
    chooseWinner claims sources = (claims.filter Claim.canWin).argmax (sortKey sources) := by
  unfold chooseWinner List.argmax
  congr 1
  funext best c
  cases best with
  | none => rfl
  | some b =>
      change (if _ then _ else _) = (if _ then _ else _)
      congr

theorem id_eq_of_sortKey {sources : List Source} {a b : Claim}
    (h : sortKey sources a = sortKey sources b) : a.id = b.id := by
  unfold sortKey at h
  simp only [List.cons.injEq, and_true] at h
  exact_mod_cast h.2.2.2

/-- The claim that no other beats. -/
structure TopClaim (sources : List Source) (claims : List Claim) (w : Claim) : Prop where
  mem : w ∈ claims
  canWin : w.canWin = true
  top : ∀ c ∈ claims, c.canWin = true → sortKey sources c ≤ sortKey sources w

/-- **The winner of claims with distinct identifiers** is the top one. -/
theorem chooseWinner_eq_some_iff {claims : List Claim} (hids : Rows.Unique Claim.id claims)
    (sources : List Source) (w : Claim) :
    chooseWinner claims sources = some w ↔ TopClaim sources claims w := by
  rw [chooseWinner_eq_argmax]
  constructor
  · intro h
    have hw := List.mem_filter.mp (List.argmax_mem h)
    refine ⟨hw.1, hw.2, ?_⟩
    intro c hc hwin
    exact not_lt.mp (List.not_lt_of_mem_argmax (List.mem_filter.mpr ⟨hc, hwin⟩) h)
  · intro h
    have hmem : w ∈ claims.filter Claim.canWin := List.mem_filter.mpr ⟨h.mem, h.canWin⟩
    cases hbest : (claims.filter Claim.canWin).argmax (sortKey sources) with
    | none =>
        rw [List.argmax_eq_none] at hbest
        rw [hbest] at hmem
        exact absurd hmem List.not_mem_nil
    | some b =>
        have hb := List.mem_filter.mp (List.argmax_mem hbest)
        have hle := not_lt.mp (List.not_lt_of_mem_argmax hmem hbest)
        have hge := h.top b hb.1 hb.2
        have hid := id_eq_of_sortKey (le_antisymm hge hle)
        rw [hids.eq_of_key hb.1 h.mem hid]

/-- The winner among some of the claims, when the top one is among them. -/
theorem TopClaim.of_subset {sources : List Source} {claims some : List Claim} {w : Claim}
    (h : TopClaim sources claims w) (hsub : some ⊆ claims) (hw : w ∈ some) :
    TopClaim sources some w :=
  ⟨hw, h.canWin, fun c hc => h.top c (hsub hc)⟩

theorem sortKey_lt_of_rank {sources : List Source} {a b : Claim}
    (h : claimTypeRank a.claimType < claimTypeRank b.claimType) :
    sortKey sources a < sortKey sources b := by
  unfold sortKey
  exact List.Lex.rel h

theorem mem_ofType {t : ClaimType} {claims : List Claim} {c : Claim} :
    c ∈ ofType t claims ↔ c ∈ claims ∧ c.claimType = t := by
  simp [ofType]

section Tiers

variable [PyText]

/-- A tier that says a value takes it from its winner. -/
theorem tierValue_value {sources : List Source} {tier : List Claim} {v : Json}
    (h : tierValue sources tier = some (.value v)) :
    ∃ w, chooseWinner tier sources = some w ∧ w.fieldValue = v := by
  unfold tierValue at h
  split at h
  · exact absurd h (by simp)
  · cases hw : chooseWinner tier sources with
    | none =>
        rw [hw] at h
        exact absurd h (by simp)
    | some w =>
        rw [hw] at h
        simp only [Option.map_some, Option.some.injEq, Projected.value.injEq] at h
        exact ⟨w, rfl, h⟩

omit [PyText] in
/-- The winner of a tier above which there is nothing is the top claim. -/
theorem topClaim_of_tier {sources : List Source} {claims : List Claim} {t : ClaimType}
    (hids : Rows.Unique Claim.id claims)
    (habove : ∀ c ∈ claims, c.canWin = true → claimTypeRank c.claimType ≤ claimTypeRank t)
    (hsame : ∀ c ∈ claims, claimTypeRank c.claimType = claimTypeRank t → c.claimType = t)
    {w : Claim} (h : chooseWinner (ofType t claims) sources = some w) :
    TopClaim sources claims w := by
  have hidsTier : Rows.Unique Claim.id (ofType t claims) :=
    List.Nodup.sublist (List.filter_sublist.map Claim.id) hids
  have htop := (chooseWinner_eq_some_iff hidsTier sources w).mp h
  have hw := mem_ofType.mp htop.mem
  refine ⟨hw.1, htop.canWin, ?_⟩
  intro c hc hwin
  rcases lt_or_eq_of_le (habove c hc hwin) with hlt | heq
  · rw [← hw.2] at hlt
    exact le_of_lt (sortKey_lt_of_rank hlt)
  · exact htop.top c (mem_ofType.mpr ⟨hc, hsame c hc heq⟩) hwin

/-- **A field that is decided by its tiers** has the value of its top claim. -/
theorem tieredValue_value {sources : List Source} {claims : List Claim}
    (hids : Rows.Unique Claim.id claims) {v : Json}
    (h : tieredValue sources claims = some (.value v)) :
    ∃ w, TopClaim sources claims w ∧ w.fieldValue = v := by
  have hrank : ∀ a b : ClaimType, claimTypeRank a = claimTypeRank b → a = b := by
    intro a b hab
    cases a <;> cases b <;> simp_all [claimTypeRank]
  have hnone : ∀ {t : ClaimType}, ofType t claims = [] → ∀ c ∈ claims, c.claimType ≠ t := by
    intro t ht c hc htype
    have hmem := mem_ofType.mpr ⟨hc, htype⟩
    rw [ht] at hmem
    exact absurd hmem List.not_mem_nil
  have hwinners : ∀ c : Claim, c.canWin = true → c.claimType ≠ .superseded := by
    intro c hwin htype
    simp [Claim.canWin, htype] at hwin
  unfold tieredValue at h
  dsimp only at h
  split at h
  · obtain ⟨w, hw, hv⟩ := tierValue_value h
    refine ⟨w, topClaim_of_tier hids ?_ (fun c _ => hrank _ _) hw, hv⟩
    intro c _ _
    cases c.claimType <;> simp [claimTypeRank]
  · rename_i hoverride
    rw [ne_eq, not_not] at hoverride
    split at h
    · obtain ⟨w, hw, hv⟩ := tierValue_value h
      refine ⟨w, topClaim_of_tier hids ?_ (fun c _ => hrank _ _) hw, hv⟩
      intro c hc _
      have hne := hnone hoverride c hc
      cases htype : c.claimType <;> simp_all [claimTypeRank]
    · rename_i hconfirmed
      rw [ne_eq, not_not] at hconfirmed
      obtain ⟨w, hw, hv⟩ := tierValue_value h
      refine ⟨w, topClaim_of_tier hids ?_ (fun c _ => hrank _ _) hw, hv⟩
      intro c hc hwin
      have hne := hnone hoverride c hc
      have hne' := hnone hconfirmed c hc
      have hactive := hwinners c hwin
      cases htype : c.claimType <;> simp_all [claimTypeRank]

end Tiers

end Atlas
