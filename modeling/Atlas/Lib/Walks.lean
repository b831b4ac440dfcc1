import Atlas.Lib.Keyset

/-!
# Walking through a listing

A client asks for a page, and feeds the returned cursor back until there is none.  When the rows
behind a cursor are those that the listing has behind the cursor's row, the pages put together are
the listing, whatever the size of a page.
-/

namespace Keyset

variable {α γ κ : Type*} [LinearOrder κ]

/-- The rows that a walk from a cursor collects.  A derivation is finite: the walk ends. -/
inductive Walk (page : Option γ → List α × Option γ) : Option γ → List α → Prop
  | last {cursor : Option γ} {rows : List α} (h : page cursor = (rows, none)) : Walk page cursor rows
  | next {cursor : Option γ} {cursor' : γ} {rows rest : List α} (h : page cursor = (rows, some cursor'))
      (hrest : Walk page (some cursor') rest) : Walk page cursor (rows ++ rest)

/-- The pages are batches of the rows behind the cursor. -/
def servePage (cursorOf : α → γ) (behind : Option γ → List α) (limit : Nat) (cursor : Option γ) :
    List α × Option γ :=
  ((batch limit (behind cursor)).1, (batch limit (behind cursor)).2.map cursorOf)

/-- A walk collects what is behind its cursor. -/
theorem walk_behind {cursorOf : α → γ} {behind : Option γ → List α} {all : List α} {limit : Nat}
    (hlimit : 0 < limit)
    (hbehind : ∀ pre r post, all = pre ++ r :: post → behind (some (cursorOf r)) = post)
    {post : List α} : ∀ {pre : List α} {cursor : Option γ}, all = pre ++ post →
      behind cursor = post → Walk (servePage cursorOf behind limit) cursor post := by
  induction hlength : post.length using Nat.strong_induction_on generalizing post with
  | _ n ih =>
      intro pre cursor hall hrows
      rcases batch_cases hlimit post with hbatch | ⟨first, r, rest, hsplit, hbatch⟩
      · refine .last ?_
        unfold servePage
        rw [hrows, hbatch]
        rfl
      · have hserved : servePage cursorOf behind limit cursor = (first ++ [r], some (cursorOf r)) := by
          unfold servePage
          rw [hrows, hbatch]
          rfl
        have hall' : all = (pre ++ first) ++ r :: rest := by
          rw [hall, hsplit, List.append_assoc]
        have hshorter : rest.length < n := by
          rw [← hlength, hsplit, List.length_append, List.length_cons]
          omega
        have hrest := ih rest.length hshorter rfl (hall'.trans (List.append_cons _ _ _))
          (hbehind _ _ _ hall')
        have hwhole : post = (first ++ [r]) ++ rest := hsplit.trans (List.append_cons _ _ _)
        rw [hwhole]
        exact .next hserved hrest

/-- A page function is complete for some rows: every walk from the start ends, with each of the
rows exactly once, in descending order. -/
def Complete (key : α → κ) (matching : List α) (page : Nat → Option γ → List α × Option γ) : Prop :=
  ∀ limit, 1 ≤ limit → ∃ rows, Walk (page limit) none rows ∧ rows.Perm matching ∧ Descending key rows

/-- **Keyset pagination is complete** when keys are not shared and each cursor is read as the key of
its row. -/
theorem complete_of_behind {key : α → κ} {matching : List α} {cursorOf : α → γ}
    {behind : Option γ → List α} (hkeys : (matching.map key).Nodup)
    (hstart : behind none = listing key matching)
    (hcursor : ∀ r ∈ matching, behind (some (cursorOf r)) = below key (key r) (listing key matching)) :
    Complete key matching (servePage cursorOf behind) := by
  intro limit hlimit
  have hdescending := descending_listing hkeys
  refine ⟨listing key matching, ?_, perm_listing matching, hdescending⟩
  have hsplits : ∀ pre r post, listing key matching = pre ++ r :: post →
      behind (some (cursorOf r)) = post := by
    intro pre r post hsplit
    have hmem : r ∈ matching := by
      rw [← @mem_listing α κ _ key, hsplit]
      exact List.mem_append_right _ List.mem_cons_self
    rw [hcursor r hmem, hsplit]
    exact below_eq (hsplit ▸ hdescending)
  exact walk_behind hlimit hsplits (List.nil_append _).symm hstart

/-- A walk through pages that are shown in another form. -/
theorem Walk.map {β : Type*} {page : Option γ → List α × Option γ} {cursor : Option γ} {rows : List α}
    (f : α → β) (h : Walk page cursor rows) :
    Walk (fun cursor => ((page cursor).1.map f, (page cursor).2)) cursor (rows.map f) := by
  induction h with
  | last h => exact .last (by rw [h])
  | next h _ ih =>
      rw [List.map_append]
      exact .next (by rw [h]) ih

/-- The form does not matter when it keeps the keys. -/
theorem Complete.map {β : Type*} {key : α → κ} {key' : β → κ} {matching : List α}
    {page : Nat → Option γ → List α × Option γ} (f : α → β) (hkey : ∀ a, key' (f a) = key a)
    (h : Complete key matching page) :
    Complete key' (matching.map f)
      (fun limit cursor => ((page limit cursor).1.map f, (page limit cursor).2)) := by
  intro limit hlimit
  obtain ⟨rows, hwalk, hperm, hdescending⟩ := h limit hlimit
  refine ⟨rows.map f, hwalk.map f, hperm.map f, List.pairwise_map.mpr (hdescending.imp ?_)⟩
  intro a b hlt
  rw [hkey, hkey]
  exact hlt

end Keyset
