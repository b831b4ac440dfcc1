import Mathlib.Data.Set.Insert

/-!
# Rows that share an identity

Rows are made under identities given out by a counter, and copied: a copy may change, but
not its key.  Then all rows of an identity agree on the key, wherever they are, and what is
promised of an identity by one of its rows holds of every row there will ever be.
-/

namespace Identities

variable {α κ : Type*} (id : α → Nat) (key : α → κ)

/-- Identities are below the counter, and the rows of one agree on the key. -/
structure Agree (n : Nat) (rows : Set α) : Prop where
  fresh : ∀ r ∈ rows, id r < n
  agree : ∀ r ∈ rows, ∀ r' ∈ rows, id r = id r' → key r = key r'

/-- The identity was given out, and every row of it has the key. -/
def Promised (n : Nat) (rows : Set α) (x : Nat) (k : κ) : Prop :=
  x < n ∧ ∀ r ∈ rows, id r = x → key r = k

variable {id key} {n n' : Nat} {rows rows' : Set α} {r r₀ : α} {x : Nat} {k : κ}

theorem Agree.mono (h : Agree id key n rows) (hn : n ≤ n') (hrows : rows' ⊆ rows) :
    Agree id key n' rows' :=
  ⟨fun r hr => (h.fresh r (hrows hr)).trans_le hn,
    fun r hr r' hr' => h.agree r (hrows hr) r' (hrows hr')⟩

theorem Promised.mono (h : Promised id key n rows x k) (hn : n ≤ n') (hrows : rows' ⊆ rows) :
    Promised id key n' rows' x k :=
  ⟨h.1.trans_le hn, fun r hr => h.2 r (hrows hr)⟩

/-- What a row shows is promised. -/
theorem Agree.promised (h : Agree id key n rows) (hr : r ∈ rows) :
    Promised id key n rows (id r) (key r) :=
  ⟨h.fresh r hr, fun r' hr' hid => h.agree r' hr' r hr hid⟩

/-- A row under the next identity. -/
theorem Agree.insert_new (h : Agree id key n rows) (hr : id r = n) :
    Agree id key (n + 1) (insert r rows) := by
  refine ⟨?_, ?_⟩
  · intro s hs
    cases hs with
    | inl hnew =>
        rw [hnew, hr]
        exact Nat.lt_succ_self n
    | inr hold => exact (h.fresh s hold).trans (Nat.lt_succ_self n)
  · intro s hs t ht hid
    cases hs with
    | inl hnew =>
        cases ht with
        | inl hnew' => rw [hnew, hnew']
        | inr hold' =>
            rw [hnew, hr] at hid
            exact absurd hid.symm (h.fresh t hold').ne
    | inr hold =>
        cases ht with
        | inl hnew' =>
            rw [hnew', hr] at hid
            exact absurd hid (h.fresh s hold).ne
        | inr hold' => exact h.agree s hold t hold' hid

theorem Promised.insert_new (h : Promised id key n rows x k) (hr : id r = n) :
    Promised id key (n + 1) (insert r rows) x k := by
  refine ⟨h.1.trans (Nat.lt_succ_self n), ?_⟩
  intro s hs hid
  cases hs with
  | inl hnew =>
      rw [hnew, hr] at hid
      exact absurd h.1 (by rw [hid]; exact lt_irrefl x)
  | inr hold => exact h.2 s hold hid

/-- A copy is like the row it was made of. -/
theorem exists_like (h₀ : r₀ ∈ rows) (hid : id r = id r₀) (hkey : key r = key r₀) {s : α}
    (hs : s ∈ insert r rows) : ∃ t ∈ rows, id s = id t ∧ key s = key t := by
  cases hs with
  | inl hnew =>
      rw [hnew]
      exact ⟨r₀, h₀, hid, hkey⟩
  | inr hold => exact ⟨s, hold, rfl, rfl⟩

/-- A copy of a row, under the key of the row. -/
theorem Agree.insert_copy (h : Agree id key n rows) (h₀ : r₀ ∈ rows) (hid : id r = id r₀)
    (hkey : key r = key r₀) : Agree id key n (insert r rows) := by
  refine ⟨?_, ?_⟩
  · intro s hs
    obtain ⟨t, ht, hsame, -⟩ := exists_like h₀ hid hkey hs
    rw [hsame]
    exact h.fresh t ht
  · intro s hs s' hs' heq
    obtain ⟨t, ht, hsame, hk⟩ := exists_like h₀ hid hkey hs
    obtain ⟨t', ht', hsame', hk'⟩ := exists_like h₀ hid hkey hs'
    rw [hk, hk']
    exact h.agree t ht t' ht' (hsame.symm.trans (heq.trans hsame'))

theorem Promised.insert_copy (h : Promised id key n rows x k) (h₀ : r₀ ∈ rows) (hid : id r = id r₀)
    (hkey : key r = key r₀) : Promised id key n (insert r rows) x k := by
  refine ⟨h.1, ?_⟩
  intro s hs heq
  obtain ⟨t, ht, hsame, hk⟩ := exists_like h₀ hid hkey hs
  rw [hk]
  exact h.2 t ht (hsame.symm.trans heq)

end Identities
