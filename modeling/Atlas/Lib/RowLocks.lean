import Mathlib.Logic.Relation
import Atlas.Lib.Rows
import Atlas.Lib.Slots

/-!
# Transactions with row locks

A table of keyed rows and a log are changed by transactions.  A transaction
writes rows one after another, each write with an entry for the log, and locks
what it writes.  Others see its writes when it commits; when it rolls back, or
its process dies, they never happened.

What a write may do is a relation between the log, the entries its own
transaction has made so far, the row it finds and the write.  When the relation
survives a longer log, every run of interleaved transactions leaves a table and a
log that the same writes reach one at a time; the entries of a transaction stand
together in the log.
-/

namespace RowLocks

variable {R K E : Type}

/-- A new version of a row, and the entry it is logged with. -/
structure Write (R E : Type) where
  row : R
  entry : E

/-- The committed rows and the log of committed writes. -/
structure Ledger (R E : Type) where
  rows : List R
  log : List E

variable [DecidableEq K] (key : R → K)

def Ledger.apply (L : Ledger R E) (w : Write R E) : Ledger R E where
  rows := Rows.updateWhere (fun r => key r = key w.row) (fun _ => w.row) L.rows
  log := L.log ++ [w.entry]

def Ledger.applyAll (L : Ledger R E) (ws : List (Write R E)) : Ledger R E :=
  ws.foldl (Ledger.apply key) L

variable (Fresh : R → Prop) (Allowed : List E → List E → R → Write R E → Prop)

/-- After these entries of its transaction, the write finds a row it may change. -/
def Ledger.Fits (L : Ledger R E) (own : List E) (w : Write R E) : Prop :=
  ∃ r ∈ L.rows, key r = key w.row ∧ Allowed L.log own r w

/-- A row is inserted, or one row is written; what its transaction wrote before
is the end of the log. -/
inductive Ledger.Step (L : Ledger R E) : Ledger R E → Prop where
  | insert {r : R} (hfresh : Fresh r) (hnew : ∀ x ∈ L.rows, key x ≠ key r) :
      Step L ⟨L.rows ++ [r], L.log⟩
  | write {own : List E} {w : Write R E} (hown : own <:+ L.log) (hfits : L.Fits key Allowed own w) :
      Step L (L.apply key w)

/-- The writes fit one after another. -/
def Ledger.FitAll (L : Ledger R E) (own : List E) : List (Write R E) → Prop
  | [] => True
  | w :: ws => L.Fits key Allowed own w ∧ (L.apply key w).FitAll (own ++ [w.entry]) ws

/-- The transaction has written a row with this key. -/
def Locks (ws : List (Write R E)) (k : K) : Prop := ∃ w ∈ ws, key w.row = k

structure World (R E : Type) where
  ledger : Ledger R E
  txs : Nat → Option (List (Write R E))

def World.idle (L : Ledger R E) : World R E := ⟨L, fun _ => none⟩

/-- No other transaction has locked the row. -/
def World.FreeFor (W : World R E) (t : Nat) (k : K) : Prop :=
  ∀ t' ws, t' ≠ t → W.txs t' = some ws → ¬ Locks key ws k

inductive World.Step (W : World R E) : World R E → Prop where
  | insert {r : R} (hfresh : Fresh r) (hnew : ∀ x ∈ W.ledger.rows, key x ≠ key r) :
      Step W { W with ledger := ⟨W.ledger.rows ++ [r], W.ledger.log⟩ }
  | start {t : Nat} (hfree : W.txs t = none) : Step W { W with txs := Slots.put W.txs t [] }
  | write {t : Nat} {ws : List (Write R E)} {w : Write R E} (hopen : W.txs t = some ws)
      (hlock : W.FreeFor key t (key w.row))
      (hfits : (W.ledger.applyAll key ws).Fits key Allowed (ws.map Write.entry) w) :
      Step W { W with txs := Slots.put W.txs t (ws ++ [w]) }
  | commit {t : Nat} {ws : List (Write R E)} (hopen : W.txs t = some ws) :
      Step W ⟨W.ledger.applyAll key ws, Slots.clear W.txs t⟩
  | rollback {t : Nat} : Step W { W with txs := Slots.clear W.txs t }

/-! ## Other transactions do not disturb the writes of one -/

variable {key} {Fresh Allowed} {L L' : Ledger R E} {own : List E} {w : Write R E}
  {ws : List (Write R E)}

theorem Ledger.mem_apply {r : R} :
    r ∈ (L.apply key w).rows ↔
      (∃ x ∈ L.rows, key x = key w.row ∧ r = w.row) ∨ (r ∈ L.rows ∧ key r ≠ key w.row) := by
  unfold Ledger.apply
  simp only [Rows.mem_updateWhere, decide_eq_true_eq]
  constructor
  · rintro ⟨x, hx, rfl⟩
    by_cases hk : key x = key w.row
    · exact .inl ⟨x, hx, hk, if_pos hk⟩
    · rw [if_neg hk]
      exact .inr ⟨hx, hk⟩
  · rintro (⟨x, hx, hk, rfl⟩ | ⟨hr, hk⟩)
    · exact ⟨x, hx, if_pos hk⟩
    · exact ⟨r, hr, if_neg hk⟩

theorem Ledger.applyAll_cons : L.applyAll key (w :: ws) = (L.apply key w).applyAll key ws := rfl

theorem Ledger.log_applyAll : ∀ e ∈ L.log, e ∈ (L.applyAll key ws).log := by
  induction ws generalizing L with
  | nil =>
      intro e he
      exact he
  | cons w ws ih =>
      intro e he
      rw [applyAll_cons]
      exact ih e (List.mem_append_left _ he)

/-- A row that is not locked stays as it is. -/
theorem Ledger.mem_applyAll {r : R} (hr : r ∈ L.rows) (hlock : ¬ Locks key ws (key r)) :
    r ∈ (L.applyAll key ws).rows := by
  induction ws generalizing L with
  | nil => exact hr
  | cons w ws ih =>
      rw [applyAll_cons]
      refine ih (mem_apply.mpr (.inr ⟨hr, ?_⟩)) ?_
      · intro hk
        exact hlock ⟨w, List.mem_cons_self, hk.symm⟩
      · rintro ⟨x, hx, hk⟩
        exact hlock ⟨x, List.mem_cons_of_mem w hx, hk⟩

theorem own_cons (own : List E) (w : Write R E) (ws : List (Write R E)) :
    own ++ (w :: ws).map Write.entry = own ++ [w.entry] ++ ws.map Write.entry := by
  simp

theorem Ledger.fitAll_append (h : L.FitAll key Allowed own ws)
    (hfits : (L.applyAll key ws).Fits key Allowed (own ++ ws.map Write.entry) w) :
    L.FitAll key Allowed own (ws ++ [w]) := by
  induction ws generalizing L own with
  | nil =>
      rw [List.map_nil, List.append_nil] at hfits
      exact ⟨hfits, trivial⟩
  | cons x ws ih =>
      rw [own_cons] at hfits
      exact ⟨h.1, ih h.2 hfits⟩

/-- The writes of a transaction still fit when the rows it has locked are still
there and the log has grown. -/
theorem Ledger.FitAll.frame
    (hmono : ∀ log log' own r w, (∀ e ∈ log, e ∈ log') → Allowed log own r w →
      Allowed log' own r w)
    (h : L.FitAll key Allowed own ws) (hrows : ∀ r ∈ L.rows, Locks key ws (key r) → r ∈ L'.rows)
    (hlog : ∀ e ∈ L.log, e ∈ L'.log) : L'.FitAll key Allowed own ws := by
  induction ws generalizing L L' own with
  | nil => trivial
  | cons w ws ih =>
      obtain ⟨⟨r, hr, hk, hallowed⟩, hrest⟩ := h
      have hlocked : ∀ x, key x = key w.row → Locks key (w :: ws) (key x) := by
        intro x hx
        exact ⟨w, List.mem_cons_self, hx.symm⟩
      refine ⟨⟨r, hrows r hr (hlocked r hk), hk, hmono _ _ _ _ _ hlog hallowed⟩, ih hrest ?_ ?_⟩
      · intro x hx hxlock
        rcases mem_apply.mp hx with ⟨y, hy, hyk, rfl⟩ | ⟨hx, hxk⟩
        · exact mem_apply.mpr (.inl ⟨y, hrows y hy (hlocked y hyk), hyk, rfl⟩)
        · obtain ⟨v, hv, hvk⟩ := hxlock
          exact mem_apply.mpr (.inr ⟨hrows x hx ⟨v, List.mem_cons_of_mem w hv, hvk⟩, hxk⟩)
      · intro e he
        rcases List.mem_append.mp he with he | he
        · exact List.mem_append_left _ (hlog e he)
        · exact List.mem_append_right _ he

/-- A write in the middle fits after those before it. -/
theorem Ledger.FitAll.fits_mid {before after : List (Write R E)}
    (h : L.FitAll key Allowed own (before ++ w :: after)) :
    (L.applyAll key before).Fits key Allowed (own ++ before.map Write.entry) w := by
  induction before generalizing L own with
  | nil =>
      rw [List.map_nil, List.append_nil]
      exact h.1
  | cons x before ih =>
      rw [own_cons]
      exact ih h.2

/-- Writes that fit one after another are steps of the ledger. -/
theorem Ledger.FitAll.run (hown : own <:+ L.log) (h : L.FitAll key Allowed own ws) :
    Relation.ReflTransGen (Ledger.Step key Fresh Allowed) L (L.applyAll key ws) := by
  induction ws generalizing L own with
  | nil => exact .refl
  | cons w ws ih =>
      have hown' : own ++ [w.entry] <:+ (L.apply key w).log := by
        obtain ⟨older, holder⟩ := hown
        refine ⟨older, ?_⟩
        rw [← List.append_assoc, holder]
        rfl
      exact .head (.write hown h.1) (ih hown' h.2)

/-! ## Serialisation -/

namespace World

variable {W W' : World R E}

/-- No two transactions lock one row, and the writes of each fit. -/
structure Inv (key : R → K) (Allowed : List E → List E → R → Write R E → Prop) (W : World R E) :
    Prop where
  exclusive : Slots.Exclusive (Locks key) W.txs
  fit : Slots.All (W.ledger.FitAll key Allowed []) W.txs

theorem inv_idle (L : Ledger R E) : Inv key Allowed (idle L) :=
  ⟨Slots.exclusive_empty _, Slots.all_empty _⟩

variable (hmono : ∀ log log' own r w, (∀ e ∈ log, e ∈ log') → Allowed log own r w →
  Allowed log' own r w)

include hmono in
theorem Inv.commit (h : Inv key Allowed W) {t : Nat} (hopen : W.txs t = some ws) :
    Inv key Allowed ⟨W.ledger.applyAll key ws, Slots.clear W.txs t⟩ := by
  refine ⟨h.exclusive.clear, ?_⟩
  intro t' ws' hws'
  obtain ⟨hne, hws'⟩ := Slots.clear_some hws'
  refine (h.fit t' ws' hws').frame hmono ?_ fun _ => Ledger.log_applyAll _
  intro r hr hlocked
  refine Ledger.mem_applyAll hr ?_
  intro hlocks
  exact hne (h.exclusive hws' hopen hlocked hlocks)

include hmono in
theorem Inv.step (h : Inv key Allowed W) (hstep : Step key Fresh Allowed W W') :
    Inv key Allowed W' := by
  cases hstep with
  | @insert r hfresh hnew =>
      refine ⟨h.exclusive, h.fit.imp fun ws hws => hws.frame hmono ?_ fun e he => he⟩
      intro x hx _
      exact List.mem_append_left _ hx
  | start hfree =>
      refine ⟨h.exclusive.put ?_, h.fit.put trivial⟩
      rintro k ⟨w, hw, -⟩
      cases hw
  | @write t ws w hopen hlock hfits =>
      refine ⟨h.exclusive.put ?_, h.fit.put (Ledger.fitAll_append (h.fit t ws hopen) hfits)⟩
      rintro k ⟨v, hv, rfl⟩ t' ws' hne hws' hlocked
      rcases List.mem_append.mp hv with hv | hv
      · exact hne (h.exclusive hws' hopen hlocked ⟨v, hv, rfl⟩)
      · rw [List.mem_singleton.mp hv] at hlocked
        exact hlock t' ws' hne hws' hlocked
  | commit hopen => exact h.commit hmono hopen
  | rollback => exact ⟨h.exclusive.clear, h.fit.clear⟩

/-- A step of the world is a run of the ledger: the writes of a commit, or
nothing. -/
theorem Inv.ledger_step (h : Inv key Allowed W) (hstep : Step key Fresh Allowed W W') :
    Relation.ReflTransGen (Ledger.Step key Fresh Allowed) W.ledger W'.ledger := by
  cases hstep with
  | insert hfresh hnew => exact .single (.insert hfresh hnew)
  | start => exact .refl
  | write => exact .refl
  | commit hopen => exact (h.fit _ _ hopen).run List.nil_suffix
  | rollback => exact .refl

include hmono in
/-- **Transactions with row locks serialise.**  Whatever they interleave, the
committed table and log are reached by their writes one at a time. -/
theorem serialises (hrun : Relation.ReflTransGen (Step key Fresh Allowed) W W')
    (h : Inv key Allowed W) :
    Inv key Allowed W' ∧
      Relation.ReflTransGen (Ledger.Step key Fresh Allowed) W.ledger W'.ledger := by
  induction hrun with
  | refl => exact ⟨h, .refl⟩
  | tail _ hstep ih =>
      obtain ⟨hinv, hpath⟩ := ih
      exact ⟨hinv.step hmono hstep, hpath.trans (hinv.ledger_step hstep)⟩

/-- A transaction, with no other open. -/
theorem run_alone (hfit : L.FitAll key Allowed [] ws) :
    Relation.ReflTransGen (Step key Fresh Allowed) (idle L) (idle (L.applyAll key ws)) := by
  let open' (ws : List (Write R E)) : World R E := ⟨L, Slots.put (idle L).txs 0 ws⟩
  have hwrites : ∀ done rest, ws = done ++ rest → L.FitAll key Allowed [] (done ++ rest) →
      Relation.ReflTransGen (Step key Fresh Allowed) (open' done) (open' (done ++ rest)) := by
    intro done rest
    induction rest generalizing done with
    | nil =>
        intro _ _
        rw [List.append_nil]
    | cons w rest ih =>
        intro hws hall
        have hsplit : done ++ w :: rest = (done ++ [w]) ++ rest := by simp
        have hstep : Step key Fresh Allowed (open' done) (open' (done ++ [w])) := by
          have hput : open' (done ++ [w]) = ⟨L, Slots.put (open' done).txs 0 (done ++ [w])⟩ := by
            show World.mk L _ = World.mk L (Slots.put (Slots.put _ 0 done) 0 _)
            rw [Slots.put_put]
          rw [hput]
          refine .write (Slots.put_self (idle L).txs 0 done) ?_ ?_
          · intro t ws' hne hws'
            rcases Slots.put_some hws' with ⟨rfl, -⟩ | ⟨-, hws'⟩
            · exact absurd rfl hne
            · cases hws'
          · exact Ledger.FitAll.fits_mid hall
        rw [hsplit] at hws hall ⊢
        exact .head hstep (ih (done ++ [w]) hws hall)
  have hstart : Step key Fresh Allowed (idle L) (open' []) := .start rfl
  have hcommit : Step key Fresh Allowed (open' ws) (idle (L.applyAll key ws)) := by
    have hidle : idle (L.applyAll key ws) =
        ⟨(open' ws).ledger.applyAll key ws, Slots.clear (open' ws).txs 0⟩ := by
      show _ = World.mk _ (Slots.clear (Slots.put (idle L).txs 0 ws) 0)
      rw [Slots.clear_put, Slots.clear_of_none rfl]
      rfl
    rw [hidle]
    exact .commit (Slots.put_self (idle L).txs 0 ws)
  exact .head hstart ((hwrites [] ws rfl hfit).tail hcommit)

end World

end RowLocks
