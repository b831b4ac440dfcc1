import Atlas.Lib.Runs
import Atlas.Lib.Slots
import Mathlib.Data.List.Pairwise

/-!
# Rows written under a version check

Any number of calls edit one row.  A call loads the row, computes the row it
wants to store, and later writes it with `UPDATE … WHERE version = expected`,
where the expected version is an argument of the call and need not be the one
loaded.  The statement and the commit are one step, since the row lock is held
between them; a call may also give up at any time.

No update is lost when the versions of the stored rows strictly increase and
every stored row was computed from the row it replaced.  A run has this property
exactly when no write goes through whose expected version differs from the
version its call had loaded.
-/

namespace Optimistic

variable {Row Req : Type}

/-- A kind of row with the requests that edit it.  `edit` is what a request
makes of the row it loaded, `none` when it refuses to go on. -/
structure Editor (Row Req : Type) where
  version : Row → Nat
  expected : Req → Int
  edit : Req → Row → Option Row
  version_edit : ∀ {req row new}, edit req row = some new → version new = version row + 1

/-- A call that has loaded the row and not written yet. -/
structure Pending (Row : Type) where
  base : Row
  updated : Row
  expected : Int

/-- A committed write: the row it was computed from, the row that stood, and the
row it stored. -/
structure Write (Row : Type) where
  base : Row
  replaced : Row
  stored : Row

/-- The row, the open calls and the writes so far, oldest first. -/
structure World (Row : Type) where
  row : Row
  pending : Nat → Option (Pending Row)
  writes : List (Write Row)

inductive Act (Req : Type) where
  | load (call : Nat) (req : Req)
  | write (call : Nat)
  | abort (call : Nat)

/-- A row nobody has touched. -/
def World.start (row : Row) : World Row := ⟨row, fun _ => none, []⟩

/-- The rows that have stood, oldest first. -/
def World.history (w : World Row) : List Row := w.writes.map Write.replaced ++ [w.row]

variable (E : Editor Row Req)

/-- The write of a call: the row changes if its version is the expected one. -/
def commit (w : World Row) (call : Nat) (p : Pending Row) : World Row :=
  if (E.version w.row : Int) = p.expected then
    { row := p.updated, pending := Slots.clear w.pending call,
      writes := w.writes ++ [⟨p.base, w.row, p.updated⟩] }
  else { w with pending := Slots.clear w.pending call }

/-- One step.  A call in use loads nothing new, and a write of a call that has
loaded nothing does nothing. -/
def step (w : World Row) : Act Req → World Row
  | .load call req =>
      match w.pending call, E.edit req w.row with
      | none, some new => { w with pending := Slots.put w.pending call ⟨w.row, new, E.expected req⟩ }
      | _, _ => w
  | .write call =>
      match w.pending call with
      | some p => commit E w call p
      | none => w
  | .abort call => { w with pending := Slots.clear w.pending call }

/-- No update is lost. -/
structure NoLostUpdate (w : World Row) : Prop where
  increasing : (w.history.map E.version).Pairwise (· < ·)
  builds : ∀ x ∈ w.writes, x.base = x.replaced

/-- If the step is a write that the version check lets through, its call had
loaded that version. -/
def NamesLoaded (w : World Row) : Act Req → Prop
  | .write call => ∀ p, w.pending call = some p → (E.version w.row : Int) = p.expected →
      p.expected = E.version p.base
  | _ => True

/-- What is known of an open call while no update has been lost. -/
structure Sound (row : Row) (p : Pending Row) : Prop where
  next : E.version p.updated = E.version p.base + 1
  behind : E.version p.base ≤ E.version row
  same : E.version p.base = E.version row → p.base = row

variable {E} {w : World Row}

/-- What a step can do: nothing to the row, or the write of an open call. -/
theorem step_cases (w : World Row) (a : Act Req) :
    (∃ call req new, a = .load call req ∧ w.pending call = none ∧ E.edit req w.row = some new ∧
      step E w a = { w with pending := Slots.put w.pending call ⟨w.row, new, E.expected req⟩ }) ∨
    (∃ call p, a = .write call ∧ w.pending call = some p ∧ (E.version w.row : Int) = p.expected ∧
      step E w a = { row := p.updated, pending := Slots.clear w.pending call,
                     writes := w.writes ++ [⟨p.base, w.row, p.updated⟩] }) ∨
    (∃ call, step E w a = { w with pending := Slots.clear w.pending call } ∧
      ∀ call' p, a = .write call' → w.pending call' = some p →
        (E.version w.row : Int) ≠ p.expected) ∨
    (step E w a = w ∧ ∀ call, a = .write call → w.pending call = none) := by
  cases a with
  | load call req =>
      cases hp : w.pending call with
      | some p =>
          refine .inr (.inr (.inr ⟨by simp [step, hp], ?_⟩))
          intro call' h
          cases h
      | none =>
          cases hnew : E.edit req w.row with
          | none =>
              refine .inr (.inr (.inr ⟨by simp [step, hp, hnew], ?_⟩))
              intro call' h
              cases h
          | some new => exact .inl ⟨call, req, new, rfl, hp, hnew, by simp [step, hp, hnew]⟩
  | write call =>
      cases hp : w.pending call with
      | none =>
          refine .inr (.inr (.inr ⟨by simp [step, hp], ?_⟩))
          intro call' h
          cases h
          exact hp
      | some p =>
          by_cases hv : (E.version w.row : Int) = p.expected
          · exact .inr (.inl ⟨call, p, rfl, hp, hv, by simp [step, hp, commit, hv]⟩)
          · refine .inr (.inr (.inl ⟨call, by simp [step, hp, commit, hv], ?_⟩))
            intro call' p' hcall hp'
            cases hcall
            rw [hp] at hp'
            cases hp'
            exact hv
  | abort call =>
      refine .inr (.inr (.inl ⟨call, rfl, ?_⟩))
      intro call' p h
      cases h

/-- The history after a write is the history before it with the new row. -/
theorem history_write (w : World Row) (p : Pending Row) (pending : Nat → Option (Pending Row)) :
    World.history { row := p.updated, pending := pending,
                    writes := w.writes ++ [⟨p.base, w.row, p.updated⟩] } =
      w.history ++ [p.updated] := by
  simp [World.history]

/-- Every earlier version is at most the current one. -/
theorem NoLostUpdate.le_row (h : NoLostUpdate E w) {row : Row} (hrow : row ∈ w.history) :
    E.version row ≤ E.version w.row := by
  have hpair := h.increasing
  rw [World.history, List.map_append, List.pairwise_append] at hpair
  rcases List.mem_append.mp hrow with hold | hnow
  · exact (hpair.2.2 _ (List.mem_map_of_mem hold) (E.version w.row) (by simp)).le
  · rw [List.mem_singleton.mp hnow]

/-- A write keeps the property exactly when it was computed from the row it
replaces and raises the version. -/
theorem noLostUpdate_write (h : NoLostUpdate E w) {p : Pending Row}
    {pending : Nat → Option (Pending Row)} :
    NoLostUpdate E { row := p.updated, pending := pending,
                     writes := w.writes ++ [⟨p.base, w.row, p.updated⟩] } ↔
      p.base = w.row ∧ E.version w.row < E.version p.updated := by
  constructor
  · intro h'
    refine ⟨h'.builds ⟨p.base, w.row, p.updated⟩ (by simp), ?_⟩
    have hpair := h'.increasing
    rw [history_write, List.map_append, List.pairwise_append] at hpair
    exact hpair.2.2 _ (List.mem_map_of_mem (by simp [World.history])) (E.version p.updated) (by simp)
  · rintro ⟨hbase, hlt⟩
    refine ⟨?_, ?_⟩
    · rw [history_write, List.map_append, List.pairwise_append]
      refine ⟨h.increasing, by simp, ?_⟩
      intro v hv v' hv'
      obtain ⟨row, hrow, rfl⟩ := List.mem_map.mp hv
      simp only [List.map_cons, List.map_nil, List.mem_singleton] at hv'
      have hle := h.le_row hrow
      omega
    · intro x hx
      rcases List.mem_append.mp hx with hold | hnew
      · exact h.builds x hold
      · rw [List.mem_singleton.mp hnew]
        exact hbase

/-- A step that leaves the row and the writes alone keeps the property. -/
theorem noLostUpdate_pending {pending : Nat → Option (Pending Row)} :
    NoLostUpdate E { w with pending := pending } ↔ NoLostUpdate E w :=
  ⟨fun h => ⟨h.increasing, h.builds⟩, fun h => ⟨h.increasing, h.builds⟩⟩

/-- The property of a later state holds of an earlier one. -/
theorem noLostUpdate_before {a : Act Req} (h : NoLostUpdate E (step E w a)) :
    NoLostUpdate E w := by
  rcases step_cases (E := E) w a with ⟨_, _, _, _, _, _, heq⟩ | ⟨_, p, _, _, _, heq⟩ | ⟨_, heq, _⟩ |
    ⟨heq, _⟩
  · rw [heq] at h
    exact noLostUpdate_pending.mp h
  · rw [heq] at h
    have hpair := h.increasing
    rw [history_write, List.map_append, List.pairwise_append] at hpair
    exact ⟨hpair.1, fun x hx => h.builds x (List.mem_append_left _ hx)⟩
  · rw [heq] at h
    exact noLostUpdate_pending.mp h
  · rwa [heq] at h

/-- While no update is lost, every open call is sound. -/
theorem sound_step {a : Act Req} (hw : NoLostUpdate E w) (hs : Slots.All (Sound E w.row) w.pending)
    (h : NoLostUpdate E (step E w a)) :
    Slots.All (Sound E (step E w a).row) (step E w a).pending := by
  rcases step_cases (E := E) w a with ⟨call, req, new, _, _, hnew, heq⟩ |
    ⟨call, p, _, hp, hv, heq⟩ | ⟨call, heq, _⟩ | ⟨heq, _⟩
  · rw [heq]
    refine Slots.All.put hs ?_
    exact ⟨E.version_edit hnew, le_refl _, fun _ => rfl⟩
  · rw [heq] at h ⊢
    obtain ⟨hbase, hlt⟩ := (noLostUpdate_write hw).mp h
    intro call' q hq
    obtain ⟨_, hq⟩ := Slots.clear_some hq
    have hq := hs call' q hq
    have hbehind := hq.behind
    refine ⟨hq.next, ?_, ?_⟩
    · show E.version q.base ≤ E.version p.updated
      omega
    · intro hsame
      have hsame : E.version q.base = E.version p.updated := hsame
      omega
  · rw [heq]
    exact Slots.All.clear hs
  · rwa [heq]

/-- A step keeps the property exactly when a write that goes through names the
version its call loaded. -/
theorem noLostUpdate_step {a : Act Req} (hw : NoLostUpdate E w)
    (hs : Slots.All (Sound E w.row) w.pending) :
    NoLostUpdate E (step E w a) ↔ NamesLoaded E w a := by
  rcases step_cases (E := E) w a with ⟨call, req, new, rfl, _, _, heq⟩ |
    ⟨call, p, rfl, hp, hv, heq⟩ | ⟨call, heq, hfails⟩ | ⟨heq, hidle⟩
  · rw [heq, noLostUpdate_pending]
    exact ⟨fun _ => trivial, fun _ => hw⟩
  · have hp' := hs call p hp
    rw [heq, noLostUpdate_write hw]
    constructor
    · rintro ⟨hbase, _⟩ q hq _
      rw [hp] at hq
      cases hq
      rw [← hv, hbase]
    · intro hnames
      have hnamed := hnames p hp hv
      have hsame : E.version p.base = E.version w.row := by omega
      have hnext := hp'.next
      exact ⟨hp'.same hsame, by omega⟩
  · rw [heq, noLostUpdate_pending]
    refine ⟨fun _ => ?_, fun _ => hw⟩
    cases a with
    | write call' =>
        intro p hp hv
        exact absurd hv (hfails call' p rfl hp)
    | load call' req => trivial
    | abort call' => trivial
  · rw [heq]
    refine ⟨fun _ => ?_, fun _ => hw⟩
    cases a with
    | write call =>
        intro p hp _
        rw [hidle call rfl] at hp
        cases hp
    | load call req => trivial
    | abort call => trivial

theorem noLostUpdate_start (row : Row) : NoLostUpdate E (World.start row) :=
  ⟨by simp [World.start, World.history], by simp [World.start]⟩

/-- **Version-checked editing.**  Whatever calls there are and however their
loads and writes interleave, no update is lost in any state of the run exactly
when every write that goes through names the version its call had loaded. -/
theorem everyState_noLostUpdate (row : Row) (acts : List (Act Req)) :
    Runs.EveryState (step E) (NoLostUpdate E) (World.start row) acts ↔
      Runs.EveryStep (step E) (NamesLoaded E) (World.start row) acts := by
  -- the standing invariant: as long as nothing is lost, the open calls are sound
  apply Runs.everyState_iff_everyStep
    (I := fun w => NoLostUpdate E w → Slots.All (Sound E w.row) w.pending)
  · intro w a hI hafter
    have hw := noLostUpdate_before hafter
    exact sound_step hw (hI hw) hafter
  · intro w a hI hw
    exact noLostUpdate_step hw (hI hw)
  · intro _
    exact Slots.all_empty _
  · exact noLostUpdate_start row

end Optimistic
