import Atlas.Lib.Runs
import Atlas.Lib.Slots

/-!
# Calls that check by a read and write later

A call reads the shared state, checks it, and later writes without checking
again; the write and the commit are one step, since the row lock is held between
them.  A call may give up at any time.  What a call has checked can go out of
date: `overtakes` says which commits do that to which open calls, and every open
call carries a mark that it has been overtaken.

Suppose a good state stays good under a commit exactly when what the call has
checked is not stale, and that being stale is what `overtakes` tracks.  Then every
state of a run is good exactly when no overtaken call's write goes through.
-/

namespace Overtaking

variable {S Req Tx : Type}

/-- An open call: what it will write, and whether it has been overtaken. -/
structure Call (Tx : Type) where
  tx : Tx
  overtaken : Bool
deriving DecidableEq

/-- How calls read and write.  `read` is `none` when the call refuses to go on, and
`write` is `none` when it fails and changes nothing. -/
structure Protocol (S Req Tx : Type) where
  read : S → Req → Option (Call Tx)
  write : S → Tx → Option S
  overtakes : Tx → Tx → Bool

/-- The shared state and the open calls. -/
structure World (S Tx : Type) where
  state : S
  calls : Nat → Option (Call Tx)

inductive Act (Req : Type) where
  | read (call : Nat) (req : Req)
  | write (call : Nat)
  | abort (call : Nat)

def World.start (s : S) : World S Tx := ⟨s, fun _ => none⟩

variable (P : Protocol S Req Tx)

/-- The mark of an open call after a commit of `tx`. -/
def Protocol.mark (tx : Tx) (c : Call Tx) : Call Tx :=
  { c with overtaken := c.overtaken || P.overtakes tx c.tx }

/-- The write of a call, and what it does to the other open calls. -/
def Protocol.commit (w : World S Tx) (call : Nat) (tx : Tx) : World S Tx :=
  match P.write w.state tx with
  | some s => { state := s, calls := fun n => (Slots.clear w.calls call n).map (P.mark tx) }
  | none => { w with calls := Slots.clear w.calls call }

/-- One step.  A call in use reads nothing new, and a call that is not open writes
nothing. -/
def Protocol.step (w : World S Tx) : Act Req → World S Tx
  | .read call req =>
      match w.calls call, P.read w.state req with
      | none, some c => { w with calls := Slots.put w.calls call c }
      | _, _ => w
  | .write call =>
      match w.calls call with
      | some c => P.commit w call c.tx
      | none => w
  | .abort call => { w with calls := Slots.clear w.calls call }

/-- If the step is a write that goes through, its call has not been overtaken. -/
def Protocol.InTime (w : World S Tx) : Act Req → Prop
  | .write call => ∀ c s, w.calls call = some c → P.write w.state c.tx = some s →
      c.overtaken = false
  | _ => True

/-- `stale` is what `overtakes` tracks, and what makes a write go wrong. -/
structure Protocol.Tracks (good : S → Prop) (stale : S → Tx → Prop) : Prop where
  read : ∀ {s req c}, good s → P.read s req = some c → (c.overtaken = true ↔ stale s c.tx)
  write : ∀ {s tx s'}, good s → P.write s tx = some s' → (good s' ↔ ¬ stale s tx)
  overtakes : ∀ {s tx s'}, good s → P.write s tx = some s' → good s' → ∀ tx',
    (stale s' tx' ↔ stale s tx' ∨ P.overtakes tx tx' = true)

variable {P} {w : World S Tx}

/-- What a step can do. -/
theorem step_cases (w : World S Tx) (a : Act Req) :
    (∃ call req c, a = .read call req ∧ P.read w.state req = some c ∧
      P.step w a = { w with calls := Slots.put w.calls call c }) ∨
    (∃ call c s, a = .write call ∧ w.calls call = some c ∧ P.write w.state c.tx = some s ∧
      P.step w a = { state := s, calls := fun n => (Slots.clear w.calls call n).map (P.mark c.tx) }) ∨
    ((∃ call, P.step w a = { w with calls := Slots.clear w.calls call }) ∧ P.InTime w a) ∨
    (P.step w a = w ∧ P.InTime w a) := by
  cases a with
  | read call req =>
      cases hcall : w.calls call with
      | some c => exact .inr (.inr (.inr ⟨by simp [Protocol.step, hcall], trivial⟩))
      | none =>
          cases hread : P.read w.state req with
          | none => exact .inr (.inr (.inr ⟨by simp [Protocol.step, hcall, hread], trivial⟩))
          | some c => exact .inl ⟨call, req, c, rfl, hread, by simp [Protocol.step, hcall, hread]⟩
  | write call =>
      cases hcall : w.calls call with
      | none =>
          refine .inr (.inr (.inr ⟨by simp [Protocol.step, hcall], ?_⟩))
          intro c s hc
          rw [hcall] at hc
          cases hc
      | some c =>
          cases hwrite : P.write w.state c.tx with
          | none =>
              refine .inr (.inr (.inl ⟨⟨call, by simp [Protocol.step, hcall, Protocol.commit, hwrite]⟩, ?_⟩))
              intro c' s hc hs
              rw [hcall] at hc
              cases hc
              rw [hwrite] at hs
              cases hs
          | some s =>
              exact .inr (.inl ⟨call, c, s, rfl, hcall, hwrite,
                by simp [Protocol.step, hcall, Protocol.commit, hwrite]⟩)
  | abort call => exact .inr (.inr (.inl ⟨⟨call, rfl⟩, trivial⟩))

/-- A write of a call without the mark is in time. -/
theorem inTime_write {call : Nat} (h : ((w.calls call).map Call.overtaken).getD false = false) :
    P.InTime w (.write call) := by
  intro c s hc _
  rw [hc] at h
  exact h

variable {good : S → Prop} {stale : S → Tx → Prop}

/-- The marks say which calls are stale. -/
def Marked (stale : S → Tx → Prop) (w : World S Tx) : Prop :=
  Slots.All (fun c => c.overtaken = true ↔ stale w.state c.tx) w.calls

/-- The marks stay right as long as the state is good. -/
theorem marked_step (hP : P.Tracks good stale) {a : Act Req} (hw : Marked stale w)
    (hgood : good w.state) (hgood' : good (P.step w a).state) : Marked stale (P.step w a) := by
  rcases step_cases (P := P) w a with ⟨call, req, c, rfl, hread, heq⟩ |
    ⟨call, c, s, rfl, hcall, hwrite, heq⟩ | ⟨⟨call, heq⟩, _⟩ | ⟨heq, _⟩
  · rw [heq]
    exact Slots.All.put hw (hP.read hgood hread)
  · rw [heq] at hgood' ⊢
    intro n d hd
    obtain ⟨d₀, hd₀, rfl⟩ := Option.map_eq_some_iff.mp hd
    have hmark : d₀.overtaken = true ↔ stale w.state d₀.tx := hw n d₀ (Slots.clear_some hd₀).2
    show ((d₀.overtaken || P.overtakes c.tx d₀.tx) = true ↔ stale s d₀.tx)
    rw [hP.overtakes hgood hwrite hgood' d₀.tx, Bool.or_eq_true, hmark]
  · rw [heq]
    exact Slots.All.clear hw
  · rwa [heq]

/-- A step keeps the state good exactly when no overtaken call's write goes
through. -/
theorem good_step (hP : P.Tracks good stale) {a : Act Req} (hw : Marked stale w)
    (hgood : good w.state) : good (P.step w a).state ↔ P.InTime w a := by
  rcases step_cases (P := P) w a with ⟨call, req, c, rfl, hread, heq⟩ |
    ⟨call, c, s, rfl, hcall, hwrite, heq⟩ | ⟨⟨call, heq⟩, hin⟩ | ⟨heq, hin⟩
  · rw [heq]
    exact ⟨fun _ => trivial, fun _ => hgood⟩
  · have hmark : c.overtaken = true ↔ stale w.state c.tx := hw call c hcall
    rw [heq]
    show good s ↔ _
    rw [hP.write hgood hwrite, ← hmark]
    constructor
    · intro hnot c' s' hc' _
      rw [hcall] at hc'
      cases hc'
      simpa using hnot
    · intro hin
      simp [hin c s hcall hwrite]
  · rw [heq]
    exact ⟨fun _ => hin, fun _ => hgood⟩
  · rw [heq]
    exact ⟨fun _ => hin, fun _ => hgood⟩

/-- **Overtaking.**  Whatever calls there are and however their reads and writes
interleave, every state of the run is good exactly when no overtaken call's write
goes through. -/
theorem Protocol.Tracks.everyState_iff (hP : P.Tracks good stale) {s : S} (hs : good s)
    (acts : List (Act Req)) :
    Runs.EveryState P.step (fun w => good w.state) (World.start s) acts ↔
      Runs.EveryStep P.step P.InTime (World.start s) acts := by
  apply Runs.everyState_iff_everyStep_of_kept (I := Marked stale)
  · intro w a hw hgood hgood'
    exact marked_step hP hw hgood hgood'
  · intro w a hw hgood
    exact good_step hP hw hgood
  · exact Slots.all_empty _
  · exact hs

end Overtaking
