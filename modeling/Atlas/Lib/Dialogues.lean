import Mathlib.Data.List.Infix

/-!
# Programs in dialogue and the adapters around them

A program waits for a message, sends one, or ends.  Its states are its own; what can be said
of it from outside is which dialogues it can have.

An adapter stands between a program and its surroundings.  It may change a message on its way
in or out, or raise an exception in its place, by what it remembers of the dialogue so far; and
when the program ends it may send something more before it ends itself.  The dialogues of the
adapted program are exactly those that the adapter makes of the dialogues of the program.
-/

namespace Dialogue

/-- What a program does next.  A receive may raise. -/
inductive Move (I O E S : Type) where
  | receive (next : Except E I → S)
  | send (message : O) (next : S)
  | finish (result : Except E Unit)

structure Program (I O E : Type) where
  State : Type
  start : State
  move : State → Move I O E State

inductive Event (I O E : Type) where
  | received (message : Except E I)
  | sent (message : O)
  | finished (result : Except E Unit)

variable {I O E : Type}

/-- The messages of a dialogue that were received. -/
def inbound (es : List (Event I O E)) : List (Except E I) :=
  es.filterMap fun
    | .received m => some m
    | _ => none

/-- The messages of a dialogue that were sent. -/
def outbound (es : List (Event I O E)) : List O :=
  es.filterMap fun
    | .sent o => some o
    | _ => none

@[simp] theorem inbound_nil : inbound ([] : List (Event I O E)) = [] := rfl

@[simp] theorem inbound_received (m : Except E I) (es : List (Event I O E)) :
    inbound (.received m :: es) = m :: inbound es := rfl

@[simp] theorem inbound_sent (o : O) (es : List (Event I O E)) :
    inbound (.sent o :: es) = inbound es := rfl

@[simp] theorem inbound_finished (r : Except E Unit) (es : List (Event I O E)) :
    inbound (.finished r :: es) = inbound es := rfl

@[simp] theorem outbound_nil : outbound ([] : List (Event I O E)) = [] := rfl

@[simp] theorem outbound_received (m : Except E I) (es : List (Event I O E)) :
    outbound (.received m :: es) = outbound es := rfl

@[simp] theorem outbound_sent (o : O) (es : List (Event I O E)) :
    outbound (.sent o :: es) = o :: outbound es := rfl

@[simp] theorem outbound_finished (r : Except E Unit) (es : List (Event I O E)) :
    outbound (.finished r :: es) = outbound es := rfl

/-! ## Programs -/

section Moves

variable {S : Type} {move : S → Move I O E S}

/-- This dialogue, or a longer one, can be had from the state on. -/
inductive From (move : S → Move I O E S) : S → List (Event I O E) → Prop where
  | nil (s : S) : From move s []
  | receive {s : S} {next : Except E I → S} {es : List (Event I O E)}
      (hmove : move s = .receive next) (m : Except E I) (rest : From move (next m) es) :
      From move s (.received m :: es)
  | send {s next : S} {o : O} {es : List (Event I O E)} (hmove : move s = .send o next)
      (rest : From move next es) : From move s (.sent o :: es)
  | finish {s : S} {r : Except E Unit} (hmove : move s = .finish r) : From move s [.finished r]

theorem from_receive_iff {s : S} {next : Except E I → S} {es : List (Event I O E)}
    (hmove : move s = .receive next) :
    From move s es ↔ es = [] ∨ ∃ m rest, es = .received m :: rest ∧ From move (next m) rest := by
  constructor
  · intro h
    cases h with
    | nil => exact .inl rfl
    | receive hmove' m rest =>
        rw [hmove] at hmove'
        cases hmove'
        exact .inr ⟨m, _, rfl, rest⟩
    | send hmove' rest => rw [hmove] at hmove'; cases hmove'
    | finish hmove' => rw [hmove] at hmove'; cases hmove'
  · intro h
    rcases h with rfl | ⟨m, rest, rfl, h⟩
    · exact .nil s
    · exact .receive hmove m h

theorem from_send_iff {s next : S} {o : O} {es : List (Event I O E)}
    (hmove : move s = .send o next) :
    From move s es ↔ es = [] ∨ ∃ rest, es = .sent o :: rest ∧ From move next rest := by
  constructor
  · intro h
    cases h with
    | nil => exact .inl rfl
    | receive hmove' m rest => rw [hmove] at hmove'; cases hmove'
    | send hmove' rest =>
        rw [hmove] at hmove'
        cases hmove'
        exact .inr ⟨_, rfl, rest⟩
    | finish hmove' => rw [hmove] at hmove'; cases hmove'
  · intro h
    rcases h with rfl | ⟨rest, rfl, h⟩
    · exact .nil s
    · exact .send hmove h

theorem from_finish_iff {s : S} {r : Except E Unit} {es : List (Event I O E)}
    (hmove : move s = .finish r) : From move s es ↔ es = [] ∨ es = [.finished r] := by
  constructor
  · intro h
    cases h with
    | nil => exact .inl rfl
    | receive hmove' m rest => rw [hmove] at hmove'; cases hmove'
    | send hmove' rest => rw [hmove] at hmove'; cases hmove'
    | finish hmove' =>
        rw [hmove] at hmove'
        cases hmove'
        exact .inr rfl
  · intro h
    rcases h with rfl | rfl
    · exact .nil s
    · exact .finish hmove

/-- What follows a state is what its move says. -/
theorem from_congr {s s' : S} {es : List (Event I O E)} (hmove : move s = move s') :
    From move s es ↔ From move s' es := by
  cases hs : move s' with
  | receive next => rw [from_receive_iff hs, from_receive_iff (hmove.trans hs)]
  | send o next => rw [from_send_iff hs, from_send_iff (hmove.trans hs)]
  | finish r => rw [from_finish_iff hs, from_finish_iff (hmove.trans hs)]

/-- The dialogue of sending the messages and ending. -/
def replyEvents (os : List O) (r : Except E Unit) : List (Event I O E) :=
  os.map .sent ++ [.finished r]

theorem outbound_replyEvents (os : List O) (r : Except E Unit) :
    outbound (replyEvents os r : List (Event I O E)) = os := by
  induction os with
  | nil => rfl
  | cons o os ih => exact congrArg (o :: ·) ih

/-- What a reply that may have been cut off sends. -/
theorem outbound_prefix_of_reply {os : List O} {r : Except E Unit} {es : List (Event I O E)}
    (h : es <+: replyEvents os r) : outbound es <+: os := by
  have hprefix : outbound es <+: outbound (replyEvents os r) := h.filterMap _
  rwa [outbound_replyEvents] at hprefix

/-- A reply receives nothing. -/
theorem inbound_of_reply {os : List O} {r : Except E Unit} {es : List (Event I O E)}
    (h : es <+: replyEvents os r) : inbound es = [] := by
  have hnothing : inbound (replyEvents os r : List (Event I O E)) = [] := by
    clear h
    induction os with
    | nil => rfl
    | cons o os ih => exact ih
  have hprefix : inbound es <+: inbound (replyEvents os r) := h.filterMap _
  rw [hnothing] at hprefix
  exact List.prefix_nil.mp hprefix

/-- States that only send what is left and end. -/
theorem from_reply_iff (left : List O → S) {r : Except E Unit}
    (hnil : move (left []) = .finish r) (hcons : ∀ o os, move (left (o :: os)) = .send o (left os))
    (os : List O) {es : List (Event I O E)} :
    From move (left os) es ↔ es <+: replyEvents os r := by
  induction os generalizing es with
  | nil =>
      rw [from_finish_iff hnil]
      unfold replyEvents
      rw [List.map_nil, List.nil_append, List.prefix_cons_iff]
      simp
  | cons o os ih =>
      rw [from_send_iff (hcons o os)]
      unfold replyEvents at ih ⊢
      rw [List.map_cons, List.cons_append, List.prefix_cons_iff]
      simp only [ih]

end Moves

namespace Program

/-- The dialogues of a program. -/
def Has (p : Program I O E) (es : List (Event I O E)) : Prop := From p.move p.start es

/-- The program that sends the messages and ends. -/
def reply (os : List O) (r : Except E Unit) : Program I O E where
  State := List O
  start := os
  move
    | [] => .finish r
    | o :: os => .send o os

theorem has_reply_iff {os : List O} {r : Except E Unit} {es : List (Event I O E)} :
    (reply os r).Has es ↔ es <+: replyEvents os r :=
  from_reply_iff id rfl (fun _ _ => rfl) os

end Program

/-! ## Adapters -/

/-- What stands between a program and its surroundings, with what it remembers. -/
structure Adapter (I O E : Type) where
  Memory : Type
  start : Memory
  received : Memory → Except E I → Memory × Except E I
  sent : Memory → O → Memory × O
  finished : Memory → Except E Unit → List O × Except E Unit

namespace Adapter

/-- What is left to do once the program has ended. -/
def replyMove {S : Type} (left : List O × Except E Unit → S) :
    List O × Except E Unit → Move I O E S
  | ([], r) => .finish r
  | (o :: os, r) => .send o (left (os, r))

/-- The states of a program in the adapter: its own, or what is left to send. -/
abbrev Inside (a : Adapter I O E) (S : Type) : Type := (a.Memory × S) ⊕ List O × Except E Unit

/-- The moves in the adapter.  Once the program has ended, the adapter replies. -/
def wrapMove {S : Type} (a : Adapter I O E) (move : S → Move I O E S) :
    a.Inside S → Move I O E (a.Inside S)
  | .inl (m, s) =>
      match move s with
      | .receive next => .receive fun x => .inl ((a.received m x).1, next (a.received m x).2)
      | .send o next => .send (a.sent m o).2 (.inl ((a.sent m o).1, next))
      | .finish r => replyMove .inr (a.finished m r)
  | .inr left => replyMove .inr left

/-- The program inside the adapter. -/
def wrap (a : Adapter I O E) (p : Program I O E) : Program I O E where
  State := a.Inside p.State
  start := .inl (a.start, p.start)
  move := a.wrapMove p.move

/-- The dialogue outside that the adapter makes of one inside. -/
inductive Makes (a : Adapter I O E) : a.Memory → List (Event I O E) → List (Event I O E) → Prop where
  | nil (m : a.Memory) : Makes a m [] []
  | received {m : a.Memory} {is os : List (Event I O E)} (x : Except E I)
      (rest : Makes a (a.received m x).1 is os) :
      Makes a m (.received (a.received m x).2 :: is) (.received x :: os)
  | sent {m : a.Memory} {is os : List (Event I O E)} (o : O) (rest : Makes a (a.sent m o).1 is os) :
      Makes a m (.sent o :: is) (.sent (a.sent m o).2 :: os)
  | finished {m : a.Memory} {os : List (Event I O E)} (r : Except E Unit) (hne : os ≠ [])
      (hreply : os <+: replyEvents (a.finished m r).1 (a.finished m r).2) :
      Makes a m [.finished r] os

variable {a : Adapter I O E}

section Moves

variable {S : Type} {move : S → Move I O E S}

theorem from_left_iff {os : List O} {r : Except E Unit} {es : List (Event I O E)} :
    From (a.wrapMove move) (.inr (os, r)) es ↔ es <+: replyEvents os r :=
  from_reply_iff (fun os => Sum.inr (os, r)) rfl (fun _ _ => rfl) os

theorem wrapMove_receive {m : a.Memory} {s : S} {next : Except E I → S}
    (hs : move s = .receive next) : a.wrapMove move (.inl (m, s)) = .receive fun x =>
      .inl ((a.received m x).1, next (a.received m x).2) := by
  simp only [wrapMove, hs]

theorem wrapMove_send {m : a.Memory} {s next : S} {o : O} (hs : move s = .send o next) :
    a.wrapMove move (.inl (m, s)) = .send (a.sent m o).2 (.inl ((a.sent m o).1, next)) := by
  simp only [wrapMove, hs]

theorem wrapMove_finish {m : a.Memory} {s : S} {r : Except E Unit} (hs : move s = .finish r) :
    a.wrapMove move (.inl (m, s)) = a.wrapMove move (.inr (a.finished m r)) := by
  simp only [wrapMove, hs]

/-- **The dialogues of an adapted program**, from any state on. -/
theorem from_wrapMove_iff {m : a.Memory} {s : S} {os : List (Event I O E)} :
    From (a.wrapMove move) (.inl (m, s)) os ↔ ∃ is, From move s is ∧ a.Makes m is os := by
  constructor
  · intro h
    induction os generalizing m s with
    | nil => exact ⟨[], .nil s, .nil m⟩
    | cons e os ih =>
        cases hs : move s with
        | receive next =>
            rcases (from_receive_iff (wrapMove_receive hs)).mp h with hnil | ⟨x, rest, heq, hrest⟩
            · cases hnil
            · cases heq
              obtain ⟨is, hfrom, hmakes⟩ := ih hrest
              exact ⟨_, .receive hs _ hfrom, .received x hmakes⟩
        | send o next =>
            rcases (from_send_iff (wrapMove_send hs)).mp h with hnil | ⟨rest, heq, hrest⟩
            · cases hnil
            · cases heq
              obtain ⟨is, hfrom, hmakes⟩ := ih hrest
              exact ⟨_, .send hs hfrom, .sent o hmakes⟩
        | finish r =>
            rw [from_congr (wrapMove_finish hs), from_left_iff] at h
            exact ⟨_, .finish hs, .finished r (List.cons_ne_nil _ _) h⟩
  · intro h
    obtain ⟨is, hfrom, hmakes⟩ := h
    induction hmakes generalizing s with
    | nil m => exact .nil _
    | received x rest ih =>
        cases hfrom with
        | receive hs m hfrom => exact .receive (wrapMove_receive hs) x (ih hfrom)
    | sent o rest ih =>
        cases hfrom with
        | send hs hfrom => exact .send (wrapMove_send hs) (ih hfrom)
    | finished r hne hreply =>
        cases hfrom with
        | finish hs =>
            rw [from_congr (wrapMove_finish hs), from_left_iff]
            exact hreply

end Moves

/-- **The dialogues of an adapted program.** -/
theorem has_wrap_iff {p : Program I O E} {os : List (Event I O E)} :
    (a.wrap p).Has os ↔ ∃ is, p.Has is ∧ a.Makes a.start is os := from_wrapMove_iff

/-! ### Adapters that rewrite what is sent -/

/-- Each message that is sent is rewritten, and nothing else happens. -/
def rewrites (f : O → O) : Adapter I O E where
  Memory := Unit
  start := ()
  received _ x := ((), x)
  sent _ o := ((), f o)
  finished _ r := ([], r)

theorem outbound_of_makes_rewrites {f : O → O} {m : (rewrites f : Adapter I O E).Memory}
    {is os : List (Event I O E)} (h : (rewrites f).Makes m is os) : outbound os = (outbound is).map f := by
  induction h with
  | nil m => rfl
  | received x rest ih => exact ih
  | sent o rest ih => exact congrArg (f o :: ·) ih
  | finished r hne hreply => exact List.prefix_nil.mp (outbound_prefix_of_reply hreply)

/-- What such a program sends is what the program inside sends, rewritten. -/
theorem outbound_of_has_rewrites {f : O → O} {p : Program I O E} {os : List (Event I O E)}
    (h : ((rewrites f).wrap p).Has os) :
    ∃ is, p.Has is ∧ outbound os = (outbound is).map f := by
  obtain ⟨is, his, hmakes⟩ := has_wrap_iff.mp h
  exact ⟨is, his, outbound_of_makes_rewrites hmakes⟩

end Adapter

end Dialogue
