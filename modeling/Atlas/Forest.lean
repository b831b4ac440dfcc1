import Atlas.Lib.Pointers
import Atlas.Lib.Slots
import Atlas.Supersession

/-!
# The merge graph is a forest

Four walkers follow `merged_into_event_id`: continuity resolution, event
resolution, idempotency replay and the public pages.  They differ in what they
make of a missing event and of a circle.  Where every event has a root neither
happens, and all four give the root.

Merges can overlap.  Each call locks the two event rows in id order, looks at
them under the lock, and claims the source with a conditional update that other
transactions see when it commits.  The rows it has locked are the current ones
until it ends, so no two overlapping calls close a circle.
-/

namespace Atlas

open Rows

namespace Db

/-! ## The walkers

The source writes the loop four times with one body: fetch the event, stop where
it is missing or not merged, stop where it was seen, follow the pointer.
`canonicalEventFor` is that loop with its three exits, and each walker is given by
what it makes of them. -/

/-- `SourceRecordContinuityService._canonical_event_for`. -/
def continuityCanonical (s : Db) (id : Uuid) : Except AtlasError AccidentEvent :=
  s.requireCanonical id

/-- `EventResolutionService._canonical_event_for`: a missing event is `None`. -/
def resolutionCanonical (s : Db) (id : Uuid) : Except AtlasError (Option AccidentEvent) :=
  match s.canonicalEventFor id with
  | .found e => .ok (some e)
  | .missing _ => .ok none
  | .cycle id => .error (.eventAlreadyMerged id)

/-- `IngestionIdempotencyService._canonical_event_id`: a circle is reported under
the id the walk began with. -/
def replayCanonicalId (s : Db) (id : Uuid) : Except AtlasError Uuid :=
  match s.canonicalEventFor id with
  | .found e => .ok e.id
  | .missing id => .error (.eventNotFound id)
  | .cycle _ => .error (.eventAlreadyMerged id)

/-- `_canonical_event_id_for` of the public pages: neither a missing event nor a
circle raises. -/
def publicCanonicalId (s : Db) (id : Uuid) : Option Uuid :=
  match s.canonicalEventFor id with
  | .found e => some e.id
  | .missing _ => none
  | .cycle _ => none

/-- Every walker, started at the first event, returns the second. -/
structure WalkersReturn (s : Db) (id : Uuid) (r : AccidentEvent) : Prop where
  continuity : s.continuityCanonical id = .ok r
  resolution : s.resolutionCanonical id = .ok (some r)
  replay : s.replayCanonicalId id = .ok r.id
  publicPages : s.publicCanonicalId id = some r.id

theorem walkersReturn_of_found {s : Db} {id : Uuid} {r : AccidentEvent}
    (h : s.canonicalEventFor id = .found r) : s.WalkersReturn id r := by
  constructor
  · rw [continuityCanonical, requireCanonical, h]
  · rw [resolutionCanonical, h]
  · rw [replayCanonicalId, h]
  · rw [publicCanonicalId, h]

/-! ## Forests -/

/-- One row is merged into the other. -/
def MergedInto (s : Db) (a b : Uuid) : Prop := ∃ x ∈ s.events, x.id = a ∧ x.mergedInto = some b

/-- Ids are unique and every event has a root. -/
structure Forest (s : Db) : Prop where
  ids : Unique AccidentEvent.id s.events
  total : ∀ e ∈ s.events, ∃ r, s.Root e.id r

theorem Inv.forest {s : Db} (h : s.Inv) : s.Forest := ⟨h.wf.eventIds, h.rooted.total⟩

theorem Leads.mem {s : Db} {n : Nat} {e r : Uuid} (h : s.Leads n e r) :
    e ∈ s.events.map AccidentEvent.id := by
  cases h with
  | root hlive =>
      obtain ⟨x, hx, rfl, -⟩ := hlive
      exact List.mem_map_of_mem hx
  | step hx _ =>
      obtain ⟨x, hx, rfl, -⟩ := hx
      exact List.mem_map_of_mem hx

/-- The events on a walk to the root: as many as there are steps, and one more,
all different, because their distances to the root differ. -/
theorem Leads.path {s : Db} (hids : Unique AccidentEvent.id s.events) {n : Nat} {e r : Uuid}
    (h : s.Leads n e r) :
    ∃ path : List Uuid, path.length = n + 1 ∧ path.Nodup ∧ ∀ x ∈ path, ∃ m ≤ n, s.Leads m x r := by
  induction h with
  | @root e hlive =>
      refine ⟨[e], rfl, List.nodup_singleton e, ?_⟩
      intro x hx
      rw [List.mem_singleton] at hx
      subst hx
      exact ⟨0, le_rfl, .root hlive⟩
  | @step n e t r hx hrest ih =>
      obtain ⟨path, hlength, hnodup, hall⟩ := ih
      have hstep : s.Leads (n + 1) e r := .step hx hrest
      refine ⟨e :: path, by simp [hlength], List.nodup_cons.mpr ⟨?_, hnodup⟩, ?_⟩
      · intro he
        obtain ⟨m, hm, hleads⟩ := hall e he
        have := (hleads.unique hids hstep).1
        omega
      · intro y hy
        rcases List.mem_cons.mp hy with rfl | hy
        · exact ⟨n + 1, le_rfl, hstep⟩
        · obtain ⟨m, hm, hleads⟩ := hall y hy
          exact ⟨m, by omega, hleads⟩

/-- A walk to the root takes fewer steps than there are events. -/
theorem Leads.lt_length {s : Db} (hids : Unique AccidentEvent.id s.events) {n : Nat} {e r : Uuid}
    (h : s.Leads n e r) : n < s.events.length := by
  obtain ⟨path, hlength, hnodup, hall⟩ := h.path hids
  have hsub : path ⊆ s.events.map AccidentEvent.id := by
    intro x hx
    obtain ⟨m, -, hleads⟩ := hall x hx
    exact hleads.mem
  have hle := (hnodup.subperm hsub).length_le
  rw [List.length_map] at hle
  omega

/-- The loop finds the root when it has more turns than there are steps, and the
events seen are farther from their roots than the current one. -/
theorem Leads.canonicalLoop {s : Db} (hids : Unique AccidentEvent.id s.events) {n fuel : Nat}
    {seen : List Uuid} {e r : Uuid} (h : s.Leads n e r) (hfuel : n < fuel)
    (hseen : ∀ x ∈ seen, ∃ m r', n < m ∧ s.Leads m x r') :
    ∃ x ∈ s.events, x.id = r ∧ x.mergedInto = none ∧ s.canonicalLoop fuel seen e = .found x := by
  induction h generalizing fuel seen with
  | root hlive =>
      obtain ⟨x, hx, rfl, hnone⟩ := hlive
      obtain ⟨k, rfl⟩ : ∃ k, fuel = k + 1 := ⟨fuel - 1, by omega⟩
      have hget : s.getEvent x.id = some x := hids.lookup_eq hx
      refine ⟨x, hx, rfl, hnone, ?_⟩
      unfold Db.canonicalLoop
      simp only [hget, hnone]
  | @step n e t r hx hrest ih =>
      have hself : s.Leads (n + 1) e r := .step hx hrest
      obtain ⟨x, hx, rfl, hsome⟩ := hx
      obtain ⟨k, rfl⟩ : ∃ k, fuel = k + 1 := ⟨fuel - 1, by omega⟩
      have hget : s.getEvent x.id = some x := hids.lookup_eq hx
      have hnew : x.id ∉ seen := by
        intro hmem
        obtain ⟨m, r', hm, hleads⟩ := hseen x.id hmem
        have := (hleads.unique hids hself).1
        omega
      have hrest' : ∀ y ∈ x.id :: seen, ∃ m r', n < m ∧ s.Leads m y r' := by
        intro y hy
        rcases List.mem_cons.mp hy with rfl | hy
        · exact ⟨n + 1, r, by omega, hself⟩
        · obtain ⟨m, r', hm, hleads⟩ := hseen y hy
          exact ⟨m, r', by omega, hleads⟩
      have hk : n < k := by omega
      obtain ⟨z, hz, hid, hnone, hfound⟩ := ih hk hrest'
      refine ⟨z, hz, hid, hnone, ?_⟩
      unfold Db.canonicalLoop
      simp only [hget, hsome, hnew, if_false]
      exact hfound

/-- In a forest the walk from an event ends at an unmerged event, within as many
turns as there are events. -/
theorem Forest.walk {s : Db} (h : s.Forest) {e : AccidentEvent} (he : e ∈ s.events) :
    ∃ r ∈ s.events, r.mergedInto = none ∧ s.Root e.id r.id ∧
      ∀ fuel, s.events.length ≤ fuel → s.canonicalLoop fuel [] e.id = .found r := by
  obtain ⟨r, n, hleads⟩ := h.total e he
  have hlt := hleads.lt_length h.ids
  have hnone : ∀ x ∈ ([] : List Uuid), ∃ m r', n < m ∧ s.Leads m x r' := by
    intro x hx
    cases hx
  obtain ⟨x, hx, rfl, hlive, -⟩ := hleads.canonicalLoop h.ids hlt hnone
  refine ⟨x, hx, hlive, ⟨n, hleads⟩, ?_⟩
  intro fuel hfuel
  have henough : n < fuel := by omega
  obtain ⟨y, hy, hid, -, hfound⟩ := hleads.canonicalLoop h.ids henough hnone
  rw [← h.ids.eq_of_key hy hx hid]
  exact hfound

/-- The loop is done within as many turns as there are events and one more; an
unknown id ends it at once. -/
theorem Forest.canonicalLoop_eq {s : Db} (h : s.Forest) (id : Uuid) {fuel : Nat}
    (hfuel : s.events.length < fuel) : s.canonicalLoop fuel [] id = s.canonicalEventFor id := by
  by_cases hid : ∃ e ∈ s.events, e.id = id
  · obtain ⟨e, he, rfl⟩ := hid
    obtain ⟨r, -, -, -, hwalk⟩ := h.walk he
    rw [hwalk fuel (by omega)]
    exact (hwalk _ (by omega)).symm
  · have hnone : s.getEvent id = none := lookup_none.mpr fun e he heq => hid ⟨e, he, heq⟩
    obtain ⟨k, rfl⟩ : ∃ k, fuel = k + 1 := ⟨fuel - 1, by omega⟩
    unfold canonicalEventFor
    unfold Db.canonicalLoop
    simp only [hnone]

theorem Forest.walkersReturn {s : Db} (h : s.Forest) {e : AccidentEvent} (he : e ∈ s.events) :
    ∃ r ∈ s.events, r.mergedInto = none ∧ s.Root e.id r.id ∧ s.WalkersReturn e.id r := by
  obtain ⟨r, hr, hnone, hroot, hwalk⟩ := h.walk he
  exact ⟨r, hr, hnone, hroot, walkersReturn_of_found (hwalk _ (by omega))⟩

theorem Forest.mergedInto_unique {s : Db} (h : s.Forest) (a b c : Uuid) (hb : s.MergedInto a b)
    (hc : s.MergedInto a c) : b = c := by
  obtain ⟨x, hx, rfl, hxb⟩ := hb
  obtain ⟨y, hy, hid, hyc⟩ := hc
  rw [h.ids.eq_of_key hy hx hid, hxb, Option.some.injEq] at hyc
  exact hyc

theorem Leads.endsAt {s : Db} (hids : Unique AccidentEvent.id s.events) {n : Nat} {e r : Uuid}
    (h : s.Leads n e r) : Pointers.EndsAt s.MergedInto e r := by
  induction h with
  | root hlive =>
      refine ⟨.refl, ?_⟩
      rintro c ⟨y, hy, hid, hsome⟩
      obtain ⟨x, hx, rfl, hnone⟩ := hlive
      rw [hids.eq_of_key hy hx hid, hnone] at hsome
      cases hsome
  | step hx _ ih => exact ih.head hx

/-- **A forest has no circle.** -/
theorem Forest.acyclic {s : Db} (h : s.Forest) (e : Uuid) :
    ¬ Relation.TransGen s.MergedInto e e := by
  intro hcycle
  obtain ⟨c, ⟨x, hx, rfl, -⟩, -⟩ := Relation.TransGen.head'_iff.mp hcycle
  obtain ⟨r, n, hleads⟩ := h.total x hx
  exact (hleads.endsAt h.ids).acyclic h.mergedInto_unique hcycle

/-- A merge of two live events keeps a forest. -/
theorem Forest.pointed {s s' : Db} (h : s.Forest) {source target : Uuid} (hne : source ≠ target)
    (htarget : s.IsLive target) (hpointed : Pointed s s' source target) : s'.Forest := by
  refine ⟨?_, ?_⟩
  · rw [hpointed]
    exact h.ids.updateWhere fun _ => rfl
  · intro e he
    rw [hpointed] at he
    obtain ⟨x, hx, rfl⟩ := mem_updateWhere.mp he
    obtain ⟨r, hroot⟩ := h.total x hx
    refine ⟨if r = source then target else r, ?_⟩
    have hid : (if (fun x : AccidentEvent => decide (x.id = source ∧ x.mergedInto = none)) x = true
        then { x with mergedInto := some target } else x).id = x.id := by
      split <;> rfl
    rw [hid]
    exact hpointed.root (hpointed.isLive htarget (Ne.symm hne)) hroot

/-- A forest depends on the event table only. -/
theorem Forest.congr {s s' : Db} (h : s.Forest) (hev : s'.events = s.events) : s'.Forest := by
  refine ⟨by rw [hev]; exact h.ids, ?_⟩
  intro x hx
  rw [hev] at hx
  obtain ⟨r, hroot⟩ := h.total x hx
  exact ⟨r, (root_congr hev).mpr hroot⟩

/-- New live events keep a forest. -/
theorem Forest.append {s s' : Db} (h : s.Forest) {e : Uuid} (hnew : ∀ x ∈ s.events, x.id ≠ e)
    (hev : s'.events = s.events ++ [⟨e, none⟩]) : s'.Forest := by
  refine ⟨?_, ?_⟩
  · rw [hev]
    exact h.ids.append_single hnew
  · intro x hx
    rw [hev] at hx
    rcases List.mem_append.mp hx with hx | hx
    · obtain ⟨r, hroot⟩ := h.total x hx
      exact ⟨r, hroot.of_append _ hev⟩
    · rw [List.mem_singleton] at hx
      subst hx
      refine ⟨e, root_of_isLive ⟨⟨e, none⟩, ?_, rfl, rfl⟩⟩
      rw [hev]
      exact List.mem_append_right _ (List.mem_singleton.mpr rfl)

end Db

/-! ## Merges that overlap -/

/-- How far a call of `MergeDuplicateEvents` has come, with the rows it has
locked. -/
inductive MergeStage where
  | called
  | lockedFirst (row : AccidentEvent)
  | lockedBoth (first second : AccidentEvent)
  /-- `try_atomic_merge` has updated the source row; nobody else sees it yet. -/
  | claimed

structure Merging where
  source : Uuid
  target : Uuid
  stage : MergeStage

namespace Merging

/-- The rows are locked in the order of their ids. -/
def first (m : Merging) : Uuid := min m.source m.target

def second (m : Merging) : Uuid := max m.source m.target

def locks (m : Merging) (e : Uuid) : Prop :=
  match m.stage with
  | .called => False
  | .lockedFirst _ => e = m.first
  | .lockedBoth _ _ | .claimed => e = m.first ∨ e = m.second

def goTo (m : Merging) (stage : MergeStage) : Merging := { m with stage := stage }

/-- The two locked rows are the source and the target. -/
theorem eq_first_or_second (m : Merging) (e : Uuid) :
    (e = m.source ∨ e = m.target) ↔ (e = m.first ∨ e = m.second) := by
  unfold first second
  rcases le_total m.source m.target with h | h
  · rw [min_eq_left h, max_eq_right h]
  · rw [min_eq_right h, max_eq_left h]
    exact or_comm

end Merging

/-- The committed store and the merge calls that are open on it. -/
structure MergeWorld where
  db : Db
  txs : Nat → Option Merging

namespace MergeWorld

def idle (s : Db) : MergeWorld := ⟨s, fun _ => none⟩

def put (w : MergeWorld) (t : Nat) (m : Merging) : MergeWorld := { w with txs := Slots.put w.txs t m }

def finish (w : MergeWorld) (t : Nat) (s : Db) : MergeWorld := ⟨s, Slots.clear w.txs t⟩

/-- One statement of a merge call, its commit or rollback, or a commit of some
other transaction.  Only ingestion adds events, and only merges write event
rows. -/
inductive Step (w : MergeWorld) : MergeWorld → Prop where
  | call {t : Nat} {source target : Uuid} (hfree : w.txs t = none) (hne : source ≠ target)
      (hsource : (w.db.getEvent source).isSome) (htarget : (w.db.getEvent target).isSome) :
      Step w (w.put t ⟨source, target, .called⟩)
  | lockFirst {t : Nat} {m : Merging} {row : AccidentEvent} (hopen : w.txs t = some m)
      (hstage : m.stage = .called) (hlock : Slots.Free Merging.locks w.txs m.first)
      (hrow : w.db.getEvent m.first = some row) : Step w (w.put t (m.goTo (.lockedFirst row)))
  | lockSecond {t : Nat} {m : Merging} {a b : AccidentEvent} (hopen : w.txs t = some m)
      (hstage : m.stage = .lockedFirst a) (hlock : Slots.Free Merging.locks w.txs m.second)
      (hrow : w.db.getEvent m.second = some b) : Step w (w.put t (m.goTo (.lockedBoth a b)))
  | claim {t : Nat} {m : Merging} {a b : AccidentEvent} (hopen : w.txs t = some m)
      (hstage : m.stage = .lockedBoth a b) (hunmerged : a.isMerged = false ∧ b.isMerged = false)
      (hclaimed : (w.db.tryAtomicMerge m.source m.target).1 = true) :
      Step w (w.put t (m.goTo .claimed))
  | commit {t : Nat} {m : Merging} {s' : Db} (hopen : w.txs t = some m)
      (hstage : m.stage = .claimed)
      (hcommit : s'.events = (w.db.tryAtomicMerge m.source m.target).2.events) :
      Step w (w.finish t s')
  | rollback {t : Nat} : Step w (w.finish t w.db)
  | other {s' : Db} (hcommit : s'.events = w.db.events ∨
      ∃ e, (∀ x ∈ w.db.events, x.id ≠ e) ∧ s'.events = w.db.events ++ [⟨e, none⟩]) :
      Step w { w with db := s' }

end MergeWorld

/-- What a merge call knows: the rows it has locked are the current ones, and
once it has claimed the source, both events are live. -/
def Merging.Ok (s : Db) (m : Merging) : Prop :=
  m.source ≠ m.target ∧
    match m.stage with
    | .called => True
    | .lockedFirst a => a ∈ s.events ∧ a.id = m.first
    | .lockedBoth a b => (a ∈ s.events ∧ a.id = m.first) ∧ b ∈ s.events ∧ b.id = m.second
    | .claimed => s.IsLive m.first ∧ s.IsLive m.second

/-- A commit that keeps the rows the call has locked keeps what the call knows. -/
theorem Merging.Ok.keep {s s' : Db} {m : Merging} (h : m.Ok s)
    (hkeep : ∀ x ∈ s.events, m.locks x.id → x ∈ s'.events) : m.Ok s' := by
  obtain ⟨source, target, stage⟩ := m
  obtain ⟨hne, hrows⟩ := h
  refine ⟨hne, ?_⟩
  cases stage with
  | called => trivial
  | lockedFirst a =>
      obtain ⟨ha, hid⟩ := hrows
      exact ⟨hkeep a ha hid, hid⟩
  | lockedBoth a b =>
      obtain ⟨⟨ha, hida⟩, hb, hidb⟩ := hrows
      exact ⟨⟨hkeep a ha (.inl hida), hida⟩, hkeep b hb (.inr hidb), hidb⟩
  | claimed =>
      obtain ⟨⟨a, ha, hida, hnonea⟩, b, hb, hidb, hnoneb⟩ := hrows
      exact ⟨⟨a, hkeep a ha (.inl hida), hida, hnonea⟩, b, hkeep b hb (.inr hidb), hidb, hnoneb⟩

namespace Merging.Ok

variable {s : Db} {m : Merging}

theorem isLive_source (h : m.Ok s) (hstage : m.stage = .claimed) : s.IsLive m.source := by
  obtain ⟨-, hrows⟩ := h
  rw [hstage] at hrows
  rcases (m.eq_first_or_second m.source).mp (.inl rfl) with heq | heq
  · rw [heq]
    exact hrows.1
  · rw [heq]
    exact hrows.2

theorem isLive_target (h : m.Ok s) (hstage : m.stage = .claimed) : s.IsLive m.target := by
  obtain ⟨-, hrows⟩ := h
  rw [hstage] at hrows
  rcases (m.eq_first_or_second m.target).mp (.inr rfl) with heq | heq
  · rw [heq]
    exact hrows.1
  · rw [heq]
    exact hrows.2

end Merging.Ok

namespace Db

variable {s : Db} {source target : Uuid}

theorem IsLive.any_unmerged (hlive : s.IsLive source) :
    s.events.any (fun e => decide (e.id = source ∧ e.mergedInto = none)) = true := by
  obtain ⟨x, hx, hid, hnone⟩ := hlive
  rw [List.any_eq_true]
  exact ⟨x, hx, by simp [hid, hnone]⟩

theorem tryAtomicMerge_claims (hlive : s.IsLive source) :
    (s.tryAtomicMerge source target).1 = true := by
  unfold tryAtomicMerge
  rw [if_pos hlive.any_unmerged]

/-- The conditional update of a live source row. -/
theorem tryAtomicMerge_pointed (hlive : s.IsLive source) :
    Pointed s (s.tryAtomicMerge source target).2 source target := by
  unfold Pointed tryAtomicMerge
  rw [if_pos hlive.any_unmerged]

end Db

namespace MergeWorld

/-- **The invariant of overlapping merges.** -/
structure Inv (w : MergeWorld) : Prop where
  forest : w.db.Forest
  exclusive : Slots.Exclusive Merging.locks w.txs
  known : Slots.All (Merging.Ok w.db) w.txs

theorem inv_idle {s : Db} (h : s.Forest) : (idle s).Inv :=
  ⟨h, Slots.exclusive_empty _, Slots.all_empty _⟩

variable {w w' : MergeWorld}

/-- The commit of a claimed merge. -/
theorem Inv.commit (h : w.Inv) {t : Nat} {m : Merging} {s' : Db} (hopen : w.txs t = some m)
    (hstage : m.stage = .claimed)
    (hcommit : s'.events = (w.db.tryAtomicMerge m.source m.target).2.events) :
    (w.finish t s').Inv := by
  have hok := h.known t m hopen
  have hpointed : Db.Pointed w.db s' m.source m.target := by
    unfold Db.Pointed
    rw [hcommit]
    exact Db.tryAtomicMerge_pointed (hok.isLive_source hstage)
  have hlocks : m.locks m.source := by
    unfold Merging.locks
    rw [hstage]
    exact (m.eq_first_or_second m.source).mp (.inl rfl)
  refine ⟨h.forest.pointed hok.1 (hok.isLive_target hstage) hpointed, h.exclusive.clear, ?_⟩
  intro t' m' hm'
  obtain ⟨hne, hm'⟩ := Slots.clear_some hm'
  apply (h.known t' m' hm').keep
  -- the other call has no lock on the source row, the only one that changes
  intro x hx hlocked
  show x ∈ s'.events
  rw [hpointed]
  refine mem_updateWhere.mpr ⟨x, hx, if_neg ?_⟩
  intro hsource
  simp only [decide_eq_true_eq] at hsource
  rw [hsource.1] at hlocked
  exact hne (h.exclusive hm' hopen hlocked hlocks)

/-- A commit that leaves the old event rows alone. -/
theorem Inv.other (h : w.Inv) {s' : Db} (hcommit : s'.events = w.db.events ∨
    ∃ e, (∀ x ∈ w.db.events, x.id ≠ e) ∧ s'.events = w.db.events ++ [⟨e, none⟩]) :
    ({ w with db := s' } : MergeWorld).Inv := by
  have hsub : ∀ x ∈ w.db.events, x ∈ s'.events := by
    intro x hx
    rcases hcommit with heq | ⟨e, -, heq⟩
    · rw [heq]
      exact hx
    · rw [heq]
      exact List.mem_append_left _ hx
  refine ⟨?_, h.exclusive, h.known.imp fun m hm => hm.keep fun x hx _ => hsub x hx⟩
  rcases hcommit with heq | ⟨e, hnew, heq⟩
  · exact h.forest.congr heq
  · exact h.forest.append hnew heq

/-- **A step keeps the invariant.** -/
theorem Inv.step (h : w.Inv) (hstep : Step w w') : w'.Inv := by
  cases hstep with
  | @call t source target hfree hne hsource htarget =>
      refine ⟨h.forest, h.exclusive.put ?_, h.known.put ⟨hne, trivial⟩⟩
      intro r hr
      exact hr.elim
  | @lockFirst t m row hopen hstage hlock hrow =>
      obtain ⟨hmem, hid⟩ := Db.getEvent_some hrow
      refine ⟨h.forest, h.exclusive.acquire hopen hlock fun r hr => .inr hr, h.known.put ?_⟩
      exact ⟨(h.known t m hopen).1, hmem, hid⟩
  | @lockSecond t m a b hopen hstage hlock hrow =>
      obtain ⟨hmem, hid⟩ := Db.getEvent_some hrow
      obtain ⟨hne, hfirst⟩ := h.known t m hopen
      rw [hstage] at hfirst
      refine ⟨h.forest, h.exclusive.acquire hopen hlock ?_, h.known.put ⟨hne, hfirst, hmem, hid⟩⟩
      intro r hr
      unfold Merging.locks
      rw [hstage]
      exact hr
  | @claim t m a b hopen hstage hunmerged hclaimed =>
      obtain ⟨hne, ⟨ha, hida⟩, hb, hidb⟩ : m.source ≠ m.target ∧
          (a ∈ w.db.events ∧ a.id = m.first) ∧ b ∈ w.db.events ∧ b.id = m.second := by
        have hok := h.known t m hopen
        unfold Merging.Ok at hok
        rw [hstage] at hok
        exact hok
      have hlive : w.db.IsLive m.first ∧ w.db.IsLive m.second := by
        obtain ⟨hnonea, hnoneb⟩ := hunmerged
        simp only [AccidentEvent.isMerged, Option.isSome_eq_false_iff, Option.isNone_iff_eq_none]
          at hnonea hnoneb
        exact ⟨⟨a, ha, hida, hnonea⟩, b, hb, hidb, hnoneb⟩
      refine ⟨h.forest, h.exclusive.advance hopen ?_, h.known.put ⟨hne, hlive⟩⟩
      intro r hr
      unfold Merging.locks
      rw [hstage]
      exact hr
  | commit hopen hstage hcommit => exact h.commit hopen hstage hcommit
  | rollback => exact ⟨h.forest, h.exclusive.clear, h.known.clear⟩
  | other hcommit => exact h.other hcommit

theorem Inv.run (h : w.Inv) (hrun : Relation.ReflTransGen Step w w') : w'.Inv := by
  induction hrun with
  | refl => exact h
  | tail _ hstep ih => exact ih.step hstep

/-- **A committed merge is a run of the call that nothing overlaps.** -/
theorem run_of_merged [PyText] {s s' s₃ s₄ : Db} {call : MergeCall} (hwf : s.WellFormed)
    (h : Db.Merged s s' call s₃ s₄) : Relation.ReflTransGen Step (idle s) (idle s') := by
  obtain ⟨a, ha, hida, hnonea⟩ := h.source
  obtain ⟨b, hb, hidb, hnoneb⟩ := h.target
  have hgeta : s.getEvent call.sourceEventId = some a := by
    rw [← hida]
    exact hwf.eventIds.lookup_eq ha
  have hgetb : s.getEvent call.targetEventId = some b := by
    rw [← hidb]
    exact hwf.eventIds.lookup_eq hb
  let m : Merging := ⟨call.sourceEventId, call.targetEventId, .called⟩
  have hrow : ∀ e, e = m.first ∨ e = m.second →
      ∃ x, s.getEvent e = some x ∧ x.isMerged = false := by
    intro e he
    rcases (m.eq_first_or_second e).mpr he with rfl | rfl
    · exact ⟨a, hgeta, by simp [AccidentEvent.isMerged, hnonea]⟩
    · exact ⟨b, hgetb, by simp [AccidentEvent.isMerged, hnoneb]⟩
  obtain ⟨x, hx, hxlive⟩ := hrow m.first (.inl rfl)
  obtain ⟨y, hy, hylive⟩ := hrow m.second (.inr rfl)
  have hfirst : m.first ≠ m.second := (min_lt_max.mpr h.distinct).ne
  have hput : ∀ stage : MergeStage, ((idle s).put 0 (m.goTo stage)).txs 0 = some (m.goTo stage) :=
    fun stage => Slots.put_self (idle s).txs 0 (m.goTo stage)
  have hmove : ∀ stage stage' : MergeStage,
      ((idle s).put 0 (m.goTo stage)).put 0 (m.goTo stage') = (idle s).put 0 (m.goTo stage') := by
    intro stage stage'
    unfold put
    rw [Slots.put_put]
  have hcall : Step (idle s) ((idle s).put 0 m) :=
    .call rfl h.distinct (Option.isSome_of_eq_some hgeta) (Option.isSome_of_eq_some hgetb)
  have hlockFirst : Step ((idle s).put 0 m) ((idle s).put 0 (m.goTo (.lockedFirst x))) := by
    rw [← hmove .called (.lockedFirst x)]
    refine .lockFirst (hput .called) rfl ?_ hx
    intro t m' hm'
    rcases Slots.put_some hm' with ⟨-, rfl⟩ | ⟨-, hm'⟩
    · exact id
    · cases hm'
  have hlockSecond : Step ((idle s).put 0 (m.goTo (.lockedFirst x)))
      ((idle s).put 0 (m.goTo (.lockedBoth x y))) := by
    rw [← hmove (.lockedFirst x) (.lockedBoth x y)]
    refine Step.lockSecond (m := m.goTo (.lockedFirst x)) (hput (.lockedFirst x)) rfl ?_ hy
    intro t m' hm'
    rcases Slots.put_some hm' with ⟨-, rfl⟩ | ⟨-, hm'⟩
    · exact Ne.symm hfirst
    · cases hm'
  have hclaim : Step ((idle s).put 0 (m.goTo (.lockedBoth x y))) ((idle s).put 0 (m.goTo .claimed)) := by
    rw [← hmove (.lockedBoth x y) .claimed]
    refine Step.claim (m := m.goTo (.lockedBoth x y)) (hput (.lockedBoth x y)) rfl ⟨hxlive, hylive⟩ ?_
    exact Db.tryAtomicMerge_claims h.source
  have hcommit : Step ((idle s).put 0 (m.goTo .claimed)) (idle s') := by
    have hfinish : ((idle s).put 0 (m.goTo .claimed)).finish 0 s' = idle s' := by
      unfold finish put idle
      rw [Slots.clear_put, Slots.clear_of_none rfl]
    rw [← hfinish]
    refine .commit (hput .claimed) rfl ?_
    exact (h.events hwf).trans (Db.tryAtomicMerge_pointed h.source).symm
  exact .trans (.single hcall) (.trans (.single hlockFirst) (.trans (.single hlockSecond)
    (.trans (.single hclaim) (.single hcommit))))

end MergeWorld

/-- **The merge graph is a forest.**  From any reachable store, and whatever merge
calls overlap from there on: no event is merged into itself along a circle, the
loop of the walkers stops within as many turns as there are events and one more,
and from every event all walkers return one and the same unmerged event. -/
theorem merge_graph_is_forest [PyText] {s : Db} (hs : Reachable s) {w : MergeWorld}
    (hrun : Relation.ReflTransGen MergeWorld.Step (MergeWorld.idle s) w) :
    (∀ e, ¬ Relation.TransGen w.db.MergedInto e e) ∧
      (∀ id fuel, w.db.events.length < fuel →
        w.db.canonicalLoop fuel [] id = w.db.canonicalEventFor id) ∧
      ∀ e ∈ w.db.events, ∃ r ∈ w.db.events,
        r.mergedInto = none ∧ w.db.Root e.id r.id ∧ w.db.WalkersReturn e.id r := by
  have hinv : w.Inv := (MergeWorld.inv_idle hs.inv.forest).run hrun
  refine ⟨hinv.forest.acyclic, ?_, fun e he => hinv.forest.walkersReturn he⟩
  intro id fuel hfuel
  exact hinv.forest.canonicalLoop_eq id hfuel

/-- Merging alone, and nothing overlaps. -/
theorem MergeWorld.run_of_merge [PyText] {s s' : Db} (hs : Reachable s) {call : MergeCall}
    (h : (Op.merge call).run s = .ok s') :
    Relation.ReflTransGen MergeWorld.Step (MergeWorld.idle s) (MergeWorld.idle s') := by
  simp only [Op.run, Outcome.bind_ok, Outcome.pure_ok] at h
  obtain ⟨⟨result, s''⟩, hmerge, rfl⟩ := h
  obtain ⟨s₃, s₄, hmerged⟩ := Db.merge_cases hs.inv.wf hmerge
  exact MergeWorld.run_of_merged hs.inv.wf hmerged

/-- Three accidents. -/
def threeAccidents : Db :=
  after fourSources (contestedAndOther ++ [operatorReport 2 103 none none 1 5])

/-- The first is merged into the second. -/
def mergeIntoSecond : Op := .merge ⟨5, 13, 9, "", none, 6⟩

/-- And that into the third. -/
def mergeIntoThird : Op := .merge ⟨13, 17, 9, "", none, 7⟩

/-- Merges in a chain: from all three accidents the walkers return the third. -/
theorem merge_graph_is_forest_chain : ∃ s s', mergeIntoSecond.run threeAccidents = .ok s ∧
    mergeIntoThird.run s = .ok s' ∧
      (s'.events.map fun e => (e.id, e.mergedInto)) = [(5, some 13), (13, some 17), (17, none)] ∧
      ∀ e ∈ s'.events, ∃ r, r.id = 17 ∧ s'.WalkersReturn e.id r := by
  obtain ⟨s, hs, -⟩ := Outcome.exists_ok_of_any (P := fun _ => True)
    (x := mergeIntoSecond.run threeAccidents) (by decide +kernel)
  obtain rfl := Op.run_step hs
  obtain ⟨s', hs', hchain⟩ := Outcome.exists_ok_of_any
    (P := fun s : Db => (s.events.map fun e => (e.id, e.mergedInto)) =
      [(5, some 13), (13, some 17), (17, none)])
    (x := mergeIntoThird.run (step threeAccidents mergeIntoSecond)) (by decide +kernel)
  have hreach : Reachable threeAccidents := ⟨_, _, rfl⟩
  have hrun := (MergeWorld.run_of_merge hreach hs).trans
    (MergeWorld.run_of_merge (hreach.step mergeIntoSecond) hs')
  refine ⟨_, s', hs, hs', hchain, ?_⟩
  intro e he
  obtain ⟨r, hr, hlive, -, hwalkers⟩ := (merge_graph_is_forest hreach hrun).2.2 e he
  have hrow : (r.id, r.mergedInto) ∈ s'.events.map fun e => (e.id, e.mergedInto) :=
    List.mem_map_of_mem (f := fun e : AccidentEvent => (e.id, e.mergedInto)) hr
  rw [hchain, hlive] at hrow
  refine ⟨r, ?_, hwalkers⟩
  simpa using hrow

end Atlas
