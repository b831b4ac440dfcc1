import Atlas.Doubles
import Atlas.Lib.Rows
import Atlas.Lib.Runs
import Atlas.Lib.Window
import Mathlib.Algebra.Order.Floor.Ring
import Mathlib.Data.Rat.Floor
import Mathlib.Tactic.Linarith

/-!
# The rate limiter in the process

The middleware keeps one queue of times per client address.  A request first drops what
has left the window from its client's queue and is turned away when the queue is still
full; otherwise its own time is appended.  Now and then a sweep prunes every queue and
forgets the clients whose queue is empty.

Seen from outside the queues do not show: a client is judged by the times of its own
admissions and by nothing else.

Readings of the clock are doubles.  Of a reading the window of up to `2 ^ 53` seconds is subtracted
without an error, unless the difference is negative, which no reading is below; so the window is
exact here.  The seconds of Retry-After are rounded as the process rounds them.
-/

namespace Atlas

open Window

/-- `_error_body`: code and message of an error response. -/
structure ErrorBody where
  code : String
  message : String
deriving DecidableEq, Repr

/-- What the limiter reads of an ASGI scope. -/
structure HttpScope where
  type : String
  path : String
  client : Option String
deriving DecidableEq, Repr

/-- `InMemoryRateLimitMiddleware`. -/
structure RateLimiter where
  requests : Int
  windowSeconds : Int
  hits : List (String × List ℚ)
  lastSweep : ℚ

/-- What becomes of a call: passed on uncounted, counted and passed on, or a 429. -/
inductive RateVerdict where
  | exempt
  | admitted
  | limited (retryAfter : Int) (body : ErrorBody)
deriving DecidableEq

/-- `int(x)`. -/
def truncate (q : ℚ) : Int := if 0 ≤ q then ⌊q⌋ else ⌈q⌉

/-- `str(client[0])`, the address the requests of a client are counted under. -/
def HttpScope.clientIp (scope : HttpScope) : String := scope.client.getD "unknown"

/-- The paths that are never counted. -/
def unlimitedPaths : List String := ["/health", "/ready", "/metrics"]

def rateLimitedBody (retryAfter : Int) : ErrorBody :=
  ⟨"RATE_LIMITED", "Too many requests. Retry after " ++ toString retryAfter ++ " seconds."⟩

namespace RateLimiter

def create (requests windowSeconds : Int) : RateLimiter := ⟨requests, windowSeconds, [], 0⟩

/-- The queue of a client, empty for one that is not known. -/
def queue (l : RateLimiter) (ip : String) : List ℚ := ((Rows.lookup Prod.fst ip l.hits).map Prod.snd).getD []

/-- `_sweep_expired`. -/
def sweepExpired (l : RateLimiter) (cutoff now : ℚ) : RateLimiter :=
  if now - l.lastSweep < l.windowSeconds then l
  else
    { l with
      lastSweep := now
      hits := (l.hits.map fun b => (b.1, pruned cutoff b.2)).filter fun b => !b.2.isEmpty }

/-- The queue of a client that has one is changed in its place. -/
def setQueue (l : RateLimiter) (ip : String) (times : List ℚ) : RateLimiter :=
  { l with hits := Rows.updateWhere (fun b => decide (b.1 = ip)) (fun b => (b.1, times)) l.hits }

/-- An empty queue is popped and begun anew. -/
def newQueue (l : RateLimiter) (ip : String) (now : ℚ) : RateLimiter :=
  { l with hits := (l.hits.filter fun b => decide (b.1 ≠ ip)) ++ [(ip, [now])] }

/-- The limiter counts a request. -/
def Counts (l : RateLimiter) (scope : HttpScope) : Prop :=
  (scope.type = "http" ∧ 0 < l.requests ∧ 0 < l.windowSeconds) ∧ scope.path ∉ unlimitedPaths

instance (l : RateLimiter) (scope : HttpScope) : Decidable (l.Counts scope) := by
  unfold Counts
  infer_instance

/-- `oldest_hit + self.window_seconds - now`, in doubles. -/
def remaining (l : RateLimiter) (oldestHit now : ℚ) : ℚ :=
  double (double (oldestHit + l.windowSeconds) - now)

def retryAfterSeconds (l : RateLimiter) (oldestHit now : ℚ) : Int :=
  max 1 (truncate (l.remaining oldestHit now) + 1)

/-- The times of the window are all there is of the client's queue. -/
def judge (l : RateLimiter) (ip : String) (now : ℚ) : List ℚ → RateVerdict × RateLimiter
  -- a queue without times is not full, since `requests` is positive here
  | [] => (.admitted, l.newQueue ip now)
  | oldest :: rest =>
      if l.requests ≤ ((oldest :: rest).length : Int) then
        let retryAfter := l.retryAfterSeconds oldest now
        (.limited retryAfter (rateLimitedBody retryAfter), l.setQueue ip (oldest :: rest))
      else (.admitted, l.setQueue ip (oldest :: rest ++ [now]))

/-- `__call__`. -/
def call (l : RateLimiter) (scope : HttpScope) (now : ℚ) : RateVerdict × RateLimiter :=
  if scope.type ≠ "http" ∨ l.requests ≤ 0 ∨ l.windowSeconds ≤ 0 then (.exempt, l)
  else if scope.path ∈ unlimitedPaths then (.exempt, l)
  else
    let cutoff := now - l.windowSeconds
    let swept := l.sweepExpired cutoff now
    swept.judge scope.clientIp now (pruned cutoff (swept.queue scope.clientIp))

/-! ## Runs -/

/-- A request and the reading of the clock when it is handled. -/
structure Request where
  scope : HttpScope
  now : ℚ

def step (l : RateLimiter) (r : Request) : RateLimiter := (l.call r.scope r.now).2

/-- What a request adds to the record of admissions. -/
def admission (l : RateLimiter) (r : Request) : List (String × ℚ) :=
  if (l.call r.scope r.now).1 = .admitted then [(r.scope.clientIp, r.now)] else []

def after (l : RateLimiter) (rs : List Request) : RateLimiter := Runs.run step l rs

/-- The admissions of a run, oldest first. -/
def admissions (l : RateLimiter) (rs : List Request) : List (String × ℚ) :=
  Runs.collect step admission l rs

/-- The times a client was admitted at. -/
def timesOf (ip : String) (log : List (String × ℚ)) : List ℚ :=
  (log.filter fun p => decide (p.1 = ip)).map Prod.snd

/-- The clock does not go back. -/
def InTime (rs : List Request) : Prop := rs.Pairwise fun r r' => r.now ≤ r'.now

example : (after (create 2 10) [⟨⟨"http", "/a", none⟩, 1⟩, ⟨⟨"http", "/a", none⟩, 2⟩]).hits =
    [("unknown", [1, 2])] := by decide +kernel

variable {l l' : RateLimiter} {log : List (String × ℚ)} {now t : ℚ} {ip : String}

/-! ## Queues -/

theorem queue_eq_of_mem (hkeys : Rows.Unique Prod.fst l.hits) {times : List ℚ}
    (h : (ip, times) ∈ l.hits) : l.queue ip = times := by
  have hfound : Rows.lookup Prod.fst ip l.hits = some (ip, times) := hkeys.lookup_eq h
  unfold queue
  rw [hfound]
  rfl

theorem queue_eq_nil (h : ∀ b ∈ l.hits, b.1 ≠ ip) : l.queue ip = [] := by
  unfold queue
  rw [Rows.lookup_none.mpr h]
  rfl

/-- A client with times in its queue has an entry. -/
theorem mem_of_queue (h : l.queue ip ≠ []) : (ip, l.queue ip) ∈ l.hits := by
  unfold queue at h ⊢
  cases hfound : Rows.lookup Prod.fst ip l.hits with
  | none =>
      rw [hfound] at h
      exact absurd rfl h
  | some b =>
      obtain ⟨hmem, hkey⟩ := Rows.lookup_some hfound
      rw [Option.map_some, Option.getD_some, ← hkey]
      exact hmem

theorem unique_setQueue (hkeys : Rows.Unique Prod.fst l.hits) (times : List ℚ) :
    Rows.Unique Prod.fst (l.setQueue ip times).hits :=
  hkeys.updateWhere fun _ => rfl

theorem unique_newQueue (hkeys : Rows.Unique Prod.fst l.hits) :
    Rows.Unique Prod.fst (l.newQueue ip now).hits := by
  have hrest : Rows.Unique Prod.fst (l.hits.filter fun b => decide (b.1 ≠ ip)) :=
    List.Nodup.sublist (List.filter_sublist.map _) hkeys
  apply hrest.append_single
  intro b hb
  simpa using (List.mem_filter.mp hb).2

theorem queue_setQueue_self (h : l.queue ip ≠ []) (times : List ℚ) :
    (l.setQueue ip times).queue ip = times := by
  have hentry := mem_of_queue h
  have hself := @Rows.lookup_updateWhere_self _ _ _ Prod.fst ip (fun b : String × List ℚ => (b.1, times))
    (fun _ => rfl) l.hits
  unfold setQueue queue
  rw [hself]
  cases hfound : Rows.lookup Prod.fst ip l.hits with
  | none => exact absurd rfl (Rows.lookup_none.mp hfound _ hentry)
  | some b => rfl

theorem queue_setQueue_ne {other : String} (h : other ≠ ip) (times : List ℚ) :
    (l.setQueue ip times).queue other = l.queue other := by
  have hsame := @Rows.lookup_updateWhere_ne _ _ _ Prod.fst other ip
    (fun b : String × List ℚ => (b.1, times)) (fun _ => rfl) h l.hits
  unfold setQueue queue
  rw [hsame]

theorem queue_newQueue_self (hkeys : Rows.Unique Prod.fst l.hits) :
    (l.newQueue ip now).queue ip = [now] := by
  apply queue_eq_of_mem (unique_newQueue hkeys)
  exact List.mem_append_right _ (List.mem_singleton.mpr rfl)

theorem queue_newQueue_ne {other : String} (h : other ≠ ip) :
    (l.newQueue ip now).queue other = l.queue other := by
  have hdeleted : ∀ b ∈ l.hits.filter fun b => decide (b.1 ≠ ip), b.1 ≠ ip := by
    intro b hb
    simpa using (List.mem_filter.mp hb).2
  unfold newQueue queue
  rw [Rows.lookup_append_single hdeleted, if_neg h]
  rw [Rows.lookup_delete_ne h]

theorem unique_sweepExpired (hkeys : Rows.Unique Prod.fst l.hits) (cutoff now : ℚ) :
    Rows.Unique Prod.fst (l.sweepExpired cutoff now).hits := by
  unfold sweepExpired
  split
  · exact hkeys
  · have hmap : (l.hits.map fun b => (b.1, pruned cutoff b.2)).map Prod.fst = l.hits.map Prod.fst := by
      rw [List.map_map]
      rfl
    have hall : Rows.Unique Prod.fst (l.hits.map fun b => (b.1, pruned cutoff b.2)) := by
      unfold Rows.Unique
      rw [hmap]
      exact hkeys
    exact hall.sublist (List.filter_sublist.map _)

/-- A sweep leaves a queue alone or prunes it. -/
theorem queue_sweepExpired (hkeys : Rows.Unique Prod.fst l.hits) (cutoff now : ℚ) (ip : String) :
    (l.sweepExpired cutoff now).queue ip = l.queue ip ∨
      (l.sweepExpired cutoff now).queue ip = pruned cutoff (l.queue ip) := by
  have hswept := unique_sweepExpired hkeys cutoff now
  unfold sweepExpired at hswept ⊢
  split at hswept
  next hearly =>
    rw [if_pos hearly]
    exact .inl rfl
  next hdue =>
    rw [if_neg hdue]
    right
    by_cases hleft : pruned cutoff (l.queue ip) = []
    · -- nothing of the queue is left, so its entry is gone
      rw [hleft]
      apply queue_eq_nil
      intro b hb hip
      obtain ⟨hb, hne⟩ := List.mem_filter.mp hb
      obtain ⟨b₀, hb₀, rfl⟩ := List.mem_map.mp hb
      rw [← hip, queue_eq_of_mem hkeys hb₀] at hleft
      rw [hleft] at hne
      exact absurd hne (by simp)
    · have hqueue : l.queue ip ≠ [] := by
        intro hnil
        rw [hnil] at hleft
        exact hleft rfl
      apply queue_eq_of_mem hswept
      apply List.mem_filter.mpr
      refine ⟨List.mem_map.mpr ⟨_, mem_of_queue hqueue, rfl⟩, ?_⟩
      simpa using hleft

theorem pruned_queue_sweepExpired (hkeys : Rows.Unique Prod.fst l.hits) (cutoff now : ℚ)
    (ip : String) :
    pruned cutoff ((l.sweepExpired cutoff now).queue ip) = pruned cutoff (l.queue ip) := by
  cases queue_sweepExpired hkeys cutoff now ip with
  | inl h => rw [h]
  | inr h => rw [h, pruned_pruned le_rfl]

/-! ## What a call does -/

theorem call_exempt {scope : HttpScope} (h : ¬ l.Counts scope) (now : ℚ) : l.call scope now = (.exempt, l) := by
  unfold Counts at h
  unfold call
  by_cases hoff : scope.type ≠ "http" ∨ l.requests ≤ 0 ∨ l.windowSeconds ≤ 0
  · rw [if_pos hoff]
  · have hpath : scope.path ∈ unlimitedPaths := by
      by_contra hpath
      push Not at hoff
      exact h ⟨hoff, hpath⟩
    rw [if_neg hoff, if_pos hpath]

theorem call_counted {scope : HttpScope} (h : l.Counts scope) (hkeys : Rows.Unique Prod.fst l.hits)
    (now : ℚ) :
    l.call scope now = (l.sweepExpired (now - l.windowSeconds) now).judge scope.clientIp now
      (pruned (now - l.windowSeconds) (l.queue scope.clientIp)) := by
  obtain ⟨⟨htype, hrequests, hwindow⟩, hpath⟩ := h
  unfold call
  rw [if_neg (by push Not; exact ⟨htype, hrequests, hwindow⟩), if_neg hpath]
  dsimp only
  rw [pruned_queue_sweepExpired hkeys]

theorem sweepExpired_frame (cutoff now : ℚ) : (l.sweepExpired cutoff now).requests = l.requests ∧
    (l.sweepExpired cutoff now).windowSeconds = l.windowSeconds := by
  unfold sweepExpired
  split
  · exact ⟨rfl, rfl⟩
  · exact ⟨rfl, rfl⟩

theorem judge_frame (times : List ℚ) : (l.judge ip now times).2.requests = l.requests ∧
    (l.judge ip now times).2.windowSeconds = l.windowSeconds := by
  unfold judge
  cases times with
  | nil => exact ⟨rfl, rfl⟩
  | cons oldest rest =>
      dsimp only
      split
      · exact ⟨rfl, rfl⟩
      · exact ⟨rfl, rfl⟩

/-- The settings of the limiter stay. -/
theorem step_frame (l : RateLimiter) (r : Request) :
    (l.step r).requests = l.requests ∧ (l.step r).windowSeconds = l.windowSeconds := by
  unfold step
  by_cases h : l.Counts r.scope
  · obtain ⟨⟨htype, hrequests, hwindow⟩, hpath⟩ := h
    unfold call
    rw [if_neg (by push Not; exact ⟨htype, hrequests, hwindow⟩), if_neg hpath]
    dsimp only
    rw [(judge_frame _).1, (judge_frame _).2]
    exact sweepExpired_frame _ _
  · rw [call_exempt h]
    exact ⟨rfl, rfl⟩

theorem judge_admitted_iff (hpos : 0 < l.requests) (times : List ℚ) :
    (l.judge ip now times).1 = .admitted ↔ (times.length : Int) < l.requests := by
  unfold judge
  cases times with
  | nil => simpa using hpos
  | cons oldest rest =>
      dsimp only
      split
      next hfull => simp only [reduceCtorEq, false_iff, not_lt]; exact hfull
      next hroom => simp only [true_iff]; exact not_le.mp hroom

/-- The verdict does not depend on the address or the other queues. -/
theorem judge_congr (hrequests : l.requests = l'.requests)
    (hwindow : l.windowSeconds = l'.windowSeconds) (ip' : String) (times : List ℚ) :
    (l.judge ip now times).1 = (l'.judge ip' now times).1 := by
  unfold judge retryAfterSeconds remaining
  cases times with
  | nil => rfl
  | cons oldest rest =>
      dsimp only
      rw [hrequests, hwindow]
      split
      · rfl
      · rfl

/-- The queue of a client after a judgement: the window it was judged by, and its own
time when it was admitted. -/
theorem queue_judge (hkeys : Rows.Unique Prod.fst l.hits) {times : List ℚ}
    (htimes : times ≠ [] → l.queue ip ≠ []) :
    (l.judge ip now times).2.queue ip =
      times ++ if (l.judge ip now times).1 = .admitted then [now] else [] := by
  unfold judge
  cases times with
  | nil => simpa using queue_newQueue_self hkeys
  | cons oldest rest =>
      have hqueue : l.queue ip ≠ [] := htimes (by simp)
      dsimp only
      split
      · simpa using queue_setQueue_self hqueue _
      · simpa using queue_setQueue_self hqueue _

theorem queue_judge_ne {other : String} (hne : other ≠ ip) (times : List ℚ) :
    (l.judge ip now times).2.queue other = l.queue other := by
  unfold judge
  cases times with
  | nil => exact queue_newQueue_ne hne
  | cons oldest rest =>
      dsimp only
      split
      · exact queue_setQueue_ne hne _
      · exact queue_setQueue_ne hne _

theorem unique_judge (hkeys : Rows.Unique Prod.fst l.hits) (times : List ℚ) :
    Rows.Unique Prod.fst (l.judge ip now times).2.hits := by
  unfold judge
  cases times with
  | nil => exact unique_newQueue hkeys
  | cons oldest rest =>
      dsimp only
      split
      · exact unique_setQueue hkeys _
      · exact unique_setQueue hkeys _

/-! ## The limiter and its record -/

/-- The queues hold what the record of admissions leaves in a window. -/
structure Tracks (l : RateLimiter) (log : List (String × ℚ)) (now : ℚ) : Prop where
  keys : Rows.Unique Prod.fst l.hits
  queue : ∀ ip, ∃ c, c ≤ now - l.windowSeconds ∧ l.queue ip = pruned c (timesOf ip log)
  sorted : log.Pairwise fun p q => p.2 ≤ q.2
  before : ∀ p ∈ log, p.2 ≤ now
  admitted : ∀ ip, Admitted (fun t => t - (l.windowSeconds : ℚ)) l.requests.toNat (timesOf ip log)

@[simp] theorem timesOf_append (ip : String) (log log' : List (String × ℚ)) :
    timesOf ip (log ++ log') = timesOf ip log ++ timesOf ip log' := by
  unfold timesOf
  rw [List.filter_append, List.map_append]

theorem timesOf_single (ip other : String) (t : ℚ) :
    timesOf ip [(other, t)] = if other = ip then [t] else [] := by
  unfold timesOf
  by_cases h : other = ip
  · simp [h]
  · simp [h]

theorem mem_timesOf : t ∈ timesOf ip log ↔ (ip, t) ∈ log := by
  unfold timesOf
  simp

theorem tracks_create (requests windowSeconds : Int) (now : ℚ) :
    (create requests windowSeconds).Tracks [] now := by
  refine ⟨Rows.unique_nil _, ?_, List.Pairwise.nil, ?_, ?_⟩
  · intro ip
    exact ⟨now - windowSeconds, le_rfl, rfl⟩
  · intro p hp
    cases hp
  · intro ip
    exact Histories.eachAfter_nil

namespace Tracks

theorem mono (h : l.Tracks log now) {now' : ℚ} (hnow : now ≤ now') : l.Tracks log now' := by
  refine ⟨h.keys, ?_, h.sorted, ?_, h.admitted⟩
  · intro ip
    obtain ⟨c, hc, hqueue⟩ := h.queue ip
    exact ⟨c, by linarith, hqueue⟩
  · intro p hp
    exact (h.before p hp).trans hnow

theorem sorted_timesOf (h : l.Tracks log now) (ip : String) : (timesOf ip log).Pairwise (· ≤ ·) := by
  unfold timesOf
  rw [List.pairwise_map]
  exact h.sorted.sublist List.filter_sublist

theorem le_now (h : l.Tracks log now) (ht : t ∈ timesOf ip log) : t ≤ now :=
  h.before _ (mem_timesOf.mp ht)

/-- What a call reads of its client's queue is what the record holds in the window. -/
theorem pruned_queue (h : l.Tracks log now) (ip : String) :
    pruned (now - l.windowSeconds) (l.queue ip) = within (now - l.windowSeconds) (timesOf ip log) := by
  obtain ⟨c, hc, hqueue⟩ := h.queue ip
  rw [hqueue, pruned_pruned hc, pruned_eq_within (h.sorted_timesOf ip)]

/-- **A counted call is judged by the record of its client.** -/
theorem verdict (h : l.Tracks log now) {scope : HttpScope} (hcounts : l.Counts scope) :
    (l.call scope now).1 =
      (l.judge scope.clientIp now (within (now - l.windowSeconds) (timesOf scope.clientIp log))).1 := by
  rw [call_counted hcounts h.keys, h.pruned_queue]
  exact judge_congr (sweepExpired_frame _ _).1 (sweepExpired_frame _ _).2 _ _

theorem admitted_iff (h : l.Tracks log now) {scope : HttpScope} (hcounts : l.Counts scope) :
    (l.call scope now).1 = .admitted ↔
      ((within (now - l.windowSeconds) (timesOf scope.clientIp log)).length : Int) < l.requests := by
  rw [h.verdict hcounts]
  exact judge_admitted_iff hcounts.1.2.1 _

/-- A window holds no more admissions of a client than the limit. -/
theorem length_windowAt (h : l.Tracks log now) (ip : String) (t : ℚ) :
    (windowAt (fun t => t - (l.windowSeconds : ℚ)) t (timesOf ip log)).length ≤ l.requests.toNat := by
  apply (h.admitted ip).length_windowAt
  intro x y hxy
  exact sub_le_sub_right hxy _

theorem length_within (h : l.Tracks log now) (ip : String) :
    (within (now - (l.windowSeconds : ℚ)) (timesOf ip log)).length ≤ l.requests.toNat := by
  have hsame : within (now - (l.windowSeconds : ℚ)) (timesOf ip log) =
      windowAt (fun t => t - (l.windowSeconds : ℚ)) now (timesOf ip log) := by
    apply List.filter_congr
    intro t ht
    simp [h.le_now ht]
  rw [hsame]
  exact h.length_windowAt ip now

/-- The record with what a request adds. -/
theorem log_step (h : l.Tracks log now) (r : Request) (hnow : now ≤ r.now) :
    (log ++ l.admission r).Pairwise (fun p q => p.2 ≤ q.2) ∧
      ∀ p ∈ log ++ l.admission r, p.2 ≤ r.now := by
  have hnew : ∀ p ∈ l.admission r, p.2 = r.now := by
    intro p hp
    unfold admission at hp
    split at hp
    · rw [List.mem_singleton.mp hp]
    · cases hp
  constructor
  · rw [List.pairwise_append]
    refine ⟨h.sorted, ?_, ?_⟩
    · unfold admission
      split
      · exact List.pairwise_singleton _ _
      · exact List.Pairwise.nil
    · intro p hp q hq
      rw [hnew q hq]
      exact (h.before p hp).trans hnow
  · intro p hp
    cases List.mem_append.mp hp with
    | inl hold => exact (h.before p hold).trans hnow
    | inr hadded => exact (hnew p hadded).le

/-- **A call keeps the queues in step with the record.** -/
theorem step (h : l.Tracks log now) (r : Request) (hnow : now ≤ r.now) :
    (l.step r).Tracks (log ++ l.admission r) r.now := by
  by_cases hcounts : l.Counts r.scope
  · have h' := h.mono hnow
    have hframe := step_frame l r
    have hcall := call_counted hcounts h.keys r.now
    rw [h'.pruned_queue] at hcall
    have hswept : ∀ ip, (l.sweepExpired (r.now - l.windowSeconds) r.now).queue ip = l.queue ip ∨
        (l.sweepExpired (r.now - l.windowSeconds) r.now).queue ip =
          pruned (r.now - l.windowSeconds) (l.queue ip) :=
      queue_sweepExpired h.keys _ _
    have hsweptKeys := unique_sweepExpired h.keys (r.now - l.windowSeconds) r.now
    have hstep : l.step r = ((l.sweepExpired (r.now - l.windowSeconds) r.now).judge r.scope.clientIp
        r.now (within (r.now - l.windowSeconds) (timesOf r.scope.clientIp log))).2 := by
      unfold RateLimiter.step
      rw [hcall]
    have hadmission : timesOf r.scope.clientIp (l.admission r) =
        if ((l.sweepExpired (r.now - l.windowSeconds) r.now).judge r.scope.clientIp r.now
          (within (r.now - l.windowSeconds) (timesOf r.scope.clientIp log))).1 = .admitted then
          [r.now] else [] := by
      unfold admission
      rw [hcall]
      split
      · rw [timesOf_single, if_pos rfl]
      · rfl
    have hother : ∀ ip, ip ≠ r.scope.clientIp → timesOf ip (l.admission r) = [] := by
      intro ip hne
      unfold admission
      split
      · rw [timesOf_single, if_neg (Ne.symm hne)]
      · rfl
    obtain ⟨hsorted, hbefore⟩ := h.log_step r hnow
    refine ⟨?_, ?_, hsorted, hbefore, ?_⟩
    · rw [hstep]
      exact unique_judge hsweptKeys _
    · intro ip
      rw [hframe.2]
      by_cases hip : ip = r.scope.clientIp
      · subst hip
        refine ⟨r.now - l.windowSeconds, le_rfl, ?_⟩
        rw [hstep, queue_judge hsweptKeys, timesOf_append, hadmission,
          ← pruned_eq_within (h.sorted_timesOf _)]
        · split
          · rw [pruned_append]
            have hpos : (0 : ℚ) < l.windowSeconds := by exact_mod_cast hcounts.1.2.2
            linarith
          · rw [List.append_nil, List.append_nil]
        · -- a queue that prunes to something is there
          intro hne hnil
          rw [← h'.pruned_queue, ← pruned_queue_sweepExpired h.keys _ r.now, hnil] at hne
          exact hne rfl
      · obtain ⟨c, hc, hqueue⟩ := h'.queue ip
        rw [hstep, queue_judge_ne hip, timesOf_append, hother ip hip, List.append_nil]
        cases hswept ip with
        | inl hsame => exact ⟨c, hc, hsame.trans hqueue⟩
        | inr hpruned =>
            refine ⟨r.now - l.windowSeconds, le_rfl, ?_⟩
            rw [hpruned, hqueue, pruned_pruned hc]
    · intro ip
      rw [hframe.1, hframe.2, timesOf_append]
      by_cases hip : ip = r.scope.clientIp
      · subst hip
        have hadmits := h'.admitted_iff hcounts
        unfold admission
        split
        next hyes =>
          rw [timesOf_single, if_pos rfl]
          apply admitted_append.mpr
          refine ⟨h.admitted _, ?_⟩
          have hroom := hadmits.mp hyes
          omega
        next hno =>
          rw [show timesOf r.scope.clientIp [] = [] from rfl, List.append_nil]
          exact h.admitted _
      · rw [hother ip hip, List.append_nil]
        exact h.admitted ip
  · have hcall := call_exempt hcounts r.now
    have hstep : l.step r = l := by
      unfold RateLimiter.step
      rw [hcall]
    have hnone : l.admission r = [] := by
      unfold admission
      rw [hcall]
      rfl
    rw [hstep, hnone, List.append_nil]
    exact h.mono hnow

theorem run (h : l.Tracks log now) {rs : List Request} (hclock : InTime rs)
    (hnow : ∀ r ∈ rs, now ≤ r.now) {last : ℚ} (hlast : ∀ r ∈ rs, r.now ≤ last) (hle : now ≤ last) :
    (l.after rs).Tracks (log ++ l.admissions rs) last := by
  induction rs generalizing l log now with
  | nil =>
      rw [show l.admissions [] = [] from rfl, List.append_nil]
      exact h.mono hle
  | cons r rs ih =>
      obtain ⟨hr, hrest⟩ := List.pairwise_cons.mp hclock
      have hone := h.step r (hnow r List.mem_cons_self)
      have hall := ih hone hrest hr (fun x hx => hlast x (List.mem_cons_of_mem r hx))
        (hlast r List.mem_cons_self)
      rw [List.append_assoc] at hall
      exact hall

end Tracks

/-! ## What the queues cost -/

/-- No entry is empty, longer than the limit, or older than the last sweep left it. -/
structure Tidy (l : RateLimiter) (now : ℚ) : Prop where
  entries : ∀ b ∈ l.hits, b.2 ≠ [] ∧ (b.2.length : Int) ≤ l.requests ∧
    ∀ t ∈ b.2, l.lastSweep - l.windowSeconds ≤ t
  swept : l.lastSweep ≤ now

namespace Tidy

theorem mono (h : l.Tidy now) {now' : ℚ} (hnow : now ≤ now') : l.Tidy now' :=
  ⟨h.entries, h.swept.trans hnow⟩

/-- An entry is the queue of its client, so it is in order. -/
theorem sorted_entry (htracks : l.Tracks log now) {b : String × List ℚ} (hb : b ∈ l.hits) :
    b.2.Pairwise (· ≤ ·) := by
  obtain ⟨c, -, hqueue⟩ := htracks.queue b.1
  rw [← queue_eq_of_mem htracks.keys hb, hqueue]
  exact List.Pairwise.sublist pruned_suffix.sublist (htracks.sorted_timesOf b.1)

theorem sweepExpired (h : l.Tidy now) (htracks : l.Tracks log now) (hpos : 0 < l.windowSeconds) :
    (l.sweepExpired (now - l.windowSeconds) now).Tidy now ∧
      now - l.windowSeconds < (l.sweepExpired (now - l.windowSeconds) now).lastSweep := by
  have hwindow : (0 : ℚ) < l.windowSeconds := by exact_mod_cast hpos
  unfold RateLimiter.sweepExpired
  split
  next hrecent => exact ⟨h, by linarith⟩
  next hdue =>
    refine ⟨⟨?_, le_rfl⟩, by simpa using hwindow⟩
    intro b hb
    obtain ⟨hin, hne⟩ := List.mem_filter.mp hb
    obtain ⟨b₀, hb₀, rfl⟩ := List.mem_map.mp hin
    obtain ⟨-, hlength, -⟩ := h.entries b₀ hb₀
    refine ⟨by simpa using hne, ?_, ?_⟩
    · have hle := (@pruned_suffix _ _ (now - (l.windowSeconds : ℚ)) b₀.2).length_le
      dsimp only
      omega
    · intro t ht
      exact le_of_mem_pruned (sorted_entry htracks hb₀) ht

/-- A judgement from the times that are left of the client's queue. -/
theorem judge (h : l.Tidy now) (hrequests : 0 < l.requests) (hwindow : 0 < l.windowSeconds)
    {c : ℚ} : (l.judge ip now (pruned c (l.queue ip))).2.Tidy now := by
  have hpos : (0 : ℚ) < l.windowSeconds := by exact_mod_cast hwindow
  have hnow : l.lastSweep - l.windowSeconds ≤ now := by
    have hswept := h.swept
    linarith
  unfold RateLimiter.judge
  cases htimes : pruned c (l.queue ip) with
  | nil =>
      refine ⟨?_, h.swept⟩
      intro b hb
      cases List.mem_append.mp hb with
      | inl hold => exact h.entries b (List.mem_filter.mp hold).1
      | inr hadded =>
          rw [List.mem_singleton.mp hadded]
          refine ⟨List.cons_ne_nil _ _, ?_, ?_⟩
          · change (1 : Int) ≤ l.requests
            omega
          · intro t ht
            rw [List.mem_singleton.mp ht]
            exact hnow
  | cons oldest rest =>
      have hqueue : l.queue ip ≠ [] := by
        intro hnil
        rw [hnil] at htimes
        cases htimes
      obtain ⟨-, hlength, hrecent⟩ := h.entries _ (mem_of_queue hqueue)
      have hleft : ∀ t ∈ oldest :: rest, l.lastSweep - l.windowSeconds ≤ t := by
        intro t ht
        rw [← htimes] at ht
        exact hrecent t (mem_of_mem_pruned ht)
      have hle : (oldest :: rest).length ≤ (l.queue ip).length := by
        rw [← htimes]
        exact pruned_suffix.length_le
      -- the entry of the client is replaced, the others are as they were
      have hset : ∀ times : List ℚ, times ≠ [] → (times.length : Int) ≤ l.requests →
          (∀ t ∈ times, l.lastSweep - l.windowSeconds ≤ t) → (l.setQueue ip times).Tidy now := by
        intro times hne hlen hall
        refine ⟨?_, h.swept⟩
        intro b hb
        obtain ⟨b₀, hb₀, rfl⟩ := Rows.mem_updateWhere.mp hb
        split
        · exact ⟨hne, hlen, hall⟩
        · exact h.entries b₀ hb₀
      dsimp only
      split
      next => exact hset _ (List.cons_ne_nil _ _) (by dsimp only at hlength; omega) hleft
      next hroom =>
        refine hset _ (List.cons_ne_nil _ _) ?_ ?_
        · have hlen : (oldest :: rest ++ [now]).length = (oldest :: rest).length + 1 :=
            List.length_append
          omega
        · intro t ht
          cases List.mem_append.mp ht with
          | inl hold => exact hleft t hold
          | inr hadded =>
              rw [List.mem_singleton.mp hadded]
              exact hnow

/-- A counted call leaves the limiter tidy and swept within the last window. -/
theorem step_counted (h : l.Tidy now) (htracks : l.Tracks log now) {r : Request}
    (hcounts : l.Counts r.scope) (hnow : now ≤ r.now) :
    (l.step r).Tidy r.now ∧ r.now - l.windowSeconds < (l.step r).lastSweep := by
  obtain ⟨⟨htype, hrequests, hwindow⟩, hpath⟩ := hcounts
  obtain ⟨htidy, hswept⟩ := (h.mono hnow).sweepExpired (htracks.mono hnow) hwindow
  obtain ⟨hrequests', hwindow'⟩ := sweepExpired_frame (l := l) (r.now - l.windowSeconds) r.now
  have hsame : ∀ times, (((l.sweepExpired (r.now - l.windowSeconds) r.now).judge
      r.scope.clientIp r.now times).2).lastSweep =
        (l.sweepExpired (r.now - l.windowSeconds) r.now).lastSweep := by
    intro times
    unfold RateLimiter.judge
    cases times with
    | nil => rfl
    | cons oldest rest =>
        dsimp only
        split
        · rfl
        · rfl
  unfold RateLimiter.step RateLimiter.call
  rw [if_neg (by push Not; exact ⟨htype, hrequests, hwindow⟩), if_neg hpath]
  refine ⟨htidy.judge (by rw [hrequests']; exact hrequests) (by rw [hwindow']; exact hwindow), ?_⟩
  rw [hsame]
  exact hswept

theorem step (h : l.Tidy now) (htracks : l.Tracks log now) {r : Request} (hnow : now ≤ r.now) :
    (l.step r).Tidy r.now := by
  by_cases hcounts : l.Counts r.scope
  · exact (h.step_counted htracks hcounts hnow).1
  · unfold RateLimiter.step
    rw [call_exempt hcounts]
    exact h.mono hnow

theorem run (h : l.Tidy now) (htracks : l.Tracks log now) {rs : List Request} (hclock : InTime rs)
    (hnow : ∀ r ∈ rs, now ≤ r.now) {last : ℚ} (hlast : ∀ r ∈ rs, r.now ≤ last) (hle : now ≤ last) :
    (l.after rs).Tidy last := by
  induction rs generalizing l log now with
  | nil => exact h.mono hle
  | cons r rs ih =>
      obtain ⟨hr, hrest⟩ := List.pairwise_cons.mp hclock
      have hfirst := hnow r List.mem_cons_self
      exact ih (h.step htracks hfirst) (htracks.step r hfirst) hrest hr
        (fun x hx => hlast x (List.mem_cons_of_mem r hx)) (hlast r List.mem_cons_self)

end Tidy

/-! ## Runs of a new limiter -/

theorem after_frame (l : RateLimiter) (rs : List Request) :
    (l.after rs).requests = l.requests ∧ (l.after rs).windowSeconds = l.windowSeconds := by
  induction rs generalizing l with
  | nil => exact ⟨rfl, rfl⟩
  | cons r rs ih =>
      obtain ⟨hrequests, hwindow⟩ := ih (l.step r)
      exact ⟨hrequests.trans (step_frame l r).1, hwindow.trans (step_frame l r).2⟩

theorem after_append (l : RateLimiter) (rs rs' : List Request) :
    l.after (rs ++ rs') = (l.after rs).after rs' :=
  Runs.run_append step l rs rs'

theorem admissions_append (l : RateLimiter) (rs rs' : List Request) :
    l.admissions (rs ++ rs') = l.admissions rs ++ (l.after rs).admissions rs' := by
  induction rs generalizing l with
  | nil => rfl
  | cons r rs ih =>
      have hrest := ih (l.step r)
      unfold admissions after at hrest ⊢
      rw [List.cons_append, Runs.collect, hrest, Runs.collect, List.append_assoc]
      rfl

section Results

variable {requests windowSeconds : Int} {rs later : List Request} {r r' : Request}

/-- The limiter is still set as it was made. -/
theorem settings_after : ((create requests windowSeconds).after rs).requests = requests ∧
    ((create requests windowSeconds).after rs).windowSeconds = windowSeconds :=
  after_frame (create requests windowSeconds) rs

/-- The limiter and its record when the next request comes. -/
theorem tracks_after (hclock : InTime (rs ++ [r])) :
    ((create requests windowSeconds).after rs).Tracks
      ((create requests windowSeconds).admissions rs) r.now := by
  obtain ⟨hrs, -, hlast⟩ := List.pairwise_append.mp hclock
  have hle : ∀ x ∈ rs, x.now ≤ r.now := fun x hx => hlast x hx r (List.mem_singleton.mpr rfl)
  cases rs with
  | nil => exact tracks_create requests windowSeconds r.now
  | cons x rs =>
      have hfirst : ∀ y ∈ x :: rs, x.now ≤ y.now := by
        intro y hy
        cases List.mem_cons.mp hy with
        | inl heq => rw [heq]
        | inr hmem => exact (List.pairwise_cons.mp hrs).1 y hmem
      exact (tracks_create requests windowSeconds x.now).run hrs hfirst hle (hle x List.mem_cons_self)

theorem counts_after {scope : HttpScope} :
    ((create requests windowSeconds).after rs).Counts scope ↔
      (create requests windowSeconds).Counts scope := by
  unfold Counts
  rw [settings_after.1, settings_after.2]
  rfl

theorem InTime.last (hclock : InTime (rs ++ [r])) : InTime rs ∧ ∀ x ∈ rs, x.now ≤ r.now := by
  obtain ⟨hrs, -, hlast⟩ := List.pairwise_append.mp hclock
  exact ⟨hrs, fun x hx => hlast x hx r (List.mem_singleton.mpr rfl)⟩

/-- **Admission is by the closed window.**  A counted request is admitted exactly when its
client has fewer than `requests` admissions in the window that closes at the request.  It
follows that no window of the run, wherever it closes, has more. -/
theorem rate_limit_exact (hclock : InTime (rs ++ [r]))
    (hcounts : (create requests windowSeconds).Counts r.scope) :
    ((((create requests windowSeconds).after rs).call r.scope r.now).1 = .admitted ↔
        ((within (r.now - windowSeconds)
          (timesOf r.scope.clientIp ((create requests windowSeconds).admissions rs))).length : Int) <
            requests) ∧
      ∀ ip t, (windowAt (fun t => t - (windowSeconds : ℚ)) t
        (timesOf ip ((create requests windowSeconds).admissions (rs ++ [r])))).length ≤
          requests.toNat := by
  have htracks := @tracks_after requests windowSeconds _ _ hclock
  obtain ⟨hrequests, hwindow⟩ := @settings_after requests windowSeconds rs
  constructor
  · have hiff := htracks.admitted_iff (counts_after.mpr hcounts)
    rw [hrequests, hwindow] at hiff
    exact hiff
  · intro ip t
    obtain ⟨hrequests', hwindow'⟩ := step_frame ((create requests windowSeconds).after rs) r
    have hlength := (htracks.step r le_rfl).length_windowAt ip t
    rw [hrequests', hwindow', hrequests, hwindow] at hlength
    rw [admissions_append]
    have hone : ((create requests windowSeconds).after rs).admissions [r] =
        ((create requests windowSeconds).after rs).admission r := List.append_nil _
    rw [hone]
    exact hlength

/-- The third request of a client in ten seconds, limited to two. -/
theorem rate_limit_exact_third :
    (((create 2 10).after [⟨⟨"http", "/a", none⟩, 1⟩, ⟨⟨"http", "/a", none⟩, 2⟩]).call
      ⟨"http", "/b", none⟩ 3).1 ≠ .admitted := by
  have h := (@rate_limit_exact 2 10 [⟨⟨"http", "/a", none⟩, 1⟩, ⟨⟨"http", "/a", none⟩, 2⟩]
    ⟨⟨"http", "/b", none⟩, 3⟩ (by unfold InTime; decide +kernel) (by decide +kernel)).1
  apply mt h.mp
  decide +kernel

/-! ### A client alone -/

/-- The requests of a client. -/
def requestsOf (ip : String) (rs : List Request) : List Request :=
  rs.filter fun x => decide (x.scope.clientIp = ip)

theorem InTime.requestsOf (hclock : InTime (rs ++ [r])) :
    InTime (requestsOf r.scope.clientIp rs ++ [r]) := by
  have hsub : (RateLimiter.requestsOf r.scope.clientIp rs ++ [r]).Sublist (rs ++ [r]) :=
    List.filter_sublist.append (List.Sublist.refl [r])
  exact List.Pairwise.sublist hsub hclock

/-- Limiters with the same record of a client judge it alike. -/
theorem verdict_congr {rs' : List Request} (hclock : InTime (rs ++ [r]))
    (hclock' : InTime (rs' ++ [r]))
    (htimes : timesOf r.scope.clientIp ((create requests windowSeconds).admissions rs) =
      timesOf r.scope.clientIp ((create requests windowSeconds).admissions rs')) :
    (((create requests windowSeconds).after rs).call r.scope r.now).1 =
      (((create requests windowSeconds).after rs').call r.scope r.now).1 := by
  obtain ⟨hrequests, hwindow⟩ := @settings_after requests windowSeconds rs
  obtain ⟨hrequests', hwindow'⟩ := @settings_after requests windowSeconds rs'
  by_cases hcounts : (create requests windowSeconds).Counts r.scope
  · rw [(tracks_after hclock).verdict (counts_after.mpr hcounts),
      (tracks_after hclock').verdict (counts_after.mpr hcounts), htimes, hwindow, hwindow']
    exact judge_congr (hrequests.trans hrequests'.symm) (hwindow.trans hwindow'.symm) _ _
  · rw [call_exempt (mt counts_after.mp hcounts), call_exempt (mt counts_after.mp hcounts)]

/-- What the others send does not add to the record of a client. -/
theorem timesOf_requestsOf (ip : String) (hclock : InTime rs) :
    timesOf ip ((create requests windowSeconds).admissions rs) =
      timesOf ip ((create requests windowSeconds).admissions (requestsOf ip rs)) := by
  induction rs using List.reverseRecOn with
  | nil => rfl
  | append_singleton rs x ih =>
      have hbefore := ih (InTime.last hclock).1
      have hone : ∀ l : RateLimiter, l.admissions [x] = l.admission x := by
        intro l
        exact List.append_nil _
      rw [admissions_append, timesOf_append, hone]
      by_cases hip : x.scope.clientIp = ip
      · subst hip
        have hkept : requestsOf x.scope.clientIp (rs ++ [x]) =
            requestsOf x.scope.clientIp rs ++ [x] := by
          unfold requestsOf
          rw [List.filter_append, List.filter_cons_of_pos (by simp)]
          rfl
        have hsame : ((create requests windowSeconds).after rs).admission x =
            ((create requests windowSeconds).after (requestsOf x.scope.clientIp rs)).admission x := by
          unfold admission
          rw [verdict_congr hclock (InTime.requestsOf hclock) hbefore]
        rw [hkept, admissions_append, timesOf_append, hone, hbefore, hsame]
      · have hdropped : requestsOf ip (rs ++ [x]) = requestsOf ip rs := by
          unfold requestsOf
          rw [List.filter_append, List.filter_cons_of_neg (by simpa using hip)]
          exact List.append_nil _
        have hnone : timesOf ip (((create requests windowSeconds).after rs).admission x) = [] := by
          unfold admission
          split
          · rw [timesOf_single, if_neg hip]
          · rfl
        rw [hdropped, hnone, List.append_nil, hbefore]

/-- **A client is judged as if it were alone.**  The verdict on a request is the one of a
limiter that only ever saw the requests of its client; other clients and the sweeps they
set off change nothing. -/
theorem judged_alone (hclock : InTime (rs ++ [r])) :
    (((create requests windowSeconds).after rs).call r.scope r.now).1 =
      (((create requests windowSeconds).after (requestsOf r.scope.clientIp rs)).call
        r.scope r.now).1 :=
  verdict_congr hclock (InTime.requestsOf hclock)
    (timesOf_requestsOf r.scope.clientIp (InTime.last hclock).1)

theorem judged_alone_busy :
    (((create 1 10).after [⟨⟨"http", "/a", some "x"⟩, 1⟩, ⟨⟨"http", "/a", some "y"⟩, 2⟩]).call
      ⟨"http", "/b", some "y"⟩ 3).1 =
        (((create 1 10).after [⟨⟨"http", "/a", some "y"⟩, 2⟩]).call ⟨"http", "/b", some "y"⟩ 3).1 :=
  @judged_alone 1 10 [⟨⟨"http", "/a", some "x"⟩, 1⟩, ⟨⟨"http", "/a", some "y"⟩, 2⟩]
    ⟨⟨"http", "/b", some "y"⟩, 3⟩ (by unfold InTime; decide +kernel)

/-! ### Retry-After -/

theorem limited_cons {retryAfter : Int} {body : ErrorBody} {times : List ℚ}
    (h : (l.judge ip now times).1 = .limited retryAfter body) :
    ∃ oldest rest, times = oldest :: rest ∧ l.requests ≤ ((oldest :: rest).length : Int) ∧
      retryAfter = l.retryAfterSeconds oldest now ∧ body = rateLimitedBody retryAfter := by
  unfold judge at h
  cases times with
  | nil => cases h
  | cons oldest rest =>
      dsimp only at h
      split at h
      next hfull =>
        obtain ⟨hretry, hbody⟩ := RateVerdict.limited.inj h
        exact ⟨oldest, rest, rfl, hfull, hretry.symm, by rw [← hbody, hretry]⟩
      next => cases h

/-- A reading of the clock: a double that is not negative, in the range where a second is not lost. -/
def Reading (t : ℚ) : Prop := double t = t ∧ 0 ≤ t ∧ t ≤ (2 : ℚ) ^ (53 : ℤ)

/-- The time between two readings, as the process computes it. -/
def elapsed (earlier later : ℚ) : ℚ := double (later - earlier)

/-- The end of a window that is not over: it is reached in time, and within the range. -/
theorem windowEnd_bounds {oldest : ℚ} (hnow : Reading now) (hwindow : l.windowSeconds ≤ 2 ^ 53)
    (hinside : now - l.windowSeconds ≤ oldest) (hbefore : oldest ≤ now) :
    oldest + l.windowSeconds ≤ (2 : ℚ) ^ (54 : ℤ) ∧ now ≤ double (oldest + l.windowSeconds) ∧
      double (oldest + l.windowSeconds) ≤ (2 : ℚ) ^ (54 : ℤ) := by
  obtain ⟨hdouble, hpos, hrange⟩ := hnow
  have hw : (l.windowSeconds : ℚ) ≤ (2 : ℚ) ^ (53 : ℤ) := by exact_mod_cast hwindow
  have htwice : (2 : ℚ) ^ (53 : ℤ) + (2 : ℚ) ^ (53 : ℤ) = (2 : ℚ) ^ (54 : ℤ) := by norm_num
  have hsum : oldest + l.windowSeconds ≤ (2 : ℚ) ^ (54 : ℤ) := by linarith
  have hreached : now ≤ oldest + l.windowSeconds := by linarith
  refine ⟨hsum, ?_, double_le_zpow (by norm_num) (hpos.trans hreached) hsum⟩
  rw [← hdouble]
  exact double_mono_of_le (by norm_num) hpos hreached hsum

/-- For a time still inside the window, what is left of it is rounded up past the second. -/
theorem retryAfterSeconds_eq {oldest : ℚ} (hnow : Reading now) (hwindow : l.windowSeconds ≤ 2 ^ 53)
    (hinside : now - l.windowSeconds ≤ oldest) (hbefore : oldest ≤ now) :
    l.retryAfterSeconds oldest now = ⌊l.remaining oldest now⌋ + 1 := by
  obtain ⟨-, hreached, hrange⟩ := windowEnd_bounds hnow hwindow hinside hbefore
  have hleft : 0 ≤ l.remaining oldest now := by
    unfold remaining
    rw [← double_zero]
    exact @double_mono_of_le _ _ 54 (by norm_num) le_rfl (by linarith) (by linarith [hnow.2.1])
  have hfloor : 0 ≤ ⌊l.remaining oldest now⌋ := Int.floor_nonneg.mpr hleft
  unfold retryAfterSeconds truncate
  rw [if_pos hleft]
  omega

/-- **When what remained is over**, on the clock of the process: a time has left the window once
more has elapsed, and has not while less has. -/
theorem elapsed_remaining {oldest later : ℚ} (hnow : Reading now) (hlater : Reading later)
    (hwindow : l.windowSeconds ≤ 2 ^ 53) (hinside : now - l.windowSeconds ≤ oldest)
    (hbefore : oldest ≤ now) (hwait : now ≤ later) :
    (l.remaining oldest now < elapsed now later → oldest < later - l.windowSeconds) ∧
      (elapsed now later < l.remaining oldest now → ¬ oldest < later - l.windowSeconds) := by
  obtain ⟨hsum, hreached, hrange⟩ := windowEnd_bounds hnow hwindow hinside hbefore
  obtain ⟨hdouble, hpos, hlaterRange⟩ := hlater
  have hwiden : (2 : ℚ) ^ (53 : ℤ) ≤ (2 : ℚ) ^ (54 : ℤ) :=
    zpow_le_zpow_right₀ (by norm_num) (by norm_num)
  have hk : (-1074 : ℤ) ≤ 54 ∧ (54 : ℤ) < 1024 := by norm_num
  have hnonneg := hnow.2.1
  have hend : 0 ≤ oldest + l.windowSeconds := by linarith
  unfold remaining elapsed
  constructor
  · intro hover
    have hpast : double (oldest + l.windowSeconds) < later := by
      have := lt_of_double_lt hk (by linarith) (by linarith) hover
      linarith
    rw [← hdouble] at hpast
    have := lt_of_double_lt hk hpos hsum hpast
    linarith
  · intro hshort hgone
    have hahead : later < double (oldest + l.windowSeconds) := by
      have := lt_of_double_lt hk (by linarith) (by linarith) hshort
      linarith
    rw [← hdouble] at hahead
    have := lt_of_double_lt hk hend (by linarith) hahead
    linarith

/-- A limited client that sends nothing keeps its record. -/
theorem timesOf_silent {body : ErrorBody} {retryAfter : Int}
    (hlimited : (((create requests windowSeconds).after rs).call r.scope r.now).1 =
      .limited retryAfter body)
    (hclock : InTime (rs ++ [r] ++ later))
    (hsilent : ∀ x ∈ later, x.scope.clientIp ≠ r.scope.clientIp) :
    timesOf r.scope.clientIp ((create requests windowSeconds).admissions (rs ++ [r] ++ later)) =
      timesOf r.scope.clientIp ((create requests windowSeconds).admissions rs) := by
  have hkept : requestsOf r.scope.clientIp (rs ++ [r] ++ later) =
      requestsOf r.scope.clientIp (rs ++ [r]) := by
    have hnone : requestsOf r.scope.clientIp later = [] := by
      apply List.filter_eq_nil_iff.mpr
      intro x hx
      simpa using hsilent x hx
    unfold requestsOf at hnone ⊢
    rw [List.filter_append, hnone, List.append_nil]
  have hclock' := (List.pairwise_append.mp hclock).1
  rw [timesOf_requestsOf _ hclock, hkept, ← timesOf_requestsOf _ hclock', admissions_append,
    timesOf_append]
  have hnothing : ((create requests windowSeconds).after rs).admissions [r] = [] := by
    have hverdict : (((create requests windowSeconds).after rs).call r.scope r.now).1 ≠ .admitted := by
      rw [hlimited]
      exact RateVerdict.noConfusion
    unfold admissions Runs.collect admission
    rw [if_neg hverdict]
    rfl
  rw [hnothing]
  exact List.append_nil _

/-- **Retry-After is the second that helps.**  A client that was turned away and sends nothing
more is admitted once the named seconds have elapsed, and is still turned away while less than one
second under them has, whatever the other clients do in between.  The seconds are those the
process itself computes from two readings. -/
theorem retry_after_exact {body : ErrorBody} {retryAfter : Int}
    (hlimited : (((create requests windowSeconds).after rs).call r.scope r.now).1 =
      .limited retryAfter body)
    (hclock : InTime (rs ++ [r] ++ later ++ [r']))
    (hsilent : ∀ x ∈ later, x.scope.clientIp ≠ r.scope.clientIp)
    (hcounts : (create requests windowSeconds).Counts r'.scope)
    (hclient : r'.scope.clientIp = r.scope.clientIp)
    (hreadings : Reading r.now ∧ Reading r'.now) (hrange : windowSeconds ≤ 2 ^ 53) :
    (retryAfter ≤ elapsed r.now r'.now →
        (((create requests windowSeconds).after (rs ++ [r] ++ later)).call r'.scope r'.now).1 =
          .admitted) ∧
      (elapsed r.now r'.now < retryAfter - 1 →
        (((create requests windowSeconds).after (rs ++ [r] ++ later)).call r'.scope r'.now).1 ≠
          .admitted) := by
  obtain ⟨hclockLater, -⟩ := InTime.last hclock
  have hclockFirst : InTime (rs ++ [r]) := (List.pairwise_append.mp hclockLater).1
  have hwait : r.now ≤ r'.now :=
    (InTime.last hclock).2 r (by simp)
  have hsame := timesOf_silent hlimited hclockLater hsilent
  have hpos : 0 < requests := hcounts.1.2.1
  have hexact := (rate_limit_exact hclock hcounts).1
  rw [hclient, hsame] at hexact
  -- what the client was turned away by
  have hfirst := @tracks_after requests windowSeconds _ _ hclockFirst
  obtain ⟨hrequests, hwindow⟩ := @settings_after requests windowSeconds rs
  have hcountsFirst : ((create requests windowSeconds).after rs).Counts r.scope := by
    by_contra hexempt
    rw [call_exempt hexempt] at hlimited
    cases hlimited
  rw [hfirst.verdict hcountsFirst] at hlimited
  obtain ⟨oldest, rest, hfound, hfull, hretry, -⟩ := limited_cons hlimited
  rw [hrequests] at hfull
  have hmem : oldest ∈ within (r.now - (((create requests windowSeconds).after rs).windowSeconds : ℚ))
      (timesOf r.scope.clientIp ((create requests windowSeconds).admissions rs)) := by
    rw [hfound]
    exact List.mem_cons_self
  obtain ⟨hmem, hinside⟩ := List.mem_filter.mp hmem
  have hinside := of_decide_eq_true hinside
  have hbefore : oldest ≤ r.now := hfirst.before _ (mem_timesOf.mp hmem)
  have hrange' : ((create requests windowSeconds).after rs).windowSeconds ≤ 2 ^ 53 :=
    hwindow.le.trans hrange
  rw [retryAfterSeconds_eq hreadings.1 hrange' hinside hbefore] at hretry
  obtain ⟨hover, hshort⟩ :=
    elapsed_remaining hreadings.1 hreadings.2 hrange' hinside hbefore hwait
  have hsorted := hfirst.sorted_timesOf r.scope.clientIp
  rw [hwindow] at hfound hover hshort
  -- the window of the later request, seen through the earlier one
  have hcutoff : r.now - (windowSeconds : ℚ) ≤ r'.now - windowSeconds := by linarith
  have hlater : within (r'.now - (windowSeconds : ℚ))
      (timesOf r.scope.clientIp ((create requests windowSeconds).admissions rs)) =
        pruned (r'.now - windowSeconds) (oldest :: rest) := by
    rw [← pruned_eq_within hsorted, ← pruned_pruned hcutoff, pruned_eq_within hsorted]
    exact congrArg _ hfound
  rw [hlater] at hexact
  constructor
  · intro hreached
    apply hexact.mpr
    have hgone : oldest < r'.now - windowSeconds := by
      apply hover
      have hfloor := Int.lt_floor_add_one
        (((create requests windowSeconds).after rs).remaining oldest r.now)
      rw [hretry] at hreached
      push_cast at hreached
      linarith
    have hlength : (oldest :: rest).length ≤ requests.toNat := by
      have hwithin := hfirst.length_within r.scope.clientIp
      rw [hwindow, hrequests] at hwithin
      rw [← hfound]
      exact hwithin
    have hdropped : (pruned (r'.now - (windowSeconds : ℚ)) (oldest :: rest)).length ≤ rest.length := by
      unfold pruned
      rw [List.dropWhile_cons_of_pos (by simpa using hgone)]
      exact (List.dropWhile_suffix _).length_le
    rw [List.length_cons] at hlength
    omega
  · intro hearly hadmitted
    have hthere : ¬ oldest < r'.now - windowSeconds := by
      apply hshort
      have hfloor := Int.floor_le (((create requests windowSeconds).after rs).remaining oldest r.now)
      rw [hretry] at hearly
      push_cast at hearly
      linarith
    have hkept : pruned (r'.now - (windowSeconds : ℚ)) (oldest :: rest) = oldest :: rest := by
      unfold pruned
      rw [List.dropWhile_cons_of_neg (by simpa using hthere)]
    have hroom := hexact.mp hadmitted
    rw [hkept] at hroom
    omega

/-- One request in ten seconds: a client told to wait eight seconds is admitted then. -/
theorem retry_after_exact_waited :
    (((create 1 10).after ([⟨⟨"http", "/a", some "x"⟩, 1⟩] ++ [⟨⟨"http", "/a", some "x"⟩, 7 / 2⟩] ++
      [⟨⟨"http", "/a", some "y"⟩, 5⟩])).call ⟨"http", "/a", some "x"⟩ (23 / 2)).1 = .admitted :=
  (@retry_after_exact 1 10 [⟨⟨"http", "/a", some "x"⟩, 1⟩] [⟨⟨"http", "/a", some "y"⟩, 5⟩]
    ⟨⟨"http", "/a", some "x"⟩, 7 / 2⟩ ⟨⟨"http", "/a", some "x"⟩, 23 / 2⟩ (rateLimitedBody 8) 8
    (by decide +kernel) (by unfold InTime; decide +kernel) (by decide +kernel) (by decide +kernel)
    (by decide +kernel) (by unfold Reading; decide +kernel) (by norm_num)).1
    (by unfold elapsed; decide +kernel)

/-! ### Memory -/

/-- **The queues hold recent admissions only.**  After a counted request every entry
belongs to a client of its own, is not empty and holds at most `requests` times, all of
them admissions of that client less than two windows old.  So there are never more
entries than admissions in the last two windows. -/
theorem hits_recent (hclock : InTime (rs ++ [r])) (hstart : ∀ x ∈ rs ++ [r], 0 ≤ x.now)
    (hcounts : (create requests windowSeconds).Counts r.scope) :
    (∀ b ∈ ((create requests windowSeconds).after (rs ++ [r])).hits,
        b.2 ≠ [] ∧ (b.2.length : Int) ≤ requests ∧
          ∀ t ∈ b.2, r.now - 2 * windowSeconds < t ∧
            (b.1, t) ∈ (create requests windowSeconds).admissions (rs ++ [r])) ∧
      ((create requests windowSeconds).after (rs ++ [r])).hits.length ≤
        (((create requests windowSeconds).admissions (rs ++ [r])).filter fun p =>
          decide (r.now - 2 * windowSeconds < p.2)).length := by
  obtain ⟨hbefore, hlast⟩ := InTime.last hclock
  have htracks := @tracks_after requests windowSeconds _ _ hclock
  have hnew : (create requests windowSeconds).Tidy 0 :=
    ⟨fun b hb => (List.not_mem_nil hb).elim, le_rfl⟩
  have htidy : ((create requests windowSeconds).after rs).Tidy r.now :=
    hnew.run (tracks_create requests windowSeconds 0) hbefore
      (fun x hx => hstart x (List.mem_append_left _ hx)) hlast (hstart r (by simp))
  obtain ⟨hrequests, hwindow⟩ := @settings_after requests windowSeconds rs
  obtain ⟨hrequests', hwindow'⟩ := step_frame ((create requests windowSeconds).after rs) r
  obtain ⟨hend, hswept⟩ := htidy.step_counted htracks (counts_after.mpr hcounts) le_rfl
  have htracks' := htracks.step r le_rfl
  have hafter : (create requests windowSeconds).after (rs ++ [r]) =
      ((create requests windowSeconds).after rs).step r := by
    rw [after_append]
    rfl
  have hlog : (create requests windowSeconds).admissions (rs ++ [r]) =
      (create requests windowSeconds).admissions rs ++
        ((create requests windowSeconds).after rs).admission r := by
    rw [admissions_append]
    exact congrArg _ (List.append_nil _)
  rw [← hlog] at htracks'
  rw [hafter]
  have hentries : ∀ b ∈ (((create requests windowSeconds).after rs).step r).hits,
      b.2 ≠ [] ∧ (b.2.length : Int) ≤ requests ∧ ∀ t ∈ b.2, r.now - 2 * windowSeconds < t ∧
        (b.1, t) ∈ (create requests windowSeconds).admissions (rs ++ [r]) := by
    intro b hb
    obtain ⟨hne, hlength, hrecent⟩ := hend.entries b hb
    rw [hrequests', hrequests] at hlength
    refine ⟨hne, hlength, ?_⟩
    intro t ht
    have hage := hrecent t ht
    rw [hwindow', hwindow] at hage
    rw [hwindow] at hswept
    obtain ⟨c, -, hqueue⟩ := htracks'.queue b.1
    rw [queue_eq_of_mem htracks'.keys hb] at hqueue
    rw [hqueue] at ht
    exact ⟨by linarith, mem_timesOf.mp (mem_of_mem_pruned ht)⟩
  refine ⟨hentries, ?_⟩
  -- each entry names a recent admission of its own client
  have hsubset : (((create requests windowSeconds).after rs).step r).hits.map Prod.fst ⊆
      (((create requests windowSeconds).admissions (rs ++ [r])).filter fun p =>
        decide (r.now - 2 * windowSeconds < p.2)).map Prod.fst := by
    intro ip hip
    obtain ⟨b, hb, rfl⟩ := List.mem_map.mp hip
    obtain ⟨hne, -, hrecent⟩ := hentries b hb
    obtain ⟨t, ht⟩ := List.exists_mem_of_ne_nil _ hne
    obtain ⟨hage, hadmitted⟩ := hrecent t ht
    exact List.mem_map.mpr ⟨(b.1, t), List.mem_filter.mpr ⟨hadmitted, by simpa using hage⟩, rfl⟩
  have hle := (List.subperm_of_subset htracks'.keys hsubset).length_le
  rw [List.length_map, List.length_map] at hle
  exact hle

theorem hits_recent_two :
    ((create 1 10).after ([⟨⟨"http", "/a", some "x"⟩, 1⟩] ++ [⟨⟨"http", "/a", some "y"⟩, 2⟩])).hits.length ≤
      (((create 1 10).admissions ([⟨⟨"http", "/a", some "x"⟩, 1⟩] ++
        [⟨⟨"http", "/a", some "y"⟩, 2⟩])).filter fun p => decide ((2 : ℚ) - 2 * (10 : Int) < p.2)).length :=
  (@hits_recent 1 10 [⟨⟨"http", "/a", some "x"⟩, 1⟩] ⟨⟨"http", "/a", some "y"⟩, 2⟩
    (by unfold InTime; decide +kernel) (by decide +kernel) (by decide +kernel)).2

end Results

end RateLimiter

end Atlas
