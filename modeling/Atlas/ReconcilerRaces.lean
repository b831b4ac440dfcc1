import Atlas.ReconcilerAlone
import Atlas.System

/-!
# The reconciler among concurrent curators

Other transactions may commit between any two accesses of the reconciler to the
conflict table.  What the proofs need of them is little: they change no row this
transaction has locked, every change raises the row's version, and an OPEN row
is only found RESOLVED after one of them resolved it.

`Advances own σ σ'` says that a session moved on: rows of the fields in `own`
may have been written by the transaction itself, the rows of all other fields
only by others.  A row that was read at the start of detection is therefore
*tracked* until its field's turn comes, and the version check of a write either
finds it as it was read or sends the loop back to read it again.

The result is that a disagreement is recorded, or that another transaction
resolved the field's conflict while detection was running.
-/

namespace Atlas

open Outcome Rows

/-- The primary key of the conflict table, and identifiers yet to be given. -/
structure Db.ConflictKeys (s : Db) : Prop where
  unique : Unique ClaimConflict.id s.conflicts
  fresh : ∀ c ∈ s.conflicts, c.id < s.nextId

/-- The change resolves the conflict. -/
def ForeignChange.Resolves (change : ForeignChange) (id : Uuid) : Prop :=
  change.conflictId = id ∧ ∃ w, change.kind = .resolve w

namespace Session

open Db

/-! ## How a session moves on -/

/-- The commits of others since an earlier moment. -/
def since (σ₀ σ : Session) : List ForeignChange := σ.committed.drop σ₀.committed.length

theorem since_trans {σ₀ σ σ' : Session} (h : σ₀.committed <+: σ.committed)
    (h' : σ.committed <+: σ'.committed) : since σ₀ σ' = since σ₀ σ ++ since σ σ' := by
  obtain ⟨xs, hxs⟩ := h
  obtain ⟨ys, hys⟩ := h'
  unfold since
  rw [← hys, ← hxs]
  simp [List.append_assoc]

/-- A later state of a conflict row that only others changed, given what they
committed. -/
structure Follows (commits : List ForeignChange) (c c' : ClaimConflict) : Prop where
  id : c'.id = c.id
  eventId : c'.eventId = c.eventId
  fieldName : c'.fieldName = c.fieldName
  version : c' = c ∨ c.version < c'.version
  resolved : c.status = .open → c'.status ≠ .open → ∃ change ∈ commits, change.Resolves c.id

theorem Follows.refl (commits : List ForeignChange) (c : ClaimConflict) : Follows commits c c :=
  ⟨rfl, rfl, rfl, .inl rfl, fun h h' => absurd h h'⟩

theorem Follows.trans {xs ys : List ForeignChange} {a b c : ClaimConflict} (h : Follows xs a b)
    (h' : Follows ys b c) : Follows (xs ++ ys) a c := by
  refine ⟨h'.id.trans h.id, h'.eventId.trans h.eventId, h'.fieldName.trans h.fieldName, ?_, ?_⟩
  · rcases h.version with rfl | hlt
    · exact h'.version
    · rcases h'.version with rfl | hlt'
      · exact .inr hlt
      · exact .inr (hlt.trans hlt')
  · intro hopen hclosed
    by_cases hb : b.status = .open
    · obtain ⟨change, hmem, hres⟩ := h'.resolved hb hclosed
      exact ⟨change, List.mem_append_right xs hmem, h.id ▸ hres⟩
    · obtain ⟨change, hmem, hres⟩ := h.resolved hopen hb
      exact ⟨change, List.mem_append_left ys hmem, hres⟩

/-- The session moved on, and the transaction itself wrote only conflict rows of
the fields in `own`. -/
structure Advances (own : List String) (σ σ' : Session) : Prop where
  keys : σ.db.ConflictKeys → σ'.db.ConflictKeys
  links : ∀ l ∈ σ.db.conflictClaims, l ∈ σ'.db.conflictClaims
  locked : ∀ i ∈ σ.locked, i ∈ σ'.locked
  committed : σ.committed <+: σ'.committed
  rows : ∀ c ∈ σ.db.conflicts, ∃ c' ∈ σ'.db.conflicts,
    c'.id = c.id ∧ c'.eventId = c.eventId ∧ c'.fieldName = c.fieldName
  others : ∀ c ∈ σ.db.conflicts, c.fieldName ∉ own →
    ∃ c' ∈ σ'.db.conflicts, Follows (since σ σ') c c' ∧ (c.id ∈ σ.locked → c' = c)

section Advances

variable {own own' : List String} {σ₀ σ σ' σ'' : Session}

theorem Advances.refl (own : List String) (σ : Session) : Advances own σ σ :=
  ⟨fun h => h, fun _ h => h, fun _ h => h, List.prefix_refl _,
    fun c hc => ⟨c, hc, rfl, rfl, rfl⟩,
    fun c hc _ => ⟨c, hc, Follows.refl _ c, fun _ => rfl⟩⟩

theorem Advances.trans (h : Advances own σ σ') (h' : Advances own' σ' σ'') :
    Advances (own ++ own') σ σ'' := by
  refine ⟨fun hk => h'.keys (h.keys hk), fun l hl => h'.links l (h.links l hl),
    fun i hi => h'.locked i (h.locked i hi), h.committed.trans h'.committed, ?_, ?_⟩
  · intro c hc
    obtain ⟨c₁, hc₁, hid₁, he₁, hf₁⟩ := h.rows c hc
    obtain ⟨c₂, hc₂, hid₂, he₂, hf₂⟩ := h'.rows c₁ hc₁
    exact ⟨c₂, hc₂, hid₂.trans hid₁, he₂.trans he₁, hf₂.trans hf₁⟩
  · intro c hc hown
    rw [List.mem_append, not_or] at hown
    obtain ⟨c₁, hc₁, hfol₁, hlock₁⟩ := h.others c hc hown.1
    obtain ⟨c₂, hc₂, hfol₂, hlock₂⟩ := h'.others c₁ hc₁ (by rw [hfol₁.fieldName]; exact hown.2)
    refine ⟨c₂, hc₂, ?_, ?_⟩
    · rw [since_trans h.committed h'.committed]
      exact hfol₁.trans hfol₂
    · intro hlocked
      rw [hlock₂ (by rw [hfol₁.id]; exact h.locked c.id hlocked), hlock₁ hlocked]

theorem Advances.mono (h : Advances own σ σ') (hsub : own ⊆ own') : Advances own' σ σ' :=
  { h with others := fun c hc hown => h.others c hc (fun hmem => hown (hsub hmem)) }

/-- Two moves of the same scope are one. -/
theorem Advances.step (h : Advances own σ σ') (h' : Advances own σ' σ'') : Advances own σ σ'' :=
  (h.trans h').mono (by simp)

/-! ## Commits of others -/

theorem advances_commitForeign (σ : Session) (change : ForeignChange) :
    Advances [] σ (σ.commitForeign change) := by
  unfold commitForeign
  split
  · exact Advances.refl [] σ
  · rename_i c hget
    have hcid : c.id = change.conflictId := (getConflict_some hget).2
    split
    · rename_i hallows
      unfold allows at hallows
      rw [Bool.and_eq_true, decide_eq_true_eq] at hallows
      obtain ⟨hunlocked, hkind⟩ := hallows
      have hfollows : ∀ d, d.id = c.id → Follows [change] d (foreignRow change.kind d) := by
        intro d hd
        cases hk : change.kind with
        | bump => exact ⟨rfl, rfl, rfl, .inr (Nat.lt_succ_self _), fun h h' => absurd h h'⟩
        | resolve w =>
            exact ⟨rfl, rfl, rfl, .inr (Nat.lt_succ_self _), fun _ _ =>
              ⟨change, by simp, by rw [hd, hcid], w, hk⟩⟩
        | reopen => exact ⟨rfl, rfl, rfl, .inr (Nat.lt_succ_self _), fun _ h' => absurd rfl h'⟩
      have hid : ∀ d, (foreignRow change.kind d).id = d.id := by
        intro d
        cases change.kind <;> rfl
      have hrow : ∀ d ∈ σ.db.conflicts, ∃ d' ∈ updateWhere (fun d => decide (d.id = c.id))
          (foreignRow change.kind) σ.db.conflicts,
          Follows [change] d d' ∧ (d.id ∈ σ.locked → d' = d) := by
        intro d hd
        by_cases heq : d.id = c.id
        · exact ⟨foreignRow change.kind d, mem_updateWhere.mpr ⟨d, hd, by simp [heq]⟩,
            hfollows d heq, fun hlocked => absurd (heq ▸ hlocked) hunlocked⟩
        · exact ⟨d, mem_updateWhere.mpr ⟨d, hd, by simp [heq]⟩, Follows.refl _ d, fun _ => rfl⟩
      refine ⟨fun hkeys => ⟨hkeys.unique.updateWhere hid, ?_⟩, fun l hl => hl, fun i hi => hi,
        List.prefix_append _ _, ?_, ?_⟩
      · intro d' hd'
        obtain ⟨d, hd, rfl⟩ := mem_updateWhere.mp hd'
        split
        · rw [hid]
          exact hkeys.fresh d hd
        · exact hkeys.fresh d hd
      · intro d hd
        obtain ⟨d', hd', hfol, -⟩ := hrow d hd
        exact ⟨d', hd', hfol.id, hfol.eventId, hfol.fieldName⟩
      · intro d hd _
        obtain ⟨d', hd', hfol, hlock⟩ := hrow d hd
        refine ⟨d', hd', ?_, hlock⟩
        simpa [since] using hfol
    · exact Advances.refl [] σ

theorem advances_commits (changes : List ForeignChange) (σ : Session) :
    Advances [] σ (changes.foldl commitForeign σ) := by
  induction changes generalizing σ with
  | nil => exact Advances.refl [] σ
  | cons change changes ih =>
      rw [List.foldl_cons]
      exact (advances_commitForeign σ change).step (ih _)

theorem advances_tick (σ : Session) : Advances [] σ σ.tick := by
  unfold tick
  cases hs : σ.schedule with
  | nil => exact Advances.refl [] σ
  | cons changes rest =>
      have h := advances_commits changes { σ with schedule := rest }
      exact ⟨h.keys, h.links, h.locked, h.committed, h.rows, h.others⟩

/-- Others add no conflict row and draw no identifier of this transaction. -/
def SameIds (s s' : Db) : Prop :=
  s'.conflicts.map ClaimConflict.id = s.conflicts.map ClaimConflict.id ∧ s'.nextId = s.nextId

theorem commitForeign_ids (σ : Session) (change : ForeignChange) :
    SameIds σ.db (σ.commitForeign change).db := by
  unfold commitForeign
  split
  · exact ⟨rfl, rfl⟩
  · split
    · refine ⟨map_updateWhere ClaimConflict.id ?_, rfl⟩
      intro d
      cases change.kind <;> rfl
    · exact ⟨rfl, rfl⟩

theorem commits_ids (changes : List ForeignChange) (σ : Session) :
    SameIds σ.db (changes.foldl commitForeign σ).db := by
  induction changes generalizing σ with
  | nil => exact ⟨rfl, rfl⟩
  | cons change changes ih =>
      have hone := commitForeign_ids σ change
      have hrest := ih (σ.commitForeign change)
      exact ⟨hrest.1.trans hone.1, hrest.2.trans hone.2⟩

theorem tick_ids (σ : Session) : SameIds σ.db σ.tick.db := by
  unfold tick
  cases σ.schedule with
  | nil => exact ⟨rfl, rfl⟩
  | cons changes rest => exact commits_ids changes { σ with schedule := rest }

theorem advances_linkAndLog (σ : Session) (actor : Actor) (conflictId eventId : Uuid)
    (ids : List Uuid) (fromStatus : Option ConflictStatus) (toStatus : ConflictStatus)
    (reason : String) (version : Nat) :
    Advances [] σ (σ.linkAndLog actor conflictId eventId ids fromStatus toStatus reason version) :=
  ⟨fun hk => ⟨hk.unique, hk.fresh⟩, fun _ hl => mem_foldl_insertKey.mpr (.inl hl), fun _ hi => hi,
    List.prefix_refl _, fun c hc => ⟨c, hc, rfl, rfl, rfl⟩,
    fun c hc _ => ⟨c, hc, Follows.refl _ c, fun _ => rfl⟩⟩

end Advances

/-! ## Recorded, or resolved by another -/

/-- The field has an OPEN conflict that links the claims, locked by this
transaction. -/
def Settled (σ : Session) (e : Uuid) (f : String) (ids : List Uuid) : Prop :=
  ∃ c ∈ σ.db.conflicts, c.eventId = e ∧ c.fieldName = f ∧ c.status = .open ∧ c.id ∈ σ.locked ∧
    ∀ k ∈ ids, (c.id, k) ∈ σ.db.conflictClaims

/-- Another transaction has resolved a conflict of the field since `σ₀`. -/
def ResolvedByOther (σ₀ σ : Session) (e : Uuid) (f : String) : Prop :=
  ∃ change ∈ since σ₀ σ, ∃ c ∈ σ.db.conflicts,
    change.Resolves c.id ∧ c.eventId = e ∧ c.fieldName = f

def Handled (σ₀ σ : Session) (e : Uuid) (f : String) (ids : List Uuid) : Prop :=
  Settled σ e f ids ∨ ResolvedByOther σ₀ σ e f

/-- The row read as `c` since `σ₀` is still there, and only others may have
changed it. -/
structure Tracked (σ₀ : Session) (c : ClaimConflict) (σ : Session) : Prop where
  committed : σ₀.committed <+: σ.committed
  row : ∃ c' ∈ σ.db.conflicts, Follows (since σ₀ σ) c c'

section Tracked

variable {own : List String} {σ₀ σ σ' : Session} {actor : Actor} {c : ClaimConflict}
  {e : Uuid} {f : String} {ids : List Uuid}

theorem Tracked.advance (h : Tracked σ₀ c σ) (hadv : Advances own σ σ') (hf : c.fieldName ∉ own) :
    Tracked σ₀ c σ' := by
  obtain ⟨c₁, hc₁, hfol₁⟩ := h.row
  obtain ⟨c₂, hc₂, hfol₂, -⟩ := hadv.others c₁ hc₁ (by rw [hfol₁.fieldName]; exact hf)
  refine ⟨h.committed.trans hadv.committed, c₂, hc₂, ?_⟩
  rw [since_trans h.committed hadv.committed]
  exact hfol₁.trans hfol₂

/-- What was handled stays handled while the transaction writes other fields. -/
theorem Handled.advance (h : Handled σ₀ σ e f ids) (hbase : σ₀.committed <+: σ.committed)
    (hadv : Advances own σ σ') (hf : f ∉ own) : Handled σ₀ σ' e f ids := by
  rcases h with ⟨c, hc, hce, hcf, hopen, hlocked, hlinks⟩ | ⟨change, hchange, c, hc, hres, hce, hcf⟩
  · obtain ⟨c', hc', -, hsame⟩ := hadv.others c hc (by rw [hcf]; exact hf)
    rw [hsame hlocked] at hc'
    exact .inl ⟨c, hc', hce, hcf, hopen, hadv.locked c.id hlocked,
      fun k hk => hadv.links _ (hlinks k hk)⟩
  · obtain ⟨c', hc', hid, he', hf'⟩ := hadv.rows c hc
    refine .inr ⟨change, ?_, c', hc', hid ▸ hres, he'.trans hce, hf'.trans hcf⟩
    rw [since_trans hbase hadv.committed]
    exact List.mem_append_left _ hchange

/-- **A version-checked write.**  It rewrites and locks the row as it was read,
or the row has moved on. -/
theorem update_races (hkeys : σ.db.ConflictKeys) (htracked : Tracked σ₀ c σ)
    {g : ClaimConflict → ClaimConflict} (hg : KeepsConflict g) {u : Option ClaimConflict}
    (h : σ.updateWithVersionCheck c.id c.version g = .ok (u, σ')) :
    Advances [c.fieldName] σ σ' ∧
      ((∃ v, u = some v) ∧ bumped g c ∈ σ'.db.conflicts ∧ c.id ∈ σ'.locked ∨
        u = none ∧ Tracked σ₀ c σ') := by
  unfold Session.updateWithVersionCheck at h
  simp only [bind_ok, pure_ok, Prod.exists, Prod.mk.injEq] at h
  obtain ⟨u', db', hupd, rfl, rfl⟩ := h
  have hticked := htracked.advance (advances_tick σ) (by simp)
  have hadv := (advances_tick σ).mono (List.nil_subset [c.fieldName])
  obtain ⟨c', hc', hfol⟩ := hticked.row
  unfold Db.updateWithVersionCheck at hupd
  split at hupd
  · -- no row has the version that was read
    simp only [Except.ok.injEq, Prod.mk.injEq] at hupd
    obtain ⟨rfl, rfl⟩ := hupd
    exact ⟨hadv, .inr ⟨rfl, hticked⟩⟩
  · rename_i d hfind
    have hd := List.find?_some hfind
    simp only [decide_eq_true_eq] at hd
    -- the matching row is the tracked one, and with that version it has not moved
    have hdmem := List.mem_of_find?_eq_some hfind
    have hdc : d = c := by
      have heq := (hadv.keys hkeys).unique.eq_of_key hdmem hc' (hd.1.trans hfol.id.symm)
      rcases hfol.version with hsame | hlt
      · exact heq.trans hsame
      · exact absurd (heq ▸ hd.2) (Nat.ne_of_gt hlt)
    subst hdc
    dsimp only at hupd
    split at hupd
    · cases hupd
    · simp only [Except.ok.injEq, Prod.mk.injEq] at hupd
      obtain ⟨rfl, rfl⟩ := hupd
      refine ⟨hadv.step ⟨?_, fun l hl => hl, fun i hi => List.mem_cons_of_mem d.id hi,
        List.prefix_refl _, ?_, ?_⟩, .inl ⟨⟨_, rfl⟩, ?_, by simp⟩⟩
      · intro hk
        refine ⟨hk.unique.updateWhere fun r => hg.id r, ?_⟩
        intro r' hr'
        obtain ⟨r, hr, rfl⟩ := mem_updateWhere.mp hr'
        split
        · rw [show ({ g r with version := r.version + 1 } : ClaimConflict).id = r.id from hg.id r]
          exact hk.fresh r hr
        · exact hk.fresh r hr
      · intro r hr
        refine ⟨_, mem_updateWhere.mpr ⟨r, hr, rfl⟩, ?_⟩
        split
        · exact ⟨hg.id r, hg.eventId r, hg.fieldName r⟩
        · exact ⟨rfl, rfl, rfl⟩
      · intro r hr hrf
        have hne : r.id ≠ d.id := by
          intro heq
          rw [(hadv.keys hkeys).unique.eq_of_key hr hdmem heq] at hrf
          simp at hrf
        exact ⟨r, mem_updateWhere.mpr ⟨r, hr, by simp [hne]⟩, Follows.refl _ r, fun _ => rfl⟩
      · exact mem_updateWhere.mpr ⟨d, hdmem, by simp [bumped]⟩

/-- Reading a tracked row again finds it. -/
theorem getConflict_races (hkeys : σ.db.ConflictKeys) (htracked : Tracked σ₀ c σ) :
    Advances [] σ (σ.getConflict c.id).2 ∧
      ∃ r, (σ.getConflict c.id).1 = some r ∧ r ∈ (σ.getConflict c.id).2.db.conflicts ∧
        Follows (since σ₀ (σ.getConflict c.id).2) c r ∧ Tracked σ₀ r (σ.getConflict c.id).2 := by
  have hadv := advances_tick σ
  have hticked := htracked.advance hadv (by simp)
  obtain ⟨r, hr, hfol⟩ := hticked.row
  refine ⟨hadv, r, ?_, hr, hfol, hticked.committed, r, hr, Follows.refl _ r⟩
  have := (hadv.keys hkeys).unique.lookup_eq hr
  rw [hfol.id] at this
  exact this

/-- Once the fenced write of an OPEN row went through, the links settle it. -/
theorem settled_linkAndLog (hrow : ∃ d ∈ σ.db.conflicts, d.id = c.id ∧ d.eventId = e ∧
      d.fieldName = f ∧ d.status = .open) (hlocked : c.id ∈ σ.locked)
    {fromStatus : Option ConflictStatus} {toStatus : ConflictStatus} {reason : String}
    {version : Nat} :
    Settled (σ.linkAndLog actor c.id c.eventId ids fromStatus toStatus reason version) e f ids := by
  obtain ⟨d, hd, hid, hde, hdf, hopen⟩ := hrow
  refine ⟨d, hd, hde, hdf, hopen, by rw [hid]; exact hlocked, ?_⟩
  intro k hk
  rw [hid]
  exact mem_foldl_insertKey.mpr (.inr (List.mem_map.mpr ⟨k, hk, rfl⟩))

/-! ## The retry loops -/

theorem mergeEvidenceLoop_races {logReason : String} (fuel : Nat) (hkeys : σ.db.ConflictKeys)
    (htracked : Tracked σ₀ c σ) (hopen : c.status = .open)
    (h : mergeEvidenceLoop actor ids logReason fuel c σ = .ok σ') :
    Advances [c.fieldName] σ σ' ∧ Handled σ₀ σ' c.eventId c.fieldName ids := by
  induction fuel generalizing c σ with
  | zero => cases h
  | succ fuel ih =>
      simp only [mergeEvidenceLoop, bind_ok, Prod.exists] at h
      obtain ⟨u, σ₁, hupd, h⟩ := h
      obtain ⟨hadv, hcase⟩ := update_races hkeys htracked (keepsConflict_evidenceMerged actor.now)
        hupd
      rcases hcase with ⟨⟨v, rfl⟩, hrow, hlocked⟩ | ⟨rfl, htracked₁⟩
      · rw [pure_ok] at h
        subst h
        refine ⟨hadv.step ((advances_linkAndLog ..).mono (List.nil_subset _)), .inl ?_⟩
        exact settled_linkAndLog ⟨_, hrow, rfl, rfl, rfl, hopen⟩ hlocked
      · obtain ⟨hadv₂, r, hget, hr, hfol, hr₂⟩ := getConflict_races (hadv.keys hkeys) htracked₁
        have hadv₁₂ := hadv.step (hadv₂.mono (List.nil_subset [c.fieldName]))
        simp only [hget] at h
        split at h
        · -- resolved meanwhile: the evidence is deferred
          rename_i hclosed
          rw [pure_ok] at h
          subst h
          obtain ⟨change, hchange, hres⟩ := hfol.resolved hopen hclosed
          exact ⟨hadv₁₂, .inr ⟨change, hchange, r, hr, hfol.id ▸ hres, hfol.eventId,
            hfol.fieldName⟩⟩
        · rename_i hstill
          obtain ⟨hadv₃, hhandled⟩ := ih (hadv₁₂.keys hkeys) hr₂ (not_not.mp hstill) h
          rw [hfol.fieldName] at hadv₃
          rw [hfol.eventId, hfol.fieldName] at hhandled
          exact ⟨hadv₁₂.step hadv₃, hhandled⟩

theorem reopenLoop_races (fuel : Nat) (hkeys : σ.db.ConflictKeys) (htracked : Tracked σ₀ c σ)
    (h : reopenLoop actor ids fuel c σ = .ok σ') :
    Advances [c.fieldName] σ σ' ∧ Handled σ₀ σ' c.eventId c.fieldName ids := by
  induction fuel generalizing c σ with
  | zero => cases h
  | succ fuel ih =>
      simp only [reopenLoop, bind_ok, Prod.exists] at h
      obtain ⟨u, σ₁, hupd, h⟩ := h
      obtain ⟨hadv, hcase⟩ := update_races hkeys htracked
        (keepsConflict_reopenedForEvidence actor.now) hupd
      rcases hcase with ⟨⟨v, rfl⟩, hrow, hlocked⟩ | ⟨rfl, htracked₁⟩
      · rw [pure_ok] at h
        subst h
        refine ⟨hadv.step ((advances_linkAndLog ..).mono (List.nil_subset _)), .inl ?_⟩
        exact settled_linkAndLog ⟨_, hrow, rfl, rfl, rfl, rfl⟩ hlocked
      · obtain ⟨hadv₂, r, hget, hr, hfol, hr₂⟩ := getConflict_races (hadv.keys hkeys) htracked₁
        have hadv₁₂ := hadv.step (hadv₂.mono (List.nil_subset [c.fieldName]))
        simp only [hget] at h
        rw [← hfol.fieldName] at hadv₁₂
        rw [← hfol.eventId, ← hfol.fieldName]
        split at h
        · rename_i hreopened
          obtain ⟨hadv₃, hhandled⟩ := mergeEvidenceLoop_races maxVersionRetry (hadv₁₂.keys hkeys)
            hr₂ hreopened h
          exact ⟨hadv₁₂.step hadv₃, hhandled⟩
        · obtain ⟨hadv₃, hhandled⟩ := ih (hadv₁₂.keys hkeys) hr₂ h
          exact ⟨hadv₁₂.step hadv₃, hhandled⟩

/-- Inserting an OPEN row under a new identifier: it is there and locked, or an
OPEN row of the field stands in the way. -/
theorem tryAddOpen_races (hnew : ∀ x ∈ σ.db.conflicts, x.id ≠ c.id) (hlt : c.id < σ.db.nextId) :
    Advances [c.fieldName] σ (σ.tryAddOpen c).2 ∧
      ((σ.tryAddOpen c).1 = true ∧ c ∈ (σ.tryAddOpen c).2.db.conflicts ∧
          c.id ∈ (σ.tryAddOpen c).2.locked ∨
        (σ.tryAddOpen c).1 = false ∧ ∃ d ∈ (σ.tryAddOpen c).2.db.conflicts,
          d.eventId = c.eventId ∧ d.fieldName = c.fieldName ∧ d.status = .open) := by
  have hadv := (advances_tick σ).mono (List.nil_subset [c.fieldName])
  obtain ⟨hids, hnext⟩ := tick_ids σ
  unfold Session.tryAddOpen Db.tryAddOpen
  generalize σ.tick = σ₁ at *
  dsimp only
  cases hfind : σ₁.db.findOpenByEventField c.eventId c.fieldName with
  | some d =>
      have hd := List.find?_some hfind
      simp only [decide_eq_true_eq] at hd
      dsimp only
      exact ⟨hadv, .inr ⟨rfl, d, List.mem_of_find?_eq_some hfind, hd⟩⟩
  | none =>
      have hnew₁ : ∀ x ∈ σ₁.db.conflicts, x.id ≠ c.id := by
        intro x hx
        have hx' : x.id ∈ σ.db.conflicts.map ClaimConflict.id := hids ▸ List.mem_map_of_mem hx
        obtain ⟨y, hy, hyx⟩ := List.mem_map.mp hx'
        exact hyx ▸ hnew y hy
      dsimp only
      refine ⟨hadv.step ⟨?_, fun _ hl => hl, fun _ hi => List.mem_cons_of_mem c.id hi,
        List.prefix_refl _, ?_, ?_⟩, .inl ⟨rfl, by simp, by simp⟩⟩
      · intro hk
        refine ⟨hk.unique.append_single hnew₁, ?_⟩
        intro x hx
        rcases List.mem_append.mp hx with hx | hx
        · exact hk.fresh x hx
        · rw [List.mem_singleton.mp hx]
          exact hnext ▸ hlt
      · intro x hx
        exact ⟨x, List.mem_append_left _ hx, rfl, rfl, rfl⟩
      · intro x hx _
        exact ⟨x, List.mem_append_left _ hx, Follows.refl _ x, fun _ => rfl⟩

theorem advances_uuid4 (σ : Session) : Advances [] σ { σ with db := σ.db.uuid4.2 } :=
  ⟨fun hk => ⟨hk.unique, fun c hc => (hk.fresh c hc).trans (Nat.lt_succ_self _)⟩, fun _ hl => hl,
    fun _ hi => hi, List.prefix_refl _, fun c hc => ⟨c, hc, rfl, rfl, rfl⟩,
    fun c hc _ => ⟨c, hc, Follows.refl _ c, fun _ => rfl⟩⟩

/-- Inserting a conflict, or merging into the one that stands in the way. -/
theorem openNew_races {p : PotentialConflict} (hkeys : σ.db.ConflictKeys)
    (hbase : σ₀.committed <+: σ.committed) (h : σ.openNewConflict actor p = .ok σ') :
    Advances [p.fieldName] σ σ' ∧ Handled σ₀ σ' p.eventId p.fieldName p.claimIds := by
  have hdraw := (advances_uuid4 σ).mono (List.nil_subset [p.fieldName])
  obtain ⟨hadd, hcase⟩ := tryAddOpen_races (σ := { σ with db := σ.db.uuid4.2 })
    (c := newConflictRow σ.db.nextId p actor.now)
    (fun x hx => Nat.ne_of_lt (hkeys.fresh x hx)) (Nat.lt_succ_self _)
  have hadv := hdraw.step hadd
  unfold openNewConflict at h
  rw [show σ.db.uuid4 = (σ.db.nextId, σ.db.uuid4.2) from rfl] at h
  dsimp only at h
  generalize Session.tryAddOpen { σ with db := σ.db.uuid4.2 }
    (newConflictRow σ.db.nextId p actor.now) = added at h hadd hcase hadv
  obtain ⟨inserted, σ₁⟩ := added
  rcases hcase with ⟨rfl, hrow, hlocked⟩ | ⟨rfl, d, hd, hde, hdf, hdopen⟩
  · simp only [if_true, pure_ok] at h
    subst h
    refine ⟨hadv.step ((advances_linkAndLog ..).mono (List.nil_subset _)), .inl ?_⟩
    exact settled_linkAndLog ⟨_, hrow, rfl, rfl, rfl, rfl⟩ hlocked
  · have htick := advances_tick σ₁
    have hadv₂ := hadv.step (htick.mono (List.nil_subset [p.fieldName]))
    have hbase₂ := hbase.trans hadv₂.committed
    simp only [Session.findOpenByEventField, Bool.false_eq_true, if_false] at h
    cases hfind : σ₁.tick.db.findOpenByEventField p.eventId p.fieldName with
    | some r =>
        have hr := List.find?_some hfind
        simp only [decide_eq_true_eq] at hr
        simp only [hfind] at h
        have hr₂ : Tracked σ₀ r σ₁.tick :=
          ⟨hbase₂, r, List.mem_of_find?_eq_some hfind, Follows.refl _ r⟩
        obtain ⟨hadv₃, hhandled⟩ := mergeEvidenceLoop_races maxVersionRetry (hadv₂.keys hkeys) hr₂
          hr.2.2 h
        rw [hr.1, hr.2.1] at hhandled
        rw [hr.2.1] at hadv₃
        exact ⟨hadv₂.step hadv₃, hhandled⟩
    | none =>
        -- the row that stood in the way was resolved before it was read
        simp only [hfind, pure_ok] at h
        subst h
        obtain ⟨d', hd', hfol, -⟩ := htick.others d hd (by simp)
        have hclosed : d'.status ≠ .open := by
          intro hopen
          have := List.find?_eq_none.mp hfind d' hd'
          simp only [decide_eq_true_eq] at this
          exact this ⟨hfol.eventId.trans hde, hfol.fieldName.trans hdf, hopen⟩
        obtain ⟨change, hchange, hres⟩ := hfol.resolved hdopen hclosed
        refine ⟨hadv₂, .inr ⟨change, ?_, d', hd', hfol.id ▸ hres, hfol.eventId.trans hde,
          hfol.fieldName.trans hdf⟩⟩
        rw [since_trans (hbase.trans hadv.committed) htick.committed]
        exact List.mem_append_right _ hchange

end Tracked

/-! ## Detection -/

section Detection

variable [PyText] {σ₀ σ σ' : Session} {actor : Actor} {e : Uuid}

/-- **One detected field.** -/
theorem applyPotential_races {s : Db} {existing : List ClaimConflict} {p : PotentialConflict}
    (hpe : p.eventId = e)
    (hids : p.claimIds = (s.findActiveByEventField e p.fieldName).map Claim.id)
    (hkeys : σ.db.ConflictKeys) (hbase : σ₀.committed <+: σ.committed)
    (hrows : ∀ c ∈ existing, c.fieldName = p.fieldName → c.eventId = e ∧ Tracked σ₀ c σ)
    (h : applyPotential actor (s.findActiveByEvent e) existing σ p = .ok σ') :
    Advances [p.fieldName] σ σ' ∧ Handled σ₀ σ' e p.fieldName p.claimIds := by
  unfold applyPotential at h
  dsimp only at h
  split at h
  · rename_i c hlast
    have hc := List.mem_of_getLast? hlast
    rw [List.mem_filter, decide_eq_true_eq] at hc
    obtain ⟨hmem, hopen, hcf⟩ := hc
    obtain ⟨hce, htracked⟩ := hrows c hmem hcf
    obtain ⟨hadv, hhandled⟩ := mergeEvidenceLoop_races maxVersionRetry hkeys htracked hopen h
    rw [hcf] at hadv
    rw [hce, hcf] at hhandled
    exact ⟨hadv, hhandled⟩
  · split at h
    · rename_i r hcontra
      obtain ⟨hmem, hrf, -⟩ := contradicted_some hcontra
      obtain ⟨hre, htracked⟩ := hrows r hmem hrf
      obtain ⟨hadv, hhandled⟩ := reopenLoop_races maxVersionRetry hkeys htracked h
      rw [filter_findActiveByEvent, ← hids, hre, hrf] at hhandled
      rw [hrf] at hadv
      exact ⟨hadv, hhandled⟩
    · obtain ⟨hadv, hhandled⟩ := openNew_races hkeys hbase h
      rw [hpe] at hhandled
      exact ⟨hadv, hhandled⟩

/-- **All detected fields.**  By induction on the loop: fields that had their
turn stay handled, and the rows of the others stay tracked, because each turn
writes rows of its own field only. -/
theorem applyAll_races {s : Db} {existing : List ClaimConflict} (ps : List PotentialConflict)
    (hps : ∀ p ∈ ps, p.eventId = e ∧
      p.claimIds = (s.findActiveByEventField e p.fieldName).map Claim.id)
    (hnodup : (ps.map PotentialConflict.fieldName).Nodup)
    (hkeys : σ.db.ConflictKeys) (hbase : σ₀.committed <+: σ.committed)
    (hrows : ∀ p ∈ ps, ∀ c ∈ existing, c.fieldName = p.fieldName → c.eventId = e ∧ Tracked σ₀ c σ)
    (h : ps.foldlM (applyPotential actor (s.findActiveByEvent e) existing) σ = .ok σ') :
    Advances (ps.map PotentialConflict.fieldName) σ σ' ∧
      ∀ p ∈ ps, Handled σ₀ σ' e p.fieldName p.claimIds := by
  induction ps generalizing σ with
  | nil =>
      rw [List.foldlM_nil, pure_ok] at h
      subst h
      exact ⟨Advances.refl [] σ, by simp⟩
  | cons p ps ih =>
      rw [List.foldlM_cons, bind_ok] at h
      obtain ⟨σ₁, hp, hrest⟩ := h
      obtain ⟨hpe, hids⟩ := hps p (by simp)
      obtain ⟨hadv, hhandled⟩ := applyPotential_races hpe hids hkeys hbase (hrows p (by simp)) hp
      rw [List.map_cons, List.nodup_cons] at hnodup
      have hbase₁ := hbase.trans hadv.committed
      have hrows₁ : ∀ q ∈ ps, ∀ c ∈ existing, c.fieldName = q.fieldName →
          c.eventId = e ∧ Tracked σ₀ c σ₁ := by
        intro q hq c hc hcf
        obtain ⟨hce, htracked⟩ := hrows q (List.mem_cons_of_mem p hq) c hc hcf
        refine ⟨hce, htracked.advance hadv ?_⟩
        rw [List.mem_singleton, hcf]
        intro heq
        exact hnodup.1 (heq ▸ List.mem_map_of_mem hq)
      obtain ⟨hadv', hall⟩ := ih (fun q hq => hps q (List.mem_cons_of_mem p hq)) hnodup.2
        (hadv.keys hkeys) hbase₁ hrows₁ hrest
      refine ⟨hadv.trans hadv', ?_⟩
      intro q hq
      rcases List.mem_cons.mp hq with rfl | hq
      · exact hhandled.advance hbase₁ hadv' hnodup.1
      · exact hall q hq

end Detection

section Races

variable [PyText]

/-- **No disagreement is lost silently.**  For every view of the tables and every
schedule of commits by others, when detection returns, each field whose active
claims disagree across two sources has an OPEN conflict that links all of them,
or another transaction resolved a conflict of that field after detection had
read the conflict rows. -/
theorem contested_field_open_or_resolved_by_other {σ σ' : Session} {actor : Actor} {e : Uuid}
    (hkeys : σ.db.ConflictKeys) (h : σ.detectAndApplyNewConflicts actor e = .ok σ') {f : String}
    (hf : σ.db.Contested e f) :
    σ'.db.OpenLinked e f ((σ.db.findActiveByEventField e f).map Claim.id) ∨
      ResolvedByOther σ.tick σ' e f := by
  have hfield := mem_contestedFields.mpr hf
  obtain ⟨p, hp, rfl⟩ := List.mem_map.mp hfield
  obtain ⟨-, -, hids⟩ := mem_detect_event.mp hp
  unfold detectAndApplyNewConflicts at h
  dsimp only at h
  rw [if_neg (List.ne_nil_of_mem hp)] at h
  have hadv := advances_tick σ
  have hread : ∀ q ∈ detect true (σ.db.findActiveByEvent e),
      ∀ c ∈ σ.tick.db.findConflictsByEvent e, c.fieldName = q.fieldName →
        c.eventId = e ∧ Tracked σ.tick c σ.tick := by
    intro q _ c hc _
    obtain ⟨hmem, hce⟩ := mem_findConflictsByEvent.mp hc
    exact ⟨hce, List.prefix_refl _, c, hmem, Follows.refl _ c⟩
  obtain ⟨-, hall⟩ := applyAll_races _
    (fun q hq => ⟨(mem_detect_event.mp hq).1, (mem_detect_event.mp hq).2.2⟩)
    (nodup_contestedFields σ.db e) (hadv.keys hkeys) (List.prefix_refl _) hread h
  rcases hall p hp with ⟨c, hc, hce, hcf, hopen, -, hlinks⟩ | hother
  · exact .inl ⟨c, hc, hce, hcf, hopen, hids ▸ hlinks⟩
  · exact .inr hother

end Races

end Session

instance (s : Db) (e : Uuid) (f : String) (ids : List Uuid) : Decidable (s.OpenLinked e f ids) := by
  unfold Db.OpenLinked
  infer_instance

/-- A curator resolves the conflict of two sources between detection's read of
the conflict rows and its write. -/
def resolvedDuringMerge : Session :=
  ⟨after fourSources twoSourcesDisagree, [], [[], [⟨10, .resolve 6⟩]], []⟩

theorem conflictKeys_resolvedDuringMerge : resolvedDuringMerge.db.ConflictKeys :=
  ⟨by unfold Rows.Unique; decide +kernel, by decide +kernel⟩

theorem contested_resolvedDuringMerge : resolvedDuringMerge.db.Contested 5 "operator" := by
  unfold Db.Contested MultiSource
  decide +kernel

theorem contested_field_open_or_resolved_by_other_curator :
    ∃ σ', resolvedDuringMerge.detectAndApplyNewConflicts ⟨.ingestion, none, 3⟩ 5 = .ok σ' ∧
      (σ'.db.OpenLinked 5 "operator" [6, 9] ∨
        Session.ResolvedByOther resolvedDuringMerge.tick σ' 5 "operator") := by
  obtain ⟨σ', hσ', -⟩ := exists_ok_of_any (P := fun _ => True)
    (x := resolvedDuringMerge.detectAndApplyNewConflicts ⟨.ingestion, none, 3⟩ 5)
    (by decide +kernel)
  have hids : (resolvedDuringMerge.db.findActiveByEventField 5 "operator").map Claim.id = [6, 9] := by
    decide +kernel
  exact ⟨σ', hσ', hids ▸ Session.contested_field_open_or_resolved_by_other
    conflictKeys_resolvedDuringMerge hσ' contested_resolvedDuringMerge⟩

/-- Detection defers to the curator and returns without an OPEN conflict. -/
theorem evidence_deferred_to_curator :
    ¬ ∀ (σ σ' : Session) (actor : Actor) (e : Uuid) (f : String), σ.db.ConflictKeys →
      σ.detectAndApplyNewConflicts actor e = .ok σ' → σ.db.Contested e f →
      σ'.db.OpenLinked e f ((σ.db.findActiveByEventField e f).map Claim.id) := by
  intro h
  obtain ⟨σ', hσ', hfails⟩ := exists_ok_of_any (P := fun σ' => ¬ σ'.db.OpenLinked 5 "operator"
      ((resolvedDuringMerge.db.findActiveByEventField 5 "operator").map Claim.id))
    (x := resolvedDuringMerge.detectAndApplyNewConflicts ⟨.ingestion, none, 3⟩ 5)
    (by decide +kernel)
  exact hfails (h _ σ' _ 5 "operator" conflictKeys_resolvedDuringMerge hσ'
    contested_resolvedDuringMerge)

end Atlas
