import Atlas.Conservation
import Atlas.Lib.Pointers

/-!
# No evidence vanishes

A claim that is superseded points at the claim that took its place.  Every
operation sets such a pointer on active claims only, and at a claim that is
active then; a reopening only takes pointers away.  So the pointers form a
forest whose roots are the active claims.

Along the merge pointers of the events the same evidence stays visible: where a
field of an event was ever claimed, the root of the event has an active claim of
the field.
-/

namespace Atlas

open Rows Pointers

namespace Db

/-- The claim is superseded by the other one. -/
def PointsTo (s : Db) (k a : Claim) : Prop := k.supersededBy = some a.id ∧ a ∈ s.claims

theorem pointsTo_unique {s : Db} (hwf : s.WellFormed) (k a b : Claim) (ha : s.PointsTo k a)
    (hb : s.PointsTo k b) : a = b := by
  have hid : a.id = b.id := Option.some.inj (ha.1.symm.trans hb.1)
  exact hwf.claimIds.eq_of_key ha.2 hb.2 hid

/-- The pointers from every claim end at an active claim of its field. -/
def Chained (s : Db) : Prop :=
  ∀ k ∈ s.claims, ∃ a ∈ s.claims, a.isActive = true ∧ a.fieldName = k.fieldName ∧
    EndsAt s.PointsTo k a

/-- The root of an event has an active claim of every field the event has a
claim of. -/
def Visible (s : Db) : Prop :=
  ∀ k ∈ s.claims, ∀ r, s.Root k.eventId r →
    ∃ a ∈ s.claims, a.eventId = r ∧ a.fieldName = k.fieldName ∧ a.isActive = true

/-- Every conflict is about claims. -/
def Grounded (s : Db) : Prop :=
  ∀ c ∈ s.conflicts, ∃ k ∈ s.claims, k.eventId = c.eventId ∧ k.fieldName = c.fieldName

/-- What may become of a claim. -/
inductive Continues (s s' : Db) (k k' : Claim) : Prop where
  | active (h : k'.isActive = true) (hlive : s.IsLive k.eventId → s'.IsLive k.eventId)
  | kept (h : k.isActive = false) (heq : k' = k)
  | superseded {a : Claim} (h : k.isActive = true) (ha : a ∈ s'.claims) (hactive : a.isActive = true)
      (hfield : a.fieldName = k.fieldName) (hpoints : k'.supersededBy = some a.id)
      (hroot : s.IsLive k.eventId → s'.Root k.eventId a.eventId)

/-- What an operation does to the claim table and the merge pointers. -/
structure Evolves (s s' : Db) : Prop where
  rows : ∃ f news, KeepsClaim f ∧ s'.claims = s.claims.map f ++ news ∧
    (∀ n ∈ news, n.isActive = true ∧ (s'.IsLive n.eventId ∨
      ∃ k ∈ s.claims, k.eventId = n.eventId ∧ k.fieldName = n.fieldName)) ∧
    ∀ k ∈ s.claims, Continues s s' k (f k)
  roots : ∀ x r r', s.Root x r → s'.Root x r' → s'.Root r r'

section Evolves

variable {s s' : Db}

theorem endsAt_of_active (hwf : s.WellFormed) {a : Claim} (ha : a ∈ s.claims)
    (hactive : a.isActive = true) : EndsAt s.PointsTo a a := by
  refine ⟨.refl, ?_⟩
  intro b hb
  have hfalse := (hwf.superseded a ha).mpr (by simp [hb.1])
  rw [hactive] at hfalse
  cases hfalse

/-- A pointer stays within a field, because both ends lead to one active claim. -/
theorem Chained.pointsTo_fieldName (hwf : s.WellFormed) (h : s.Chained) {x y : Claim}
    (hx : x ∈ s.claims) (hxy : s.PointsTo x y) : y.fieldName = x.fieldName := by
  obtain ⟨a, -, -, hax, hxa⟩ := h x hx
  obtain ⟨b, -, -, hby, hyb⟩ := h y hxy.2
  rw [← hax, ← hby, hxa.unique (pointsTo_unique hwf) (hyb.head hxy)]

/-- **The pointers stay a forest.**  By induction on the old chain: it is cut at
the first claim that is active now, or it goes on past an end that was
superseded. -/
theorem Evolves.chained (hwf : s.WellFormed) (hwf' : s'.WellFormed) (h : Evolves s s')
    (hold : s.Chained) : s'.Chained := by
  obtain ⟨f, news, hf, hclaims, hnews, hcont⟩ := h.rows
  have hmem : ∀ k ∈ s.claims, f k ∈ s'.claims := by
    intro k hk
    rw [hclaims]
    exact List.mem_append_left _ (List.mem_map_of_mem hk)
  have hchain : ∀ k a, Relation.ReflTransGen s.PointsTo k a → a.isActive = true → k ∈ s.claims →
      ∃ b ∈ s'.claims, b.isActive = true ∧ b.fieldName = k.fieldName ∧
        EndsAt s'.PointsTo (f k) b := by
    intro k a hpath hactive
    induction hpath using Relation.ReflTransGen.head_induction_on with
    | refl =>
        intro ha
        cases hcont a ha with
        | active hnow _ =>
            exact ⟨f a, hmem a ha, hnow, hf.fieldName a, endsAt_of_active hwf' (hmem a ha) hnow⟩
        | kept hnot _ =>
            rw [hactive] at hnot
            cases hnot
        | superseded _ hb hbactive hfield hpoints _ =>
            exact ⟨_, hb, hbactive, hfield,
              (endsAt_of_active hwf' hb hbactive).head ⟨hpoints, hb⟩⟩
    | @head x y hxy _ ih =>
        intro hx
        obtain ⟨b, hb, hbactive, hfield, hends⟩ := ih hxy.2
        have hxfield : y.fieldName = x.fieldName := hold.pointsTo_fieldName hwf hx hxy
        cases hcont x hx with
        | active hnow _ =>
            exact ⟨f x, hmem x hx, hnow, hf.fieldName x, endsAt_of_active hwf' (hmem x hx) hnow⟩
        | kept _ heq =>
            refine ⟨b, hb, hbactive, hfield.trans hxfield, hends.head ⟨?_, hmem y hxy.2⟩⟩
            rw [heq, hf.id]
            exact hxy.1
        | superseded hactive _ _ _ _ _ =>
            have hfalse := (hwf.superseded x hx).mpr (by simp [hxy.1])
            rw [hactive] at hfalse
            cases hfalse
  intro k' hk'
  rw [hclaims, List.mem_append, List.mem_map] at hk'
  rcases hk' with ⟨k, hk, rfl⟩ | hn
  · obtain ⟨a, -, hactive, -, hends⟩ := hold k hk
    obtain ⟨b, hb, hbactive, hfield, hends'⟩ := hchain k a hends.1 hactive hk
    exact ⟨b, hb, hbactive, hfield.trans (hf.fieldName k).symm, hends'⟩
  · have hk'mem : k' ∈ s'.claims := by
      rw [hclaims]
      exact List.mem_append_right _ hn
    exact ⟨k', hk'mem, (hnews k' hn).1, rfl, endsAt_of_active hwf' hk'mem (hnews k' hn).1⟩

/-- **The evidence stays visible at the roots.** -/
theorem Evolves.visible (hwf : s.WellFormed) (hr : s.Rooted) (hwf' : s'.WellFormed)
    (h : Evolves s s') (hold : s.Visible) : s'.Visible := by
  obtain ⟨f, news, hf, hclaims, hnews, hcont⟩ := h.rows
  have hmem : ∀ k ∈ s.claims, f k ∈ s'.claims := by
    intro k hk
    rw [hclaims]
    exact List.mem_append_left _ (List.mem_map_of_mem hk)
  have hkept : ∀ k ∈ s.claims, ∀ r', s'.Root k.eventId r' →
      ∃ a ∈ s'.claims, a.eventId = r' ∧ a.fieldName = k.fieldName ∧ a.isActive = true := by
    intro k hk r' hr'
    obtain ⟨e, he, heid⟩ := hwf.claimEvent k hk
    obtain ⟨r, hroot⟩ := hr.total e he
    rw [heid] at hroot
    obtain ⟨a, ha, hae, haf, hactive⟩ := hold k hk r hroot
    have hroots : s'.Root r r' := h.roots _ r r' hroot hr'
    have hlive : s.IsLive a.eventId := by
      rw [hae]
      exact hroot.isLive
    cases hcont a ha with
    | active hnow hstays =>
        have hlive' := hstays hlive
        rw [hae] at hlive'
        have heq : r = r' := (root_of_isLive hlive').unique hwf' hroots
        exact ⟨f a, hmem a ha, ((hf.eventId a).trans hae).trans heq, (hf.fieldName a).trans haf, hnow⟩
    | kept hnot _ =>
        rw [hactive] at hnot
        cases hnot
    | @superseded b _ hb hbactive hfield _ hbroot =>
        have hroot' := hbroot hlive
        rw [hae] at hroot'
        exact ⟨b, hb, hroot'.unique hwf' hroots, hfield.trans haf, hbactive⟩
  intro k' hk' r' hr'
  have hk'mem := hk'
  rw [hclaims, List.mem_append, List.mem_map] at hk'
  rcases hk' with ⟨k, hk, rfl⟩ | hn
  · rw [hf.eventId] at hr'
    obtain ⟨a, ha, hae, haf, hactive⟩ := hkept k hk r' hr'
    exact ⟨a, ha, hae, haf.trans (hf.fieldName k).symm, hactive⟩
  · obtain ⟨hactive, hlive | ⟨k, hk, hke, hkf⟩⟩ := hnews k' hn
    · exact ⟨k', hk'mem, (root_of_isLive hlive).unique hwf' hr', rfl, hactive⟩
    · rw [← hke] at hr'
      obtain ⟨a, ha, hae, haf, hactive⟩ := hkept k hk r' hr'
      exact ⟨a, ha, hae, haf.trans hkf, hactive⟩

/-- Claims stay, on their event and field. -/
theorem Evolves.persists (h : Evolves s s') {k : Claim} (hk : k ∈ s.claims) :
    ∃ k' ∈ s'.claims, k'.id = k.id ∧ k'.eventId = k.eventId ∧ k'.fieldName = k.fieldName := by
  obtain ⟨f, news, hf, hclaims, -, -⟩ := h.rows
  refine ⟨f k, ?_, hf.id k, hf.eventId k, hf.fieldName k⟩
  rw [hclaims]
  exact List.mem_append_left _ (List.mem_map_of_mem hk)

/-- Without new merge pointers roots stay. -/
theorem roots_of_append (hwf' : s'.WellFormed) {extra : List AccidentEvent}
    (hev : s'.events = s.events ++ extra) (x r r' : Uuid) (hr : s.Root x r) (hr' : s'.Root x r') :
    s'.Root r r' := by
  have hroot := hr.of_append extra hev
  rw [← hroot.unique hwf' hr']
  exact root_of_isLive hroot.isLive

theorem isLive_of_append {extra : List AccidentEvent} (hev : s'.events = s.events ++ extra) {x : Uuid}
    (h : s.IsLive x) : s'.IsLive x := by
  obtain ⟨e, he, hid, hnone⟩ := h
  exact ⟨e, by rw [hev]; exact List.mem_append_left _ he, hid, hnone⟩

/-- A claim that an operation leaves as it was. -/
theorem continues_self {extra : List AccidentEvent} (hev : s'.events = s.events ++ extra) (k : Claim) :
    Continues s s' k k := by
  cases hactive : k.isActive with
  | true => exact .active hactive fun h => isLive_of_append hev h
  | false => exact .kept hactive rfl

end Evolves

/-! ## The operations -/

section Operations

variable {s s' : Db}

theorem UpkeepOnly.evolves (hwf : s.WellFormed) (h : UpkeepOnly s s') : Evolves s s' := by
  have hwf' := h.wellFormed hwf
  have hev : s'.events = s.events ++ [] := by
    obtain ⟨ps, hs, os, rs, rfl⟩ := h
    exact (List.append_nil _).symm
  obtain ⟨ps, hs, os, rs, rfl⟩ := h
  have hid : KeepsClaim (fun k => k) :=
    ⟨fun _ => rfl, fun _ => rfl, fun _ => rfl, fun _ => rfl, fun _ => rfl, fun _ => rfl, fun _ => rfl⟩
  refine ⟨⟨fun k => k, [], hid, by simp, by simp, ?_⟩, ?_⟩
  · intro k _
    exact continues_self hev k
  · exact roots_of_append hwf' hev

theorem Reopened.evolves (hwf : s.WellFormed) {call : ReopenCall} {c : ClaimConflict}
    (h : Reopened s s' call c) : Evolves s s' := by
  have hev : s'.events = s.events ++ [] := by rw [h.events, List.append_nil]
  refine ⟨⟨fun k => if k.id ∈ (s.toReactivate c).map Claim.id then s.unsupersedeRow k else k, [],
    (keepsClaim_unsupersedeRow s).ite _, ?_, by simp, ?_⟩, roots_of_append (h.wellFormed hwf) hev⟩
  · rw [h.claims, List.append_nil]
    unfold updateWhere
    simp only [decide_eq_true_eq]
  · intro k _
    dsimp only
    split
    · exact .active (restoredType_isActive s k.id) fun hlive => isLive_of_append hev hlive
    · exact continues_self hev k

theorem Resolved.evolves (hwf : s.WellFormed) (hground : s.Grounded) {call : ResolveCall}
    {c u : ClaimConflict} {winner : Uuid} {sw : Db} (h : Resolved s s' call c winner sw u) :
    Evolves s s' := by
  have hev : s'.events = s.events ++ [] := by rw [h.events, List.append_nil]
  have hwf' := h.wellFormed hwf
  obtain ⟨hwfw, hcw, hlink, w, hw, hwid, hwactive, hwe, hwf₀⟩ := h.chosen.spec hwf h.mem
  have hkeep : KeepsClaim fun k => if sw.IsLoser c winner k then supersedeRow winner k else k :=
    (keepsClaim_supersedeRow winner).ite _
  have hclaims : s'.claims = sw.claims.map
      fun k => if sw.IsLoser c winner k then supersedeRow winner k else k := by
    rw [h.claims hwf]
    unfold updateWhere
    simp only [decide_eq_true_eq]
  have hwinner : w ∈ s'.claims := by
    rw [hclaims]
    refine List.mem_map.mpr ⟨w, hw, if_neg ?_⟩
    intro hloser
    exact hloser.2.1 hwid
  have hcont : ∀ k ∈ sw.claims, Continues s s' k
      (if sw.IsLoser c winner k then supersedeRow winner k else k) := by
    intro k hk
    split
    · rename_i hloser
      obtain ⟨hke, hkf⟩ := hwfw.link hcw hk hloser.1
      refine .superseded hloser.2.2 hwinner hwactive (hwf₀.trans hkf.symm) (by rw [hwid]; rfl) ?_
      intro hlive
      rw [hke] at hlive ⊢
      rw [hwe]
      exact root_of_isLive (isLive_of_append hev hlive)
    · exact continues_self hev k
  rcases h.chosen.claims with hsw | ⟨hid, hsw⟩
  · refine ⟨⟨_, [], hkeep, ?_, by simp, ?_⟩, roots_of_append hwf' hev⟩
    · rw [hclaims, hsw, List.append_nil]
    · intro k hk
      exact hcont k (hsw ▸ hk)
  · refine ⟨⟨_, [overrideClaim call c s.nextId], hkeep, ?_, ?_, ?_⟩, roots_of_append hwf' hev⟩
    · rw [hclaims, hsw, List.map_append, List.map_singleton, if_neg]
      intro hloser
      exact hloser.2.1 hid.symm
    · intro n hn
      rw [List.mem_singleton.mp hn]
      exact ⟨rfl, .inr (hground c h.mem)⟩
    · intro k hk
      exact hcont k (by rw [hsw]; exact List.mem_append_left _ hk)

variable [PyText]

theorem Ingested.evolves (hwf : s.WellFormed) (hr : s.Rooted) {call : IngestCall} {sub : Submission}
    {s₀ s₁ s₂ s₃ : Db} {w : ClaimWriteResult} (h : Ingested s s' call sub s₀ w s₁ s₂ s₃) :
    Evolves s s' := by
  obtain ⟨extra, hev, -⟩ := h.events
  have hwf' := h.wellFormed
  have hlive : s'.IsLive sub.eventId := by
    obtain ⟨e, he, hid, hnone⟩ := h.prepared.live
    exact ⟨e, by rw [h.events_eq]; exact he, hid, hnone⟩
  have hnew : ∀ n ∈ w.newClaims, n ∈ s'.claims ∧ n.isActive = true ∧ n.eventId = sub.eventId := by
    intro n hn
    obtain ⟨-, item, -, heq⟩ := h.written.news n hn
    refine ⟨?_, ?_, ?_⟩
    · rw [h.claims]
      exact List.mem_append_right _ hn
    · rw [heq]
      rfl
    · rw [heq]
      rfl
  refine ⟨⟨s₀.rewritten sub w.newClaims, w.newClaims, keepsClaim_rewritten s₀ sub w.newClaims,
    h.claims, ?_, ?_⟩, roots_of_append hwf' hev⟩
  · intro n hn
    obtain ⟨-, hactive, he⟩ := hnew n hn
    exact ⟨hactive, .inl (he ▸ hlive)⟩
  · intro k hk
    rcases h.rewritten_eq hwf hk with ⟨heq, -⟩ | ⟨⟨hactive, hreplaces, -⟩, n, hn, hfield, heq⟩
    · rw [heq]
      exact continues_self hev k
    · obtain ⟨hnmem, hnactive, hne⟩ := hnew n hn
      rw [heq]
      refine .superseded hactive hnmem hnactive hfield rfl ?_
      intro hklive
      rw [hne]
      -- the submission goes to the root of what it replaces
      unfold Replaces at hreplaces
      split at hreplaces
      · rename_i record hrecord
        exact (h.root_of_record hwf hr hk hrecord hreplaces.2).of_append extra hev
      · rw [hreplaces.1]
        exact root_of_isLive hlive

theorem Merged.evolves (hwf : s.WellFormed) {call : MergeCall} {s₃ s₄ : Db}
    (h : Merged s s' call s₃ s₄) : Evolves s s' := by
  have hwf' := h.wellFormed
  have htarget := h.isLive_target hwf
  have hsource : s'.Root call.sourceEventId call.targetEventId := by
    have hroot := h.root hwf (root_of_isLive h.source)
    rwa [if_pos rfl] at hroot
  refine ⟨⟨absorbed (s.transferPairs call), s.copies call, keepsClaim_absorbed _, h.claims hwf, ?_,
    ?_⟩, ?_⟩
  · intro n hn
    refine ⟨copies_isActive hn, .inl ?_⟩
    rw [copies_eventId hn]
    exact htarget
  · intro k hk
    by_cases htr : k.eventId = call.sourceEventId ∧ k.isActive = true
    · obtain ⟨n, hn, heq⟩ := absorbed_transferred call hwf hk htr.1 htr.2
      have hcopy : mergedClaim call n k ∈ s.copies call := List.mem_map.mpr ⟨(k, n), hn, rfl⟩
      have hmem : mergedClaim call n k ∈ s'.claims := by
        rw [h.claims hwf]
        exact List.mem_append_right _ hcopy
      rw [heq]
      refine .superseded htr.2 hmem (copies_isActive hcopy) rfl rfl ?_
      intro _
      rw [htr.1]
      exact hsource
    · rw [absorbed_other hwf hk htr]
      cases hactive : k.isActive with
      | true =>
          refine .active hactive fun hlive => Pointed.isLive (h.events hwf) hlive ?_
          intro he
          exact htr ⟨he, hactive⟩
      | false => exact .kept hactive rfl
  · intro x r r' hr hr'
    have hroot := h.root hwf hr
    rw [← hroot.unique hwf' hr']
    split
    · rename_i heq
      rw [heq]
      exact hsource
    · rename_i hne
      exact root_of_isLive (Pointed.isLive (h.events hwf) hr.isLive hne)

theorem Change.evolves (hI : s.Inv) (hground : s.Grounded) (h : Change s s') : Evolves s s' := by
  cases h with
  | upkeep hu => exact hu.evolves hI.wf
  | ingested hi => exact hi.evolves hI.wf hI.rooted
  | resolved hr => exact hr.evolves hI.wf hground
  | merged hm => exact hm.evolves hI.wf

/-! ## Conflicts are about claims -/

omit [PyText] in
/-- Rows that keep their event and field, over claims that do so too. -/
theorem Grounded.frame (h : s.Grounded)
    (hclaims : ∀ k ∈ s.claims, ∃ k' ∈ s'.claims, k'.eventId = k.eventId ∧ k'.fieldName = k.fieldName)
    (hrows : ∀ c' ∈ s'.conflicts, ∃ c ∈ s.conflicts, c'.eventId = c.eventId ∧
      c'.fieldName = c.fieldName) : s'.Grounded := by
  intro c' hc'
  obtain ⟨c, hc, hce, hcf⟩ := hrows c' hc'
  obtain ⟨k, hk, hke, hkf⟩ := h c hc
  obtain ⟨k', hk', hke', hkf'⟩ := hclaims k hk
  exact ⟨k', hk', (hke'.trans hke).trans hce.symm, (hkf'.trans hkf).trans hcf.symm⟩

omit [PyText] in
theorem rows_of_updateWhere {rows : List ClaimConflict} {p : ClaimConflict → Bool}
    {g : ClaimConflict → ClaimConflict} (hg : KeepsConflict g) {c' : ClaimConflict}
    (hc' : c' ∈ updateWhere p g rows) :
    ∃ c ∈ rows, c'.eventId = c.eventId ∧ c'.fieldName = c.fieldName := by
  obtain ⟨c, hc, rfl⟩ := mem_updateWhere.mp hc'
  refine ⟨c, hc, ?_⟩
  split
  · exact ⟨hg.eventId c, hg.fieldName c⟩
  · exact ⟨rfl, rfl⟩

omit [PyText] in
theorem Logged.grounded {on : Uuid → Prop} (h : s.Grounded) (hlogged : Logged on s s') :
    s'.Grounded := by
  induction hlogged with
  | refl => exact h
  | tail _ hstep ih =>
      cases hstep with
      | touch hc _ hg =>
          exact ih.frame (fun k hk => ⟨k, hk, rfl, rfl⟩)
            fun c' hc' => rows_of_updateWhere hg.bumped hc'
      | @insert actor p _ hclaim =>
          intro c hc
          rcases mem_openRow_conflicts.mp hc with hc | rfl
          · exact ih c hc
          · exact hclaim

theorem Ingested.grounded (hg : s.Grounded) {call : IngestCall} {sub : Submission}
    {s₀ s₁ s₂ s₃ : Db} {w : ClaimWriteResult} (h : Ingested s s' call sub s₀ w s₁ s₂ s₃) :
    s'.Grounded := by
  have hw : w.db.Grounded := by
    refine hg.frame ?_ ?_
    · intro k hk
      have hkeep := keepsClaim_rewritten s₀ sub w.newClaims
      refine ⟨s₀.rewritten sub w.newClaims k, ?_, hkeep.eventId k, hkeep.fieldName k⟩
      rw [h.written.claims]
      refine List.mem_append_left _ (List.mem_map_of_mem ?_)
      rw [h.prepared.rest]
      exact hk
    · intro c hc
      rw [h.written.rest, h.prepared.rest] at hc
      exact ⟨c, hc, rfl, rfl⟩
  have h₃ := Logged.grounded (Logged.grounded (Logged.grounded hw h.reconciled.winners.logged)
    h.reconciled.stale.logged) h.reconciled.detected.logged
  obtain ⟨result, rfl⟩ := h.finished
  exact h₃

theorem Merged.grounded (hwf : s.WellFormed) (hg : s.Grounded) {call : MergeCall} {s₃ s₄ : Db}
    (h : Merged s s' call s₃ s₄) : s'.Grounded := by
  obtain ⟨n, history, activity, heq⟩ := h.closed_eq hwf
  have h₃ : s₃.Grounded := by
    rw [heq]
    refine hg.frame ?_ ?_
    · intro k hk
      have hkeep := keepsClaim_absorbed (s.transferPairs call)
      exact ⟨absorbed (s.transferPairs call) k,
        List.mem_append_left _ (List.mem_map_of_mem hk), hkeep.eventId k, hkeep.fieldName k⟩
    · intro c' hc'
      exact rows_of_updateWhere (g := closeAsMergedRow (mergeConflictNote call) call.now)
        ⟨fun _ => rfl, fun _ => rfl, fun _ => rfl⟩ hc'
  have h₄ := Logged.grounded h₃ h.detected.logged
  obtain ⟨reviews, rfl⟩ := h.finished
  exact h₄

omit [PyText] in
/-- A curator action rewrites one row and keeps the claims. -/
theorem Grounded.curator (hg : s.Grounded) (hevolves : Evolves s s') {p : ClaimConflict → Bool}
    {g : ClaimConflict → ClaimConflict} (hkeep : KeepsConflict g)
    (hrows : s'.conflicts = updateWhere p (bumped g) s.conflicts) : s'.Grounded := by
  refine hg.frame ?_ ?_
  · intro k hk
    obtain ⟨k', hk', -, he, hf⟩ := hevolves.persists hk
    exact ⟨k', hk', he, hf⟩
  · intro c' hc'
    rw [hrows] at hc'
    exact rows_of_updateWhere hkeep.bumped hc'

theorem Change.grounded (hI : s.Inv) (hg : s.Grounded) (h : Change s s') : s'.Grounded := by
  cases h with
  | upkeep hu =>
      obtain ⟨ps, hs, os, rs, rfl⟩ := hu
      exact hg
  | ingested hi => exact hi.grounded hg
  | resolved hr => exact hg.curator (hr.evolves hI.wf hg) keepsConflict_resolvedByUser hr.conflicts
  | merged hm => exact hm.grounded hI.wf hg

end Operations

/-- **The law of the evidence.** -/
structure Lasting (s : Db) : Prop where
  chained : s.Chained
  visible : s.Visible
  grounded : s.Grounded

theorem lasting_empty (sources : List Source) : (Db.empty sources).Lasting :=
  ⟨by simp [Chained, Db.empty], by simp [Visible, Db.empty], by simp [Grounded, Db.empty]⟩

theorem Evolves.lasting {s s' : Db} (hI : s.Inv) (hwf' : s'.WellFormed) (h : Evolves s s')
    (hg : s'.Grounded) (hlast : s.Lasting) : s'.Lasting :=
  ⟨h.chained hI.wf hwf' hlast.chained, h.visible hI.wf hI.rooted hwf' hlast.visible, hg⟩

section Steps

variable [PyText]

theorem Change.lasting {s s' : Db} (hI : s.Inv) (hlast : s.Lasting) (h : Change s s') : s'.Lasting :=
  (h.evolves hI hlast.grounded).lasting hI (h.wellFormed hI.wf) (h.grounded hI hlast.grounded) hlast

omit [PyText] in
theorem Reopened.lasting {s s' : Db} (hI : s.Inv) (hlast : s.Lasting) {call : ReopenCall}
    {c : ClaimConflict} (h : Reopened s s' call c) : s'.Lasting := by
  have hevolves := h.evolves hI.wf
  exact hevolves.lasting hI (h.wellFormed hI.wf)
    (hlast.grounded.curator hevolves (keepsConflict_reopenedByUser call) h.conflicts) hlast

/-- A claim stays in the table through every operation. -/
theorem step_persists {s : Db} (hI : s.Inv) (hlast : s.Lasting) (op : Op) {k : Claim}
    (hk : k ∈ s.claims) :
    ∃ k' ∈ (step s op).claims, k'.id = k.id ∧ k'.eventId = k.eventId ∧ k'.fieldName = k.fieldName := by
  refine step_rule (P := fun s' => ∃ k' ∈ s'.claims, k'.id = k.id ∧ k'.eventId = k.eventId ∧
    k'.fieldName = k.fieldName) hI.wf ⟨k, hk, rfl, rfl, rfl⟩ ?_ ?_ op
  · intro s' hchange
    exact (hchange.evolves hI hlast.grounded).persists hk
  · intro s' call c hreopened
    exact (hreopened.evolves hI.wf).persists hk

end Steps

end Db

section Runs

variable [PyText] {s : Db}

theorem Reachable.lasting (hs : Reachable s) : s.Lasting :=
  (reachable_rule Db.lasting_empty (fun _ _ hI hlast h => h.lasting hI hlast)
    (fun _ _ _ _ hI hlast h => h.lasting hI hlast) hs).2

theorem Reachable.run (hs : Reachable s) (ops : List Op) : Reachable (Runs.run Atlas.step s ops) := by
  induction ops generalizing s with
  | nil => exact hs
  | cons op ops ih => exact ih (hs.step op)

theorem Reachable.persists (hs : Reachable s) (ops : List Op) {k : Claim} (hk : k ∈ s.claims) :
    ∃ k' ∈ (Runs.run Atlas.step s ops).claims, k'.id = k.id ∧ k'.eventId = k.eventId ∧
      k'.fieldName = k.fieldName := by
  induction ops generalizing s k with
  | nil => exact ⟨k, hk, rfl, rfl, rfl⟩
  | cons op ops ih =>
      obtain ⟨k₁, hk₁, hid, he, hf⟩ := Db.step_persists hs.inv hs.lasting op hk
      obtain ⟨k', hk', hid', he', hf'⟩ := ih (hs.step op) hk₁
      exact ⟨k', hk', hid'.trans hid, he'.trans he, hf'.trans hf⟩

/-- **No evidence vanishes.**  Whatever happens after a claim was committed: a
claim is SUPERSEDED exactly when it points at another one, the pointers never
run in a circle and end at an active claim of the same field, and the root of
the claim's event has an active claim of its field. -/
theorem no_evidence_vanishes (hs : Reachable s) (ops : List Op) {s' : Db}
    (hrun : Runs.run step s ops = s') :
    (∀ k ∈ s'.claims, (k.claimType = .superseded ↔ k.supersededBy ≠ none) ∧
        ¬ Relation.TransGen s'.PointsTo k k ∧
        ∃ a ∈ s'.claims, a.isActive = true ∧ a.fieldName = k.fieldName ∧
          EndsAt s'.PointsTo k a) ∧
      ∀ k ∈ s.claims, ∃ r, s'.Root k.eventId r ∧ s'.findActiveByEventField r k.fieldName ≠ [] := by
  have hs' : Reachable s' := hrun ▸ hs.run ops
  have hwf := hs'.inv.wf
  have hlast := hs'.lasting
  constructor
  · intro k hk
    obtain ⟨a, ha, hactive, hfield, hends⟩ := hlast.chained k hk
    refine ⟨?_, hends.acyclic (Db.pointsTo_unique hwf), a, ha, hactive, hfield, hends⟩
    rw [← hwf.superseded k hk]
    unfold Claim.isActive
    cases k.claimType <;> simp [ClaimType.isActive]
  · intro k hk
    obtain ⟨k', hk', -, he, hf⟩ := hs.persists ops hk
    rw [hrun] at hk'
    obtain ⟨e, hemem, heid⟩ := hwf.claimEvent k' hk'
    obtain ⟨r, hroot⟩ := hs'.inv.rooted.total e hemem
    rw [heid] at hroot
    obtain ⟨a, ha, hae, haf, hactive⟩ := hlast.visible k' hk' r hroot
    refine ⟨r, he ▸ hroot, ?_⟩
    exact List.ne_nil_of_mem
      (Db.mem_findActiveByEventField.mpr ⟨ha, hae, haf.trans hf, hactive⟩)

end Runs

theorem no_evidence_vanishes_after_merge :
    ∃ k ∈ (after fourSources contestedAndOther).claims, ∃ r,
      (Runs.run step (after fourSources contestedAndOther)
        [.merge ⟨5, 13, 9, "", none, 4⟩]).Root k.eventId r ∧
      (Runs.run step (after fourSources contestedAndOther)
        [.merge ⟨5, 13, 9, "", none, 4⟩]).findActiveByEventField r k.fieldName ≠ [] := by
  obtain ⟨k, hk⟩ : ∃ k, k ∈ (after fourSources contestedAndOther).claims :=
    List.exists_mem_of_ne_nil _ (by decide +kernel)
  exact ⟨k, hk, (no_evidence_vanishes ⟨fourSources, contestedAndOther, rfl⟩
    [.merge ⟨5, 13, 9, "", none, 4⟩] rfl).2 k hk⟩

end Atlas
