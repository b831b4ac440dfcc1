import Atlas.Lib.Isolation
import Atlas.TenantRows

/-!
# Tenants apart

What a tenant calls, what the platform computes and what happens to the accident store is all
that the tenant can tell: every answer it gets is the one it would get if the tables held its own
rows and no others, so what other tenants do shows nowhere.
-/

namespace Atlas

open Outcome Rows Selections

variable [PyText] [TenantDb.Deidentification] {a : Uuid}

namespace TenantSpace

open TenantDb

variable {s : TenantSpace}

/-- The rows of one tenant. -/
def own (a : Uuid) (s : TenantSpace) : TenantSpace where
  db := s.db.ownRows a
  overlays := s.overlays.filter fun o => decide (o.tenantId = a)

section Own

omit [PyText] [Deidentification]

theorem own_view (s : TenantSpace) : (s.own a).view a = s.view a := by
  unfold own view
  rw [view_ownRows, filter_within fun x h => h]

/-! ### What the tenant is told -/

theorem getOverlay_own (eventId : Uuid) : (s.own a).getOverlay a eventId = s.getOverlay a eventId :=
  find?_within (by simp +contextual)

/-- A read of the caller's own tenant. -/
theorem read_own {α : Type} {tenantId callerTenantId : Uuid} {f g : Unit → Except TenancyError α}
    (hc : callerTenantId = a) (h : tenantId = a → f () = g ()) :
    (require (callerTenantId = tenantId) (.crossTenantAccess callerTenantId tenantId) >>= f) =
      (require (callerTenantId = tenantId) (.crossTenantAccess callerTenantId tenantId) >>= g) := by
  apply bind_congr_ok
  intro u hu
  rw [require_ok] at hu
  exact h (hu.symm.trans hc)

theorem getTenantEventOverlay_own {tenantId callerTenantId : Uuid} (hc : callerTenantId = a)
    (eventId : Uuid) : (s.own a).getTenantEventOverlay tenantId callerTenantId eventId =
      s.getTenantEventOverlay tenantId callerTenantId eventId := by
  apply read_own hc
  intro ht
  rw [ht, getOverlay_own]
  rfl

theorem listForTenant_own (limit : Nat) (afterId : Option Uuid) :
    (s.own a).listForTenant a limit afterId = s.listForTenant a limit afterId := by
  have hrows : ((s.own a).overlays.filter fun o => decide (o.tenantId = a)) =
      s.overlays.filter fun o => decide (o.tenantId = a) := filter_within fun _ h => h
  have hcursor : ∀ id, ((s.own a).overlays.find? fun o => decide (o.id = id ∧ o.tenantId = a)) =
      s.overlays.find? fun o => decide (o.id = id ∧ o.tenantId = a) := by
    intro id
    exact find?_within (by simp)
  unfold listForTenant
  simp only [hrows, hcursor]

theorem listTenantEvents_own {tenantId callerTenantId : Uuid} (hc : callerTenantId = a) (limit : Int)
    (afterId : Option Uuid) : (s.own a).listTenantEvents tenantId callerTenantId limit afterId =
      s.listTenantEvents tenantId callerTenantId limit afterId := by
  apply read_own hc
  intro ht
  simp only [ht, listForTenant_own]

theorem listTenantEvidenceForEvent_own {tenantId callerTenantId : Uuid} (hc : callerTenantId = a)
    (eventId : Uuid) : (s.own a).listTenantEvidenceForEvent tenantId callerTenantId eventId =
      s.listTenantEvidenceForEvent tenantId callerTenantId eventId := by
  apply read_own hc
  intro ht
  have hclaims : ∀ kind, (s.own a).claimsOfKind a eventId kind = s.claimsOfKind a eventId kind := by
    intro kind
    exact filter_within (by simp +contextual)
  have hassociations : (s.own a).associationsOf a eventId = s.associationsOf a eventId :=
    filter_within (by simp +contextual)
  have hreports : ∀ id, (s.own a).db.getReport a id = s.db.getReport a id := fun id => getReport_own id
  simp only [ht, hclaims, hassociations, hreports]

theorem getTenantUsage_own {tenantId callerTenantId : Uuid} (hc : callerTenantId = a)
    (dayFrom dayTo : Day) : (s.own a).getTenantUsage tenantId callerTenantId dayFrom dayTo =
      s.getTenantUsage tenantId callerTenantId dayFrom dayTo := by
  apply read_own hc
  intro ht
  have hrows : ((s.own a).db.dailyRollups.filter fun r => decide (r.tenantId = some a ∧
        dayFrom.ordinal ≤ r.day ∧ r.day ≤ dayTo.ordinal)) =
      s.db.dailyRollups.filter fun r => decide (r.tenantId = some a ∧
        dayFrom.ordinal ≤ r.day ∧ r.day ≤ dayTo.ordinal) :=
    filter_within (by simp +contextual)
  rw [ht, hrows]

/-! ### Overlays -/

section Put

variable {row : TenantEventOverlay} {f : TenantEventOverlay → TenantEventOverlay}
  (hf : ∀ o, (f o).tenantId = o.tenantId)

include hf

theorem putOverlay_own :
    ((upsertWith TenantEventOverlay.key row f (s.own a).overlays).filter
        fun o => decide (o.tenantId = a)) =
      (upsertWith TenantEventOverlay.key row f s.overlays).filter fun o => decide (o.tenantId = a) := by
  apply upsertWith_within
  · intro o hkey
    have ht : o.tenantId = row.tenantId := congrArg Prod.fst hkey
    rw [ht]
  · intro o
    rw [hf]

theorem putOverlay_other (ht : row.tenantId ≠ a) :
    ((upsertWith TenantEventOverlay.key row f s.overlays).filter fun o => decide (o.tenantId = a)) =
      s.overlays.filter fun o => decide (o.tenantId = a) := by
  apply upsertWith_outside
  · intro o hkey
    have hkey : o.tenantId = row.tenantId := congrArg Prod.fst hkey
    exact decide_eq_false (hkey ▸ ht)
  · intro o
    rw [hf]

end Put

theorem upsertTenantEventOverlay_own {input : UpsertTenantEventOverlayInput} (now : Time)
    (hc : input.caller.callerTenantId = a) :
    (((s.own a).upsertTenantEventOverlay input now).map fun p => (p.1, p.2.view a)) =
      (s.upsertTenantEventOverlay input now).map fun p => (p.1, p.2.view a) := by
  unfold upsertTenantEventOverlay
  refine map_bind_congr fun u hu => map_bind_congr fun _ _ => map_bind_congr fun _ _ => ?_
  rw [tenantId_of_same hc hu, getOverlay_own]
  have hdb : (s.own a).db.uuid4.2.view a = s.db.uuid4.2.view a := view_ownRows a s.db
  exact congrArg Except.ok (Prod.ext rfl (congrArg₂ TenantSpace.mk hdb (putOverlay_own fun o => rfl)))

theorem upsertTenantEventOverlay_other {input : UpsertTenantEventOverlayInput} {now : Time}
    (hc : input.caller.callerTenantId ≠ a) {overlay : TenantEventOverlay} {s' : TenantSpace}
    (h : s.upsertTenantEventOverlay input now = .ok (overlay, s')) : s'.view a = s.view a := by
  unfold upsertTenantEventOverlay at h
  simp only [bind_ok, pure_ok, Prod.mk.injEq] at h
  obtain ⟨_, hsame, _, _, _, _, _, rfl⟩ := h
  have hne := tenantId_ne_of_same hc hsame
  exact congrArg (TenantSpace.mk (s.db.view a)) (putOverlay_other (fun o => rfl) hne)

end Own

omit [PyText] in
/-- What the tenant is told comes from its own rows. -/
theorem answerOp_own {d : TenantDb} {op : TenantOp} (h : op.performer = some a) :
    answerOp (d.ownRows a) op = answerOp d op := by
  cases op with
  | registerSource input =>
      exact congrArg TenantAnswer.source (fst_of_map (registerTenantSource_own (Option.some.inj h)))
  | openRun input =>
      exact congrArg TenantAnswer.run (fst_of_map (openTenantIngestionRun_own (Option.some.inj h)))
  | submitBatch input =>
      exact congrArg TenantAnswer.inserted
        (fst_of_map (submitTenantClaimsBatch_own (Option.some.inj h)))
  | completeRun input =>
      exact congrArg TenantAnswer.run
        (fst_of_map (completeTenantIngestionRun_own (Option.some.inj h)))
  | fileReport input =>
      exact congrArg TenantAnswer.report (fst_of_map submitTenantSafetyReport_own)
  | requestEcho input =>
      exact congrArg TenantAnswer.requested
        (fst_of_map (requestEchoCrossReference_own (Option.some.inj h)))
  | _ => rfl

/-! ### One call -/

omit [PyText] in
theorem answer_alone (s : TenantSpace) (c : DrawnCall) (h : c.heard a = true) :
    answer s c = answer (s.view a) c := by
  obtain ⟨id, call⟩ := c
  have hcaller : call.performer = some a := of_decide_eq_true h
  symm
  cases call with
  | op op => exact answerOp_own (d := (s.draw id).db) hcaller
  | upsertOverlay input now =>
      exact congrArg TenantAnswer.overlay
        (fst_of_map (upsertTenantEventOverlay_own (s := s.draw id) now (Option.some.inj hcaller)))
  | getOverlay tenantId callerTenantId eventId =>
      exact congrArg TenantAnswer.overlayView
        (getTenantEventOverlay_own (s := s.draw id) (Option.some.inj hcaller) eventId)
  | listEvents tenantId callerTenantId limit afterId =>
      exact congrArg TenantAnswer.events
        (listTenantEvents_own (s := s.draw id) (Option.some.inj hcaller) limit afterId)
  | listEvidence tenantId callerTenantId eventId =>
      exact congrArg TenantAnswer.evidence
        (listTenantEvidenceForEvent_own (s := s.draw id) (Option.some.inj hcaller) eventId)
  | getUsage tenantId callerTenantId dayFrom dayTo =>
      exact congrArg TenantAnswer.usage
        (getTenantUsage_own (s := s.draw id) (Option.some.inj hcaller) dayFrom dayTo)

theorem step_upsertOverlay_ok {s : TenantSpace} {input : UpsertTenantEventOverlayInput}
    {now : Time} (id : Uuid) {p : TenantEventOverlay × TenantSpace}
    (h : (s.draw id).upsertTenantEventOverlay input now = .ok p) :
    s.step ⟨id, .upsertOverlay input now⟩ = p.2 := by
  unfold step
  dsimp only
  rw [h]

theorem step_upsertOverlay_error {s : TenantSpace} {input : UpsertTenantEventOverlayInput}
    {now : Time} (id : Uuid) {e : TenancyError}
    (h : (s.draw id).upsertTenantEventOverlay input now = .error e) :
    s.step ⟨id, .upsertOverlay input now⟩ = s.draw id := by
  unfold step
  dsimp only
  rw [h]

theorem step_alone (s : TenantSpace) (c : DrawnCall) (h : c.visible a = true) :
    (s.step c).view a = ((s.view a).step c).view a := by
  obtain ⟨id, call⟩ := c
  have hshown : call.performer = some a ∨ call.shared = true := of_decide_eq_true h
  symm
  cases call with
  | op op =>
      exact congrArg₂ TenantSpace.mk (TenantDb.step_own (s := (s.draw id).db) hshown)
        (filter_within fun _ h => h)
  | upsertOverlay input now =>
      have hcaller : input.caller.callerTenantId = a :=
        Option.some.inj (hshown.resolve_right Bool.false_ne_true)
      have hown := upsertTenantEventOverlay_own (s := s.draw id) now hcaller
      obtain ⟨e, hone, htwo⟩ | ⟨p, p', hone, htwo, hp⟩ := cases_of_map_eq hown
      · rw [step_upsertOverlay_error id htwo, step_upsertOverlay_error (s := s.view a) id hone]
        exact own_view (s.draw id)
      · rw [step_upsertOverlay_ok id htwo, step_upsertOverlay_ok (s := s.view a) id hone]
        exact congrArg Prod.snd hp
  | getOverlay tenantId callerTenantId eventId => exact own_view s
  | listEvents tenantId callerTenantId limit afterId => exact own_view s
  | listEvidence tenantId callerTenantId eventId => exact own_view s
  | getUsage tenantId callerTenantId dayFrom dayTo => exact own_view s

theorem step_hidden (s : TenantSpace) (c : DrawnCall) (h : c.visible a = false) :
    (s.step c).view a = s.view a := by
  obtain ⟨id, call⟩ := c
  have hhidden : ¬ (call.performer = some a ∨ call.shared = true) := of_decide_eq_false h
  obtain ⟨hcaller, hshared⟩ := not_or.mp hhidden
  cases call with
  | op op =>
      have hstep := TenantDb.step_other (s := (s.draw id).db) hcaller (Bool.eq_false_of_not_eq_true hshared)
      exact congrArg (TenantSpace.mk · _) hstep
  | upsertOverlay input now =>
      have hne : input.caller.callerTenantId ≠ a := fun hc => hcaller (congrArg some hc)
      show view a (s.step ⟨id, .upsertOverlay input now⟩) = view a (s.draw id)
      cases hput : (s.draw id).upsertTenantEventOverlay input now with
      | error e => exact congrArg (view a) (step_upsertOverlay_error id hput)
      | ok p =>
          exact (congrArg (view a) (step_upsertOverlay_ok id hput)).trans
            (upsertTenantEventOverlay_other (s := s.draw id) hne hput)
  | getOverlay tenantId callerTenantId eventId => rfl
  | listEvents tenantId callerTenantId limit afterId => rfl
  | listEvidence tenantId callerTenantId eventId => rfl
  | getUsage tenantId callerTenantId dayFrom dayTo => rfl

/-! ## Runs -/

theorem isolated (a : Uuid) : Isolation.Isolated step (view a) (DrawnCall.visible a) where
  hidden := step_hidden
  alone := step_alone

omit [PyText] in
theorem answered (a : Uuid) :
    Isolation.Answered (view a) (DrawnCall.visible a) answer (DrawnCall.heard a) where
  sees _ h := decide_eq_true (.inl (of_decide_eq_true h))
  alone := answer_alone

omit [PyText] [Deidentification] in
theorem view_view (a : Uuid) (s : TenantSpace) : (s.view a).view a = s.view a := by
  unfold view
  rw [TenantDb.view_view, filter_within fun _ h => h]

/-- **A tenant is alone with its rows.**  From any state of the tables and along any calls of all
the tenants and the platform, in any order, a tenant hears what it would hear if the tables had
held its rows only and only it and the platform had called, and its rows end up the same. -/
theorem tenant_alone (a : Uuid) (s : TenantSpace) (calls : List DrawnCall) :
    Isolation.answers step answer (DrawnCall.heard a) s calls =
        Isolation.answers step answer (DrawnCall.heard a) (s.view a)
          (calls.filter (DrawnCall.visible a)) ∧
      (Runs.run step s calls).view a =
        (Runs.run step (s.view a) (calls.filter (DrawnCall.visible a))).view a :=
  ⟨(isolated a).answers (answered a) (view_view a s).symm calls,
    (isolated a).run (view_view a s).symm calls⟩

end TenantSpace

end Atlas

