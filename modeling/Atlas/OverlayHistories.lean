import Atlas.TenantCalls

/-!
# What a tenant finds in its overlay

An overlay is written by upserts only.  Of all the writes of a tenant for an event that were
accepted, the first gives the overlay its id and the time it was made at, and the last its notes,
its fields and the time it was changed at.
-/

namespace Atlas

open Outcome Rows

/-- The overlay with the content of another. -/
def TenantEventOverlay.amend (old new : TenantEventOverlay) : TenantEventOverlay :=
  { old with
    notesMarkdown := new.notesMarkdown
    overlayFields := new.overlayFields
    updatedAt := new.updatedAt }

/-- The first overlay of a history with the content of the last. -/
def amended (history : List TenantEventOverlay) : Option TenantEventOverlay :=
  history.head?.map fun first => first.amend (history.getLastD first)

/-- The overlay that stands, after one more write. -/
def putOverlay (overlay : Option TenantEventOverlay) (written : TenantEventOverlay) :
    Option TenantEventOverlay :=
  some (overlay.elim written fun old => old.amend written)

theorem foldl_putOverlay (first : TenantEventOverlay) (history : List TenantEventOverlay) :
    history.foldl putOverlay (some first) = amended (first :: history) := by
  induction history generalizing first with
  | nil => rfl
  | cons written history ih =>
      have hfirst : putOverlay (some first) written = some (first.amend written) := rfl
      rw [List.foldl_cons, hfirst, ih]
      cases history with
      | nil => rfl
      | cons next history => rfl

theorem foldl_putOverlay_toList (overlay : Option TenantEventOverlay)
    (history : List TenantEventOverlay) :
    history.foldl putOverlay overlay = amended (overlay.toList ++ history) := by
  cases overlay with
  | some first => exact foldl_putOverlay first history
  | none =>
      cases history with
      | nil => rfl
      | cons first history => exact foldl_putOverlay first history

namespace TenantSpace

variable [PyText] [TenantDb.Deidentification]

/-- What a write asks for, as a new overlay. -/
def UpsertTenantEventOverlayInput.overlay (input : UpsertTenantEventOverlayInput) (id : Uuid)
    (now : Time) : TenantEventOverlay :=
  ⟨id, input.caller.tenantId, input.eventId, input.notesMarkdown, input.overlayFields.getD [], now,
    now⟩

omit [PyText] [TenantDb.Deidentification] in
/-- The write of a call for the event, if it is one that is accepted. -/
def writes (tenantId eventId : Uuid) (s : TenantSpace) (c : DrawnCall) : List TenantEventOverlay :=
  match c.call with
  | .upsertOverlay input now =>
      match (s.draw c.id).upsertTenantEventOverlay input now with
      | .ok _ =>
          if input.caller.tenantId = tenantId ∧ input.eventId = eventId then
            [input.overlay c.id now]
          else []
      | .error _ => []
  | _ => []

omit [PyText] [TenantDb.Deidentification] in
theorem getOverlay_eq (s : TenantSpace) (tenantId eventId : Uuid) :
    s.getOverlay tenantId eventId = lookup TenantEventOverlay.key (tenantId, eventId) s.overlays := by
  unfold getOverlay lookup TenantEventOverlay.key
  simp only [Prod.mk.injEq]

omit [PyText] [TenantDb.Deidentification] in
theorem lookup_amend (k : Uuid × Uuid) (written : TenantEventOverlay) (rows : List TenantEventOverlay) :
    lookup TenantEventOverlay.key k
        (upsertWith TenantEventOverlay.key written (fun old => old.amend written) rows) =
      if k = written.key then putOverlay (lookup TenantEventOverlay.key written.key rows) written
      else lookup TenantEventOverlay.key k rows := by
  apply lookup_upsertWith
  intro old
  rfl

omit [PyText] [TenantDb.Deidentification] in
theorem upsertTenantEventOverlay_ok {s s' : TenantSpace} {input : UpsertTenantEventOverlayInput}
    {now : Time} {overlay : TenantEventOverlay}
    (h : s.upsertTenantEventOverlay input now = .ok (overlay, s')) :
    s'.overlays = upsertWith TenantEventOverlay.key (input.overlay s.db.nextId now)
      (fun old => old.amend (input.overlay s.db.nextId now)) s.overlays := by
  unfold upsertTenantEventOverlay at h
  simp only [bind_ok, pure_ok, Prod.mk.injEq] at h
  obtain ⟨_, _, _, _, _, _, _, rfl⟩ := h
  rfl

/-- **One call** puts its writes on the overlay. -/
theorem getOverlay_step (tenantId eventId : Uuid) (s : TenantSpace) (c : DrawnCall) :
    (s.step c).getOverlay tenantId eventId =
      (writes tenantId eventId s c).foldl putOverlay (s.getOverlay tenantId eventId) := by
  obtain ⟨id, call⟩ := c
  cases call with
  | upsertOverlay input now =>
      unfold step writes
      dsimp only
      cases hput : (s.draw id).upsertTenantEventOverlay input now with
      | error e => rfl
      | ok p =>
          have hrows : p.2.overlays = upsertWith TenantEventOverlay.key (input.overlay id now)
              (fun old => old.amend (input.overlay id now)) s.overlays :=
            upsertTenantEventOverlay_ok hput
          dsimp only
          rw [getOverlay_eq, hrows, lookup_amend]
          by_cases hkey : input.caller.tenantId = tenantId ∧ input.eventId = eventId
          · have hwritten : (tenantId, eventId) = (input.overlay id now).key :=
              Prod.ext hkey.1.symm hkey.2.symm
            rw [if_pos hkey, if_pos hwritten, getOverlay_eq, hwritten]
            rfl
          · rw [if_neg hkey, if_neg, getOverlay_eq]
            · rfl
            · intro heq
              exact hkey ⟨(congrArg Prod.fst heq).symm, (congrArg Prod.snd heq).symm⟩
  | _ => rfl

/-- **An overlay is its history.**  After any calls of any tenants, a tenant finds in its overlay
of an event the first accepted write with the content of the last, of all the writes there were. -/
theorem overlay_history (tenantId eventId : Uuid) (s : TenantSpace) (calls : List DrawnCall) :
    ((Runs.run step s calls).getTenantEventOverlay tenantId tenantId eventId).map
        TenantEventOverlayView.overlay =
      ((Runs.run step s calls).publicProjection eventId).map fun _ =>
        amended ((s.getOverlay tenantId eventId).toList ++
          Runs.collect step (writes tenantId eventId) s calls) := by
  have hrun := Runs.view_run (fun s : TenantSpace => s.getOverlay tenantId eventId) putOverlay
    (getOverlay_step tenantId eventId) s calls
  rw [foldl_putOverlay_toList] at hrun
  rw [← hrun]
  unfold getTenantEventOverlay require
  rw [if_pos rfl, ok_bind]
  cases (Runs.run step s calls).publicProjection eventId with
  | error e => rfl
  | ok projection => rfl

end TenantSpace

end Atlas
