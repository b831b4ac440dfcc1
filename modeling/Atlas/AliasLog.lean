import Atlas.IdentityDates
import Atlas.Lib.Recent

/-!
# The registrations of an event

Every write of an event's row in the identity index records registrations: those of a
submission, or those of the row that a merge brings in.  The row keeps the five most recent
distinct ones, which the entity computes by a scan from the end and the repository by a query.

The row's list stands for the log of all registrations recorded for the event, so what it holds
is settled by the log alone.  The primary registration is recorded like any other: a submission
records it *before* its further numbers, which can push it out of the list.
-/

namespace Atlas

open Rows Runs Recent

/-- `EventIdentityIndex.cap_registration_norms`. -/
def capRegistrationNorms (value : List Text) : List Text :=
  (collectRecent maxRegistrationAliases [] value.reverse).reverse

/-- `_capped_jsonb_union_sql`, with the groups and the ties in any order. -/
def cappedJsonbUnion (tie : Text → Text → Prop) [DecidableRel tie] (groups value : List Text) :
    List Text :=
  cappedUnion maxRegistrationAliases tie groups value

theorem capRegistrationNorms_eq (value : List Text) : capRegistrationNorms value = capAliases value :=
  collectRecent_eq (by decide) value

theorem cappedJsonbUnion_eq (tie : Text → Text → Prop) [DecidableRel tie] {groups value : List Text}
    (hgroups : groups.Perm value.dedup) : cappedJsonbUnion tie groups value = capAliases value :=
  cappedUnion_eq tie hgroups

theorem capAliases_eq (value : List Text) :
    capAliases value = recent maxRegistrationAliases value := rfl

/-! ## What a row holds and what is recorded -/

/-- `registration_norms` of the event. -/
def aliasesOf (e : Uuid) (index : List EventIdentityIndex) : List Text :=
  ((lookup EventIdentityIndex.eventId e index).map EventIdentityIndex.registrationNorms).getD []

/-- `registration_norm` of the event. -/
def primaryOf (e : Uuid) (index : List EventIdentityIndex) : Option Text :=
  (lookup EventIdentityIndex.eventId e index).bind EventIdentityIndex.registrationNorm

section Writes

variable [PyText] [PyRepr]

/-- The registrations a write records for the event, the newest last.  Through an alias the
registration of the submission is recorded once more, behind its numbers; a merge records the
list of the source and then its primary registration. -/
def recordedAliases (e : Uuid) (index : List EventIdentityIndex) : IdentityOp → List Text
  | .upsert e' fields now =>
      if e' = e ∧ (buildIdentityEntry e' fields now).fits then registrationNormAliases fields else []
  | .enrich e' fields now =>
      if e' = e ∧ (buildIdentityEntry e' fields now).fits then
        registrationNormAliases fields ++
          if (lookup EventIdentityIndex.eventId e index).isSome then
            (normReg (fields "registration")).toList
          else []
      else []
  | .merge source target _ =>
      if target = e then aliasesOf source index ++ (primaryOf source index).toList else []

/-- The primary registration behind a write: an upsert prefers the incoming one, the other
writes the stored one. -/
def primaryBehind (e : Uuid) (index : List EventIdentityIndex) : IdentityOp → Option Text
  | .upsert e' fields now =>
      if e' = e ∧ (buildIdentityEntry e' fields now).fits then
        (normReg (fields "registration")).or (primaryOf e index)
      else primaryOf e index
  | .enrich e' fields now =>
      if e' = e ∧ (buildIdentityEntry e' fields now).fits then
        (primaryOf e index).or (normReg (fields "registration"))
      else primaryOf e index
  | .merge source target _ =>
      if target = e then (primaryOf e index).or (primaryOf source index) else primaryOf e index

/-- All registrations recorded for the event in a run. -/
def aliasLog (e : Uuid) (ops : List IdentityOp) : List Text :=
  collect identityStep (recordedAliases e) [] ops

end Writes

/-! ## One write -/

/-- The row's list is cut. -/
def Capped (e : Uuid) (index : List EventIdentityIndex) : Prop :=
  recent maxRegistrationAliases (aliasesOf e index) = aliasesOf e index

section Put

variable {change : EventIdentityIndex → EventIdentityIndex → EventIdentityIndex}
  {index : List EventIdentityIndex} {entry : EventIdentityIndex}

theorem aliasesOf_put_ne (hkey : ∀ row, (change entry row).eventId = row.eventId) {e : Uuid}
    (he : e ≠ entry.eventId) : aliasesOf e (putIdentity change index entry) = aliasesOf e index := by
  unfold aliasesOf
  rw [lookup_putIdentity hkey, if_neg he]

theorem aliasesOf_put_self (hkey : ∀ row, (change entry row).eventId = row.eventId) :
    aliasesOf entry.eventId (putIdentity change index entry) =
      (writtenRow change index entry).registrationNorms := by
  unfold aliasesOf
  rw [lookup_putIdentity hkey, if_pos rfl]
  rfl

theorem primaryOf_put_ne (hkey : ∀ row, (change entry row).eventId = row.eventId) {e : Uuid}
    (he : e ≠ entry.eventId) : primaryOf e (putIdentity change index entry) = primaryOf e index := by
  unfold primaryOf
  rw [lookup_putIdentity hkey, if_neg he]

theorem primaryOf_put_self (hkey : ∀ row, (change entry row).eventId = row.eventId) :
    primaryOf entry.eventId (putIdentity change index entry) =
      (writtenRow change index entry).registrationNorm := by
  unfold primaryOf
  rw [lookup_putIdentity hkey, if_pos rfl]
  rfl

/-- The list an upsert writes. -/
theorem aliases_updated (hentry : Recent.recent maxRegistrationAliases entry.registrationNorms =
    entry.registrationNorms) :
    (writtenRow EventIdentityIndex.updatedBy index entry).registrationNorms =
      recent maxRegistrationAliases (aliasesOf entry.eventId index ++ entry.registrationNorms) := by
  unfold writtenRow aliasesOf
  cases lookup EventIdentityIndex.eventId entry.eventId index with
  | none => exact hentry.symm
  | some row => rfl

/-- The list an enrichment writes. -/
theorem aliases_enriched (hentry : Recent.recent maxRegistrationAliases entry.registrationNorms =
    entry.registrationNorms) :
    (writtenRow EventIdentityIndex.enrichedBy index entry).registrationNorms =
      recent maxRegistrationAliases (aliasesOf entry.eventId index ++ (entry.registrationNorms ++
        if (lookup EventIdentityIndex.eventId entry.eventId index).isSome then
          entry.registrationNorm.toList
        else [])) := by
  unfold writtenRow aliasesOf
  cases lookup EventIdentityIndex.eventId entry.eventId index with
  | none => simpa using hentry.symm
  | some row =>
      simp only [Option.elim_some, EventIdentityIndex.enrichedBy, capAliases_eq, List.append_assoc]
      rfl

theorem primary_updated :
    (writtenRow EventIdentityIndex.updatedBy index entry).registrationNorm =
      entry.registrationNorm.or (primaryOf entry.eventId index) := by
  unfold writtenRow primaryOf
  cases lookup EventIdentityIndex.eventId entry.eventId index with
  | none => simp
  | some row => rfl

theorem primary_enriched :
    (writtenRow EventIdentityIndex.enrichedBy index entry).registrationNorm =
      (primaryOf entry.eventId index).or entry.registrationNorm := by
  unfold writtenRow primaryOf
  cases lookup EventIdentityIndex.eventId entry.eventId index with
  | none => simp
  | some row => rfl

end Put

/-- Recording a registration twice in a row is recording it once. -/
theorem recent_twice (n : Nat) (xs : List Text) (p : Option Text) :
    recent n (xs ++ p.toList ++ p.toList) = recent n (xs ++ p.toList) := by
  cases p with
  | none => simp
  | some p =>
      have hone : recent n [p, p] = recent n [p] := by simp [recent]
      rw [Option.toList_some, List.append_assoc, ← recent_append_right,
        List.singleton_append, hone, recent_append_right]

/-- What the list of a merge's source stands for. -/
theorem recent_merged (xs ys : List Text) (p : Option Text) (again : Bool) :
    recent maxRegistrationAliases
        (xs ++ (capAliases (ys ++ p.toList) ++ if again then p.toList else [])) =
      recent maxRegistrationAliases (xs ++ (ys ++ p.toList)) := by
  rw [← recent_append_right, capAliases_eq, recent_append_left]
  cases again with
  | false => simp [recent_append_right]
  | true => rw [if_pos rfl, recent_twice, recent_append_right]

section Steps

variable [PyText] [PyRepr]

/-- What a submission's list stands for. -/
theorem recent_entry (xs : List Text) (fields : ClaimFields) (ys : List Text) :
    recent maxRegistrationAliases (xs ++ (capAliases (registrationNormAliases fields) ++ ys)) =
      recent maxRegistrationAliases (xs ++ (registrationNormAliases fields ++ ys)) := by
  rw [← recent_append_right, capAliases_eq, recent_append_left, recent_append_right]

/-- **One write** cuts the list and what it records. -/
theorem aliasesOf_step {e : Uuid} {index : List EventIdentityIndex} (hcapped : Capped e index)
    (op : IdentityOp) :
    aliasesOf e (identityStep index op) =
      recent maxRegistrationAliases (aliasesOf e index ++ recordedAliases e index op) := by
  have hnothing : aliasesOf e index = recent maxRegistrationAliases (aliasesOf e index ++ []) := by
    rw [List.append_nil]
    exact hcapped.symm
  cases op with
  | upsert e' fields now =>
      simp only [identityStep, recordedAliases, upsertIdentity]
      by_cases hfits : (buildIdentityEntry e' fields now).fits = true
      · rw [if_pos hfits]
        by_cases he : e' = e
        · subst he
          have hlist := @aliases_updated index (buildIdentityEntry e' fields now) recent_recent
          rw [if_pos ⟨rfl, hfits⟩]
          refine (aliasesOf_put_self fun _ => rfl).trans (hlist.trans ?_)
          have hsame := recent_entry (aliasesOf e' index) fields []
          rw [List.append_nil, List.append_nil] at hsame
          exact hsame
        · rw [if_neg fun h => he h.1, aliasesOf_put_ne (fun _ => rfl) (Ne.symm he)]
          exact hnothing
      · rw [if_neg hfits, if_neg fun h => hfits h.2]
        exact hnothing
  | enrich e' fields now =>
      simp only [identityStep, recordedAliases, enrichIdentityIndexFromAlias]
      by_cases hfits : (buildIdentityEntry e' fields now).fits = true
      · rw [if_pos hfits]
        by_cases he : e' = e
        · subst he
          have hlist := @aliases_enriched index (buildIdentityEntry e' fields now) recent_recent
          rw [if_pos ⟨rfl, hfits⟩]
          refine (aliasesOf_put_self fun _ => rfl).trans (hlist.trans ?_)
          exact recent_entry (aliasesOf e' index) fields _
        · rw [if_neg fun h => he h.1, aliasesOf_put_ne (fun _ => rfl) (Ne.symm he)]
          exact hnothing
      · rw [if_neg hfits, if_neg fun h => hfits h.2]
        exact hnothing
  | merge source target now =>
      simp only [identityStep, recordedAliases, mergeIdentityIndex]
      cases hsource : lookup EventIdentityIndex.eventId source index with
      | none =>
          have hsourceAliases : aliasesOf source index = [] := by simp [aliasesOf, hsource]
          have hsourcePrimary : primaryOf source index = none := by simp [primaryOf, hsource]
          simp only [hsourceAliases, hsourcePrimary, Option.toList_none, List.append_nil, ite_self]
          exact hcapped.symm
      | some row =>
          have hsourceAliases : aliasesOf source index = row.registrationNorms := by
            simp [aliasesOf, hsource]
          have hsourcePrimary : primaryOf source index = row.registrationNorm := by
            simp [primaryOf, hsource]
          rw [hsourceAliases, hsourcePrimary]
          dsimp only
          by_cases ht : target = e
          · subst ht
            rw [if_pos rfl]
            have hlist := @aliases_enriched index
              { row with
                eventId := target
                registrationNorms := capAliases (row.registrationNorms ++ row.registrationNorm.toList)
                updatedAt := now } recent_recent
            refine (aliasesOf_put_self fun _ => rfl).trans (hlist.trans ?_)
            exact recent_merged _ _ _ _
          · rw [if_neg ht, aliasesOf_put_ne (fun _ => rfl) (Ne.symm ht)]
            exact hnothing

/-- The primary registration after a write. -/
theorem primaryOf_step (e : Uuid) (index : List EventIdentityIndex) (op : IdentityOp) :
    primaryOf e (identityStep index op) = primaryBehind e index op := by
  cases op with
  | upsert e' fields now =>
      simp only [identityStep, primaryBehind, upsertIdentity]
      by_cases hfits : (buildIdentityEntry e' fields now).fits = true
      · rw [if_pos hfits]
        by_cases he : e' = e
        · subst he
          have hprimary := @primary_updated index (buildIdentityEntry e' fields now)
          rw [if_pos ⟨rfl, hfits⟩]
          exact (primaryOf_put_self fun _ => rfl).trans hprimary
        · rw [if_neg fun h => he h.1, primaryOf_put_ne (fun _ => rfl) (Ne.symm he)]
      · rw [if_neg hfits, if_neg fun h => hfits h.2]
  | enrich e' fields now =>
      simp only [identityStep, primaryBehind, enrichIdentityIndexFromAlias]
      by_cases hfits : (buildIdentityEntry e' fields now).fits = true
      · rw [if_pos hfits]
        by_cases he : e' = e
        · subst he
          have hprimary := @primary_enriched index (buildIdentityEntry e' fields now)
          rw [if_pos ⟨rfl, hfits⟩]
          exact (primaryOf_put_self fun _ => rfl).trans hprimary
        · rw [if_neg fun h => he h.1, primaryOf_put_ne (fun _ => rfl) (Ne.symm he)]
      · rw [if_neg hfits, if_neg fun h => hfits h.2]
  | merge source target now =>
      simp only [identityStep, primaryBehind, mergeIdentityIndex]
      cases hsource : lookup EventIdentityIndex.eventId source index with
      | none =>
          have hsourcePrimary : primaryOf source index = none := by simp [primaryOf, hsource]
          rw [hsourcePrimary, Option.or_none, ite_self]
      | some row =>
          have hsourcePrimary : primaryOf source index = row.registrationNorm := by
            simp [primaryOf, hsource]
          rw [hsourcePrimary]
          dsimp only
          by_cases ht : target = e
          · subst ht
            have hprimary := @primary_enriched index
              { row with
                eventId := target
                registrationNorms := capAliases (row.registrationNorms ++ row.registrationNorm.toList)
                updatedAt := now }
            rw [if_pos rfl]
            exact (primaryOf_put_self fun _ => rfl).trans hprimary
          · rw [if_neg ht, primaryOf_put_ne (fun _ => rfl) (Ne.symm ht)]

/-- The registration of a submission is one of those it records. -/
theorem mem_registrationNormAliases {fields : ClaimFields} {p : Text}
    (h : normReg (fields "registration") = some p) : p ∈ registrationNormAliases fields := by
  unfold registrationNormAliases
  rw [mem_distinct, List.mem_filterMap]
  exact ⟨_, List.mem_cons_self, h⟩

/-- A primary registration was the primary one before, or it is recorded. -/
theorem primaryBehind_recorded {e : Uuid} {index : List EventIdentityIndex} {op : IdentityOp} {p : Text}
    (h : primaryBehind e index op = some p) :
    primaryOf e index = some p ∨ p ∈ recordedAliases e index op := by
  cases op with
  | upsert e' fields now =>
      simp only [primaryBehind, recordedAliases] at h ⊢
      split at h
      · rename_i hhere
        rw [if_pos hhere]
        rcases Option.or_eq_some_iff.mp h with hp | ⟨-, hp⟩
        · exact .inr (mem_registrationNormAliases hp)
        · exact .inl hp
      · exact .inl h
  | enrich e' fields now =>
      simp only [primaryBehind, recordedAliases] at h ⊢
      split at h
      · rename_i hhere
        rw [if_pos hhere]
        rcases Option.or_eq_some_iff.mp h with hp | ⟨-, hp⟩
        · exact .inl hp
        · exact .inr (List.mem_append_left _ (mem_registrationNormAliases hp))
      · exact .inl h
  | merge source target now =>
      simp only [primaryBehind, recordedAliases] at h ⊢
      split at h
      · rename_i hhere
        rw [if_pos hhere]
        rcases Option.or_eq_some_iff.mp h with hp | ⟨-, hp⟩
        · exact .inl hp
        · right
          rw [hp]
          exact List.mem_append_right _ (by simp)
      · exact .inl h

/-! ## A run -/

/-- The list stands for the log. -/
theorem aliasesOf_run {e : Uuid} {index : List EventIdentityIndex} {log : List Text}
    (h : aliasesOf e index = recent maxRegistrationAliases log) (ops : List IdentityOp) :
    aliasesOf e (run identityStep index ops) =
      recent maxRegistrationAliases (log ++ collect identityStep (recordedAliases e) index ops) := by
  induction ops generalizing index log with
  | nil => rw [collect, List.append_nil, run_nil, h]
  | cons op ops ih =>
      have hcapped : Capped e index := by
        unfold Capped
        rw [h, recent_recent]
      have hstep := aliasesOf_step hcapped op
      rw [h, recent_append_left] at hstep
      rw [run_cons, ih hstep, collect, List.append_assoc]

/-- **The log.**  After a run the row holds the five most recent distinct registrations recorded
for the event. -/
theorem aliasesOf_eq_recent (e : Uuid) (ops : List IdentityOp) :
    aliasesOf e (run identityStep [] ops) = recent maxRegistrationAliases (aliasLog e ops) := by
  have hempty : aliasesOf e [] = recent maxRegistrationAliases ([] : List Text) := recent_nil.symm
  exact aliasesOf_run hempty ops

/-- A registration that was primary was recorded. -/
theorem primary_recorded {e : Uuid} {p : Text} {index : List EventIdentityIndex}
    {ops : List IdentityOp} (h : primaryOf e (run identityStep index ops) = some p) :
    primaryOf e index = some p ∨ p ∈ collect identityStep (recordedAliases e) index ops := by
  induction ops generalizing index with
  | nil => exact .inl h
  | cons op ops ih =>
      rw [collect, List.mem_append]
      rcases ih h with hstep | hlater
      · rw [primaryOf_step] at hstep
        rcases primaryBehind_recorded hstep with hbefore | hhere
        · exact .inl hbefore
        · exact .inr (.inl hhere)
      · exact .inr (.inr hlater)

/-- A longer run records more. -/
theorem mem_aliasLog_append {e : Uuid} {p : Text} {pre mid : List IdentityOp}
    (h : p ∈ aliasLog e pre) : p ∈ aliasLog e (pre ++ mid) := by
  obtain ⟨before, op, after, rfl, hout⟩ := mem_collect.mp h
  exact mem_collect.mpr ⟨before, op, after ++ mid, by simp, hout⟩

/-! ## The primary registration in the list -/

/-- The row's list holds its primary registration. -/
def HoldsPrimary (e : Uuid) (index : List EventIdentityIndex) : Prop :=
  ∀ p, primaryOf e index = some p → p ∈ aliasesOf e index

/-- Behind the write, fewer than five other registrations are newer than the primary one, in
the row's list and what the write records. -/
def KeepsPrimary (e : Uuid) (index : List EventIdentityIndex) (op : IdentityOp) : Prop :=
  ∀ p, primaryBehind e index op = some p →
    (newer p (aliasesOf e index ++ recordedAliases e index op)).length < maxRegistrationAliases

theorem capped_step {e : Uuid} {index : List EventIdentityIndex} (op : IdentityOp)
    (h : Capped e index) : Capped e (identityStep index op) := by
  unfold Capped
  rw [aliasesOf_step h, recent_recent]

theorem holdsPrimary_step {e : Uuid} {index : List EventIdentityIndex} (op : IdentityOp)
    (hcapped : Capped e index) (hprimary : HoldsPrimary e index) :
    HoldsPrimary e (identityStep index op) ↔ KeepsPrimary e index op := by
  unfold HoldsPrimary KeepsPrimary
  rw [aliasesOf_step hcapped, primaryOf_step]
  refine forall₂_congr fun p hp => ?_
  have hmem : p ∈ aliasesOf e index ++ recordedAliases e index op := by
    rcases primaryBehind_recorded hp with hbefore | hhere
    · exact List.mem_append_left _ (hprimary p hbefore)
    · exact List.mem_append_right _ hhere
  rw [mem_recent, and_iff_right hmem]

/-- The registrations of the event are retained along a run. -/
structure AliasesRetained (e : Uuid) (ops : List IdentityOp) : Prop where
  nodup : EveryState identityStep (fun index => (aliasesOf e index).Nodup) [] ops
  bounded : EveryState identityStep
    (fun index => (aliasesOf e index).length ≤ maxRegistrationAliases) [] ops
  primary : EveryState identityStep (HoldsPrimary e) [] ops
  -- `newer` are the distinct registrations recorded behind the last mention
  retained : ∀ pre mid, pre ++ mid <+: ops → ∀ p, primaryOf e (run identityStep [] pre) = some p →
    p ∈ aliasesOf e (run identityStep [] (pre ++ mid)) ∨
      maxRegistrationAliases ≤ (newer p (aliasLog e (pre ++ mid))).length

/-- The entity and the repository cut a list to the same one, whatever the order in which the
query comes to the groups, and to equal places. -/
def SameCaps : Prop :=
  ∀ (tie : Text → Text → Prop) [DecidableRel tie] (groups value : List Text),
    groups.Perm value.dedup → cappedJsonbUnion tie groups value = capRegistrationNorms value

/-- A registration leaves the list only behind five newer ones. -/
theorem primary_retained {e : Uuid} {pre mid : List IdentityOp} {p : Text}
    (h : primaryOf e (run identityStep [] pre) = some p) :
    p ∈ aliasesOf e (run identityStep [] (pre ++ mid)) ∨
      maxRegistrationAliases ≤ (newer p (aliasLog e (pre ++ mid))).length := by
  have hlog : p ∈ aliasLog e (pre ++ mid) := by
    rcases primary_recorded h with hstart | hlog
    · cases hstart
    · exact mem_aliasLog_append hlog
  rw [aliasesOf_eq_recent, mem_recent, and_iff_right hlog]
  exact lt_or_ge _ _

/-- **Retained registrations.**  The list of an event is without repeats, bounded, retains what was
primary, and is the same in the entity and the repository; and it holds the primary registration
all along a run exactly when every write leaves fewer than five newer ones. -/
theorem aliases_retained_iff (e : Uuid) (ops : List IdentityOp) :
    AliasesRetained e ops ∧ SameCaps ↔ EveryStep identityStep (KeepsPrimary e) [] ops := by
  have hcapped : Capped e [] := recent_nil
  have hstart : HoldsPrimary e [] := by
    intro p hp
    cases hp
  have hexact : EveryState identityStep (HoldsPrimary e) [] ops ↔
      EveryStep identityStep (KeepsPrimary e) [] ops :=
    everyState_iff_everyStep (fun _ op h => capped_step op h) (fun _ op => holdsPrimary_step op)
      hcapped hstart ops
  rw [← hexact]
  refine ⟨fun h => h.1.primary, fun h => ⟨⟨?_, ?_, h, ?_⟩, ?_⟩⟩
  · intro pre _
    rw [aliasesOf_eq_recent]
    exact nodup_recent
  · intro pre _
    rw [aliasesOf_eq_recent]
    exact length_recent_le
  · intro pre mid _ p hp
    exact primary_retained hp
  · intro tie _ groups value hgroups
    rw [cappedJsonbUnion_eq tie hgroups, capRegistrationNorms_eq]

end Steps

/-- A submission with one registration and five more numbers. -/
def sixRegistrations : ClaimFields := fun name =>
  if name = "registration" then .str "N1"
  else if name = "aircraft_registration_numbers" then
    .arr [.str "N2", .str "N3", .str "N4", .str "N5", .str "N6"]
  else .null

theorem further_numbers_evict_the_primary :
    ¬ (AliasesRetained 5 [.upsert 5 sixRegistrations 0] ∧ SameCaps) := by
  rintro ⟨h, -⟩
  have hlast := h.primary [.upsert 5 sixRegistrations 0] (List.prefix_refl _) ['n', '1'] (by decide +kernel)
  revert hlast
  decide +kernel

end Atlas
