import Atlas.DateTexts
import Atlas.IdentityIndex
import Atlas.Lib.Runs

/-!
# Dates in the identity index

Three writes change the identity index: the upsert of an ingestion, the enrichment through
the row of a merged event, and the merge of two events.  A row's date is missing, a date, or
the empty text, which is what `_norm_date` makes of a text that it cannot read.

An upsert prefers the incoming values that are not null, and the empty text is not null.  So
an upsert with an unreadable date puts the empty text in the place of a date.
-/

namespace Atlas

open Rows Runs

/-! ## The writes of the index -/

inductive IdentityOp where
  | upsert (eventId : Uuid) (fields : ClaimFields) (now : Time)
  | enrich (eventId : Uuid) (fields : ClaimFields) (now : Time)
  | merge (source target : Uuid) (now : Time)

section Writes

variable [PyText] [PyRepr]

/-- One write.  An entry that the columns of the table refuse changes nothing. -/
def identityStep (index : List EventIdentityIndex) : IdentityOp → List EventIdentityIndex
  | .upsert e fields now =>
      let entry := buildIdentityEntry e fields now
      if entry.fits then upsertIdentity index entry else index
  | .enrich e fields now =>
      let entry := buildIdentityEntry e fields now
      if entry.fits then enrichIdentityIndexFromAlias index entry else index
  | .merge source target now => mergeIdentityIndex index source target now

end Writes

/-- A write of an entry is an upsert by the event. -/
theorem putIdentity_eq (change : EventIdentityIndex → EventIdentityIndex → EventIdentityIndex)
    (index : List EventIdentityIndex) (entry : EventIdentityIndex) :
    putIdentity change index entry =
      upsertWith EventIdentityIndex.eventId entry (change entry) index := by
  unfold putIdentity upsertWith
  simp

/-- The row a write leaves for the event of its entry. -/
def writtenRow (change : EventIdentityIndex → EventIdentityIndex → EventIdentityIndex)
    (index : List EventIdentityIndex) (entry : EventIdentityIndex) : EventIdentityIndex :=
  (lookup EventIdentityIndex.eventId entry.eventId index).elim entry (change entry)

section Put

variable {change : EventIdentityIndex → EventIdentityIndex → EventIdentityIndex}
  {index : List EventIdentityIndex} {entry : EventIdentityIndex}

theorem lookup_putIdentity (hkey : ∀ row, (change entry row).eventId = row.eventId) (e : Uuid) :
    lookup EventIdentityIndex.eventId e (putIdentity change index entry) =
      if e = entry.eventId then some (writtenRow change index entry)
      else lookup EventIdentityIndex.eventId e index := by
  rw [putIdentity_eq, lookup_upsertWith hkey]
  rfl

theorem unique_putIdentity (hkey : ∀ row, (change entry row).eventId = row.eventId)
    (hindex : Rows.Unique EventIdentityIndex.eventId index) :
    Rows.Unique EventIdentityIndex.eventId (putIdentity change index entry) := by
  rw [putIdentity_eq]
  exact hindex.upsertWith hkey

/-- A row after a write is the written one, or it was there before. -/
theorem mem_putIdentity (hindex : Rows.Unique EventIdentityIndex.eventId index)
    {row : EventIdentityIndex} (h : row ∈ putIdentity change index entry) :
    row = writtenRow change index entry ∨ row ∈ index := by
  rw [putIdentity_eq, mem_upsertWith] at h
  unfold writtenRow
  rcases h with ⟨hrow, -⟩ | ⟨old, hold, hevent, rfl⟩ | ⟨rfl, hnone⟩
  · exact .inr hrow
  · left
    rw [← hevent, hindex.lookup_eq hold]
    rfl
  · left
    rw [lookup_none.mpr hnone]
    rfl

end Put

section Unique

variable [PyText] [PyRepr]

/-- No write makes a second row for an event. -/
theorem unique_identityStep (index : List EventIdentityIndex) (op : IdentityOp)
    (h : Rows.Unique EventIdentityIndex.eventId index) :
    Rows.Unique EventIdentityIndex.eventId (identityStep index op) := by
  cases op with
  | upsert e fields now =>
      simp only [identityStep]
      split
      · exact unique_putIdentity (fun _ => rfl) h
      · exact h
  | enrich e fields now =>
      simp only [identityStep]
      split
      · exact unique_putIdentity (fun _ => rfl) h
      · exact h
  | merge source target now =>
      simp only [identityStep, mergeIdentityIndex]
      split
      · exact h
      · exact unique_putIdentity (fun _ => rfl) h

end Unique

/-! ## Dates -/

/-- The date of the row is missing, or it is one. -/
def EventIdentityIndex.DateValid (row : EventIdentityIndex) : Prop := row.eventDateNorm ≠ some none

/-- Every row's date is missing or a date. -/
def ValidDates (index : List EventIdentityIndex) : Prop := ∀ row ∈ index, row.DateValid

/-- The row of the event has a date. -/
def Dated (index : List EventIdentityIndex) (e : Uuid) : Prop :=
  ∃ row d, lookup EventIdentityIndex.eventId e index = some row ∧ row.eventDateNorm = some (some d)

theorem dateValid_iff {row : EventIdentityIndex} :
    row.DateValid ↔ row.eventDateNorm = none ∨ ∃ d, row.eventDateNorm = some (some d) := by
  unfold EventIdentityIndex.DateValid
  match row.eventDateNorm with
  | none => simp
  | some none => simp
  | some (some d) => simp

theorem validDates_put {change : EventIdentityIndex → EventIdentityIndex → EventIdentityIndex}
    {index : List EventIdentityIndex} {entry : EventIdentityIndex}
    (hkey : ∀ row, (change entry row).eventId = row.eventId)
    (hindex : Rows.Unique EventIdentityIndex.eventId index) (hvalid : ValidDates index) :
    ValidDates (putIdentity change index entry) ↔ (writtenRow change index entry).DateValid := by
  constructor
  · intro h
    have hlookup : lookup EventIdentityIndex.eventId entry.eventId (putIdentity change index entry) =
        if entry.eventId = entry.eventId then some (writtenRow change index entry)
        else lookup EventIdentityIndex.eventId entry.eventId index :=
      lookup_putIdentity hkey entry.eventId
    rw [if_pos rfl] at hlookup
    exact h _ (lookup_some hlookup).1
  · intro h row hrow
    rcases mem_putIdentity hindex hrow with rfl | hrow
    · exact h
    · exact hvalid row hrow

/-- The date after an upsert is valid exactly when the incoming one is. -/
theorem updatedBy_dateValid {entry row : EventIdentityIndex} (hrow : row.DateValid) :
    (entry.updatedBy row).DateValid ↔ entry.DateValid := by
  unfold EventIdentityIndex.DateValid EventIdentityIndex.updatedBy at *
  dsimp only
  cases hentry : entry.eventDateNorm with
  | none => simpa using hrow
  | some d => simp

/-- The date after an enrichment is valid exactly when the incoming one is, or the row has one. -/
theorem enrichedBy_dateValid {entry row : EventIdentityIndex} (hrow : row.DateValid) :
    (entry.enrichedBy row).DateValid ↔
      entry.DateValid ∨ ∃ d, row.eventDateNorm = some (some d) := by
  unfold EventIdentityIndex.DateValid EventIdentityIndex.enrichedBy at *
  dsimp only
  match hdate : row.eventDateNorm with
  | none => simp
  | some none => exact absurd hdate hrow
  | some (some d) => simp

/-- What the row of an alias enriches has a valid date. -/
theorem validDates_merge {index : List EventIdentityIndex}
    (hindex : Rows.Unique EventIdentityIndex.eventId index) (hvalid : ValidDates index)
    (source target : Uuid) (now : Time) :
    ValidDates (mergeIdentityIndex index source target now) := by
  unfold mergeIdentityIndex
  cases hsource : lookup EventIdentityIndex.eventId source index with
  | none => exact hvalid
  | some row =>
      have hrow : row.DateValid := hvalid row (lookup_some hsource).1
      dsimp only
      rw [validDates_put (fun _ => rfl) hindex hvalid]
      unfold writtenRow
      dsimp only
      cases hold : lookup EventIdentityIndex.eventId target index with
      | none => exact hrow
      | some old => exact (enrichedBy_dateValid (hvalid old (lookup_some hold).1)).mpr (.inl hrow)

/-- A write that does not empty the date of a row leaves it dated. -/
theorem dated_put {change : EventIdentityIndex → EventIdentityIndex → EventIdentityIndex}
    {index : List EventIdentityIndex} {entry : EventIdentityIndex}
    (hkey : ∀ row, (change entry row).eventId = row.eventId)
    (hdate : ∀ row, (change entry row).eventDateNorm = none → row.eventDateNorm = none)
    (hvalid : ValidDates (putIdentity change index entry)) {e : Uuid} (h : Dated index e) :
    Dated (putIdentity change index entry) e := by
  obtain ⟨row, d, hrow, hd⟩ := h
  have hlookup : lookup EventIdentityIndex.eventId e (putIdentity change index entry) =
      if e = entry.eventId then some (writtenRow change index entry)
      else lookup EventIdentityIndex.eventId e index := lookup_putIdentity hkey e
  by_cases he : e = entry.eventId
  · subst he
    rw [if_pos rfl] at hlookup
    have hwritten : writtenRow change index entry = change entry row := by
      unfold writtenRow
      rw [hrow]
      rfl
    rw [hwritten] at hlookup
    rcases dateValid_iff.mp (hvalid _ (lookup_some hlookup).1) with hnone | ⟨d', hd'⟩
    · rw [hdate row hnone] at hd
      cases hd
    · exact ⟨_, d', hlookup, hd'⟩
  · rw [if_neg he, hrow] at hlookup
    exact ⟨row, d, hlookup, hd⟩

section Runs

variable [PyText] [PyRepr]

/-- The field is empty, or its text spells a date. -/
def ReadableDate (value : Json) : Prop :=
  value.truthy = false ∨ ∃ d : PyDate, normText (pyStr value) ∈ d.spellings

/-- A submission leaves the empty text as the date exactly when its date cannot be read. -/
theorem buildIdentityEntry_dateValid {e : Uuid} {fields : ClaimFields} {now : Time} :
    (buildIdentityEntry e fields now).DateValid ↔ ReadableDate (fields "event_date") := by
  unfold EventIdentityIndex.DateValid ReadableDate buildIdentityEntry
  dsimp only
  by_cases htruthy : (fields "event_date").truthy = true
  · rw [if_pos htruthy]
    simp only [htruthy, Bool.true_eq_false, false_or, ne_eq, Option.some.injEq]
    rw [← ne_eq, Option.ne_none_iff_exists']
    exact exists_congr fun d => parseIsoDate_eq_some
  · rw [if_neg htruthy]
    simp [htruthy]

/-- The write does not put an unreadable date into the row: it has none, it is refused for
another column, or it comes through an alias and the row has a date. -/
def KeepsDates (index : List EventIdentityIndex) : IdentityOp → Prop
  | .upsert e fields now =>
      (buildIdentityEntry e fields now).fits → ReadableDate (fields "event_date")
  | .enrich e fields now =>
      (buildIdentityEntry e fields now).fits → ReadableDate (fields "event_date") ∨ Dated index e
  | .merge _ _ _ => True

/-- **One write.**  From valid dates a write goes to valid dates exactly when it keeps them. -/
theorem validDates_step (index : List EventIdentityIndex) (op : IdentityOp)
    (hindex : Rows.Unique EventIdentityIndex.eventId index) (hvalid : ValidDates index) :
    ValidDates (identityStep index op) ↔ KeepsDates index op := by
  cases op with
  | upsert e fields now =>
      simp only [identityStep, KeepsDates, upsertIdentity]
      by_cases hfits : (buildIdentityEntry e fields now).fits = true
      · rw [if_pos hfits, validDates_put (fun _ => rfl) hindex hvalid,
          ← @buildIdentityEntry_dateValid _ _ e fields now, forall_prop_of_true hfits]
        unfold writtenRow
        cases hold : lookup EventIdentityIndex.eventId (buildIdentityEntry e fields now).eventId index with
        | none => exact Iff.rfl
        | some old => exact updatedBy_dateValid (hvalid old (lookup_some hold).1)
      · rw [if_neg hfits]
        simp [hfits, hvalid]
  | enrich e fields now =>
      simp only [identityStep, KeepsDates, enrichIdentityIndexFromAlias]
      by_cases hfits : (buildIdentityEntry e fields now).fits = true
      · rw [if_pos hfits, validDates_put (fun _ => rfl) hindex hvalid,
          ← @buildIdentityEntry_dateValid _ _ e fields now, forall_prop_of_true hfits]
        unfold writtenRow Dated
        have hevent : (buildIdentityEntry e fields now).eventId = e := rfl
        rw [hevent]
        cases hold : lookup EventIdentityIndex.eventId e index with
        | none => simp
        | some old =>
            have hdate := @enrichedBy_dateValid (buildIdentityEntry e fields now) old
              (hvalid old (lookup_some hold).1)
            simpa using hdate
      · rw [if_neg hfits]
        simp [hfits, hvalid]
  | merge source target now =>
      exact iff_of_true (validDates_merge hindex hvalid source target now) trivial

/-- No row that has a date loses it in the write. -/
def DatesStay (index : List EventIdentityIndex) (op : IdentityOp) : Prop :=
  ∀ e, Dated index e → Dated (identityStep index op) e

/-- Where all dates stay valid, a dated row stays dated. -/
theorem datesStay_of_valid {index : List EventIdentityIndex} {op : IdentityOp}
    (hvalid : ValidDates (identityStep index op)) : DatesStay index op := by
  intro e hdated
  have hupdated (entry row : EventIdentityIndex) (h : (entry.updatedBy row).eventDateNorm = none) :
      row.eventDateNorm = none := by
    simp only [EventIdentityIndex.updatedBy, Option.or_eq_none_iff] at h
    exact h.2
  have henriched (entry row : EventIdentityIndex) (h : (entry.enrichedBy row).eventDateNorm = none) :
      row.eventDateNorm = none := by
    simp only [EventIdentityIndex.enrichedBy, Option.or_eq_none_iff] at h
    exact h.1
  cases op with
  | upsert e' fields now =>
      simp only [identityStep] at hvalid ⊢
      split at hvalid
      · rename_i hfits
        rw [if_pos hfits]
        exact dated_put (fun _ => rfl) (hupdated _) hvalid hdated
      · rename_i hfits
        rw [if_neg hfits]
        exact hdated
  | enrich e' fields now =>
      simp only [identityStep] at hvalid ⊢
      split at hvalid
      · rename_i hfits
        rw [if_pos hfits]
        exact dated_put (fun _ => rfl) (henriched _) hvalid hdated
      · rename_i hfits
        rw [if_neg hfits]
        exact hdated
  | merge source target now =>
      simp only [identityStep, mergeIdentityIndex] at hvalid ⊢
      split at hvalid
      · exact hdated
      · exact dated_put (fun _ => rfl) (henriched _) hvalid hdated

/-- **Identity dates.**  Along a run every row's date is missing or a date, and no row that has
a date loses it, exactly when no write puts an unreadable date into a row. -/
theorem dates_never_degrade_iff (ops : List IdentityOp) :
    EveryState identityStep ValidDates [] ops ∧ EveryStep identityStep DatesStay [] ops ↔
      EveryStep identityStep KeepsDates [] ops := by
  have hexact : EveryState identityStep ValidDates [] ops ↔ EveryStep identityStep KeepsDates [] ops :=
    everyState_iff_everyStep unique_identityStep validDates_step (unique_nil _) (by simp [ValidDates]) ops
  rw [← hexact, and_iff_left_iff_imp]
  intro hvalid pre op post heq
  have hnext : ValidDates (run identityStep [] (pre ++ [op])) := by
    refine hvalid _ ⟨post, ?_⟩
    rw [heq, List.append_assoc, List.singleton_append]
  rw [run_append] at hnext
  exact datesStay_of_valid hnext

end Runs

/-- A submission with nothing but a date. -/
def dateField (text : String) : ClaimFields := fun name =>
  if name = "event_date" then .str text else .null

/-- A date, and then a date with the month first. -/
def isoThenSlashes : List IdentityOp :=
  [.upsert 5 (dateField "2024-06-03") 0, .upsert 5 (dateField "06/03/2024") 1]

theorem slashes_empty_the_date :
    ¬ (EveryState identityStep ValidDates [] isoThenSlashes ∧
      EveryStep identityStep DatesStay [] isoThenSlashes) := by
  rintro ⟨hvalid, -⟩
  have hlast := hvalid isoThenSlashes (List.prefix_refl _)
  exact hlast ⟨5, some none, none, none, none, none, [], 1⟩ (by decide +kernel) rfl

end Atlas
