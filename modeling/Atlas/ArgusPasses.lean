import Atlas.ArgusDetection
import Atlas.EchoSignals

/-!
# What a detection pass leaves

A pass finds, raises and links.  After it every finding of the engines that ran stands: its signal
is there, at least as severe, with all the evidence linked.  Nothing stands weaker than before, the
result counts what is new, and a second pass over the same sources raises nothing more.

All this is lost when a read fails at the database: the tables are as they were, and the result still
counts what the engines before had raised.
-/

namespace Atlas

open Rows ArgusWorld

/-- The finding stands in the tables. -/
def Stands [PyText] (t : ArgusTables) (f : ArgusFinding) : Prop :=
  ∃ s, lookup ArgusSignal.dedupeKey f.key t.signals = some s ∧
    (f.severity.rank ≤ s.severity.rank ∧ f.confidence ≤ s.confidence) ∧ s.status ≠ .autoResolved ∧
      ∀ e ∈ f.evidence, (⟨s.id, e.1, e.2⟩ : ArgusSignalEvidence) ∈ t.evidence

/-- Every signal is there, not weaker, in the status it had unless that was AUTO_RESOLVED, and
every link is. -/
structure Grows (t t' : ArgusTables) : Prop where
  signals : ∀ k s, lookup ArgusSignal.dedupeKey k t.signals = some s →
    ∃ s', lookup ArgusSignal.dedupeKey k t'.signals = some s' ∧ s'.id = s.id ∧
      (s.severity.rank ≤ s'.severity.rank ∧ s.confidence ≤ s'.confidence) ∧
        (s.status ≠ .autoResolved → s'.status = s.status)
  evidence : ∀ e ∈ t.evidence, e ∈ t'.evidence

section Grows

variable {t t' t'' : ArgusTables}

theorem Grows.refl (t : ArgusTables) : Grows t t where
  signals _ s hs := ⟨s, hs, rfl, ⟨le_rfl, le_rfl⟩, fun _ => rfl⟩
  evidence _ he := he

theorem Grows.trans (h : Grows t t') (h' : Grows t' t'') : Grows t t'' where
  signals := by
    intro k s hs
    obtain ⟨s', hs', hid, ⟨hseverity, hconfidence⟩, hstatus⟩ := h.signals k s hs
    obtain ⟨s'', hs'', hid', ⟨hseverity', hconfidence'⟩, hstatus'⟩ := h'.signals k s' hs'
    refine ⟨s'', hs'', hid'.trans hid, ⟨hseverity.trans hseverity', hconfidence.trans hconfidence'⟩, ?_⟩
    intro hne
    have hsame := hstatus hne
    exact (hstatus' (hsame ▸ hne)).trans hsame
  evidence e he := h'.evidence e (h.evidence e he)

theorem Stands.mono [PyText] {f : ArgusFinding} (h : Stands t f) (hgrows : Grows t t') : Stands t' f := by
  obtain ⟨s, hs, ⟨hseverity, hconfidence⟩, hstatus, hevidence⟩ := h
  obtain ⟨s', hs', hid, ⟨hseverity', hconfidence'⟩, hstatus'⟩ := hgrows.signals _ s hs
  refine ⟨s', hs', ⟨hseverity.trans hseverity', hconfidence.trans hconfidence'⟩, ?_, ?_⟩
  · rw [hstatus' hstatus]
    exact hstatus
  · intro e he
    rw [hid]
    exact hgrows.evidence _ (hevidence e he)

end Grows

namespace Detection

variable {d : Detection} {signal : ArgusSignal}

/-! ## One signal -/

/-- The row under the dedupe key after an upsert. -/
def persisted (d : Detection) (signal : ArgusSignal) : ArgusSignal :=
  (lookup ArgusSignal.dedupeKey signal.dedupeKey d.tables.signals).elim
    { signal with status := .open, version := 1 } signal.refresh

theorem upsertSignal_id (d : Detection) (signal : ArgusSignal) :
    (d.upsertSignal signal).1 = (d.persisted signal).id := by
  unfold upsertSignal
  dsimp only
  rw [TenantDb.persistedSignal_eq]
  rfl

theorem lookup_upsertSignal (d : Detection) (signal : ArgusSignal) (k : String) :
    lookup ArgusSignal.dedupeKey k (d.upsertSignal signal).2.tables.signals =
      if k = signal.dedupeKey then some (d.persisted signal)
      else lookup ArgusSignal.dedupeKey k d.tables.signals :=
  @lookup_upsertWith _ _ _ ArgusSignal.dedupeKey k { signal with status := .open, version := 1 }
    signal.refresh (fun _ => rfl) d.tables.signals

theorem grows_upsertSignal (d : Detection) (signal : ArgusSignal) :
    Grows d.tables (d.upsertSignal signal).2.tables where
  signals := by
    intro k s hs
    rw [lookup_upsertSignal]
    by_cases hk : k = signal.dedupeKey
    · subst hk
      rw [if_pos rfl, persisted, hs]
      exact ⟨_, rfl, rfl, ⟨refresh_rank signal s, refresh_confidence signal s⟩, refresh_status signal⟩
    · rw [if_neg hk]
      exact ⟨s, hs, rfl, ⟨le_rfl, le_rfl⟩, fun _ => rfl⟩
  evidence _ he := he

/-- The result after an upsert whose key is there. -/
theorem result_upsertSignal_of_some {old : ArgusSignal}
    (h : lookup ArgusSignal.dedupeKey signal.dedupeKey d.tables.signals = some old) :
    (d.upsertSignal signal).2.result = { d.result with
      signalsReusedCount := d.result.signalsReusedCount + 1
      signalIds := insertKey d.result.signalIds (d.persisted signal).id } := by
  rw [← upsertSignal_id]
  unfold upsertSignal
  dsimp only
  rw [h]
  rfl

/-- The result after an upsert whose key is new. -/
theorem result_upsertSignal_of_none
    (h : lookup ArgusSignal.dedupeKey signal.dedupeKey d.tables.signals = none) :
    (d.upsertSignal signal).2.result = { d.result with
      signalsCreatedCount := d.result.signalsCreatedCount + 1
      signalsCreatedByType := countType signal.signalType d.result.signalsCreatedByType
      signalIds := insertKey d.result.signalIds (d.persisted signal).id } := by
  rw [← upsertSignal_id]
  unfold upsertSignal
  dsimp only
  rw [h]
  rfl

/-- The row is at least as severe and as certain as the signal, and not auto-resolved. -/
theorem persisted_strong (d : Detection) (signal : ArgusSignal) :
    (signal.severity.rank ≤ (d.persisted signal).severity.rank ∧
      signal.confidence ≤ (d.persisted signal).confidence) ∧
        (d.persisted signal).status ≠ .autoResolved := by
  unfold persisted
  cases lookup ArgusSignal.dedupeKey signal.dedupeKey d.tables.signals with
  | none =>
      refine ⟨⟨le_rfl, le_rfl⟩, ?_⟩
      intro hresolved
      cases hresolved
  | some old =>
      unfold ArgusSignal.refresh
      refine ⟨⟨?_, ?_⟩, ?_⟩
      · dsimp only [Option.elim_some]
        split
        · exact le_rfl
        · rename_i hle
          exact Nat.le_of_not_lt hle
      · dsimp only [Option.elim_some]
        split
        · exact le_rfl
        · rename_i hle
          exact not_lt.mp hle
      · dsimp only [Option.elim_some]
        split
        · decide
        · rename_i hne
          exact hne

/-! ## The links of a signal -/

/-- Link the evidence of a finding. -/
def link (signalId : Uuid) (d : Detection) (evidence : List (ArgusEvidenceType × Uuid)) : Detection :=
  evidence.foldl (fun d e => d.upsertEvidence ⟨signalId, e.1, e.2⟩) d

variable {signalId : Uuid} {evidence : List (ArgusEvidenceType × Uuid)}

theorem link_cons (signalId : Uuid) (d : Detection) (e : ArgusEvidenceType × Uuid)
    (evidence : List (ArgusEvidenceType × Uuid)) :
    d.link signalId (e :: evidence) = (d.upsertEvidence ⟨signalId, e.1, e.2⟩).link signalId evidence := rfl

theorem signals_link (signalId : Uuid) (d : Detection) (evidence : List (ArgusEvidenceType × Uuid)) :
    (d.link signalId evidence).tables.signals = d.tables.signals := by
  induction evidence generalizing d with
  | nil => rfl
  | cons e evidence ih => exact ih _

theorem mem_link {e : ArgusSignalEvidence} :
    e ∈ (d.link signalId evidence).tables.evidence ↔
      e ∈ d.tables.evidence ∨ ∃ x ∈ evidence, e = ⟨signalId, x.1, x.2⟩ := by
  induction evidence generalizing d with
  | nil => simp [link]
  | cons x evidence ih =>
      have hone : e ∈ (d.upsertEvidence ⟨signalId, x.1, x.2⟩).tables.evidence ↔
          e ∈ d.tables.evidence ∨ e = ⟨signalId, x.1, x.2⟩ := TenantDb.mem_upsertEvidence
      rw [link_cons, ih, hone, or_assoc]
      simp only [List.mem_cons, exists_eq_or_imp]

/-- Linking what is linked does nothing. -/
theorem link_of_linked
    (h : ∀ e ∈ evidence, (⟨signalId, e.1, e.2⟩ : ArgusSignalEvidence) ∈ d.tables.evidence) :
    d.link signalId evidence = d := by
  induction evidence with
  | nil => rfl
  | cons e evidence ih =>
      have hone : d.upsertEvidence ⟨signalId, e.1, e.2⟩ = d := by
        have he := h e List.mem_cons_self
        unfold upsertEvidence Atlas.upsertEvidence
        rw [if_pos he, if_pos he]
      rw [link_cons, hone]
      exact ih fun x hx => h x (List.mem_cons_of_mem e hx)

/-! ## One finding -/

variable [PyText] {f : ArgusFinding} {now : Time}

/-- The signal of a finding as it is raised. -/
def raised (d : Detection) (now : Time) (f : ArgusFinding) : ArgusSignal :=
  f.signal d.tables.nextId now

theorem raise_eq (now : Time) (d : Detection) (f : ArgusFinding) :
    d.raise now f = (d.uuid4.2.upsertSignal (d.raised now f)).2.link
      (d.uuid4.2.persisted (d.raised now f)).id f.evidence := by
  rw [← upsertSignal_id]
  rfl

theorem grows_raise (now : Time) (d : Detection) (f : ArgusFinding) :
    Grows d.tables (d.raise now f).tables := by
  have hupsert := grows_upsertSignal d.uuid4.2 (d.raised now f)
  rw [raise_eq]
  constructor
  · intro k s hs
    rw [signals_link]
    exact hupsert.signals k s hs
  · intro e he
    exact mem_link.mpr (.inl (hupsert.evidence e he))

/-- **A finding that is raised stands.** -/
theorem stands_raise (now : Time) (d : Detection) (f : ArgusFinding) :
    Stands (d.raise now f).tables f := by
  obtain ⟨hstrong, hstatus⟩ := d.uuid4.2.persisted_strong (d.raised now f)
  rw [raise_eq]
  refine ⟨d.uuid4.2.persisted (d.raised now f), ?_, hstrong, hstatus, ?_⟩
  · rw [signals_link, lookup_upsertSignal]
    exact if_pos rfl
  · intro e he
    exact mem_link.mpr (.inr ⟨e, he, rfl⟩)

theorem grows_foldl (now : Time) (d : Detection) (fs : List ArgusFinding) :
    Grows d.tables (fs.foldl (.raise now) d).tables := by
  induction fs generalizing d with
  | nil => exact .refl _
  | cons f fs ih => exact (grows_raise now d f).trans (ih _)

/-- After a list of findings is raised, they all stand. -/
theorem stands_foldl {fs : List ArgusFinding} (hf : f ∈ fs) (now : Time) (d : Detection) :
    Stands (fs.foldl (.raise now) d).tables f := by
  induction fs generalizing d with
  | nil => cases hf
  | cons g fs ih =>
      cases List.mem_cons.mp hf with
      | inl heq =>
          subst heq
          exact (stands_raise now d f).mono (grows_foldl now _ fs)
      | inr hmem => exact ih hmem _

/-! ## Raising again -/

/-- The signal, whenever it was detected. -/
def untimed (s : ArgusSignal) : ArgusSignal := { s with lastDetectedAt := 0 }

/-- Nothing new: no signal, no link, and the signals there are as they were. -/
structure Quiet (d d' : Detection) : Prop where
  created : d'.result.signalsCreatedCount = d.result.signalsCreatedCount
  linked : d'.result.evidenceLinksCreatedCount = d.result.evidenceLinksCreatedCount
  signals : d'.tables.signals.map untimed = d.tables.signals.map untimed
  evidence : d'.tables.evidence = d.tables.evidence

omit [PyText] in
theorem Quiet.refl (d : Detection) : Quiet d d := ⟨rfl, rfl, rfl, rfl⟩

omit [PyText] in
theorem Quiet.trans {d' d'' : Detection} (h : Quiet d d') (h' : Quiet d' d'') : Quiet d d'' :=
  ⟨h'.created.trans h.created, h'.linked.trans h.linked, h'.signals.trans h.signals,
    h'.evidence.trans h.evidence⟩

omit [PyText] in
/-- A refresh that brings nothing stronger changes the time only. -/
theorem untimed_refresh {new old : ArgusSignal} (hseverity : new.severity.rank ≤ old.severity.rank)
    (hconfidence : new.confidence ≤ old.confidence) (hstatus : old.status ≠ .autoResolved) :
    untimed (new.refresh old) = untimed old := by
  unfold ArgusSignal.refresh untimed
  rw [if_neg hstatus, if_neg (Nat.not_lt.mpr hseverity), if_neg (not_lt.mpr hconfidence)]

/-- **A finding that stands is raised quietly.** -/
theorem quiet_raise (h : Stands d.tables f) (now : Time) : Quiet d (d.raise now f) := by
  obtain ⟨s, hs, ⟨hseverity, hconfidence⟩, hstatus, hevidence⟩ := h
  have hthere : lookup ArgusSignal.dedupeKey (d.raised now f).dedupeKey d.uuid4.2.tables.signals =
      some s := hs
  have hid : (d.uuid4.2.persisted (d.raised now f)).id = s.id := by
    unfold persisted
    rw [hthere]
    rfl
  have hlinked : (d.uuid4.2.upsertSignal (d.raised now f)).2.link s.id f.evidence =
      (d.uuid4.2.upsertSignal (d.raised now f)).2 := link_of_linked hevidence
  rw [raise_eq, hid, hlinked]
  refine ⟨?_, ?_, ?_, rfl⟩
  · rw [result_upsertSignal_of_some hthere]
    rfl
  · rw [result_upsertSignal_of_some hthere]
    rfl
  · obtain ⟨hmem, hkey⟩ := lookup_some hs
    show (Atlas.upsertSignal d.tables.signals (d.raised now f)).map untimed = _
    unfold Atlas.upsertSignal upsertWith
    rw [if_pos ⟨s, hmem, hkey⟩]
    apply map_updateWhere_of_mem
    intro r hr hrkey
    have hsame : r = s := d.tables.unique.eq_of_key hr hmem ((of_decide_eq_true hrkey).trans hkey.symm)
    subst hsame
    exact untimed_refresh hseverity hconfidence hstatus

/-! ## The account of a pass -/

/-- The result tells what is new since the start: how many signals, by type and in all, how many
links, and which signals were raised; those that were not are as they were. -/
structure Accounts (t : ArgusTables) (now : Time) (r : ArgusDetectionResult) (t' : ArgusTables) :
    Prop where
  created : t'.signals.length = t.signals.length + r.signalsCreatedCount
  linked : t'.evidence = t.evidence ++ r.evidenceIds
  links : r.evidenceIds.length = r.evidenceLinksCreatedCount
  byType : (r.signalsCreatedByType.map Prod.snd).sum = r.signalsCreatedCount
  types : Unique Prod.fst r.signalsCreatedByType
  ids : r.signalIds.Nodup
  touched : ∀ id ∈ r.signalIds, ∃ s ∈ t'.signals, s.id = id ∧ s.lastDetectedAt = now
  others : ∀ s ∈ t'.signals, s.id ∉ r.signalIds → s ∈ t.signals

section Accounts

omit [PyText]

variable {t : ArgusTables}

theorem accounts_start (t : ArgusTables) (now : Time) :
    Accounts t now (start t).result (start t).tables where
  created := rfl
  linked := (List.append_nil _).symm
  links := rfl
  byType := rfl
  types := unique_nil _
  ids := List.nodup_nil
  touched _ h := by cases h
  others _ hs _ := hs

theorem sum_increment (p : ArgusSignalType × Nat → Bool) (counts : List (ArgusSignalType × Nat)) :
    ((updateWhere p (fun x => (x.1, x.2 + 1)) counts).map Prod.snd).sum =
      (counts.map Prod.snd).sum + counts.countP p := by
  induction counts with
  | nil => rfl
  | cons x counts ih =>
      rw [updateWhere_cons, List.map_cons, List.sum_cons, ih, List.map_cons, List.sum_cons,
        List.countP_cons]
      cases p x with
      | true =>
          rw [if_pos rfl, if_pos rfl]
          omega
      | false =>
          rw [if_neg Bool.false_ne_true, if_neg Bool.false_ne_true]
          omega

theorem sum_countType {counts : List (ArgusSignalType × Nat)} (h : Unique Prod.fst counts)
    (signalType : ArgusSignalType) :
    ((countType signalType counts).map Prod.snd).sum = (counts.map Prod.snd).sum + 1 := by
  unfold countType upsertWith
  split
  · rename_i hthere
    obtain ⟨r, hr, hkey⟩ := hthere
    have hkey : r.1 = signalType := hkey
    subst hkey
    have hone := h.filter_key hr
    rw [sum_increment, List.countP_eq_length_filter, hone]
    rfl
  · rw [List.map_append, List.sum_append]
    rfl

/-- The rows after a signal is put. -/
theorem length_upsertSignal (signals : List ArgusSignal) (signal : ArgusSignal) :
    (Atlas.upsertSignal signals signal).length = signals.length +
      if (lookup ArgusSignal.dedupeKey signal.dedupeKey signals).isNone then 1 else 0 := by
  unfold Atlas.upsertSignal upsertWith
  cases hold : lookup ArgusSignal.dedupeKey signal.dedupeKey signals with
  | none =>
      have hnone := lookup_none.mp hold
      rw [if_neg (by simpa using hnone), List.length_append]
      rfl
  | some old =>
      obtain ⟨hmem, hkey⟩ := lookup_some hold
      rw [if_pos ⟨old, hmem, hkey⟩, updateWhere, List.length_map]
      rfl

/-- A signal after an upsert: the one that was raised, at the time, or one as it was. -/
theorem mem_upsertSignal_cases {s : ArgusSignal}
    (hs : s ∈ (d.upsertSignal signal).2.tables.signals) :
    (s = d.persisted signal) ∨ s ∈ d.tables.signals ∧ s.dedupeKey ≠ signal.dedupeKey := by
  have hunique := (d.upsertSignal signal).2.tables.unique
  by_cases hkey : s.dedupeKey = signal.dedupeKey
  · left
    have hfound := hunique.lookup_eq hs
    rw [lookup_upsertSignal, if_pos hkey] at hfound
    exact (Option.some.inj hfound).symm
  · right
    rcases mem_upsertSignal.mp hs with ⟨hold, hne⟩ | ⟨old, hold, hsame, rfl⟩ | ⟨rfl, -⟩
    · exact ⟨hold, hne⟩
    · exact absurd hsame hkey
    · exact absurd rfl hkey

theorem mem_persisted (d : Detection) (signal : ArgusSignal) :
    d.persisted signal ∈ (d.upsertSignal signal).2.tables.signals := by
  have hfound := lookup_upsertSignal d signal signal.dedupeKey
  rw [if_pos rfl] at hfound
  exact (lookup_some hfound).1

theorem persisted_time (d : Detection) (signal : ArgusSignal) :
    (d.persisted signal).lastDetectedAt = signal.lastDetectedAt := by
  unfold persisted
  cases lookup ArgusSignal.dedupeKey signal.dedupeKey d.tables.signals with
  | none => rfl
  | some old => rfl

theorem wrote_upsertSignal (d : Detection) (signal : ArgusSignal) :
    0 < (d.upsertSignal signal).2.result.signalsCreatedCount +
      (d.upsertSignal signal).2.result.signalsReusedCount := by
  cases hold : lookup ArgusSignal.dedupeKey signal.dedupeKey d.tables.signals with
  | none =>
      rw [result_upsertSignal_of_none hold]
      exact Nat.lt_of_lt_of_le (Nat.succ_pos _) (Nat.le_add_right _ _)
  | some old =>
      rw [result_upsertSignal_of_some hold]
      exact Nat.lt_of_lt_of_le (Nat.succ_pos _) (Nat.le_add_left _ _)

/-- A raised signal, in the account. -/
theorem Accounts.upsertSignal (h : Accounts t now d.result d.tables)
    (hnow : signal.lastDetectedAt = now) :
    Accounts t now (d.upsertSignal signal).2.result (d.upsertSignal signal).2.tables := by
  have hids : (d.upsertSignal signal).2.result.signalIds =
      insertKey d.result.signalIds (d.persisted signal).id := by
    cases hold : lookup ArgusSignal.dedupeKey signal.dedupeKey d.tables.signals with
    | none => rw [result_upsertSignal_of_none hold]
    | some old => rw [result_upsertSignal_of_some hold]
  have htouched : ∀ id ∈ (d.upsertSignal signal).2.result.signalIds,
      ∃ s ∈ (d.upsertSignal signal).2.tables.signals, s.id = id ∧ s.lastDetectedAt = now := by
    intro id hid
    rw [hids, mem_insertKey] at hid
    cases hid with
    | inr heq => exact ⟨_, mem_persisted d signal, heq.symm, (persisted_time d signal).trans hnow⟩
    | inl hold =>
        obtain ⟨s, hs, hsid, htime⟩ := h.touched id hold
        by_cases hkey : s.dedupeKey = signal.dedupeKey
        · have hfound := d.tables.unique.lookup_eq hs
          rw [hkey] at hfound
          refine ⟨_, mem_persisted d signal, ?_, (persisted_time d signal).trans hnow⟩
          unfold persisted
          rw [hfound]
          exact hsid
        · exact ⟨s, mem_upsertSignal.mpr (.inl ⟨hs, hkey⟩), hsid, htime⟩
  have hothers : ∀ s ∈ (d.upsertSignal signal).2.tables.signals,
      s.id ∉ (d.upsertSignal signal).2.result.signalIds → s ∈ t.signals := by
    intro s hs hnot
    rw [hids, mem_insertKey, not_or] at hnot
    cases mem_upsertSignal_cases hs with
    | inl heq => exact absurd (congrArg ArgusSignal.id heq) hnot.2
    | inr hold => exact h.others s hold.1 hnot.1
  have hlength := length_upsertSignal d.tables.signals signal
  have hids' : (d.upsertSignal signal).2.result.signalIds.Nodup := by
    rw [hids]
    exact nodup_insertKey h.ids _
  cases hold : lookup ArgusSignal.dedupeKey signal.dedupeKey d.tables.signals with
  | none =>
      have hresult := result_upsertSignal_of_none hold
      rw [hold] at hlength
      refine ⟨?_, ?_, ?_, ?_, ?_, hids', htouched, hothers⟩
      · rw [hresult]
        exact hlength.trans (by rw [h.created]; rfl)
      · rw [hresult]
        exact h.linked
      · rw [hresult]
        exact h.links
      · rw [hresult]
        exact (sum_countType h.types signal.signalType).trans (congrArg (· + 1) h.byType)
      · rw [hresult]
        exact h.types.upsertWith fun _ => rfl
  | some old =>
      have hresult := result_upsertSignal_of_some hold
      rw [hold] at hlength
      refine ⟨?_, ?_, ?_, ?_, ?_, hids', htouched, hothers⟩
      · rw [hresult]
        exact hlength.trans h.created
      · rw [hresult]
        exact h.linked
      · rw [hresult]
        exact h.links
      · rw [hresult]
        exact h.byType
      · rw [hresult]
        exact h.types

/-- A link, in the account. -/
theorem Accounts.upsertEvidence (h : Accounts t now d.result d.tables) (e : ArgusSignalEvidence) :
    Accounts t now (d.upsertEvidence e).result (d.upsertEvidence e).tables := by
  unfold Detection.upsertEvidence Atlas.upsertEvidence
  by_cases he : e ∈ d.tables.evidence
  · rw [if_pos he, if_pos he]
    exact h
  · rw [if_neg he, if_neg he]
    refine ⟨h.created, ?_, ?_, h.byType, h.types, h.ids, h.touched, h.others⟩
    · show d.tables.evidence ++ [e] = t.evidence ++ (d.result.evidenceIds ++ [e])
      rw [h.linked, List.append_assoc]
    · show (d.result.evidenceIds ++ [e]).length = _
      rw [List.length_append, h.links]
      rfl

theorem Accounts.link (h : Accounts t now d.result d.tables) (signalId : Uuid)
    (evidence : List (ArgusEvidenceType × Uuid)) :
    Accounts t now (d.link signalId evidence).result (d.link signalId evidence).tables := by
  induction evidence generalizing d with
  | nil => exact h
  | cons e evidence ih => exact ih (h.upsertEvidence _)

theorem wrote_link (signalId : Uuid) (evidence : List (ArgusEvidenceType × Uuid))
    (h : 0 < d.result.signalsCreatedCount + d.result.signalsReusedCount) :
    0 < (d.link signalId evidence).result.signalsCreatedCount +
      (d.link signalId evidence).result.signalsReusedCount := by
  induction evidence generalizing d with
  | nil => exact h
  | cons e evidence ih =>
      rw [link_cons]
      apply ih
      unfold Detection.upsertEvidence
      dsimp only
      split
      · exact h
      · exact h

end Accounts

/-- **One finding**, in the account. -/
theorem Accounts.raise {t : ArgusTables} (h : Accounts t now d.result d.tables) (f : ArgusFinding) :
    Accounts t now (d.raise now f).result (d.raise now f).tables := by
  have hdrawn : Accounts t now d.uuid4.2.result d.uuid4.2.tables :=
    ⟨h.created, h.linked, h.links, h.byType, h.types, h.ids, h.touched, h.others⟩
  have hraised : Accounts t now (d.uuid4.2.upsertSignal (d.raised now f)).2.result
      (d.uuid4.2.upsertSignal (d.raised now f)).2.tables := hdrawn.upsertSignal rfl
  rw [raise_eq]
  exact hraised.link _ _

theorem wrote_raise (now : Time) (d : Detection) (f : ArgusFinding) :
    0 < (d.raise now f).result.signalsCreatedCount + (d.raise now f).result.signalsReusedCount := by
  rw [raise_eq]
  exact wrote_link _ _ (wrote_upsertSignal d.uuid4.2 (d.raised now f))

omit [PyText] in
theorem aborted_link (signalId : Uuid) (d : Detection) (evidence : List (ArgusEvidenceType × Uuid)) :
    (d.link signalId evidence).aborted = d.aborted := by
  induction evidence generalizing d with
  | nil => rfl
  | cons e evidence ih => exact ih _

/-- Findings do not abort the transaction. -/
theorem aborted_foldl (now : Time) (d : Detection) (fs : List ArgusFinding) :
    (fs.foldl (.raise now) d).aborted = d.aborted := by
  induction fs generalizing d with
  | nil => rfl
  | cons f fs ih =>
      have hone : (d.raise now f).aborted = d.aborted := by
        rw [raise_eq, aborted_link]
        rfl
      exact (ih _).trans hone

end Detection

/-! ## The engines -/

namespace RunArgusSignalDetectionInput

/-- The engine is asked for, and has something to do. -/
def runs (input : RunArgusSignalDetectionInput) : ArgusEngine → Bool
  | .chronos => input.includeChronos
  | .hermes => input.includeHermes
  | .atlas => input.includeAtlas && decide (2 ≤ input.highConflictThreshold)
  | .orion => false

/-- The engine is asked for, and its read succeeds. -/
def reads (input : RunArgusSignalDetectionInput) (engine : ArgusEngine) : Bool :=
  input.runs engine && decide (input.read engine = .answers)

/-- Some engine that is asked for has its read fail at the database. -/
def aborts (input : RunArgusSignalDetectionInput) : Bool :=
  [ArgusEngine.chronos, .hermes, .atlas].any fun engine =>
    input.runs engine && decide (input.read engine = .aborts)

end RunArgusSignalDetectionInput

namespace ArgusSources

variable [PyText] (src : ArgusSources) (input : RunArgusSignalDetectionInput)

/-- What an engine finds. -/
def findings : ArgusEngine → List ArgusFinding
  | .chronos => (src.listPending input.recentLimit.toNat).map chronosFinding
  | .hermes => hermesFindings (src.listRecent input.recentLimit.toNat)
  | .atlas =>
      (src.countOpenConflictsPerEvent input.highConflictThreshold.toNat input.recentLimit.toNat).map
        fun p => src.conflictFinding p.1 p.2
  | .orion => []

/-- One engine of a pass. -/
def runEngine (d : Detection) (engine : ArgusEngine) : Detection :=
  if input.runs engine then
    d.guarded engine (input.read engine) fun d => (src.findings input engine).foldl (.raise input.now) d
  else d

/-- A pass runs its engines one after another. -/
theorem detect_eq (tables : ArgusTables) : src.detect input tables =
    (fun d : Detection => if input.includeOrion then d.skipped .orion else d)
      ([.chronos, .hermes, .atlas].foldl (src.runEngine input) (.start tables)) := by
  have hatlas : ∀ d, (if input.includeAtlas then src.detectAtlas input d else d) =
      src.runEngine input d .atlas := by
    intro d
    unfold runEngine
    cases hinclude : input.includeAtlas with
    | false =>
        have hruns : input.runs .atlas = false := by
          simp [RunArgusSignalDetectionInput.runs, hinclude]
        rw [hruns]
        rfl
    | true =>
        by_cases hlow : input.highConflictThreshold < 2
        · have hruns : input.runs .atlas = false := by
            simp [RunArgusSignalDetectionInput.runs, hlow]
          rw [hruns, if_pos rfl, detectAtlas, if_pos hlow]
          rfl
        · have hruns : input.runs .atlas = true := by
            simp [RunArgusSignalDetectionInput.runs, hinclude, Int.not_lt.mp hlow]
          rw [hruns, if_pos rfl, if_pos rfl, detectAtlas, if_neg hlow]
          rfl
  unfold detect
  dsimp only
  rw [hatlas]
  rfl

variable {src input} {t t' : ArgusTables} {d : Detection}

/-! ### What every step of a pass keeps -/

section Steps

variable {P : Detection → Prop} (herrored : ∀ d engine, P d → P (d.errored engine))
  (haborted : ∀ d, P d → P { d with aborted := true })
  (hraise : ∀ d engine, input.reads engine = true → ∀ f ∈ src.findings input engine, P d →
    P (d.raise input.now f))

include hraise in
theorem foldl_raise_induction {engine : ArgusEngine} (hreads : input.reads engine = true)
    {fs : List ArgusFinding} (hfs : ∀ f ∈ fs, f ∈ src.findings input engine) (h : P d) :
    P (fs.foldl (.raise input.now) d) := by
  induction fs generalizing d with
  | nil => exact h
  | cons f fs ih =>
      apply ih
      · intro g hg
        exact hfs g (List.mem_cons_of_mem f hg)
      · exact hraise d engine hreads f (hfs f List.mem_cons_self) h

include herrored haborted hraise in
theorem runEngine_induction (h : P d) (engine : ArgusEngine) : P (src.runEngine input d engine) := by
  unfold runEngine Detection.guarded
  by_cases hruns : input.runs engine = true
  · rw [if_pos hruns]
    split
    · exact herrored d engine h
    · cases hread : input.read engine with
      | answers =>
          refine foldl_raise_induction hraise ?_ (fun f hf => hf) h
          simp [RunArgusSignalDetectionInput.reads, hruns, hread]
      | raises => exact herrored d engine h
      | aborts => exact haborted _ (herrored d engine h)
  · rw [if_neg hruns]
    exact h

include herrored haborted hraise in
/-- **Invariant rule of a pass.** -/
theorem detect_induction (hskipped : ∀ d engine, P d → P (d.skipped engine))
    (h : P (.start t)) : P (src.detect input t) := by
  have hengines : P ([.chronos, .hermes, .atlas].foldl (src.runEngine input) (.start t)) := by
    have hstep := fun d engine (hd : P d) => runEngine_induction herrored haborted hraise hd engine
    exact hstep _ .atlas (hstep _ .hermes (hstep _ .chronos h))
  rw [detect_eq]
  dsimp only
  split
  · exact hskipped _ _ hengines
  · exact hengines

end Steps

/-- A transaction is aborted by the read of an engine, and stays so. -/
theorem aborted_runEngine (d : Detection) (engine : ArgusEngine) :
    (src.runEngine input d engine).aborted =
      (d.aborted || input.runs engine && decide (input.read engine = .aborts)) := by
  unfold runEngine Detection.guarded
  cases hruns : input.runs engine with
  | false => simp
  | true =>
      cases haborted : d.aborted with
      | true => simpa [Detection.errored] using haborted
      | false =>
          cases hread : input.read engine with
          | answers => simpa using (Detection.aborted_foldl input.now d _).trans haborted
          | raises => simpa [Detection.errored] using haborted
          | aborts => simp

variable (src input) in
theorem aborted_detect (t : ArgusTables) : (src.detect input t).aborted = input.aborts := by
  have hengines : ([.chronos, .hermes, .atlas].foldl (src.runEngine input) (.start t)).aborted =
      input.aborts := by
    simp [aborted_runEngine, RunArgusSignalDetectionInput.aborts, Detection.start, Bool.or_assoc]
  rw [detect_eq]
  dsimp only
  split
  · exact hengines
  · exact hengines

theorem grows_detect (t : ArgusTables) : Grows t (src.detect input t).tables := by
  apply detect_induction (P := fun d => Grows t d.tables)
  · intro d engine h
    exact h
  · intro d h
    exact h
  · intro d engine _ f _ h
    exact h.trans (Detection.grows_raise input.now d f)
  · intro d engine h
    exact h
  · exact .refl t

variable (src input) in
/-- What a pass did is on account, and it did nothing or wrote something. -/
theorem accounts_detect (t : ArgusTables) :
    Detection.Accounts t input.now (src.detect input t).result (src.detect input t).tables ∧
      (0 < (src.detect input t).result.signalsCreatedCount +
        (src.detect input t).result.signalsReusedCount ∨ (src.detect input t).tables = t) := by
  apply detect_induction (P := fun d => Detection.Accounts t input.now d.result d.tables ∧
    (0 < d.result.signalsCreatedCount + d.result.signalsReusedCount ∨ d.tables = t))
  · intro d engine ⟨h, hwrote⟩
    exact ⟨⟨h.created, h.linked, h.links, h.byType, h.types, h.ids, h.touched, h.others⟩, hwrote⟩
  · intro d h
    exact h
  · intro d engine _ f _ ⟨h, _⟩
    exact ⟨h.raise f, .inl (Detection.wrote_raise input.now d f)⟩
  · intro d engine ⟨h, hwrote⟩
    exact ⟨⟨h.created, h.linked, h.links, h.byType, h.types, h.ids, h.touched, h.others⟩, hwrote⟩
  · exact ⟨Detection.accounts_start t input.now, .inr rfl⟩

/-- The tables that a pass leaves.  A rollback has nothing to undo, unless the transaction was
aborted: then it undoes all. -/
theorem run_ok {result : ArgusDetectionResult} :
    src.runArgusSignalDetection input t = some (result, t') ↔
      (1 ≤ input.recentLimit ∧ input.recentLimit ≤ 1000) ∧ result = (src.detect input t).result ∧
        t' = if input.aborts then t else (src.detect input t).tables := by
  unfold runArgusSignalDetection
  by_cases hlimit : 1 ≤ input.recentLimit ∧ input.recentLimit ≤ 1000
  · have htables : (if (src.detect input t).result.signalsCreatedCount +
          (src.detect input t).result.signalsReusedCount +
          (src.detect input t).result.evidenceLinksCreatedCount > 0 ∧
            (src.detect input t).aborted = false then
        (src.detect input t).tables else t) =
          if input.aborts then t else (src.detect input t).tables := by
      rw [aborted_detect]
      cases input.aborts with
      | true => simp
      | false =>
          simp only [and_true, Bool.false_eq_true, if_false]
          split
          · rfl
          · rename_i hnothing
            cases (accounts_detect src input t).2 with
            | inl hwrote => exact absurd (Nat.lt_of_lt_of_le hwrote (Nat.le_add_right _ _)) hnothing
            | inr hsame => exact hsame.symm
    rw [if_pos hlimit]
    dsimp only
    rw [htables, Option.some.injEq, Prod.mk.injEq]
    constructor
    · intro ⟨hresult, hleft⟩
      exact ⟨hlimit, hresult.symm, hleft.symm⟩
    · intro ⟨_, hresult, hleft⟩
      exact ⟨hresult.symm, hleft.symm⟩
  · rw [if_neg hlimit]
    constructor
    · intro h
      cases h
    · intro h
      exact absurd h.1 hlimit

/-- The findings of the engines that read stand at the end of a pass that is not aborted. -/
theorem stands_detect (hkept : input.aborts = false) {engine : ArgusEngine}
    (hreads : input.reads engine = true) {f : ArgusFinding} (hf : f ∈ src.findings input engine)
    (t : ArgusTables) : Stands (src.detect input t).tables f := by
  have hruns : input.runs engine = true := (Bool.and_eq_true_iff.mp hreads).1
  have hread : input.read engine = .answers := of_decide_eq_true (Bool.and_eq_true_iff.mp hreads).2
  have hgrows : ∀ d e, Grows d.tables (src.runEngine input d e).tables := by
    intro d e
    apply runEngine_induction (P := fun d' => Grows d.tables d'.tables)
    · intro d' engine h
      exact h
    · intro d' h
      exact h
    · intro d' engine _ g _ h
      exact h.trans (Detection.grows_raise input.now d' g)
    · exact .refl d.tables
  have hone : ∀ d : Detection, d.aborted = false → Stands (src.runEngine input d engine).tables f := by
    intro d hd
    unfold runEngine Detection.guarded
    rw [if_pos hruns, if_neg (by simp [hd]), hread]
    exact Detection.stands_foldl hf input.now d
  -- no engine before this one has aborted the transaction
  have hclear : ∀ (d : Detection) (e : ArgusEngine), e ∈ [ArgusEngine.chronos, .hermes, .atlas] →
      d.aborted = false → (src.runEngine input d e).aborted = false := by
    intro d e he hd
    rw [aborted_runEngine, hd, Bool.false_or]
    exact Bool.eq_false_of_not_eq_true (List.any_eq_false.mp hkept e he)
  have hchronos := hclear (.start t) .chronos (by simp) rfl
  have hhermes := hclear _ .hermes (by simp) hchronos
  have hengines : Stands
      ([.chronos, .hermes, .atlas].foldl (src.runEngine input) (.start t)).tables f := by
    cases engine with
    | chronos => exact ((hone _ rfl).mono (hgrows _ .hermes)).mono (hgrows _ .atlas)
    | hermes => exact (hone _ hchronos).mono (hgrows _ .atlas)
    | atlas => exact hone _ hhermes
    | orion => cases hf
  rw [detect_eq]
  dsimp only
  split
  · exact hengines
  · exact hengines

/-! ### What there is to find -/

omit [PyText] in
theorem changeFinding_mem {changes : List LoggedChange} {c : LoggedChange} (hc : c ∈ changes)
    (hfailed : c.changeType ≠ .fetchFailed) (hunchanged : c.changeType ≠ .contentUnchanged) :
    changeFinding c ∈ hermesFindings changes := by
  apply List.mem_append_left
  exact List.mem_map_of_mem (List.mem_filter.mpr ⟨hc, decide_eq_true ⟨hfailed, hunchanged⟩⟩)

omit [PyText] in
theorem spikeFinding_mem {changes : List LoggedChange} {targetId : Uuid}
    (h : fetchFailureSpikeThreshold ≤ (failuresOf changes targetId).length) :
    spikeFinding targetId (failuresOf changes targetId) ∈ hermesFindings changes := by
  have hsome : ∃ c, c ∈ failuresOf changes targetId :=
    List.exists_mem_of_length_pos (Nat.lt_of_lt_of_le (by decide) h)
  obtain ⟨c, hc⟩ := hsome
  obtain ⟨hmem, hfailed⟩ := List.mem_filter.mp hc
  have hfailed := of_decide_eq_true hfailed
  apply List.mem_append_right
  apply List.mem_map_of_mem (f := fun t => spikeFinding t (failuresOf changes t))
  refine List.mem_filter.mpr ⟨mem_distinct.mpr (List.mem_map.mpr ⟨c, ?_, hfailed.2⟩), decide_eq_true h⟩
  exact List.mem_filter.mpr ⟨hmem, decide_eq_true hfailed.1⟩

/-- The events with so many open conflicts. -/
def highConflictEvents (src : ArgusSources) (minCount : Nat) : List Uuid :=
  (distinct ((src.conflicts.filter fun c => decide (c.status = .open)).map ClaimConflict.eventId)).filter
    fun e => decide (minCount ≤ (src.openConflicts e).length)

omit [PyText] in
theorem mem_countOpenConflictsPerEvent {minCount limit : Nat} (hmin : 0 < minCount)
    (hlimit : (src.highConflictEvents minCount).length ≤ limit) {eventId : Uuid}
    (h : minCount ≤ (src.openConflicts eventId).length) :
    (eventId, (src.openConflicts eventId).length) ∈ src.countOpenConflictsPerEvent minCount limit := by
  have hsome : ∃ c, c ∈ src.openConflicts eventId :=
    List.exists_mem_of_length_pos (Nat.lt_of_lt_of_le hmin h)
  obtain ⟨c, hc⟩ := hsome
  obtain ⟨hmem, hopen⟩ := List.mem_filter.mp hc
  have hopen := of_decide_eq_true hopen
  unfold countOpenConflictsPerEvent
  dsimp only
  rw [List.filter_map, List.take_of_length_le]
  · rw [List.mem_insertionSort]
    apply List.mem_map_of_mem (f := fun e => (e, (src.openConflicts e).length))
    refine List.mem_filter.mpr ⟨mem_distinct.mpr (List.mem_map.mpr ⟨c, ?_, hopen.1⟩), decide_eq_true h⟩
    exact List.mem_filter.mpr ⟨hmem, decide_eq_true hopen.2⟩
  · rw [List.length_insertionSort, List.length_map]
    exact hlimit

/-- What the sources hold, within the limits of the reads, stands in the tables. -/
structure Complete (src : ArgusSources) (input : RunArgusSignalDetectionInput) (t : ArgusTables) :
    Prop where
  reviews : input.reads .chronos = true → ∀ review ∈ src.listPending input.recentLimit.toNat,
    Stands t (chronosFinding review)
  changes : input.reads .hermes = true → ∀ change ∈ src.listRecent input.recentLimit.toNat,
    change.changeType ≠ .fetchFailed → change.changeType ≠ .contentUnchanged →
      Stands t (changeFinding change)
  spikes : input.reads .hermes = true → ∀ targetId failures,
    failures = failuresOf (src.listRecent input.recentLimit.toNat) targetId →
      fetchFailureSpikeThreshold ≤ failures.length → Stands t (spikeFinding targetId failures)
  conflicts : input.reads .atlas = true → ∀ eventId,
    (src.highConflictEvents input.highConflictThreshold.toNat).length ≤ input.recentLimit.toNat →
      input.highConflictThreshold ≤ (src.openConflicts eventId).length →
        Stands t (src.conflictFinding eventId (src.openConflicts eventId).length)

/-- **A pass is complete.**  Whatever the engines that could read have among what they read stands in
the Argus tables after the pass: pending reviews, changes of sources, bursts of failed fetches and
events with many open conflicts, each with a signal that is severe enough and linked to all of its
evidence.  No signal or link that was there is lost or weakened.  But where a read fails at the
database the tables are as they were. -/
theorem detection_complete {result : ArgusDetectionResult}
    (h : src.runArgusSignalDetection input t = some (result, t')) :
    (input.aborts = false → src.Complete input t' ∧ Grows t t') ∧ (input.aborts = true → t' = t) := by
  obtain ⟨_, _, rfl⟩ := run_ok.mp h
  refine ⟨?_, fun haborts => if_pos haborts⟩
  intro hkept
  rw [if_neg (by simp [hkept])]
  refine ⟨⟨?_, ?_, ?_, ?_⟩, grows_detect t⟩
  · intro hreads review hreview
    exact stands_detect hkept hreads (List.mem_map_of_mem hreview) t
  · intro hreads change hchange hfailed hunchanged
    exact stands_detect hkept hreads (changeFinding_mem hchange hfailed hunchanged) t
  · intro hreads targetId failures hfailures hcount
    subst hfailures
    exact stands_detect hkept hreads (spikeFinding_mem hcount) t
  · intro hreads eventId hlimit hcount
    have hmin : 2 ≤ input.highConflictThreshold := by
      have hruns : input.runs .atlas = true := (Bool.and_eq_true_iff.mp hreads).1
      exact of_decide_eq_true (Bool.and_eq_true_iff.mp hruns).2
    have hmem := mem_countOpenConflictsPerEvent (by omega) hlimit (Int.toNat_le.mpr hcount)
    exact stands_detect hkept hreads
      (List.mem_map_of_mem (f := fun p => src.conflictFinding p.1 p.2) hmem) t

/-- **The result of a pass accounts for it.**  It counts the signals that are new in what the pass
wrote, in all and by type, and lists the links that are new and the signals raised: these were
detected now, and every other signal is as it was.  What the pass wrote is what it leaves, unless a
read failed at the database: then the tables are as they were, whatever the result counts. -/
theorem detection_accounts {result : ArgusDetectionResult}
    (h : src.runArgusSignalDetection input t = some (result, t')) :
    ∃ written, Detection.Accounts t input.now result written ∧
      t' = if input.aborts then t else written := by
  obtain ⟨_, rfl, rfl⟩ := run_ok.mp h
  exact ⟨_, (accounts_detect src input t).1, rfl⟩

/-- **A pass after a pass finds nothing new.**  When no read fails at the database, a second pass
with the same settings over the same sources, at any time, makes no signal and no link, and leaves
every signal as it was but for the time of its detection. -/
theorem detection_again {result : ArgusDetectionResult} (hkept : input.aborts = false)
    (h : src.runArgusSignalDetection input t = some (result, t')) (later : Time) :
    ∃ result' t'', src.runArgusSignalDetection { input with now := later } t' = some (result', t'') ∧
      (result'.signalsCreatedCount = 0 ∧ result'.evidenceLinksCreatedCount = 0) ∧
      t''.signals.map Detection.untimed = t'.signals.map Detection.untimed ∧
      t''.evidence = t'.evidence := by
  obtain ⟨hlimit, _, rfl⟩ := run_ok.mp h
  have hagain : RunArgusSignalDetectionInput.aborts { input with now := later } = false := hkept
  rw [if_neg (by simp [hkept])]
  refine ⟨_, _, run_ok.mpr ⟨hlimit, rfl, rfl⟩, ?_⟩
  rw [if_neg (by simp [hagain])]
  have hquiet : Detection.Quiet (.start (src.detect input t).tables)
        (src.detect { input with now := later } (src.detect input t).tables) ∧
      Grows (src.detect input t).tables
        (src.detect { input with now := later } (src.detect input t).tables).tables := by
    apply detect_induction (P := fun d => Detection.Quiet (.start (src.detect input t).tables) d ∧
      Grows (src.detect input t).tables d.tables)
    · intro d engine ⟨hd, hgrows⟩
      exact ⟨⟨hd.created, hd.linked, hd.signals, hd.evidence⟩, hgrows⟩
    · intro d ⟨hd, hgrows⟩
      exact ⟨⟨hd.created, hd.linked, hd.signals, hd.evidence⟩, hgrows⟩
    · intro d engine hreads f hf ⟨hd, hgrows⟩
      -- the engines read the same sources at any time
      have hread : input.reads engine = true := hreads
      have hfound : f ∈ src.findings input engine := hf
      have hfirst := stands_detect hkept hread hfound t
      exact ⟨hd.trans (Detection.quiet_raise (hfirst.mono hgrows) later),
        hgrows.trans (Detection.grows_raise later d f)⟩
    · intro d engine ⟨hd, hgrows⟩
      exact ⟨⟨hd.created, hd.linked, hd.signals, hd.evidence⟩, hgrows⟩
    · exact ⟨.refl _, .refl _⟩
  exact ⟨⟨hquiet.1.created, hquiet.1.linked⟩, hquiet.1.signals, hquiet.1.evidence⟩

end ArgusSources

/-! ### A busy day -/

namespace ArgusSources

/-- A pending review, a target whose fetches fail, a source that changed and an event with three
open conflicts. -/
def busySources : ArgusSources where
  reviews := [⟨1, 5, 10, 11⟩]
  changes := ⟨⟨8, none, none, none, .contentChanged, none, none, 0⟩, 20⟩ ::
    (List.range 5).map fun i => ⟨⟨7, none, none, none, .fetchFailed, none, none, i⟩, 30 + i⟩
  conflicts := (List.range 3).map fun i =>
    ⟨40 + i, 5, toString i, .open, 1, .initial, none, none, none, none, i, i⟩

def everyEngine : RunArgusSignalDetectionInput where
  includeChronos := true
  includeHermes := true
  includeAtlas := true
  includeOrion := false
  recentLimit := 100
  highConflictThreshold := 3
  read _ := .answers
  now := 9

/-- The Hermes read fails at the database, after the Chronos engine raised its signal. -/
def hermesAborts : RunArgusSignalDetectionInput :=
  { everyEngine with read := fun engine => if engine = .hermes then .aborts else .answers }

example : (busySources.detect hermesAborts .empty).result.signalsCreatedCount = 1 ∧
    ((busySources.runArgusSignalDetection hermesAborts .empty).map fun p => p.2.signals) = some [] := by
  decide +kernel

theorem run_busy : busySources.runArgusSignalDetection everyEngine .empty =
    some ((busySources.detect everyEngine .empty).result,
      (busySources.detect everyEngine .empty).tables) := run_ok.mpr ⟨by decide, rfl, rfl⟩

theorem detection_complete_busy : ∃ result t',
    busySources.runArgusSignalDetection everyEngine .empty = some (result, t') ∧
      busySources.Complete everyEngine t' :=
  ⟨_, _, run_busy, ((detection_complete run_busy).1 (by decide)).1⟩

/-- The first pass raises four signals. -/
theorem detection_accounts_busy : ∃ result t',
    busySources.runArgusSignalDetection everyEngine .empty = some (result, t') ∧
      result.signalsCreatedCount = 4 ∧ Detection.Accounts .empty 9 result t' := by
  obtain ⟨written, haccounts, hleft⟩ := detection_accounts run_busy
  refine ⟨_, _, run_busy, by decide +kernel, ?_⟩
  rw [hleft]
  exact haccounts

/-- The second raises none. -/
theorem detection_again_busy : ∃ result t',
    busySources.runArgusSignalDetection everyEngine
      (busySources.detect everyEngine .empty).tables = some (result, t') ∧
        result.signalsCreatedCount = 0 ∧
          t'.evidence = (busySources.detect everyEngine .empty).tables.evidence := by
  obtain ⟨result, t', hagain, ⟨hcreated, _⟩, _, hevidence⟩ := detection_again (by decide) run_busy 9
  exact ⟨result, t', hagain, hcreated, hevidence⟩

end ArgusSources

end Atlas
