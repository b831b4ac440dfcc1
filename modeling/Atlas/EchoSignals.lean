import Atlas.EchoRuns
import Atlas.Lib.Codes
import Atlas.Lib.Subjects

/-!
# One signal for a report and a public event

Echo raises a signal under a key made of the tenant, the cross-reference result and
the public event.  Every request makes a new result, so a second request for the
same report that finds the same strong precedent raises a second signal, though
the code wants one signal for a tenant, a report and a public event.

A signal does not name its report: its evidence names the result, and its title the
event.
-/

namespace Atlas

open Outcome Rows

/-- `str.lower` leaves decimal numerals alone. -/
def PyText.KeepsDigits [PyText] : Prop := ∀ n : Nat, PyText.lower (toString n) = toString n

/-! ## The key -/

section Keys

theorem isSpace_of_mem_toDigits {n : Nat} {c : Char} (hc : c ∈ Nat.toDigits 10 n) :
    isSpace c = false := by
  have hdigit := Nat.isDigit_of_mem_toDigits (by omega) (by omega) hc
  rw [Char.isDigit_iff_toNat] at hdigit
  have hlow : 48 ≤ c.toNat := hdigit.1
  have hhigh : c.toNat ≤ 57 := hdigit.2
  simp only [isSpace, Bool.or_eq_false_iff, Bool.and_eq_false_iff, decide_eq_false_iff_not, beq_eq_false_iff_ne]
  omega

/-- A numeral has no space to strip. -/
theorem strip_toString (n : Nat) : strip (toString n) = toString n := by
  have hnone : ∀ cs : List Char, (∀ c ∈ cs, isSpace c = false) → cs.dropWhile isSpace = cs := by
    intro cs hcs
    cases cs with
    | nil => rfl
    | cons c cs => exact List.dropWhile_cons_of_neg (by simp [hcs c List.mem_cons_self])
  have hdigits : ∀ c ∈ (toString n).toList, isSpace c = false := by
    intro c hc
    rw [Nat.toString_eq_repr, Nat.toList_repr] at hc
    exact isSpace_of_mem_toDigits hc
  unfold strip stripChars
  rw [hnone _ hdigits, hnone, List.reverse_reverse, String.ofList_toList]
  intro c hc
  exact hdigits c (List.mem_reverse.mp hc)

theorem echoTitle_injective : Function.Injective TenantDb.echoTitle := by
  intro a b h
  unfold TenantDb.echoTitle at h
  exact Codes.toString_nat_injective ((String.append_right_inj _).mp h)

/-- Two numerals, each before a separator. -/
theorem toString_append_inj {a b : Nat} {r r' : List Char}
    (h : (toString a).toList ++ ':' :: r = (toString b).toList ++ ':' :: r') : a = b ∧ r = r' := by
  rw [Nat.toString_eq_repr, Nat.toString_eq_repr, Nat.toList_repr, Nat.toList_repr] at h
  have hdigit : ∀ n : Nat, ∀ c ∈ Nat.toDigits 10 n, c.isDigit = true := by
    intro n c hc
    exact Nat.isDigit_of_mem_toDigits (by omega) (by omega) hc
  have hcolon : ∀ cs, Codes.Leaves Char.isDigit (':' :: cs) := Codes.leaves_cons rfl
  obtain ⟨hab, hr⟩ := Codes.token_inj (hdigit a) (hdigit b) (hcolon r) (hcolon r') h
  exact ⟨Codes.toDigits_ten_injective hab, List.tail_eq_of_cons_eq hr⟩

end Keys

/-- What a signal is raised for. -/
structure EchoSubject where
  tenantId : Uuid
  resultId : Uuid
  eventId : Uuid
deriving DecidableEq

section Deduplication

variable [PyText]

def EchoSubject.key (x : EchoSubject) : String :=
  TenantDb.echoDedupeKey x.tenantId x.resultId x.eventId

/-- The key tells the subjects of signals apart. -/
theorem EchoSubject.key_injective (hlower : PyText.KeepsDigits) : Function.Injective EchoSubject.key := by
  rintro ⟨t, r, e⟩ ⟨t', r', e'⟩ h
  have hkeep : ∀ n : Uuid, PyText.lower (strip (toString n)) = toString n := by
    intro n
    rw [strip_toString, hlower]
  simp only [key, TenantDb.echoDedupeKey, makeArgusDedupeKey, List.map_cons, List.map_nil, hkeep,
    List.cons_append, List.nil_append, String.intercalate_cons_cons, String.intercalate_singleton,
    String.append_assoc, String.append_right_inj] at h
  have htext := congrArg String.toList h
  simp only [String.toList_append, String.reduceToList, List.cons_append, List.nil_append] at htext
  obtain ⟨rfl, hrest⟩ := toString_append_inj htext
  obtain ⟨rfl, hlast⟩ := toString_append_inj (List.tail_eq_of_cons_eq hrest)
  have hevent := Codes.toString_nat_injective (String.toList_inj.mp (List.tail_eq_of_cons_eq hlast))
  rw [hevent]

namespace TenantDb

/-! ## The signals about a report and an event -/

/-- The signals Echo has raised about a report and a public event. -/
def signalsAbout (s : TenantDb) (tenantId reportId eventId : Uuid) : List ArgusSignal :=
  s.signals.filter fun a =>
    a.signalType = .echoStrongPrecedentMatch ∧ a.title = echoTitle eventId ∧
      ∃ r ∈ s.crossrefResults, r.tenantId = tenantId ∧ r.safetyReportId = reportId ∧
        (⟨a.id, .echoCrossrefResult, r.id⟩ : ArgusSignalEvidence) ∈ s.signalEvidence

/-- At most one signal for a tenant, a report and a public event. -/
def Deduplicated (s : TenantDb) : Prop :=
  ∀ tenantId reportId eventId, (s.signalsAbout tenantId reportId eventId).length ≤ 1

/-- The run stores a signal for a strong match on an event about which the report
has a signal. -/
def RepeatsSignal (s : TenantDb) (input : RunEchoCrossReferenceInput) : Prop :=
  ∃ result report matched,
    s.getCrossrefResult input.tenantId input.crossrefResultId = some result ∧
    result.status = .pending ∧
    s.getReport input.tenantId result.safetyReportId = some report ∧
    input.crossReference report.narrativeMarkdown = .ok matched ∧
    ∃ m ∈ strongMatches matched, input.upsertFails m.eventId = false ∧
      s.signalsAbout input.tenantId result.safetyReportId m.eventId ≠ []

/-! ## The subjects of the signals -/

/-- The signal was raised for the subject. -/
structure Raised (s : TenantDb) (a : ArgusSignal) (x : EchoSubject) : Prop where
  id : a.id < s.nextId
  signalType : a.signalType = .echoStrongPrecedentMatch
  title : a.title = echoTitle x.eventId
  key : a.dedupeKey = x.key
  evidence : ∀ r, (⟨a.id, .echoCrossrefResult, r⟩ : ArgusSignalEvidence) ∈ s.signalEvidence ↔
    r = x.resultId

/-- The signals of the store are those of the subjects `subs`. -/
structure Signals (s : TenantDb) (subs : List EchoSubject) : Prop where
  nodup : subs.Nodup
  raised : List.Forall₂ s.Raised s.signals subs
  evidence : ∀ e ∈ s.signalEvidence, e.signalId < s.nextId

/-- The result of every subject has been run. -/
def Settled (s : TenantDb) (subs : List EchoSubject) : Prop :=
  ∀ x ∈ subs, ∃ result, s.getCrossrefResult x.tenantId x.resultId = some result ∧
    result.status ≠ .pending

/-- The tenant, the report and the event of a subject. -/
def classOf (s : TenantDb) (x : EchoSubject) : Uuid × Option Uuid × Uuid :=
  (x.tenantId, (s.getCrossrefResult x.tenantId x.resultId).map TenantCrossrefResult.safetyReportId,
    x.eventId)

section Raising

variable {s s' : TenantDb} {subs : List EchoSubject}

theorem Signals.mono (h : s.Signals subs) (hsignals : s'.signals = s.signals)
    (hevidence : s'.signalEvidence = s.signalEvidence) (hn : s.nextId ≤ s'.nextId) :
    s'.Signals subs := by
  refine ⟨h.nodup, ?_, ?_⟩
  · rw [hsignals]
    refine h.raised.imp ?_
    intro a x hax
    refine ⟨hax.id.trans_le hn, hax.signalType, hax.title, hax.key, ?_⟩
    rw [hevidence]
    exact hax.evidence
  · intro e he
    exact (h.evidence e (hevidence ▸ he)).trans_le hn

omit [PyText] in
theorem mem_upsertEvidence {evidence : List ArgusSignalEvidence} {e e' : ArgusSignalEvidence} :
    e' ∈ upsertEvidence evidence e ↔ e' ∈ evidence ∨ e' = e := by
  unfold upsertEvidence
  split
  · rename_i he
    constructor
    · exact .inl
    · rintro (h | rfl)
      · exact h
      · exact he
  · rw [List.mem_append, List.mem_singleton]

omit [PyText] in
theorem persistedSignal_eq (signals : List ArgusSignal) (signal : ArgusSignal) :
    persistedSignal signals signal =
      some ((lookup ArgusSignal.dedupeKey signal.dedupeKey signals).elim
        { signal with status := .open, version := 1 } signal.refresh) :=
  @lookup_upsertWith_self _ _ _ ArgusSignal.dedupeKey { signal with status := .open, version := 1 }
    signal.refresh (fun _ => rfl) signals

/-- The row of an upsert: the signal of the subject, which has its evidence, or a
new one. -/
theorem Signals.persisted (hlower : PyText.KeepsDigits) (h : s.Signals subs) {x : EchoSubject}
    {signal persisted : ArgusSignal} (hkey : signal.dedupeKey = x.key)
    (hpersisted : persistedSignal s.signals signal = some persisted) :
    (x ∈ subs ∧ (⟨persisted.id, .echoCrossrefResult, x.resultId⟩ : ArgusSignalEvidence) ∈
      s.signalEvidence) ∨ (x ∉ subs ∧ persisted.id = signal.id) := by
  have hinj := EchoSubject.key_injective hlower
  have hthere : (∃ a ∈ s.signals, a.dedupeKey = x.key) ↔ x ∈ subs :=
    Subjects.exists_key_iff (fun _ _ hay => Raised.key hay) hinj h.raised
  rw [persistedSignal_eq, Option.some.injEq] at hpersisted
  cases hold : lookup ArgusSignal.dedupeKey signal.dedupeKey s.signals with
  | none =>
      rw [hold] at hpersisted
      rw [hkey] at hold
      refine .inr ⟨?_, by rw [← hpersisted]; rfl⟩
      rw [← hthere]
      rintro ⟨a, ha, hak⟩
      exact lookup_none.mp hold a ha hak
  | some old =>
      obtain ⟨hmem, holdkey⟩ := lookup_some hold
      rw [hkey] at holdkey
      obtain ⟨y, -, hy⟩ := Subjects.exists_subject h.raised hmem
      obtain rfl : y = x := hinj (hy.key.symm.trans holdkey)
      refine .inl ⟨hthere.mp ⟨old, hmem, holdkey⟩, ?_⟩
      rw [hold] at hpersisted
      rw [← hpersisted]
      exact (hy.evidence _).mpr rfl

/-- Storing the signal of a subject. -/
theorem Signals.store (hlower : PyText.KeepsDigits) (h : s.Signals subs) {x : EchoSubject}
    {signal persisted : ArgusSignal} (hid : signal.id = s.nextId)
    (htype : signal.signalType = .echoStrongPrecedentMatch) (htitle : signal.title = echoTitle x.eventId)
    (hkey : signal.dedupeKey = x.key)
    (hpersisted : persistedSignal s.signals signal = some persisted) :
    Signals
      { s with
        nextId := s.nextId + 1
        signals := upsertSignal s.signals signal
        signalEvidence := upsertEvidence s.signalEvidence
          ⟨persisted.id, .echoCrossrefResult, x.resultId⟩ }
      (insertKey subs x) := by
  have hrow := h.persisted hlower hkey hpersisted
  rw [hid] at hrow
  -- The evidence of the signals there are does not change.
  have hevidence : ∀ id < s.nextId, ∀ r,
      (⟨id, .echoCrossrefResult, r⟩ : ArgusSignalEvidence) ∈ upsertEvidence s.signalEvidence
        ⟨persisted.id, .echoCrossrefResult, x.resultId⟩ ↔
      (⟨id, .echoCrossrefResult, r⟩ : ArgusSignalEvidence) ∈ s.signalEvidence := by
    intro id hlt r
    rw [mem_upsertEvidence, or_iff_left_iff_imp]
    intro heq
    rcases hrow with ⟨-, hthere⟩ | ⟨-, hnew⟩
    · rw [heq]
      exact hthere
    · have hid : id = persisted.id := congrArg ArgusSignalEvidence.signalId heq
      rw [hid, hnew] at hlt
      exact absurd hlt (lt_irrefl _)
  refine ⟨nodup_insertKey h.nodup x, ?_, ?_⟩
  · refine Subjects.forall₂_upsertWith (fun _ _ hay => Raised.key hay)
      (EchoSubject.key_injective hlower) h.raised hkey ?_ ?_ ?_
    · intro a y hay _
      exact ⟨Nat.lt_succ_of_lt hay.id, hay.signalType, hay.title, hay.key,
        fun r => (hevidence a.id hay.id r).trans (hay.evidence r)⟩
    · intro a hax
      exact ⟨Nat.lt_succ_of_lt hax.id, hax.signalType, hax.title, hax.key,
        fun r => (hevidence a.id hax.id r).trans (hax.evidence r)⟩
    · intro hx
      refine ⟨hid ▸ Nat.lt_succ_self _, htype, htitle, hkey, ?_⟩
      intro r
      obtain ⟨-, hnew⟩ := hrow.resolve_left fun hold => hx hold.1
      show (⟨signal.id, .echoCrossrefResult, r⟩ : ArgusSignalEvidence) ∈ _ ↔ _
      rw [mem_upsertEvidence, hid, hnew]
      constructor
      · rintro (hold | heq)
        · exact absurd (h.evidence _ hold) (lt_irrefl _)
        · exact congrArg ArgusSignalEvidence.evidenceId heq
      · rintro rfl
        exact .inr rfl
  · intro e he
    rcases mem_upsertEvidence.mp he with hold | rfl
    · exact Nat.lt_succ_of_lt (h.evidence e hold)
    · rcases hrow with ⟨-, hthere⟩ | ⟨-, hnew⟩
      · exact Nat.lt_succ_of_lt (h.evidence _ hthere)
      · show persisted.id < s.nextId + 1
        rw [hnew]
        exact Nat.lt_succ_self _

/-- Raising the signal of a strong match adds its subject, unless the signal cannot
be stored. -/
theorem Signals.upsertArgusSignal (hlower : PyText.KeepsDigits) (h : s.Signals subs)
    (tenantId resultId : Uuid) (upsertFails : Uuid → Bool) (now : Time) (m : PrecedentMatch) :
    (s.upsertArgusSignal tenantId resultId upsertFails now m).Signals
      (if upsertFails m.eventId then subs else insertKey subs ⟨tenantId, resultId, m.eventId⟩) := by
  unfold TenantDb.upsertArgusSignal
  dsimp only [uuid4]
  split
  · exact h.mono rfl rfl (Nat.le_succ _)
  · split
    · rename_i hnone
      rw [persistedSignal_eq] at hnone
      cases hnone
    · rename_i persisted hpersisted
      exact h.store (x := ⟨tenantId, resultId, m.eventId⟩) hlower rfl rfl rfl rfl hpersisted

/-- The subjects a run stores signals for. -/
def storedSubjects (tenantId resultId : Uuid) (upsertFails : Uuid → Bool) (ms : List PrecedentMatch) :
    List EchoSubject :=
  (ms.filter fun m => upsertFails m.eventId = false).map fun m => ⟨tenantId, resultId, m.eventId⟩

omit [PyText] in
theorem mem_storedSubjects {tenantId resultId : Uuid} {upsertFails : Uuid → Bool}
    {ms : List PrecedentMatch} {x : EchoSubject} :
    x ∈ storedSubjects tenantId resultId upsertFails ms ↔
      ∃ m ∈ ms, upsertFails m.eventId = false ∧ x = ⟨tenantId, resultId, m.eventId⟩ := by
  simp only [storedSubjects, List.mem_map, List.mem_filter, decide_eq_true_eq, and_assoc]
  exact exists_congr fun m => by rw [eq_comm (a := x)]

theorem Signals.upsertArgusSignals (hlower : PyText.KeepsDigits) (h : s.Signals subs)
    (tenantId resultId : Uuid) (upsertFails : Uuid → Bool) (now : Time) (ms : List PrecedentMatch) :
    (ms.foldl (TenantDb.upsertArgusSignal tenantId resultId upsertFails now) s).Signals
      ((storedSubjects tenantId resultId upsertFails ms).foldl insertKey subs) := by
  induction ms generalizing s subs with
  | nil => exact h
  | cons m ms ih =>
      have hone := h.upsertArgusSignal hlower tenantId resultId upsertFails now m
      rw [List.foldl_cons]
      unfold storedSubjects
      by_cases hfails : upsertFails m.eventId = true
      · rw [if_pos hfails] at hone
        rw [List.filter_cons_of_neg (by simp [hfails])]
        exact ih hone
      · rw [if_neg hfails] at hone
        rw [List.filter_cons_of_pos (by simpa using hfails), List.map_cons, List.foldl_cons]
        exact ih hone

end Raising

/-! ## Results -/

section Results

variable {s s' : TenantDb}

/-- Results stay, with their reports, and a result that was run stays so. -/
def KeepsResults (s s' : TenantDb) : Prop :=
  ∀ tenantId resultId result, s.getCrossrefResult tenantId resultId = some result →
    ∃ result', s'.getCrossrefResult tenantId resultId = some result' ∧
      result'.safetyReportId = result.safetyReportId ∧
      (result.status ≠ .pending → result'.status ≠ .pending)

omit [PyText] in
theorem KeepsResults.of_eq (h : s'.crossrefResults = s.crossrefResults) : KeepsResults s s' := by
  intro tenantId resultId result hresult
  unfold getCrossrefResult at hresult ⊢
  rw [h]
  exact ⟨result, hresult, rfl, id⟩

omit [PyText] in
/-- An update of a PENDING result that finishes it. -/
theorem keepsResults_updatePending (s : TenantDb) (tenantId resultId : Uuid)
    {f : TenantCrossrefResult → TenantCrossrefResult}
    (hid : ∀ r, (f r).id = r.id ∧ (f r).tenantId = r.tenantId ∧ (f r).safetyReportId = r.safetyReportId)
    (hstatus : ∀ r, (f r).status ≠ .pending) :
    KeepsResults s (s.updatePending tenantId resultId f) := by
  intro tenantId' resultId' result hresult
  unfold getCrossrefResult at hresult ⊢
  unfold updatePending
  dsimp only
  rw [find?_updateWhere _ fun r _ => by simp [isResult, hid r], hresult]
  refine ⟨_, rfl, ?_, ?_⟩
  · dsimp only
    split
    · exact (hid result).2.2
    · rfl
  · intro hne
    dsimp only
    split
    · exact hstatus result
    · exact hne

theorem writeEcho_results (s : TenantDb) (tenantId resultId : Uuid) (tx : EchoTx) :
    ∃ f : TenantCrossrefResult → TenantCrossrefResult,
      (∀ r, (f r).id = r.id ∧ (f r).tenantId = r.tenantId ∧ (f r).safetyReportId = r.safetyReportId) ∧
      (∀ r, (f r).status ≠ .pending) ∧
      (s.writeEcho tenantId resultId tx).crossrefResults =
        (s.updatePending tenantId resultId f).crossrefResults := by
  cases tx with
  | fail detail now =>
      exact ⟨fun r => { r with status := .failed, errorDetail := some detail, completedAt := some now },
        fun _ => ⟨rfl, rfl, rfl⟩, fun _ => by simp, rfl⟩
  | complete matched upsertFails now clock =>
      obtain ⟨n, signals, evidence, -, heq⟩ := upsertArgusSignals_eq tenantId resultId upsertFails now
        (s.markComplete tenantId resultId matched now) (strongMatches matched)
      refine ⟨fun r => { r with status := .complete, matchesJson := matched, completedAt := some now },
        fun _ => ⟨rfl, rfl, rfl⟩, fun _ => by simp, ?_⟩
      unfold writeEcho
      dsimp only
      rw [heq]
      rfl

/-- What an operation does to the results: it keeps them and may add one. -/
theorem Effect.results (h : Effect s s') :
    KeepsResults s s' ∧ (s'.crossrefResults.map TenantCrossrefResult.id =
        s.crossrefResults.map TenantCrossrefResult.id ∨
      ∃ result, result.id = s.nextId ∧ s'.crossrefResults = s.crossrefResults ++ [result]) := by
  cases h with
  | requested result hid outbox =>
      refine ⟨?_, .inr ⟨result, hid, rfl⟩⟩
      intro tenantId resultId r hr
      unfold getCrossrefResult at hr ⊢
      dsimp only
      rw [List.find?_append, hr]
      exact ⟨r, rfl, rfl, id⟩
  | echo tenantId resultId tx result hresult hpending =>
      obtain ⟨f, hid, hstatus, heq⟩ := writeEcho_results s tenantId resultId tx
      constructor
      · intro t r row hrow
        obtain ⟨row', hrow', hrest⟩ := keepsResults_updatePending s tenantId resultId hid hstatus t r row hrow
        refine ⟨row', ?_, hrest⟩
        unfold getCrossrefResult at hrow' ⊢
        rw [heq]
        exact hrow'
      · rw [heq]
        exact .inl (ids_updatePending s _ _ fun r => (hid r).1)
  | failed tenantId resultId detail now =>
      exact ⟨keepsResults_updatePending s tenantId resultId (fun _ => ⟨rfl, rfl, rfl⟩) fun _ => by simp,
        .inl (ids_updatePending s _ _ fun _ => rfl)⟩
  | _ => exact ⟨KeepsResults.of_eq rfl, .inl rfl⟩

/-- Result identifiers stay unique. -/
theorem Effect.results_unique (h : Effect s s') (hs : s.Inv)
    (hunique : Rows.Unique TenantCrossrefResult.id s.crossrefResults) :
    Rows.Unique TenantCrossrefResult.id s'.crossrefResults := by
  rcases h.results.2 with heq | ⟨result, hid, heq⟩
  · unfold Rows.Unique
    rw [heq]
    exact hunique
  · rw [heq]
    apply hunique.append_single
    intro r hr
    rw [hid]
    exact (hs.results r hr).ne

end Results

/-! ## One subject for each class -/

/-- The signals and their subjects, whose results have been run. -/
structure Mirrors (s : TenantDb) (subs : List EchoSubject) : Prop where
  signals : s.Signals subs
  settled : s.Settled subs
  results : Rows.Unique TenantCrossrefResult.id s.crossrefResults

section Classes

variable {s s' : TenantDb} {subs : List EchoSubject}

/-- A signal is about the class of its subject. -/
theorem Raised.about_iff {a : ArgusSignal} {x : EchoSubject} (h : s.Raised a x)
    {result : TenantCrossrefResult} (hresult : s.getCrossrefResult x.tenantId x.resultId = some result)
    (hunique : Rows.Unique TenantCrossrefResult.id s.crossrefResults) (tenantId reportId eventId : Uuid) :
    (a.signalType = .echoStrongPrecedentMatch ∧ a.title = echoTitle eventId ∧
      ∃ r ∈ s.crossrefResults, r.tenantId = tenantId ∧ r.safetyReportId = reportId ∧
        (⟨a.id, .echoCrossrefResult, r.id⟩ : ArgusSignalEvidence) ∈ s.signalEvidence) ↔
      s.classOf x = (tenantId, some reportId, eventId) := by
  obtain ⟨hmem, hid, htenant⟩ := mem_of_getCrossrefResult hresult
  simp only [classOf, hresult, Option.map_some, Prod.mk.injEq, Option.some.injEq, h.title,
    echoTitle_injective.eq_iff, h.evidence]
  constructor
  · rintro ⟨-, hevent, r, hr, hrt, hrr, hrid⟩
    obtain rfl : r = result := hunique.eq_of_key hr hmem (hrid.trans hid.symm)
    exact ⟨htenant.symm.trans hrt, hrr, hevent⟩
  · rintro ⟨hrt, hrr, hevent⟩
    exact ⟨h.signalType, hevent, result, hmem, htenant.trans hrt, hrr, hid⟩

/-- As many signals are about a report and an event as subjects have that class. -/
theorem Mirrors.length_signalsAbout (h : s.Mirrors subs) (tenantId reportId eventId : Uuid) :
    (s.signalsAbout tenantId reportId eventId).length =
      (subs.filter fun x => s.classOf x = (tenantId, some reportId, eventId)).length := by
  unfold signalsAbout
  apply Subjects.length_filter_eq h.signals.raised
  intro a x hax hx
  obtain ⟨result, hresult, -⟩ := h.settled x hx
  rw [decide_eq_decide]
  exact hax.about_iff hresult h.results tenantId reportId eventId

theorem Mirrors.signalsAbout_ne_nil_iff (h : s.Mirrors subs) (tenantId reportId eventId : Uuid) :
    s.signalsAbout tenantId reportId eventId ≠ [] ↔
      ∃ x ∈ subs, s.classOf x = (tenantId, some reportId, eventId) := by
  rw [← List.length_pos_iff, h.length_signalsAbout, List.length_pos_iff_exists_mem]
  simp only [List.mem_filter, decide_eq_true_eq]

/-- Signals are deduplicated exactly when no two subjects have one class. -/
theorem Mirrors.deduplicated_iff (h : s.Mirrors subs) :
    s.Deduplicated ↔ Set.InjOn s.classOf {x | x ∈ subs} := by
  unfold Deduplicated
  simp only [h.length_signalsAbout, length_filter_le_one_iff h.signals.nodup, decide_eq_true_eq]
  constructor
  · intro hone x hx y hy hxy
    obtain ⟨result, hresult, -⟩ := h.settled x hx
    have hclass : s.classOf x = (x.tenantId, some result.safetyReportId, x.eventId) := by
      simp [classOf, hresult]
    exact hone _ _ _ x hx y hy hclass (hxy ▸ hclass)
  · intro hinj tenantId reportId eventId x hx y hy hxc hyc
    exact hinj hx hy (hxc.trans hyc.symm)

omit [PyText] in
/-- The class of a subject stays. -/
theorem Settled.classOf_eq (h : s.Settled subs) (hkeeps : KeepsResults s s') :
    Set.EqOn s'.classOf s.classOf {x | x ∈ subs} := by
  intro x hx
  obtain ⟨result, hresult, -⟩ := h x hx
  obtain ⟨result', hresult', hreport, -⟩ := hkeeps _ _ _ hresult
  simp [classOf, hresult, hresult', hreport]

omit [PyText] in
theorem Settled.mono (h : s.Settled subs) (hkeeps : KeepsResults s s') : s'.Settled subs := by
  intro x hx
  obtain ⟨result, hresult, hdone⟩ := h x hx
  obtain ⟨result', hresult', -, hdone'⟩ := hkeeps _ _ _ hresult
  exact ⟨result', hresult', hdone' hdone⟩

/-- An operation that raises no signal. -/
theorem Mirrors.quiet (h : s.Mirrors subs) (hs : s.Inv) (he : Effect s s')
    (hsignals : s'.signals = s.signals) (hevidence : s'.signalEvidence = s.signalEvidence)
    (hn : s.nextId ≤ s'.nextId) :
    s'.Mirrors subs ∧ (s'.Deduplicated ↔ s.Deduplicated) := by
  have hkeeps := he.results.1
  have h' : s'.Mirrors subs :=
    ⟨h.signals.mono hsignals hevidence hn, h.settled.mono hkeeps, he.results_unique hs h.results⟩
  refine ⟨h', ?_⟩
  rw [h'.deduplicated_iff, h.deduplicated_iff]
  exact (h.settled.classOf_eq hkeeps).injOn_iff

end Classes

/-! ## Runs -/

section Runs

variable {s : TenantDb} {subs : List EchoSubject}

omit [PyText] in
theorem recordFailure_ne_complete {input : RunEchoCrossReferenceInput} {detail : String}
    {matched : List PrecedentMatch} {upsertFails : Uuid → Bool} {now : Time} {clock : Nat → Time} :
    recordFailure input detail ≠ .ok (.complete matched upsertFails now clock) := by
  unfold recordFailure
  split
  · intro h
    cases h
  · intro h
    cases h

omit [PyText] in
/-- A run that goes on to complete its result has found a report and matched it. -/
theorem readEcho_complete {input : RunEchoCrossReferenceInput} {matched : List PrecedentMatch}
    {upsertFails : Uuid → Bool} {now : Time} {clock : Nat → Time}
    (h : s.readEcho input = .ok (.complete matched upsertFails now clock)) :
    upsertFails = input.upsertFails ∧ ∃ result report,
      s.getCrossrefResult input.tenantId input.crossrefResultId = some result ∧
      result.status = .pending ∧
      s.getReport input.tenantId result.safetyReportId = some report ∧
      input.crossReference report.narrativeMarkdown = .ok matched := by
  unfold readEcho at h
  simp only [bind_ok, require_ok, fromOption_ok] at h
  obtain ⟨result, hresult, -, hpending, h⟩ := h
  split at h
  · exact absurd h recordFailure_ne_complete
  · rename_i report hreport
    split at h
    · exact absurd h recordFailure_ne_complete
    · rename_i found hfound
      cases h
      exact ⟨rfl, result, report, hresult, hpending, hreport, hfound⟩

omit [PyText] in
/-- A run that repeats a signal completes its result. -/
theorem RepeatsSignal.readEcho_complete {input : RunEchoCrossReferenceInput}
    (h : s.RepeatsSignal input) :
    ∃ matched, s.readEcho input = .ok (.complete matched input.upsertFails input.now input.clock) := by
  obtain ⟨result, report, matched, hresult, hpending, hreport, hmatched, -⟩ := h
  refine ⟨matched, ?_⟩
  unfold readEcho
  simp only [bind_ok, require_ok, fromOption_ok]
  refine ⟨result, hresult, (), hpending, ?_⟩
  rw [hreport]
  dsimp only
  rw [hmatched]
  rfl

/-- A run that completes its result adds the subjects of its strong matches. -/
theorem Mirrors.complete (hlower : PyText.KeepsDigits) (h : s.Mirrors subs) (hs : s.Inv)
    {tenantId resultId : Uuid} {result : TenantCrossrefResult}
    (hresult : s.getCrossrefResult tenantId resultId = some result) (hpending : result.status = .pending)
    (matched : List PrecedentMatch) (upsertFails : Uuid → Bool) (now : Time) (clock : Nat → Time) :
    (s.writeEcho tenantId resultId (.complete matched upsertFails now clock)).Mirrors
      ((storedSubjects tenantId resultId upsertFails (strongMatches matched)).foldl insertKey subs) := by
  have heffect : Effect s (s.writeEcho tenantId resultId (.complete matched upsertFails now clock)) :=
    .echo tenantId resultId _ result hresult hpending
  refine ⟨?_, ?_, heffect.results_unique hs h.results⟩
  · have hmarked : (s.markComplete tenantId resultId matched now).Signals subs :=
      h.signals.mono rfl rfl le_rfl
    have hraised := hmarked.upsertArgusSignals hlower tenantId resultId upsertFails now
      (strongMatches matched)
    exact hraised.mono rfl rfl le_rfl
  · intro x hx
    rcases mem_foldl_insertKey.mp hx with hold | hnew
    · exact h.settled.mono heffect.results.1 x hold
    · obtain ⟨m, -, -, rfl⟩ := mem_storedSubjects.mp hnew
      have hstatus := resultStatus_writeEcho s tenantId resultId (.complete matched upsertFails now clock)
      simp only [resultStatus, hresult, Option.map_some, hpending, fencedStatus, EchoTx.status,
        Option.map_eq_some_iff] at hstatus
      obtain ⟨result', hresult', hdone⟩ := hstatus
      exact ⟨result', hresult', by simp [hdone]⟩

/-- Such a run keeps signals deduplicated exactly when no subject it adds has the
class of another. -/
theorem Mirrors.deduplicated_complete_iff (hlower : PyText.KeepsDigits) (h : s.Mirrors subs) (hs : s.Inv)
    (hdedup : s.Deduplicated) {tenantId resultId : Uuid} {result : TenantCrossrefResult}
    (hresult : s.getCrossrefResult tenantId resultId = some result) (hpending : result.status = .pending)
    (matched : List PrecedentMatch) (upsertFails : Uuid → Bool) (now : Time) (clock : Nat → Time) :
    (s.writeEcho tenantId resultId (.complete matched upsertFails now clock)).Deduplicated ↔
      ∀ m ∈ strongMatches matched, upsertFails m.eventId = false →
        s.signalsAbout tenantId result.safetyReportId m.eventId = [] := by
  have heffect : Effect s (s.writeEcho tenantId resultId (.complete matched upsertFails now clock)) :=
    .echo tenantId resultId _ result hresult hpending
  have hkeeps := heffect.results.1
  have hsame := h.settled.classOf_eq hkeeps
  obtain ⟨result', hresult', hreport, -⟩ := hkeeps _ _ _ hresult
  have hclass : ∀ eventId, (s.writeEcho tenantId resultId
      (.complete matched upsertFails now clock)).classOf ⟨tenantId, resultId, eventId⟩ =
      (tenantId, some result.safetyReportId, eventId) := by
    intro eventId
    simp [classOf, hresult', hreport]
  rw [(h.complete hlower hs hresult hpending matched upsertFails now clock).deduplicated_iff,
    Subjects.injOn_foldl_insertKey]
  · constructor
    · intro hnone m hm hstored
      by_contra hne
      obtain ⟨y, hy, hyc⟩ := (h.signalsAbout_ne_nil_iff _ _ _).mp hne
      refine hnone ⟨tenantId, resultId, m.eventId⟩ (mem_storedSubjects.mpr ⟨m, hm, hstored, rfl⟩) y hy ?_
      rw [hsame hy, hyc, hclass]
    · intro hnone x hx y hy heq
      obtain ⟨m, hm, hstored, rfl⟩ := mem_storedSubjects.mp hx
      rw [hsame hy, hclass] at heq
      exact (h.signalsAbout_ne_nil_iff _ _ _).mpr ⟨y, hy, heq⟩ (hnone m hm hstored)
  · rw [hsame.injOn_iff]
    exact h.deduplicated_iff.mp hdedup
  · intro x hx y hy hxy
    obtain ⟨m, -, -, rfl⟩ := mem_storedSubjects.mp hx
    obtain ⟨m', -, -, rfl⟩ := mem_storedSubjects.mp hy
    rw [hclass, hclass, Prod.mk.injEq, Prod.mk.injEq] at hxy
    rw [hxy.2.2]
  · -- A result that has a signal is not PENDING any more.
    intro x hx hold
    obtain ⟨m, -, -, rfl⟩ := mem_storedSubjects.mp hx
    obtain ⟨result₀, hresult₀, hdone⟩ := h.settled _ hold
    rw [hresult, Option.some.injEq] at hresult₀
    exact hdone (hresult₀ ▸ hpending)

/-- No signal is raised. -/
structure Quiet (s s' : TenantDb) : Prop where
  signals : s'.signals = s.signals
  evidence : s'.signalEvidence = s.signalEvidence
  nextId : s.nextId ≤ s'.nextId

omit [PyText] in
theorem quiet_orElse {α : Type} {r : Except TenancyError (α × TenantDb)}
    (h : ∀ a s', r = .ok (a, s') → Quiet s s') : Quiet s (s.orElse r) := by
  match r with
  | .ok (a, s') => exact h a s' rfl
  | .error _ => exact ⟨rfl, rfl, le_rfl⟩

variable [Deidentification]

/-- Only runs of Echo raise signals. -/
theorem quiet_step {op : TenantOp} (hop : ∀ input, op ≠ .runEcho input) : Quiet s (s.step op) := by
  cases op with
  | registerSource input =>
      refine quiet_orElse fun a s' h => ?_
      unfold registerTenantSource at h
      simp only [bind_ok, pure_ok, Prod.mk.injEq] at h
      obtain ⟨_, _, _, _, _, _, _, rfl⟩ := h
      exact ⟨rfl, rfl, Nat.le_succ _⟩
  | openRun input =>
      refine quiet_orElse fun run s' h => ?_
      obtain ⟨-, rfl⟩ := openTenantIngestionRun_ok h
      exact ⟨rfl, rfl, Nat.le_succ _⟩
  | submitBatch input =>
      refine quiet_orElse fun n s' h => ?_
      unfold submitTenantClaimsBatch at h
      rw [bind_ok] at h
      obtain ⟨_ | tx, -, h⟩ := h
      · cases h
        exact ⟨rfl, rfl, le_rfl⟩
      · cases h
        exact ⟨rfl, rfl, Nat.le_add_right _ _⟩
  | completeRun input =>
      refine quiet_orElse fun run s' h => ?_
      unfold completeTenantIngestionRun at h
      simp only [bind_ok, pure_ok, Prod.mk.injEq] at h
      obtain ⟨tx, -, -, rfl⟩ := h
      exact ⟨rfl, rfl, le_rfl⟩
  | fileReport input =>
      refine quiet_orElse fun a s' h => ?_
      unfold submitTenantSafetyReport at h
      simp only [bind_ok, pure_ok, Prod.mk.injEq] at h
      obtain ⟨_, _, _, _, _, _, cleaned, _, _, _, _, rfl⟩ := h
      unfold addAssociation
      cases input.associateWithEventId with
      | none => exact ⟨rfl, rfl, Nat.le_succ _⟩
      | some eventId => exact ⟨rfl, rfl, (Nat.le_succ _).trans (Nat.le_succ _)⟩
  | attachHfacs input =>
      refine quiet_orElse fun a s' h => ?_
      unfold attachEventHfacsAttribution at h
      simp only [bind_ok, pure_ok, Prod.mk.injEq] at h
      obtain ⟨_, _, _, _, _, _, _, _, _, rfl⟩ := h
      exact ⟨rfl, rfl, Nat.le_succ _⟩
  | nlSearch rawQuery resultCount clock => exact ⟨rfl, rfl, Nat.le_succ _⟩
  | requestEcho input =>
      refine quiet_orElse fun id s' h => ?_
      obtain ⟨-, rfl⟩ := requestEchoCrossReference_ok h
      exact ⟨rfl, rfl, (Nat.le_succ _).trans (Nat.le_succ _)⟩
  | runEcho input => exact absurd rfl (hop input)
  | failEcho tenantId resultId detail now => exact ⟨rfl, rfl, le_rfl⟩
  | computeRollups input =>
      rw [step]
      split
      · exact ⟨rfl, rfl, le_rfl⟩
      · exact ⟨rfl, rfl, le_rfl⟩
  | accidents store => exact ⟨rfl, rfl, le_rfl⟩

/-- No run repeats a signal. -/
def NoRepeat (s : TenantDb) (op : TenantOp) : Prop := ∀ input, op = .runEcho input → ¬ s.RepeatsSignal input

/-- One operation: the subjects it leaves, and when it keeps signals deduplicated. -/
theorem Mirrors.step (hlower : PyText.KeepsDigits) (h : s.Mirrors subs) (hs : s.Inv) (op : TenantOp) :
    (∃ subs', (s.step op).Mirrors subs') ∧
      (s.Deduplicated → ((s.step op).Deduplicated ↔ s.NoRepeat op)) := by
  by_cases hop : ∀ input, op ≠ .runEcho input
  · have hquiet : Quiet s (s.step op) := quiet_step hop
    obtain ⟨h', hiff⟩ := h.quiet hs (step_effect s op) hquiet.signals hquiet.evidence hquiet.nextId
    refine ⟨⟨subs, h'⟩, ?_⟩
    intro hdedup
    rw [hiff]
    exact ⟨fun _ input heq => absurd heq (hop input), fun _ => hdedup⟩
  · push Not at hop
    obtain ⟨input, rfl⟩ := hop
    rw [TenantDb.step, runEchoCrossReference]
    have hrepeats : s.NoRepeat (.runEcho input) ↔ ¬ s.RepeatsSignal input := by
      simp [NoRepeat]
    rw [hrepeats]
    cases hread : s.readEcho input with
    | error e =>
        have hnot : ¬ s.RepeatsSignal input := by
          intro hrepeat
          obtain ⟨matched, hcomplete⟩ := hrepeat.readEcho_complete
          rw [hcomplete] at hread
          cases hread
        exact ⟨⟨subs, h⟩, fun hdedup => ⟨fun _ => hnot, fun _ => hdedup⟩⟩
    | ok tx =>
        obtain ⟨result, hresult, hpending⟩ := readEcho_ok hread
        cases tx with
        | fail detail now =>
            have hnot : ¬ s.RepeatsSignal input := by
              intro hrepeat
              obtain ⟨matched, hcomplete⟩ := hrepeat.readEcho_complete
              rw [hcomplete] at hread
              cases hread
            have heffect : Effect s (s.markFailed input.tenantId input.crossrefResultId detail now) :=
              .failed _ _ _ _
            obtain ⟨h', hiff⟩ := h.quiet hs heffect rfl rfl le_rfl
            exact ⟨⟨subs, h'⟩, fun hdedup => ⟨fun _ => hnot, fun _ => hiff.mpr hdedup⟩⟩
        | complete matched upsertFails now clock =>
            refine ⟨⟨_, h.complete hlower hs hresult hpending _ _ _ _⟩, ?_⟩
            intro hdedup
            refine (h.deduplicated_complete_iff hlower hs hdedup hresult hpending _ _ _ _).trans ?_
            obtain ⟨rfl, result', report, hresult', -, hreport, hmatched⟩ := TenantDb.readEcho_complete hread
            rw [hresult, Option.some.injEq] at hresult'
            subst hresult'
            constructor
            · rintro hnone ⟨result₀, report₀, matched₀, hresult₀, -, hreport₀, hmatched₀, m, hm, hstored, hne⟩
              rw [hresult, Option.some.injEq] at hresult₀
              subst hresult₀
              rw [hreport, Option.some.injEq] at hreport₀
              subst hreport₀
              rw [hmatched, Except.ok.injEq] at hmatched₀
              subst hmatched₀
              exact hne (hnone m hm hstored)
            · intro hnot m hm hstored
              by_contra hne
              exact hnot ⟨result, report, matched, hresult, hpending, hreport, hmatched, m, hm, hstored, hne⟩

/-- **Deduplication.**  In a run of any operations from an empty store, there is at
most one signal for a tenant, a report and a public event in every state exactly
when no run of Echo stores a signal for an event about which its report has one. -/
theorem echo_signals_deduplicated_iff (hlower : PyText.KeepsDigits) (store : Db)
    (categories : List HfacsCategory) (subcategories : List HfacsSubcategory) (ops : List TenantOp) :
    Runs.EveryState TenantDb.step Deduplicated (empty store categories subcategories) ops ↔
      Runs.EveryStep TenantDb.step NoRepeat (empty store categories subcategories) ops := by
  apply Runs.everyState_iff_everyStep (I := fun s => s.Inv ∧ ∃ subs, s.Mirrors subs)
  · rintro s op ⟨hs, subs, h⟩
    exact ⟨hs.effect (step_effect s op), (h.step hlower hs op).1⟩
  · rintro s op ⟨hs, subs, h⟩ hdedup
    exact (h.step hlower hs op).2 hdedup
  · refine ⟨Reachable.inv ⟨store, categories, subcategories, [], rfl⟩, [], ?_⟩
    exact ⟨⟨List.nodup_nil, .nil, by simp [empty]⟩, by simp [Settled], unique_nil _⟩
  · intro tenantId reportId eventId
    simp [signalsAbout, empty]

end Runs

end TenantDb

end Deduplication

/-! ## A report cross-referenced twice -/

/-- A run of the result that finds public event 5 a strong precedent. -/
def strongPrecedent (resultId : Uuid) : TenantOp :=
  .runEcho ⟨70, resultId, true, fun _ => .ok [⟨5, 9 / 10, .strong⟩], fun _ => false, 0, fun _ => 0⟩

def requestEchoOfReport : TenantOp := .requestEcho ⟨⟨70, 70, .owner⟩, 0⟩

theorem asciiText_keepsDigits : @PyText.KeepsDigits asciiText := by
  intro n
  apply String.toList_inj.mp
  show ((toString n).map Char.toLower).toList = _
  rw [String.toList_map, Nat.toString_eq_repr, Nat.toList_repr]
  refine (List.map_congr_left ?_).trans (List.map_id _)
  intro c hc
  have hdigit := Nat.isDigit_of_mem_toDigits (by omega) (by omega) hc
  have hhigh : c.toNat ≤ 57 := (Char.isDigit_iff_toNat.mp hdigit).2
  have hupper : ¬ 65 ≤ c.val := by
    intro h
    have h65 : 65 ≤ c.toNat := h
    omega
  unfold Char.toLower
  simp [hupper]

/-- One request and its run. -/
theorem report_crossReferenced_once :
    Runs.EveryState TenantDb.step TenantDb.Deduplicated (TenantDb.empty (Db.empty []) [] [])
      [fatigueReport, requestEchoOfReport, strongPrecedent 1] := by
  refine (TenantDb.echo_signals_deduplicated_iff asciiText_keepsDigits _ _ _ _).mpr ?_
  simp only [Runs.EveryStep.cons]
  refine ⟨?_, ?_, ?_, by simp [Runs.EveryStep]⟩
  · intro input h
    cases h
  · intro input h
    cases h
  · rintro input h
    cases h
    rintro ⟨result, report, matched, -, -, -, -, m, -, -, hne⟩
    refine hne (List.filter_eq_nil_iff.mpr ?_)
    intro a ha
    have hnone : (((TenantDb.empty (Db.empty []) [] []).step fatigueReport).step
        requestEchoOfReport).signals = [] := by decide +kernel
    rw [hnone] at ha
    cases ha

/-- The same report requested and run again. -/
theorem report_crossReferenced_twice :
    ¬ Runs.EveryState TenantDb.step TenantDb.Deduplicated (TenantDb.empty (Db.empty []) [] [])
      [fatigueReport, requestEchoOfReport, strongPrecedent 1, requestEchoOfReport, strongPrecedent 4] := by
  intro h
  have hlast := h _ (List.prefix_refl _) 70 0 5
  revert hlast
  decide +kernel

end Atlas
