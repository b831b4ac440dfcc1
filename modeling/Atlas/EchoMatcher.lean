import Atlas.Decimals
import Atlas.Lib.Keyset
import Atlas.Precedents
import Atlas.Tenancy
import Mathlib.Data.Finset.Card

/-!
# Ranking precedents

Echo scores the records of public accidents against the profile of a hazard: a blend of the
overlap of cause categories, the agreement of attributes and the overlap of words, over the parts
for which the profile has data.  A match reports the score rounded to four places, but its band
of support is that of the score before rounding.

Scores are exact decimals here.
-/

namespace Atlas

/-! ## Profiles and matches -/

structure HazardProfile where
  findingCategories : Finset String
  farPart : Option String
  aircraftCategory : Option String
  severity : Option String
  terms : Finset String
deriving DecidableEq

/-- The text of an attribute is missing or empty. -/
def blankAttribute (value : Option String) : Bool := value.all (· = "")

/-- `HazardProfile.is_empty`. -/
def HazardProfile.isEmpty (p : HazardProfile) : Bool :=
  p.findingCategories = ∅ ∧ p.terms = ∅ ∧ blankAttribute p.farPart ∧
    blankAttribute p.aircraftCategory ∧ blankAttribute p.severity

structure MatchComponent where
  name : String
  weight : ℚ
  score : ℚ
  detail : String
deriving DecidableEq

/-- `_jaccard`. -/
def jaccard (a b : Finset String) : ℚ :=
  if a = ∅ ∨ b = ∅ then 0 else (a ∩ b).card / (a ∪ b).card

/-- `_overlap_coefficient`. -/
def overlapCoefficient (a b : Finset String) : ℚ :=
  if a = ∅ ∨ b = ∅ then 0 else (a ∩ b).card / min a.card b.card

structure MatcherWeights where
  findingCategories : ℚ := 1 / 2
  attributes : ℚ := 1 / 5
  lexical : ℚ := 3 / 10

structure SupportThresholds where
  strong : ℚ := 60 / 100
  moderate : ℚ := 35 / 100
  weak : ℚ := 15 / 100

/-- `SupportThresholds.band`. -/
def SupportThresholds.band (t : SupportThresholds) (score : ℚ) : EvidenceSupport :=
  if t.strong ≤ score then .strong
  else if t.moderate ≤ score then .moderate
  else if t.weak ≤ score then .weak
  else .none

/-- `_support_rank`. -/
def supportRank : EvidenceSupport → Nat
  | .none => 0
  | .weak => 1
  | .moderate => 2
  | .strong => 3

/-- `PrecedentMatcher`, with its weights and thresholds. -/
structure PrecedentMatcher where
  w : MatcherWeights := {}
  t : SupportThresholds := {}

namespace PrecedentMatcher

structure PrecedentMatch where
  eventId : String
  score : ℚ
  support : EvidenceSupport
  components : List MatchComponent
  sharedFindingCategories : Finset String
  sharedTerms : Finset String
  displayOccurredOn : Json
  displayLocation : Option String
  displayAircraft : Option String
  displayProbableCause : Option String
deriving DecidableEq

/-! ## Scores -/

/-- The attributes that the profile asserts, with the value of each and the record's. -/
def assertedAttributes (profile : HazardProfile) (record : PrecedentRecord) :
    List (String × String × Json) :=
  let pairs := [("far_part", profile.farPart, record.farPart),
    ("aircraft_category", profile.aircraftCategory, record.aircraftCategory),
    ("severity", profile.severity, (record.severity.map Json.str).getD .null)]
  pairs.filterMap fun p => p.2.1.map fun value => (p.1, value, p.2.2)

/-- The names of the attributes that agree. -/
def matchedAttributes (profile : HazardProfile) (record : PrecedentRecord) : List String :=
  ((assertedAttributes profile record).filter fun p => p.2.2 = .str p.2.1).map Prod.fst

variable (m : PrecedentMatcher)

def categoryComponent (profile : HazardProfile) (record : PrecedentRecord) : MatchComponent :=
  let shared := profile.findingCategories ∩ record.findingCategories
  { name := "finding_categories"
    weight := m.w.findingCategories
    score := jaccard profile.findingCategories record.findingCategories
    detail :=
      if shared = ∅ then "no shared cause categories"
      else toString shared.card ++ " shared cause categories" }

def attributeComponent (profile : HazardProfile) (record : PrecedentRecord) : MatchComponent :=
  let matched := matchedAttributes profile record
  { name := "attributes"
    weight := m.w.attributes
    score := matched.length / (assertedAttributes profile record).length
    detail :=
      if matched = [] then "no attribute matches" else "matched: " ++ ", ".intercalate matched }

def lexicalComponent (profile : HazardProfile) (record : PrecedentRecord) : MatchComponent :=
  { name := "lexical"
    weight := m.w.lexical
    score := overlapCoefficient profile.terms record.terms
    detail := toString (profile.terms ∩ record.terms).card ++ " shared terms" }

/-- The parts for which the profile has data. -/
def components (profile : HazardProfile) (record : PrecedentRecord) : List MatchComponent :=
  (if profile.findingCategories = ∅ then [] else [m.categoryComponent profile record]) ++
    (if assertedAttributes profile record = [] then [] else [m.attributeComponent profile record]) ++
      if profile.terms = ∅ then [] else [m.lexicalComponent profile record]

/-- The score before it is rounded: the mean of the parts by weight. -/
def blend (profile : HazardProfile) (record : PrecedentRecord) : ℚ :=
  let parts := m.components profile record
  let applicable := (parts.map MatchComponent.weight).sum
  if 0 < applicable then (parts.map fun c => c.weight * c.score).sum / applicable else 0

/-- `score_one`. -/
def scoreOne (profile : HazardProfile) (record : PrecedentRecord) : PrecedentMatch :=
  let score := m.blend profile record
  { eventId := record.eventId
    score := exactRound4 score
    support := m.t.band score
    components := m.components profile record
    sharedFindingCategories := profile.findingCategories ∩ record.findingCategories
    sharedTerms := profile.terms ∩ record.terms
    displayOccurredOn := record.displayOccurredOn
    displayLocation := record.displayLocation
    displayAircraft := record.displayAircraft
    displayProbableCause := record.displayProbableCause }

/-! ## The ranking -/

/-- The sort key: the higher score first, then the smaller event id. -/
def rankKey (x : PrecedentMatch) : ℚ ×ₗ Stringᵒᵈ := toLex (x.score, OrderDual.toDual x.eventId)

/-- `rank`. -/
def rank (profile : HazardProfile) (records : List PrecedentRecord) (limit : Nat)
    (minSupport : EvidenceSupport) : List PrecedentMatch :=
  if profile.isEmpty then []
  else
    let scored := records.map (m.scoreOne profile)
    let kept := scored.filter fun x => supportRank minSupport ≤ supportRank x.support ∧ 0 < x.score
    (Keyset.listing rankKey kept).take limit

/-- The record is a candidate: its support reaches the floor, and its score does not vanish. -/
def Considered (profile : HazardProfile) (minSupport : EvidenceSupport) (record : PrecedentRecord) :
    Bool :=
  !profile.isEmpty && decide (supportRank minSupport ≤ supportRank (m.t.band (m.blend profile record))) &&
    decide (0 < exactRound4 (m.blend profile record))

/-- One record is ranked before another: by its score, then by its event id. -/
def Ahead (profile : HazardProfile) (a b : PrecedentRecord) : Bool :=
  exactRound4 (m.blend profile b) < exactRound4 (m.blend profile a) ∨
    (exactRound4 (m.blend profile a) = exactRound4 (m.blend profile b) ∧ a.eventId < b.eventId)

/-- The record is one of the `limit` best: fewer candidates than that are ahead of it. -/
def AmongBest (profile : HazardProfile) (records : List PrecedentRecord) (limit : Nat)
    (minSupport : EvidenceSupport) (record : PrecedentRecord) : Prop :=
  record ∈ records ∧ m.Considered profile minSupport record = true ∧
    (records.countP fun other => m.Considered profile minSupport other && m.Ahead profile other record) <
      limit

variable {m} {profile : HazardProfile} {records : List PrecedentRecord} {limit : Nat}
  {minSupport : EvidenceSupport}

theorem rankKey_lt {a b : PrecedentRecord} :
    rankKey (m.scoreOne profile b) < rankKey (m.scoreOne profile a) ↔ m.Ahead profile a b = true := by
  unfold rankKey Ahead scoreOne
  rw [Prod.Lex.toLex_lt_toLex, decide_eq_true_iff]
  dsimp only
  rw [OrderDual.toDual_lt_toDual, eq_comm]

/-- The candidates of a ranking, scored. -/
theorem rank_eq (profile : HazardProfile) (records : List PrecedentRecord) (limit : Nat)
    (minSupport : EvidenceSupport) :
    m.rank profile records limit minSupport =
      (Keyset.listing rankKey
        ((records.filter (m.Considered profile minSupport)).map (m.scoreOne profile))).take limit := by
  unfold rank
  by_cases hempty : profile.isEmpty = true
  · have hnone : records.filter (m.Considered profile minSupport) = [] := by
      rw [List.filter_eq_nil_iff]
      intro r _
      simp [Considered, hempty]
    rw [if_pos hempty, hnone]
    simp [Keyset.listing]
  · rw [if_neg hempty]
    dsimp only
    rw [List.filter_map]
    have hfilter : records.filter (fun r => m.Considered profile minSupport r) =
        records.filter ((fun x : PrecedentMatch =>
          decide (supportRank minSupport ≤ supportRank x.support ∧ 0 < x.score)) ∘ m.scoreOne profile) := by
      refine List.filter_congr fun r _ => ?_
      have hfalse : profile.isEmpty = false := by simpa using hempty
      simp only [Considered, scoreOne, hfalse, Bool.not_false, Bool.true_and, Function.comp_apply,
        Bool.decide_and]
      exact congrArg₂ and (decide_eq_decide.mpr Iff.rfl) (decide_eq_decide.mpr Iff.rfl)
    rw [← hfilter]

theorem nodup_rankKey (hids : (records.map PrecedentRecord.eventId).Nodup) :
    (((records.filter (m.Considered profile minSupport)).map (m.scoreOne profile)).map rankKey).Nodup := by
  rw [List.map_map]
  refine List.Nodup.of_map (fun k : ℚ ×ₗ Stringᵒᵈ => OrderDual.ofDual (ofLex k).2) ?_
  rw [List.map_map]
  exact hids.sublist (List.filter_sublist.map _)

/-- **What is returned.**  The matches returned are those of the best records. -/
theorem mem_rank (hids : (records.map PrecedentRecord.eventId).Nodup) {x : PrecedentMatch} :
    x ∈ m.rank profile records limit minSupport ↔
      ∃ r, m.AmongBest profile records limit minSupport r ∧ x = m.scoreOne profile r := by
  have hahead (r : PrecedentRecord) :
      (((records.filter (m.Considered profile minSupport)).map (m.scoreOne profile)).countP
        fun x => rankKey (m.scoreOne profile r) < rankKey x) =
      records.countP fun other => m.Considered profile minSupport other && m.Ahead profile other r := by
    rw [List.countP_map, List.countP_filter]
    refine List.countP_congr fun other _ => ?_
    simp only [Function.comp_apply, rankKey_lt, Bool.decide_eq_true, Bool.and_comm]
  rw [rank_eq, Keyset.mem_take_listing (nodup_rankKey hids)]
  constructor
  · rintro ⟨hx, hcount⟩
    obtain ⟨r, hr, rfl⟩ := List.mem_map.mp hx
    obtain ⟨hr, hconsidered⟩ := List.mem_filter.mp hr
    rw [hahead] at hcount
    exact ⟨r, ⟨hr, hconsidered, hcount⟩, rfl⟩
  · rintro ⟨r, ⟨hr, hconsidered, hcount⟩, rfl⟩
    rw [hahead]
    exact ⟨List.mem_map_of_mem (List.mem_filter.mpr ⟨hr, hconsidered⟩), hcount⟩

theorem descending_rank (hids : (records.map PrecedentRecord.eventId).Nodup) :
    Keyset.Descending rankKey (m.rank profile records limit minSupport) := by
  rw [rank_eq]
  exact (Keyset.descending_listing (nodup_rankKey hids)).sublist (List.take_sublist _ _)

theorem rank_perm (hids : (records.map PrecedentRecord.eventId).Nodup) {records' : List PrecedentRecord}
    (hperm : records.Perm records') :
    m.rank profile records' limit minSupport = m.rank profile records limit minSupport := by
  rw [rank_eq, rank_eq, Keyset.listing_congr (nodup_rankKey hids) ((hperm.filter _).map _)]

/-! ## Bands -/

/-- A score that is rounded up to the edge of a band, or over it. -/
def RoundsOverEdge (score : ℚ) : Prop :=
  ∃ edge ∈ [(60 : ℚ) / 100, 35 / 100, 15 / 100], edge - 1 / 20000 ≤ score ∧ score < edge

theorem band_exactRound4 (score : ℚ) :
    ({} : SupportThresholds).band (exactRound4 score) =
      if (60 : ℚ) / 100 - 1 / 20000 ≤ score then .strong
      else if (35 : ℚ) / 100 - 1 / 20000 ≤ score then .moderate
      else if (15 : ℚ) / 100 - 1 / 20000 ≤ score then .weak
      else .none := by
  have hstrong := @edge_le_exactRound4 6000 (by decide) score
  have hmoderate := @edge_le_exactRound4 3500 (by decide) score
  have hweak := @edge_le_exactRound4 1500 (by decide) score
  norm_num at hstrong hmoderate hweak
  unfold SupportThresholds.band
  norm_num [hstrong, hmoderate, hweak]

/-- The band of the reported score is the band of the score, unless it is rounded over an edge. -/
theorem band_reported_iff (score : ℚ) :
    ({} : SupportThresholds).band score = ({} : SupportThresholds).band (exactRound4 score) ↔
      ¬ RoundsOverEdge score := by
  have hclear (edge : ℚ) (h : ¬ (edge - 1 / 20000 ≤ score ∧ score < edge)) :
      edge ≤ score ↔ edge - 1 / 20000 ≤ score := by
    constructor
    · intro hle
      linarith
    · intro hle
      by_contra hlt
      exact h ⟨hle, not_le.mp hlt⟩
  rw [band_exactRound4]
  unfold SupportThresholds.band RoundsOverEdge
  dsimp only
  constructor
  · rintro hband ⟨edge, hedge, hlow, hhigh⟩
    simp only [List.mem_cons, List.not_mem_nil, or_false] at hedge
    rcases hedge with rfl | rfl | rfl
    · rw [if_neg (not_le.mpr hhigh), if_pos (by linarith), if_pos hlow] at hband
      cases hband
    · rw [if_neg (by linarith), if_neg (not_le.mpr hhigh), if_pos (by linarith),
        if_neg (by linarith), if_pos hlow] at hband
      cases hband
    · rw [if_neg (by linarith), if_neg (by linarith), if_neg (not_le.mpr hhigh), if_neg (by linarith),
        if_neg (by linarith), if_pos hlow] at hband
      cases hband
  · intro h
    have hedge (edge : ℚ) (hmem : edge ∈ [(60 : ℚ) / 100, 35 / 100, 15 / 100]) :
        edge ≤ score ↔ edge - 1 / 20000 ≤ score :=
      hclear edge fun hover => h ⟨edge, hmem, hover⟩
    simp only [hedge _ (show (60 : ℚ) / 100 ∈ _ by simp), hedge _ (show (35 : ℚ) / 100 ∈ _ by simp),
      hedge _ (show (15 : ℚ) / 100 ∈ _ by simp)]

/-- The ranking is sound: the best records in their order, whatever the order of the records, and
each with the band of the score it reports. -/
structure RankSound (m : PrecedentMatcher) (profile : HazardProfile) (records : List PrecedentRecord)
    (limit : Nat) (minSupport : EvidenceSupport) : Prop where
  best : ∀ x, x ∈ m.rank profile records limit minSupport ↔
    ∃ r, m.AmongBest profile records limit minSupport r ∧ x = m.scoreOne profile r
  ordered : Keyset.Descending rankKey (m.rank profile records limit minSupport)
  orderFree : ∀ records', records.Perm records' →
    m.rank profile records' limit minSupport = m.rank profile records limit minSupport
  banded : ∀ x ∈ m.rank profile records limit minSupport, x.support = m.t.band x.score

/-- **Sound rankings.**  The ranking is sound exactly when no score among the best is rounded over
the edge of a band. -/
theorem rank_sound_iff (hids : (records.map PrecedentRecord.eventId).Nodup) :
    RankSound {} profile records limit minSupport ↔
      ∀ r, AmongBest {} profile records limit minSupport r →
        ¬ RoundsOverEdge (blend {} profile r) := by
  constructor
  · intro h r hr
    have hband := h.banded _ ((mem_rank hids).mpr ⟨r, hr, rfl⟩)
    exact (band_reported_iff _).mp hband
  · intro h
    refine ⟨fun x => mem_rank hids, descending_rank hids, fun records' hperm => rank_perm hids hperm, ?_⟩
    intro x hx
    obtain ⟨r, hr, rfl⟩ := (mem_rank hids).mp hx
    exact (band_reported_iff _).mpr (h r hr)

/-- A fatal hazard, with nothing else known. -/
def fatalProfile : HazardProfile := ⟨∅, none, none, some "fatal", ∅⟩

/-- A fatal accident. -/
def fatalRecord (eventId : String) : PrecedentRecord :=
  { eventId := eventId
    findingCategories := ∅
    farPart := .null
    aircraftCategory := .null
    severity := some "fatal"
    terms := ∅
    displayOccurredOn := .null
    displayLocation := none
    displayAircraft := none
    displayProbableCause := none }

/-- Three fatal accidents and one without any damage. -/
def tiedRecords : List PrecedentRecord :=
  [fatalRecord "3", { fatalRecord "0" with severity := some "none" }, fatalRecord "1",
    fatalRecord "2"]

/-- Three records of one score, of which two are listed: the event ids decide. -/
theorem fatal_ranking_sound : RankSound {} fatalProfile tiedRecords 2 .weak ∧
    (rank {} fatalProfile tiedRecords 2 .weak).map (fun x => (x.eventId, x.score)) =
      [("1", 1), ("2", 1)] := by
  refine ⟨(rank_sound_iff (by decide)).mpr ?_, by decide +kernel⟩
  rintro r ⟨hr, hconsidered, -⟩ ⟨edge, hedge, -, hhigh⟩
  have hblend : ∀ r ∈ tiedRecords, Considered {} fatalProfile .weak r = true →
      blend {} fatalProfile r = 1 := by decide +kernel
  rw [hblend r hr hconsidered] at hhigh
  simp only [List.mem_cons, List.not_mem_nil, or_false] at hedge
  rcases hedge with rfl | rfl | rfl
  all_goals norm_num at hhigh

/-! ## A score next to an edge -/

/-- The first so many keys. -/
def keysFrom (start count : Nat) : Finset String :=
  ((List.range count).map fun i => toString (start + i)).toFinset

/-- Seventeen causes, three attributes and twenty-five words. -/
def edgeProfile : HazardProfile :=
  ⟨keysFrom 0 17, some "091", some "AIR", some "fatal", keysFrom 0 25⟩

/-- Eight of the causes, one of the attributes and four of the words. -/
def edgeRecord : PrecedentRecord :=
  { eventId := "1"
    findingCategories := keysFrom 0 8
    farPart := .str "091"
    aircraftCategory := .null
    severity := some "minor"
    terms := keysFrom 21 25
    displayOccurredOn := .null
    displayLocation := none
    displayAircraft := none
    displayProbableCause := none }

/-- The match reports 0.35 and weak support. -/
theorem edge_match_reports_another_band : ¬ RankSound {} edgeProfile [edgeRecord] 1 .weak := by
  intro h
  have hmem : scoreOne {} edgeProfile edgeRecord ∈ rank {} edgeProfile [edgeRecord] 1 .weak := by
    decide +kernel
  have hband := h.banded _ hmem
  revert hband
  decide +kernel

end PrecedentMatcher

end Atlas
