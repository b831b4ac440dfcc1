import Atlas.DiscoveryIndexes

/-!
# The full reindex

A reindex walks the published pages, builds the entries of both indexes and writes them into
their tables, in one transaction.  It stops with an error behind the fifty-thousandth entry,
before it knows whether there is a further page: so a store with *exactly* fifty thousand
published pages is refused as one that exceeds them.

Besides the ceiling a page can stop it: a projection with an infinite count or an integer beyond
the doubles for a coordinate, which the coercions do not catch, and an entry that is too large
for its columns.
-/

namespace Atlas

open Outcome Rows

/-! ## Columns -/

/-- The columns of an index row that are bounded. -/
structure IndexColumns where
  slug : String
  title : String
  operator : Option String
  aircraftType : Option String
  country : Option String
  fatalitiesTotal : Option Int

/-- The texts have `VARCHAR` columns, the count an `INTEGER` one. -/
def IndexColumns.Fit (c : IndexColumns) : Bool :=
  c.slug.length ≤ 160 && c.title.length ≤ 300 && c.operator.all (·.length ≤ 300) &&
    c.aircraftType.all (·.length ≤ 300) && c.country.all (·.length ≤ 300) &&
    c.fatalitiesTotal.all fun n => -2147483648 ≤ n && n ≤ 2147483647

def SearchIndexEntry.columns (e : SearchIndexEntry) : IndexColumns :=
  ⟨e.slug, e.title, e.operator, e.aircraftType, e.country, e.fatalitiesTotal⟩

def MapIndexEntry.columns (e : MapIndexEntry) : IndexColumns :=
  ⟨e.slug, e.title, e.operator, e.aircraftType, e.country, e.fatalitiesTotal⟩

/-- `rebuild_all_from`: clear the table and upsert every entry.  A row that its columns refuse
rolls all of it back. -/
def rebuildAllFrom {α : Type} (table : String) (columns : α → IndexColumns) (key : α → Uuid)
    (entries : List α) : Except EditorialError (List α) :=
  entries.foldlM (fun rows e => do
    require ((columns e).Fit = true) (.integrity table)
    pure (upsertRow key e rows)) []

/-- A table is rebuilt exactly when every row fits. -/
theorem rebuildAllFrom_eq_ok {α : Type} {table : String} {columns : α → IndexColumns} {key : α → Uuid}
    {entries rows : List α} :
    rebuildAllFrom table columns key entries = .ok rows ↔
      (∀ e ∈ entries, (columns e).Fit = true) ∧
        entries.foldl (fun rows e => upsertRow key e rows) [] = rows := by
  unfold rebuildAllFrom
  generalize ([] : List α) = start
  induction entries generalizing start with
  | nil => simp [pure_ok]
  | cons e entries ih =>
      simp only [List.foldlM_cons, bind_ok, require_ok, pure_ok, List.foldl_cons,
        List.forall_mem_cons, and_assoc]
      constructor
      · rintro ⟨_, ⟨_, hfit, rfl⟩, hrest⟩
        exact ⟨hfit, (ih _).mp hrest⟩
      · rintro ⟨hfit, hrest⟩
        exact ⟨_, ⟨(), hfit, rfl⟩, (ih _).mpr hrest⟩

theorem rebuildAllFrom_ne_ceiling {α : Type} {table : String} {columns : α → IndexColumns}
    {key : α → Uuid} {entries : List α} :
    rebuildAllFrom table columns key entries ≠ .error .reindexCeiling := by
  unfold rebuildAllFrom
  generalize ([] : List α) = rows
  induction entries generalizing rows with
  | nil => simp [pure, Except.pure]
  | cons e entries ih =>
      rw [List.foldlM_cons, require]
      split
      · exact ih _
      · intro h
        cases h

/-! ## Pages that can be indexed -/

section Pages

variable [PyText]

/-- An integer beyond the doubles. -/
def BeyondDoubles (v : Json) : Prop := ∃ (n : Int) (b : Bool), v = .num (.int n) ∧ roundDouble n = .inf b

/-- Neither a number nor a text that reads as one. -/
def NoNumber (v : Json) : Prop :=
  (∀ n, v ≠ .num n) ∧ ∀ t, v = .str t → pyFloat ((numberChars t).map Char.toLower) = none

/-- Under the first of the keys that holds a number there is an integer beyond the doubles. -/
def StopsAt (fields : List (String × Json)) : List String → Prop
  | [] => False
  | key :: keys =>
      match fields.lookup key with
      | none => StopsAt fields keys
      | some v => BeyondDoubles v ∨ (NoNumber v ∧ StopsAt fields keys)

/-- The count of the fields is not infinite, and no coordinate is an integer beyond the doubles. -/
structure Readable (fields : List (String × Json)) : Prop where
  count : ∀ b, fields.lookup "fatalities_total" ≠ some (.num (.float (.inf b)))
  latitude : ¬ StopsAt fields latKeys
  longitude : ¬ StopsAt fields lngKeys

theorem coerceInt_cases (v : Option Json) :
    (∃ b, v = some (.num (.float (.inf b))) ∧ coerceInt v = .error .overflow) ∨
      ((∀ b, v ≠ some (.num (.float (.inf b)))) ∧ ∃ n, coerceInt v = .ok n) := by
  unfold coerceInt
  split <;> simp_all

theorem coerceFloat_cases (v : Json) :
    (BeyondDoubles v ∧ coerceFloat v = .error .overflow) ∨
      (NoNumber v ∧ coerceFloat v = .ok none) ∨
        (¬ BeyondDoubles v ∧ ¬ NoNumber v ∧ ∃ f, coerceFloat v = .ok (some f)) := by
  match v with
  | .num (.int n) =>
      cases hround : roundDouble n with
      | inf b => exact .inl ⟨⟨n, b, rfl, hround⟩, by simp [coerceFloat, hround]⟩
      | finite q =>
          refine .inr (.inr ⟨?_, fun h => h.1 _ rfl, .finite q, by simp [coerceFloat, hround]⟩)
          rintro ⟨m, b, hm, hb⟩
          obtain rfl : n = m := by simpa using hm
          rw [hround] at hb
          cases hb
      | nan => exact absurd hround (roundDouble_ne_nan n)
  | .num (.float f) =>
      refine .inr (.inr ⟨?_, fun h => h.1 _ rfl, f, rfl⟩)
      rintro ⟨m, b, hm, -⟩
      simp at hm
  | .str t =>
      cases hread : pyFloat ((numberChars t).map Char.toLower) with
      | none =>
          refine .inr (.inl ⟨⟨by simp, ?_⟩, by simp [coerceFloat, hread]⟩)
          intro t' ht'
          obtain rfl : t = t' := by simpa using ht'
          exact hread
      | some f =>
          refine .inr (.inr ⟨by rintro ⟨m, b, hm, -⟩; simp at hm, ?_, f, by simp [coerceFloat, hread]⟩)
          intro h
          rw [h.2 t rfl] at hread
          cases hread
  | .null => exact .inr (.inl ⟨⟨by simp, by simp⟩, rfl⟩)
  | .bool b => exact .inr (.inl ⟨⟨by simp, by simp⟩, rfl⟩)
  | .arr xs => exact .inr (.inl ⟨⟨by simp, by simp⟩, rfl⟩)
  | .obj kvs => exact .inr (.inl ⟨⟨by simp, by simp⟩, rfl⟩)

/-- The loop over the keys ends, with a number or without, unless it stops at an integer beyond
the doubles. -/
theorem firstFloat_cases (fields : List (String × Json)) (keys : List String) :
    (StopsAt fields keys ∧ firstFloat fields keys = .error .overflow) ∨
      (¬ StopsAt fields keys ∧ ∃ f, firstFloat fields keys = .ok f) := by
  induction keys with
  | nil => exact .inr ⟨id, none, rfl⟩
  | cons key keys ih =>
      unfold StopsAt firstFloat
      cases fields.lookup key with
      | none => exact ih
      | some v =>
          dsimp only
          rcases coerceFloat_cases v with ⟨hbeyond, hv⟩ | ⟨hnone, hv⟩ | ⟨hin, hsome, f, hv⟩
          · rw [hv]
            exact .inl ⟨.inl hbeyond, rfl⟩
          · rw [hv, ok_bind]
            have hin : ¬ BeyondDoubles v := by
              rintro ⟨n, b, rfl, -⟩
              exact hnone.1 _ rfl
            rcases ih with ⟨hstops, herror⟩ | ⟨hgoes, hok⟩
            · exact .inl ⟨.inr ⟨hnone, hstops⟩, herror⟩
            · refine .inr ⟨?_, hok⟩
              rintro (h | h)
              · exact hin h
              · exact hgoes h.2
          · rw [hv, ok_bind]
            refine .inr ⟨?_, some f, rfl⟩
            rintro (h | h)
            · exact hin h
            · exact hsome h.1

theorem extractCoords_cases (fields : List (String × Json)) :
    ((StopsAt fields latKeys ∨ StopsAt fields lngKeys) ∧ extractCoords fields = .error .overflow) ∨
      (¬ StopsAt fields latKeys ∧ ¬ StopsAt fields lngKeys ∧ ∃ c, extractCoords fields = .ok c) := by
  unfold extractCoords
  rcases firstFloat_cases fields latKeys with ⟨hlat, herror⟩ | ⟨hlat, lat, hok⟩
  · rw [herror]
    exact .inl ⟨.inl hlat, rfl⟩
  · rw [hok, ok_bind]
    rcases firstFloat_cases fields lngKeys with ⟨hlng, herror⟩ | ⟨hlng, lng, hok⟩
    · rw [herror]
      exact .inl ⟨.inr hlng, rfl⟩
    · rw [hok, ok_bind]
      refine .inr ⟨hlat, hlng, ?_⟩
      split
      · split <;> exact ⟨_, rfl⟩
      · exact ⟨_, rfl⟩

variable [PyRepr] [PyIsoDate]

/-- The columns of the index rows of a page. -/
def pageColumns (page : PublicEventPage) (projection : Option ProjectedAccidentRecord) : IndexColumns :=
  let fields := projectionFields projection
  { slug := page.slug
    title := page.title
    operator := strOrNone (fields.lookup "operator")
    aircraftType := strOrNone (fields.lookup "aircraft_type")
    country := strOrNone (fields.lookup "country")
    fatalitiesTotal := (coerceInt (fields.lookup "fatalities_total")).toOption.join }

/-- **The entries of a page** are built exactly when its projection can be read. -/
theorem entries_cases (page : PublicEventPage) (projection : Option ProjectedAccidentRecord) :
    (Readable (projectionFields projection) ∧ ∃ e m, entryFrom page projection = .ok e ∧
      mapEntryFrom page projection = .ok m ∧ e.columns = pageColumns page projection ∧
        ∀ x ∈ m, x.columns = pageColumns page projection) ∨
      (¬ Readable (projectionFields projection) ∧ (entryFrom page projection = .error .overflow ∨
        (∃ e, entryFrom page projection = .ok e) ∧ mapEntryFrom page projection = .error .overflow)) := by
  unfold entryFrom mapEntryFrom mapEntryAt pageColumns
  dsimp only
  rcases coerceInt_cases ((projectionFields projection).lookup "fatalities_total") with
    ⟨b, hb, herror⟩ | ⟨hfinite, n, hn⟩
  · rw [herror]
    exact .inr ⟨fun h => h.count b hb, .inl rfl⟩
  · rw [hn]
    simp only [ok_bind]
    rcases extractCoords_cases (projectionFields projection) with ⟨hstops, herror⟩ | ⟨hlat, hlng, c, hc⟩
    · rw [herror]
      refine .inr ⟨?_, .inr ⟨⟨_, rfl⟩, rfl⟩⟩
      intro h
      exact hstops.elim h.latitude h.longitude
    · rw [hc, ok_bind]
      refine .inl ⟨⟨hfinite, hlat, hlng⟩, ?_⟩
      cases c with
      | none => exact ⟨_, none, rfl, rfl, rfl, by simp⟩
      | some c =>
          refine ⟨_, some _, rfl, rfl, rfl, ?_⟩
          intro x hx
          obtain rfl := Option.some.inj hx
          rfl

end Pages

namespace EditorialDb

section

variable [PyText] [PyRepr] [PyIsoDate]

/-- `ReindexPublicEvents.execute`. -/
def executeReindex (s : EditorialDb) : Except EditorialError EditorialDb := do
  let (searchEntries, mapEntries) ← s.reindexLoop (s.pages.length + 1) none ([], [])
  let search ← rebuildAllFrom "search_index_entries" SearchIndexEntry.columns
    SearchIndexEntry.pageId searchEntries
  let maps ← rebuildAllFrom "map_index_entries" MapIndexEntry.columns MapIndexEntry.pageId mapEntries
  pure { s with search := search, maps := maps }

/-- What is committed: an error rolls the transaction back. -/
def afterReindex (s : EditorialDb) : EditorialDb :=
  match s.executeReindex with
  | .ok s' => s'
  | .error _ => s

/-- A reindex into the tables is the reindex of entries that fit. -/
theorem executeReindex_ok {s s' : EditorialDb} :
    s.executeReindex = .ok s' ↔
      s.reindexPublicEvents = .ok s' ∧
        ∃ acc, s.reindexLoop (s.pages.length + 1) none ([], []) = .ok acc ∧
          (∀ e ∈ acc.1, e.columns.Fit = true) ∧ ∀ e ∈ acc.2, e.columns.Fit = true := by
  simp only [executeReindex, reindexPublicEvents, bind_ok, pure_ok, rebuildAllFrom_eq_ok]
  constructor
  · rintro ⟨acc, hloop, search, ⟨hsearch, rfl⟩, maps, ⟨hmaps, rfl⟩, rfl⟩
    exact ⟨⟨acc, hloop, rfl⟩, acc, hloop, hsearch, hmaps⟩
  · rintro ⟨⟨acc, hloop, rfl⟩, acc', hloop', hsearch, hmaps⟩
    obtain rfl := Except.ok.inj (hloop.symm.trans hloop')
    exact ⟨acc, hloop, _, ⟨hsearch, rfl⟩, _, ⟨hmaps, rfl⟩, rfl⟩

/-- The ceiling is met in the loop or not at all. -/
theorem executeReindex_ceiling {s : EditorialDb} :
    s.executeReindex = .error .reindexCeiling ↔
      s.reindexLoop (s.pages.length + 1) none ([], []) = .error .reindexCeiling := by
  unfold executeReindex
  cases s.reindexLoop (s.pages.length + 1) none ([], []) with
  | error e =>
      show (Except.error e : Except EditorialError EditorialDb) = _ ↔ _
      simp
  | ok acc =>
      refine iff_of_false ?_ (by simp)
      obtain ⟨searchEntries, mapEntries⟩ := acc
      rw [ok_bind]
      dsimp only
      cases hsearch : rebuildAllFrom "search_index_entries" SearchIndexEntry.columns
          SearchIndexEntry.pageId searchEntries with
      | error e =>
          intro h
          have he : e = .reindexCeiling := Except.error.inj h
          exact rebuildAllFrom_ne_ceiling (he ▸ hsearch)
      | ok search =>
          rw [ok_bind]
          cases hmaps : rebuildAllFrom "map_index_entries" MapIndexEntry.columns
              MapIndexEntry.pageId mapEntries with
          | error e =>
              intro h
              have he : e = .reindexCeiling := Except.error.inj h
              exact rebuildAllFrom_ne_ceiling (he ▸ hmaps)
          | ok maps =>
              rw [ok_bind]
              intro h
              cases h

/-! ## The walk -/

/-- The projection of a page. -/
def projectionOf (s : EditorialDb) (page : PublicEventPage) : Option ProjectedAccidentRecord :=
  s.store.getProjection page.eventId

/-- The page's projection can be read. -/
def Indexable (s : EditorialDb) (page : PublicEventPage) : Prop :=
  Readable (projectionFields (s.projectionOf page))

/-- The page's rows fit the columns of the tables. -/
def FitsTables (s : EditorialDb) (page : PublicEventPage) : Prop :=
  (pageColumns page (s.projectionOf page)).Fit = true

/-- One page of the walk. -/
theorem reindexRow_cases (s : EditorialDb) (acc : List SearchIndexEntry × List MapIndexEntry)
    (page : PublicEventPage) :
    (s.Indexable page ∧ ∃ e : SearchIndexEntry, ∃ m : Option MapIndexEntry,
      e.columns = pageColumns page (s.projectionOf page) ∧
      (∀ x ∈ m, x.columns = pageColumns page (s.projectionOf page)) ∧
      s.reindexRow acc page =
        if acc.1.length + 1 < maxReindexPages then .ok (acc.1 ++ [e], acc.2 ++ m.toList)
        else .error .reindexCeiling) ∨
    (¬ s.Indexable page ∧ s.reindexRow acc page = .error .overflow) := by
  unfold reindexRow Indexable projectionOf
  rcases entries_cases page (s.store.getProjection page.eventId) with
    ⟨hread, e, m, he, hm, hecols, hmcols⟩ | ⟨hread, hfail⟩
  · refine .inl ⟨hread, e, m, hecols, hmcols, ?_⟩
    simp only [he, hm, ok_bind, require, List.length_append, List.length_singleton]
    split <;> rfl
  · refine .inr ⟨hread, ?_⟩
    rcases hfail with herror | ⟨⟨e, he⟩, herror⟩
    · simp only [herror]
      rfl
    · simp only [he, herror, ok_bind]
      rfl

/-- What a walk below the ceiling collects. -/
theorem foldlM_reindexRow_total {s : EditorialDb} {pages : List PublicEventPage}
    {acc : List SearchIndexEntry × List MapIndexEntry} (hread : ∀ p ∈ pages, s.Indexable p)
    (hroom : acc.1.length + pages.length < maxReindexPages) :
    ∃ acc', pages.foldlM s.reindexRow acc = .ok acc' ∧
      acc'.1.map SearchIndexEntry.columns =
        acc.1.map SearchIndexEntry.columns ++ pages.map (fun p => pageColumns p (s.projectionOf p)) ∧
      ∀ x ∈ acc'.2, x ∈ acc.2 ∨ ∃ p ∈ pages, x.columns = pageColumns p (s.projectionOf p) := by
  induction pages generalizing acc with
  | nil => exact ⟨acc, rfl, by simp, fun x hx => .inl hx⟩
  | cons page pages ih =>
      rw [List.length_cons] at hroom
      rcases reindexRow_cases s acc page with ⟨-, e, m, he, hm, hrow⟩ | ⟨hfail, -⟩
      · rw [if_pos (by omega)] at hrow
        have hroom' : (acc.1 ++ [e], acc.2 ++ m.toList).1.length + pages.length < maxReindexPages := by
          simp only [List.length_append, List.length_singleton]
          omega
        obtain ⟨acc', hfold, hsearch, hmaps⟩ :=
          ih (fun p hp => hread p (List.mem_cons_of_mem page hp)) hroom'
        refine ⟨acc', by rw [List.foldlM_cons, hrow, ok_bind, hfold], ?_, ?_⟩
        · rw [hsearch, List.map_append, List.map_singleton, he, List.map_cons, List.append_assoc]
          rfl
        · intro x hx
          rcases hmaps x hx with hold | ⟨p, hp, hxp⟩
          · rcases List.mem_append.mp hold with hold | hnew
            · exact .inl hold
            · exact .inr ⟨page, List.mem_cons_self, hm x (Option.mem_toList.mp hnew)⟩
          · exact .inr ⟨p, List.mem_cons_of_mem page hp, hxp⟩
      · exact absurd (hread page List.mem_cons_self) hfail

/-- A walk that ends stayed below the ceiling, over pages that can all be indexed. -/
theorem foldlM_reindexRow_ends {s : EditorialDb} {pages : List PublicEventPage}
    {acc acc' : List SearchIndexEntry × List MapIndexEntry}
    (h : pages.foldlM s.reindexRow acc = .ok acc') :
    (∀ p ∈ pages, s.Indexable p) ∧
      (pages ≠ [] → acc.1.length + pages.length < maxReindexPages) := by
  induction pages generalizing acc with
  | nil => simp
  | cons page pages ih =>
      rw [List.foldlM_cons, bind_ok] at h
      obtain ⟨acc₁, hrow, h⟩ := h
      obtain ⟨hread, hroom⟩ := ih h
      rcases reindexRow_cases s acc page with ⟨hpage, e, m, -, -, heq⟩ | ⟨-, heq⟩
      · rw [heq] at hrow
        split at hrow
        · rename_i hlt
          obtain rfl := Except.ok.inj hrow
          refine ⟨List.forall_mem_cons.mpr ⟨hpage, hread⟩, fun _ => ?_⟩
          cases pages with
          | nil => exact hlt
          | cons p pages =>
              have hroom := hroom (by simp)
              simp only [List.length_append, List.length_cons, List.length_nil] at hroom ⊢
              omega
        · cases hrow
      · rw [heq] at hrow
        cases hrow

/-- A walk meets the ceiling exactly when it comes to that many pages and can index the first of
them. -/
theorem foldlM_reindexRow_ceiling {s : EditorialDb} {pages : List PublicEventPage}
    {acc : List SearchIndexEntry × List MapIndexEntry} (hacc : acc.1.length < maxReindexPages) :
    pages.foldlM s.reindexRow acc = .error .reindexCeiling ↔
      maxReindexPages ≤ acc.1.length + pages.length ∧
        ∀ p ∈ pages.take (maxReindexPages - acc.1.length), s.Indexable p := by
  induction pages generalizing acc with
  | nil =>
      refine iff_of_false ?_ (by simpa using hacc)
      intro h
      cases h
  | cons page pages ih =>
      obtain ⟨room, hroom⟩ : ∃ room, maxReindexPages - acc.1.length = room + 1 :=
        ⟨maxReindexPages - acc.1.length - 1, by omega⟩
      rw [List.foldlM_cons, hroom, List.take_succ_cons, List.forall_mem_cons, List.length_cons]
      rcases reindexRow_cases s acc page with ⟨hpage, e, m, -, -, hrow⟩ | ⟨hpage, hrow⟩
      · rw [hrow]
        split
        · rename_i hlt
          have hlen : (acc.1 ++ [e], acc.2 ++ m.toList).1.length = acc.1.length + 1 := by simp
          rw [ok_bind, ih (by rw [hlen]; exact hlt), hlen, and_iff_right hpage]
          have hrest : maxReindexPages - (acc.1.length + 1) = room := by omega
          rw [hrest, Nat.add_assoc, Nat.add_comm 1]
        · rename_i hfull
          have hzero : room = 0 := by omega
          subst hzero
          refine iff_of_true rfl ⟨by omega, hpage, ?_⟩
          rw [List.take_zero]
          simp
      · rw [hrow]
        refine iff_of_false ?_ fun h => hpage h.2.1
        intro h
        cases h

/-! ## The reindex -/

/-- The number of published pages. -/
def publishedCount (s : EditorialDb) : Nat := s.pages.countP (·.status = .published)

omit [PyText] [PyRepr] [PyIsoDate] in
theorem length_publishedListing (s : EditorialDb) : s.publishedListing.length = s.publishedCount := by
  unfold publishedListing publishedCount
  rw [(Keyset.perm_listing _).length_eq, List.countP_eq_length_filter]
  congr 2
  funext p
  simp

theorem executeReindex_ok_iff {s : EditorialDb} (hids : Rows.Unique PublicEventPage.id s.pages) :
    (∃ s', s.executeReindex = .ok s') ↔
      s.publishedCount < maxReindexPages ∧
        ∀ p ∈ s.publishedListing, s.Indexable p ∧ s.FitsTables p := by
  simp only [executeReindex_ok, reindexPublicEvents, bind_ok, pure_ok, reindexLoop_all hids]
  constructor
  · rintro ⟨_, -, acc, hfold, hsearch, -⟩
    obtain ⟨hread, hroom⟩ := foldlM_reindexRow_ends hfold
    have hcount : s.publishedCount < maxReindexPages := by
      rw [← length_publishedListing]
      by_cases hnil : s.publishedListing = []
      · rw [hnil]
        decide
      · simpa using hroom hnil
    have hroom' : ([] : List SearchIndexEntry).length + s.publishedListing.length < maxReindexPages := by
      rw [length_publishedListing, List.length_nil, Nat.zero_add]
      exact hcount
    obtain ⟨acc', hfold', hcolumns, -⟩ :=
      @foldlM_reindexRow_total _ _ _ s s.publishedListing ([], []) hread hroom'
    obtain rfl := Except.ok.inj (hfold.symm.trans hfold')
    refine ⟨hcount, fun p hp => ⟨hread p hp, ?_⟩⟩
    have hmem : pageColumns p (s.projectionOf p) ∈ acc.1.map SearchIndexEntry.columns := by
      rw [hcolumns]
      exact List.mem_append_right _ (List.mem_map_of_mem hp)
    obtain ⟨e, he, heq⟩ := List.mem_map.mp hmem
    have hfit := hsearch e he
    rwa [heq] at hfit
  · rintro ⟨hcount, hpages⟩
    have hroom : ([] : List SearchIndexEntry).length + s.publishedListing.length < maxReindexPages := by
      rw [length_publishedListing, List.length_nil, Nat.zero_add]
      exact hcount
    obtain ⟨acc, hfold, hcolumns, hmaps⟩ :=
      @foldlM_reindexRow_total _ _ _ s s.publishedListing ([], []) (fun p hp => (hpages p hp).1) hroom
    refine ⟨_, ⟨acc, hfold, rfl⟩, acc, hfold, ?_, ?_⟩
    · intro e he
      have hmem : e.columns ∈ acc.1.map SearchIndexEntry.columns := List.mem_map_of_mem he
      rw [hcolumns, List.map_nil, List.nil_append] at hmem
      obtain ⟨p, hp, heq⟩ := List.mem_map.mp hmem
      rw [← heq]
      exact (hpages p hp).2
    · intro x hx
      rcases hmaps x hx with hold | ⟨p, hp, heq⟩
      · cases hold
      · rw [heq]
        exact (hpages p hp).2

theorem executeReindex_ceiling_iff {s : EditorialDb} (hids : Rows.Unique PublicEventPage.id s.pages) :
    s.executeReindex = .error .reindexCeiling ↔
      maxReindexPages ≤ s.publishedCount ∧
        ∀ p ∈ s.publishedListing.take maxReindexPages, s.Indexable p := by
  rw [executeReindex_ceiling, reindexLoop_all hids, foldlM_reindexRow_ceiling (by decide),
    length_publishedListing]
  simp

/-- The search index holds the published pages, each once. -/
structure Complete (s s' : EditorialDb) : Prop where
  pages : s'.pages = s.pages
  once : Rows.Unique SearchIndexEntry.pageId s'.search
  exact : ∀ id, id ∈ s'.search.map SearchIndexEntry.pageId ↔ s.Published id

/-- The reindex leaves a complete search index, or refuses more pages than the maximum and
changes nothing; and it never refuses as many as the maximum or fewer. -/
structure Reindexes (s : EditorialDb) : Prop where
  outcome : (∃ s', s.executeReindex = .ok s' ∧ s.afterReindex = s' ∧ Complete s s') ∨
    (s.executeReindex = .error .reindexCeiling ∧ maxReindexPages < s.publishedCount ∧
      s.afterReindex = s)
  succeeds : s.publishedCount ≤ maxReindexPages → ∃ s', s.executeReindex = .ok s'

omit [PyText] [PyRepr] [PyIsoDate] in
theorem unique_rebuilt (entries rows : List SearchIndexEntry)
    (h : Rows.Unique SearchIndexEntry.pageId rows) :
    Rows.Unique SearchIndexEntry.pageId
      (entries.foldl (fun rows e => upsertRow SearchIndexEntry.pageId e rows) rows) := by
  induction entries generalizing rows with
  | nil => exact h
  | cons e entries ih =>
      rw [List.foldl_cons]
      refine ih _ ?_
      unfold upsertRow
      split
      · exact h.replace e
      · rename_i hnone
        refine h.append_single ?_
        simpa using hnone

theorem complete_of_ok {s s' : EditorialDb} (hids : Rows.Unique PublicEventPage.id s.pages)
    (h : s.executeReindex = .ok s') : Complete s s' := by
  have hreindex := (executeReindex_ok.mp h).1
  obtain ⟨hpages, -, hsearch, -⟩ := reindexPublicEvents_ok hids hreindex
  refine ⟨hpages, ?_, hsearch⟩
  simp only [reindexPublicEvents, bind_ok, pure_ok] at hreindex
  obtain ⟨acc, -, rfl⟩ := hreindex
  exact unique_rebuilt acc.1 [] (unique_nil _)

/-- A store with exactly as many published pages as the maximum is refused. -/
theorem not_reindexes_of_maximum {s : EditorialDb} (hids : Rows.Unique PublicEventPage.id s.pages)
    (hcount : s.publishedCount = maxReindexPages) : ¬ s.Reindexes := by
  intro h
  have hlt := ((executeReindex_ok_iff hids).mp (h.succeeds hcount.le)).1
  omega

/-- **Complete reindexes.**  A reindex does what it should exactly when the number of published
pages is not the maximum itself, the pages it comes to can be indexed, and, when it comes to all
of them, their rows fit the tables. -/
theorem reindexes_iff {s : EditorialDb} (hids : Rows.Unique PublicEventPage.id s.pages) :
    s.Reindexes ↔
      s.publishedCount ≠ maxReindexPages ∧
      (∀ p ∈ s.publishedListing.take maxReindexPages, s.Indexable p) ∧
      (s.publishedCount < maxReindexPages → ∀ p ∈ s.publishedListing, s.FitsTables p) := by
  have hall (h : s.publishedCount < maxReindexPages) :
      s.publishedListing.take maxReindexPages = s.publishedListing := by
    rw [List.take_of_length_le]
    rw [length_publishedListing]
    exact h.le
  constructor
  · intro h
    refine ⟨fun hcount => not_reindexes_of_maximum hids hcount h, ?_, ?_⟩
    · rcases h.outcome with ⟨s', hok, -⟩ | ⟨hceiling, -⟩
      · intro p hp
        exact (((executeReindex_ok_iff hids).mp ⟨s', hok⟩).2 p (List.mem_of_mem_take hp)).1
      · exact ((executeReindex_ceiling_iff hids).mp hceiling).2
    · intro hlt p hp
      exact (((executeReindex_ok_iff hids).mp (h.succeeds hlt.le)).2 p hp).2
  · rintro ⟨hne, hread, hfit⟩
    rcases Nat.lt_or_gt_of_ne hne with hlt | hgt
    · rw [hall hlt] at hread
      obtain ⟨s', hok⟩ := (executeReindex_ok_iff hids).mpr
        ⟨hlt, fun p hp => ⟨hread p hp, hfit hlt p hp⟩⟩
      refine ⟨.inl ⟨s', hok, ?_, complete_of_ok hids hok⟩, fun _ => ⟨s', hok⟩⟩
      unfold afterReindex
      rw [hok]
    · have hceiling := (executeReindex_ceiling_iff hids).mpr ⟨hgt.le, hread⟩
      refine ⟨.inr ⟨hceiling, hgt, ?_⟩, fun hle => absurd hle (by omega)⟩
      unfold afterReindex
      rw [hceiling]

end

/-! ## Shelves -/

/-- A published page of each number. -/
def shelfPage (n : Nat) : PublicEventPage :=
  { id := n
    eventId := n
    slug := "page-" ++ toString n
    title := "Report"
    shortSummary := none
    narrativeMarkdown := none
    status := .published
    version := 1
    firstPublishedAt := some 0
    lastPublishedAt := some 0
    retractedAt := none
    retractionNote := none
    createdAt := 0
    updatedAt := 0 }

/-- So many events, each with a published page and no projection. -/
def shelf (n : Nat) : EditorialDb :=
  { empty { Db.empty [] with events := (List.range n).map fun i => ⟨i, none⟩ } with
    nextId := n
    pages := (List.range n).map shelfPage }

theorem unique_shelf (n : Nat) : Rows.Unique PublicEventPage.id (shelf n).pages := by
  unfold Rows.Unique shelf
  rw [List.map_map]
  exact List.nodup_range.map fun a b h => h

theorem publishedCount_shelf (n : Nat) : (shelf n).publishedCount = n := by
  unfold publishedCount shelf
  rw [List.countP_eq_length.mpr (by simp [shelfPage]), List.length_map, List.length_range]

/-- One page is reindexed. -/
theorem one_page_reindexed : (shelf 1).Reindexes := by
  refine (reindexes_iff (unique_shelf 1)).mpr ⟨?_, ?_, ?_⟩
  · rw [publishedCount_shelf]
    decide
  · intro p _
    have hnone : (shelf 1).projectionOf p = none := rfl
    unfold Indexable
    rw [hnone]
    refine ⟨?_, id, id⟩
    intro b h
    cases h
  · intro _ p hp
    have hpage : p = shelfPage 0 := by
      have hmem := (mem_publishedListing.mp hp).1
      simpa [shelf] using hmem
    rw [hpage]
    show (pageColumns (shelfPage 0) none).Fit = true
    decide +kernel

/-- As many pages as the ceiling names do not exceed it, and the reindex refuses them. -/
theorem full_shelf_refused : ¬ (shelf maxReindexPages).Reindexes :=
  not_reindexes_of_maximum (unique_shelf _) (publishedCount_shelf _)

end EditorialDb

end Atlas
