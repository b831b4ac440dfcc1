import Atlas.Lib.Grid
import Atlas.SearchPages
import Mathlib

/-!
# Clusters on the map

`search_bbox` and `cluster_bbox` read the points of the map index in a box that meet the filters of
a query.  The first lists them.  The second divides the box into a grid, with the longitudes of a
box over the antimeridian unwrapped, and gives the count and the mean point of each cell.

The grid has its cells open to the east and to the north, and the box is closed: a point on these
edges is in a cell beyond the grid.  A box without width has cells without width, and a point in it
makes the query divide by zero; a box without height gets cells that leave it.  And the mean is of
the longitudes as they are, so where a cell reaches over the antimeridian it is not in the cell.
Where none of this happens the cells partition the points.

A query with confidence bands has no result at all.  Their clause is `confidence_band IN` a
parameter, which is not an expanding one, and the database does not parse what it is sent.
-/

namespace Atlas

open Outcome Rows Grid

/-- The errors of a map query: a refused value and the errors of the database. -/
inductive MapQueryError where
  | malformed (message : String)
  | divisionByZero
  | syntaxError
deriving DecidableEq, Repr

/-- `MapBoundingBox`: what `__post_init__` lets pass. -/
structure MapBoundingBox where
  south : ℚ
  west : ℚ
  north : ℚ
  east : ℚ
  south_mem : -90 ≤ south ∧ south ≤ 90
  north_mem : -90 ≤ north ∧ north ≤ 90
  west_mem : -180 ≤ west ∧ west ≤ 180
  east_mem : -180 ≤ east ∧ east ≤ 180
  ordered : south ≤ north
deriving DecidableEq, Repr

/-- `MapBoundingBox.__post_init__`; the messages hold the value, written by `str`. -/
def MapBoundingBox.mk? (str : ℚ → String) (south west north east : ℚ) :
    Except MapQueryError MapBoundingBox :=
  if hs : -90 ≤ south ∧ south ≤ 90 then
    if hn : -90 ≤ north ∧ north ≤ 90 then
      if hw : -180 ≤ west ∧ west ≤ 180 then
        if he : -180 ≤ east ∧ east ≤ 180 then
          if ho : south ≤ north then .ok ⟨south, west, north, east, hs, hn, hw, he, ho⟩
          else .error (.malformed ("south " ++ str south ++ " must be <= north " ++ str north))
        else .error (.malformed ("east longitude " ++ str east ++ " out of range [-180, 180]"))
      else .error (.malformed ("west longitude " ++ str west ++ " out of range [-180, 180]"))
    else .error (.malformed ("north latitude " ++ str north ++ " out of range [-90, 90]"))
  else .error (.malformed ("south latitude " ++ str south ++ " out of range [-90, 90]"))

namespace MapBoundingBox

variable (box : MapBoundingBox)

/-- Every box is one that is accepted. -/
theorem mk?_self (str : ℚ → String) : mk? str box.south box.west box.north box.east = .ok box := by
  simp [mk?, box.south_mem, box.north_mem, box.west_mem, box.east_mem, box.ordered]

def crossesAntimeridian : Bool := box.east < box.west

def longitudeSpan : ℚ :=
  if box.crossesAntimeridian then (180 - box.west) + (box.east - -180) else box.east - box.west

def latitudeSpan : ℚ := box.north - box.south

end MapBoundingBox

/-- `MAX_POINTS_PER_RESPONSE`. -/
def maxPointsPerResponse : Int := 500

/-- `MAX_CLUSTER_CELLS_PER_RESPONSE`. -/
def maxClusterCellsPerResponse : Nat := 2000

/-- `MIN_CLUSTER_PRECISION`. -/
def minClusterPrecision : Nat := 4

/-- `MAX_CLUSTER_PRECISION`. -/
def maxClusterPrecision : Nat := 64

/-- The filters of a map query. -/
structure MapFilters where
  operator : Option String
  aircraftType : Option String
  country : Option String
  eventDateFrom : Option PyDate
  eventDateTo : Option PyDate
  fatalitiesMin : Option Int
  fatalitiesMax : Option Int
  confidenceBands : Option (List String)
deriving DecidableEq, Repr

/-- `MapQuery`: what `__post_init__` lets pass. -/
structure MapQuery where
  bbox : MapBoundingBox
  filters : MapFilters
  clusterPrecision : Nat
  limit : Int
  dates : notAbove filters.eventDateFrom filters.eventDateTo
  fatalities_nonneg : ∀ n ∈ filters.fatalitiesMin, 0 ≤ n
  fatalities : notAbove filters.fatalitiesMin filters.fatalitiesMax
  limit_mem : 1 ≤ limit ∧ limit ≤ maxPointsPerResponse
  precision_mem : minClusterPrecision ≤ clusterPrecision ∧ clusterPrecision ≤ maxClusterPrecision
  bands : ∀ bands ∈ filters.confidenceBands, ∀ b ∈ bands, b ∈ ["high", "medium", "low", "unknown"]

/-- `MapQuery.__post_init__`; `sorted` writes the bands that are unknown. -/
def MapQuery.mk? (sorted : List String → String) (bbox : MapBoundingBox) (filters : MapFilters)
    (clusterPrecision limit : Int) : Except MapQueryError MapQuery :=
  if hd : notAbove filters.eventDateFrom filters.eventDateTo then
    if hz : ∀ n ∈ filters.fatalitiesMin, 0 ≤ n then
      if hf : notAbove filters.fatalitiesMin filters.fatalitiesMax then
        if hl : 1 ≤ limit ∧ limit ≤ maxPointsPerResponse then
          if hp : minClusterPrecision ≤ clusterPrecision ∧
              clusterPrecision ≤ maxClusterPrecision then
            if hb : ∀ bands ∈ filters.confidenceBands, ∀ b ∈ bands,
                b ∈ ["high", "medium", "low", "unknown"] then
              .ok ⟨bbox, filters, clusterPrecision.toNat, limit, hd, hz, hf, hl,
                ⟨by omega, by omega⟩, hb⟩
            else .error (.malformed ("Unknown confidence band(s): " ++
              sorted ((filters.confidenceBands.getD []).filter fun b =>
                b ∉ ["high", "medium", "low", "unknown"])))
          else .error (.malformed "cluster_precision must be in [4, 64]")
        else .error (.malformed "limit must be in [1, 500]")
      else .error (.malformed "fatalities_min must be <= fatalities_max")
    else .error (.malformed "fatalities_min must be >= 0")
  else .error (.malformed "event_date_from must be on or before event_date_to")

/-- Every query is one that is accepted. -/
theorem MapQuery.mk?_self (sorted : List String → String) (q : MapQuery) :
    mk? sorted q.bbox q.filters q.clusterPrecision q.limit = .ok q := by
  have hprecision : (minClusterPrecision : Int) ≤ q.clusterPrecision ∧
      (q.clusterPrecision : Int) ≤ maxClusterPrecision :=
    ⟨by exact_mod_cast q.precision_mem.1, by exact_mod_cast q.precision_mem.2⟩
  unfold mk?
  rw [dif_pos q.dates, dif_pos q.fatalities_nonneg, dif_pos q.fatalities, dif_pos q.limit_mem,
    dif_pos hprecision, dif_pos q.bands]
  rfl

/-! ## The points of a query -/

/-- Both ends belong to the range; what is no number is in none. -/
def PyFloat.between (lo hi : ℚ) : PyFloat → Bool
  | finite q => lo ≤ q ∧ q ≤ hi
  | _ => false

namespace MapIndexEntry

def lat (e : MapIndexEntry) : ℚ := e.latitude.toRat

def lng (e : MapIndexEntry) : ℚ := e.longitude.toRat

/-- `ST_Intersects` with `ST_MakeEnvelope`. -/
def inEnvelope (west south east north : ℚ) (e : MapIndexEntry) : Bool :=
  e.longitude.between west east && e.latitude.between south north

end MapIndexEntry

/-- `_bbox_predicate_sql`. -/
def MapBoundingBox.predicate (box : MapBoundingBox) (e : MapIndexEntry) : Bool :=
  if box.crossesAntimeridian then
    e.inEnvelope box.west box.south 180 box.north || e.inEnvelope (-180) box.south box.east box.north
  else e.inEnvelope box.west box.south box.east box.north

/-- `_filters_predicate_sql`, but for the clause on the bands: with it there is no statement. -/
def MapFilters.predicate (filters : MapFilters) (e : MapIndexEntry) : Bool :=
  facetAccepts filters.operator e.operator &&
  facetAccepts filters.aircraftType e.aircraftType &&
  facetAccepts filters.country e.country &&
  (filters.eventDateFrom.all fun d => e.eventDate.any fun x => decide (d ≤ x)) &&
  (filters.eventDateTo.all fun d => e.eventDate.any fun x => decide (x ≤ d)) &&
  (filters.fatalitiesMin.all fun n => e.fatalitiesTotal.any fun x => decide (n ≤ x)) &&
  (filters.fatalitiesMax.all fun n => e.fatalitiesTotal.any fun x => decide (x ≤ n))

namespace MapQuery

variable (q : MapQuery) (entries : List MapIndexEntry)

/-- The rows that the two reads select. -/
def matching : List MapIndexEntry :=
  entries.filter fun e => q.bbox.predicate e && q.filters.predicate e

/-- The order of the points, `(last_published_at, page_id)`. -/
def pointKey (e : MapIndexEntry) : Time ×ₗ Uuid := toLex (e.lastPublishedAt, e.pageId)

/-- `search_bbox`: the points and whether there are more. -/
def searchBbox : Except MapQueryError (List MapIndexEntry × Bool) := do
  require (q.filters.confidenceBands = none) .syntaxError
  let rows := (Keyset.listing pointKey (q.matching entries)).take (q.limit.toNat + 1)
  pure (rows.take q.limit.toNat, decide (q.limit.toNat < rows.length))

/-! ## The grid -/

def cellW : ℚ := q.bbox.longitudeSpan / q.clusterPrecision

def cellH : ℚ :=
  if 0 < q.bbox.latitudeSpan then q.bbox.latitudeSpan / q.clusterPrecision
  else 1 / q.clusterPrecision

/-- The point lies to the east of the antimeridian in a box that crosses it. -/
def wraps (e : MapIndexEntry) : Bool := q.bbox.crossesAntimeridian && decide (e.lng < q.bbox.west)

/-- `shifted_lng`. -/
def shiftedLng (e : MapIndexEntry) : ℚ := if q.wraps e then e.lng + 360 else e.lng

/-- `xi` and `yi`. -/
def cellOf (e : MapIndexEntry) : Int × Int :=
  (index q.bbox.west q.cellW (q.shiftedLng e), index q.bbox.south q.cellH e.lat)

end MapQuery

structure MapClusterCell where
  cellWest : ℚ
  cellSouth : ℚ
  cellEast : ℚ
  cellNorth : ℚ
  centroidLatitude : ℚ
  centroidLongitude : ℚ
  count : Nat
deriving DecidableEq, Repr

structure MapClusterResult where
  cells : List MapClusterCell
  truncated : Bool
  clusterPrecision : Nat
deriving DecidableEq, Repr

/-- A row of the query: a cell with its points. -/
abbrev ClusterRow := (Int × Int) × List MapIndexEntry

/-- `COUNT(*)`. -/
def ClusterRow.cnt (row : ClusterRow) : Nat := row.2.length

namespace MapQuery

variable (q : MapQuery) (entries : List MapIndexEntry)

/-- The cell of a row of the result. -/
def cellFrom (row : ClusterRow) : MapClusterCell where
  cellWest := q.bbox.west + row.1.1 * q.cellW
  cellSouth := q.bbox.south + row.1.2 * q.cellH
  cellEast := q.bbox.west + row.1.1 * q.cellW + q.cellW
  cellNorth := q.bbox.south + row.1.2 * q.cellH + q.cellH
  centroidLatitude := mean (row.2.map MapIndexEntry.lat)
  centroidLongitude := mean (row.2.map MapIndexEntry.lng)
  count := row.cnt

/-- The groups of the query. -/
def clusterRows : List ClusterRow := groups q.cellOf (q.matching entries)

/-- `cluster_bbox`.  The query divides by the width of a cell for each point it selects; the order
of cells with one count is that of the database. -/
def clusterBbox (order : Descending ClusterRow.cnt) : Except MapQueryError MapClusterResult := do
  require (q.filters.confidenceBands = none) .syntaxError
  require (q.cellW ≠ 0 ∨ q.matching entries = []) .divisionByZero
  let rows := (order.sort (q.clusterRows entries)).take (maxClusterCellsPerResponse + 1)
  let truncated := decide (maxClusterCellsPerResponse < rows.length)
  let rows := if truncated then rows.take maxClusterCellsPerResponse else rows
  pure ⟨rows.map q.cellFrom, truncated, q.clusterPrecision⟩

end MapQuery

/-! ## Points in the box -/

theorem PyFloat.between_bounds {lo hi : ℚ} {x : PyFloat} (h : x.between lo hi = true) :
    lo ≤ x.toRat ∧ x.toRat ≤ hi := by
  cases x with
  | finite q => exact of_decide_eq_true h
  | inf negative => cases h
  | nan => cases h

namespace MapQuery

variable {q : MapQuery} {entries : List MapIndexEntry} {e : MapIndexEntry}

/-- **The points of a query lie in the unwrapped box.** -/
theorem matching_bounds (h : e ∈ q.matching entries) :
    (q.bbox.west ≤ q.shiftedLng e ∧ q.shiftedLng e ≤ q.bbox.west + q.bbox.longitudeSpan) ∧
      (q.bbox.south ≤ e.lat ∧ e.lat ≤ q.bbox.north) := by
  have hbox : q.bbox.predicate e = true := by
    have := (List.mem_filter.mp h).2
    simp only [Bool.and_eq_true] at this
    exact this.1
  have hwest := q.bbox.west_mem
  have heast := q.bbox.east_mem
  unfold MapBoundingBox.predicate MapIndexEntry.inEnvelope at hbox
  unfold shiftedLng wraps MapBoundingBox.longitudeSpan MapIndexEntry.lng MapIndexEntry.lat
  cases hcross : q.bbox.crossesAntimeridian with
  | false =>
      simp only [hcross, Bool.false_eq_true, if_false, Bool.and_eq_true] at hbox
      have hlng := PyFloat.between_bounds hbox.1
      refine ⟨?_, PyFloat.between_bounds hbox.2⟩
      simp only [Bool.false_and, Bool.false_eq_true, if_false]
      exact ⟨hlng.1, by linarith⟩
  | true =>
      have hwrap : q.bbox.east < q.bbox.west := of_decide_eq_true hcross
      simp only [hcross, if_true, Bool.or_eq_true, Bool.and_eq_true] at hbox
      simp only [Bool.true_and, decide_eq_true_eq, if_true]
      rcases hbox with ⟨hlng, hlat⟩ | ⟨hlng, hlat⟩
      · have hlng := PyFloat.between_bounds hlng
        refine ⟨?_, PyFloat.between_bounds hlat⟩
        rw [if_neg (not_lt.mpr hlng.1)]
        exact ⟨hlng.1, by linarith⟩
      · have hlng := PyFloat.between_bounds hlng
        refine ⟨?_, PyFloat.between_bounds hlat⟩
        rw [if_pos (lt_of_le_of_lt hlng.2 hwrap)]
        exact ⟨by linarith, by linarith⟩

theorem precision_pos (q : MapQuery) : 0 < q.clusterPrecision :=
  lt_of_lt_of_le (by decide) q.precision_mem.1

theorem longitudeSpan_nonneg (box : MapBoundingBox) : 0 ≤ box.longitudeSpan := by
  unfold MapBoundingBox.longitudeSpan
  cases hcross : box.crossesAntimeridian with
  | false =>
      have hle : box.west ≤ box.east := not_lt.mp (of_decide_eq_false hcross)
      simp only [Bool.false_eq_true, if_false]
      linarith
  | true =>
      simp only [if_true]
      linarith [box.west_mem.2, box.east_mem.1]

theorem longitudeSpan_le (box : MapBoundingBox) : box.longitudeSpan ≤ 360 := by
  unfold MapBoundingBox.longitudeSpan
  cases hcross : box.crossesAntimeridian with
  | false =>
      simp only [Bool.false_eq_true, if_false]
      linarith [box.west_mem.1, box.east_mem.2]
  | true =>
      have hwrap : box.east < box.west := of_decide_eq_true hcross
      simp only [if_true]
      linarith

/-- A cell is not wider than a turn. -/
theorem cellW_le (q : MapQuery) : q.cellW ≤ 360 := by
  have hp : (1 : ℚ) ≤ q.clusterPrecision := by exact_mod_cast q.precision_pos
  exact (div_le_self (longitudeSpan_nonneg q.bbox) hp).trans (longitudeSpan_le q.bbox)

theorem cellW_pos_iff (q : MapQuery) : 0 < q.cellW ↔ 0 < q.bbox.longitudeSpan := by
  have hp : (0 : ℚ) < q.clusterPrecision := by exact_mod_cast q.precision_pos
  unfold cellW
  rw [div_pos_iff_of_pos_right hp]

theorem cellW_ne_zero_iff (q : MapQuery) : q.cellW ≠ 0 ↔ 0 < q.bbox.longitudeSpan := by
  have hnonneg : 0 ≤ q.cellW :=
    div_nonneg (longitudeSpan_nonneg q.bbox) (by exact_mod_cast q.precision_pos.le)
  rw [← cellW_pos_iff]
  exact ⟨fun h => lt_of_le_of_ne hnonneg (Ne.symm h), fun h => h.ne'⟩

theorem cellH_pos (q : MapQuery) : 0 < q.cellH := by
  have hp : (0 : ℚ) < q.clusterPrecision := by exact_mod_cast q.precision_pos
  unfold cellH
  split
  · rename_i h
    exact div_pos h hp
  · exact div_pos one_pos hp

end MapQuery

/-! ## What the cells are to be -/

namespace MapQuery

variable (q : MapQuery) (entries : List MapIndexEntry)

/-- A cell of the grid within the box, and its centroid in it, up to turns. -/
structure CellFits (cell : MapClusterCell) : Prop where
  index : ∃ xi yi : Nat, xi < q.clusterPrecision ∧ yi < q.clusterPrecision ∧
    cell.cellWest = q.bbox.west + xi * q.cellW ∧ cell.cellSouth = q.bbox.south + yi * q.cellH
  longitudes : q.bbox.west ≤ cell.cellWest ∧ cell.cellEast ≤ q.bbox.west + q.bbox.longitudeSpan
  latitudes : q.bbox.south ≤ cell.cellSouth ∧ cell.cellNorth ≤ q.bbox.north
  centroidLongitude : ∃ turns : Int, cell.cellWest ≤ cell.centroidLongitude + 360 * turns ∧
    cell.centroidLongitude + 360 * turns < cell.cellEast
  centroidLatitude : cell.cellSouth ≤ cell.centroidLatitude ∧
    cell.centroidLatitude < cell.cellNorth

/-- Whatever the order of cells with one count, the query has a result, its counts add
up to the number of the points unless it is truncated, and its cells fit. -/
structure Partitions : Prop where
  defined : ∀ order, ∃ result, q.clusterBbox entries order = .ok result
  counts : ∀ order result, q.clusterBbox entries order = .ok result → result.truncated = false →
    (result.cells.map MapClusterCell.count).sum = (q.matching entries).length
  fits : ∀ order result, q.clusterBbox entries order = .ok result →
    ∀ cell ∈ result.cells, q.CellFits cell

/-- The points in the cell of a point. -/
def membersOf (e : MapIndexEntry) : List MapIndexEntry :=
  (q.matching entries).filter fun x => q.cellOf x = q.cellOf e

/-- The cell of the point can be among those that are listed. -/
def Listed (e : MapIndexEntry) : Prop :=
  (heavier ClusterRow.cnt (q.clusterRows entries)
    (q.cellOf e, q.membersOf entries e)).length < maxClusterCellsPerResponse

/-- The points of the cell lie on one side of the antimeridian.  Or they do not, and the mean
leaves the cell by the share of a turn that the wrapped points are of all, unless the mean is as
far from the west side, or farther from the east side than the rest of the turn. -/
def SidesAgree (members : List MapIndexEntry) (xi : Int) : Prop :=
  (∀ x ∈ members, q.wraps x = false) ∨ (∀ x ∈ members, q.wraps x = true) ∨
    360 * members.countP q.wraps / members.length ≤
      mean (members.map q.shiftedLng) - (q.bbox.west + xi * q.cellW) ∨
    360 - 360 * members.countP q.wraps / members.length <
      q.bbox.west + xi * q.cellW + q.cellW - mean (members.map q.shiftedLng)

/-- The query names no confidence bands, and it has no point; or its box has a width and a height,
and no cell that can be listed has a point on the east or the north edge or points on both sides
of the antimeridian. -/
def Regular : Prop :=
  q.filters.confidenceBands = none ∧
    (q.matching entries = [] ∨
      0 < q.bbox.longitudeSpan ∧ 0 < q.bbox.latitudeSpan ∧
        ∀ e ∈ q.matching entries, q.Listed entries e →
          q.shiftedLng e ≠ q.bbox.west + q.bbox.longitudeSpan ∧ e.lat ≠ q.bbox.north ∧
            q.SidesAgree (q.membersOf entries e) (q.cellOf e).1)

end MapQuery

/-! ## The cells that are listed -/

namespace MapQuery

variable {q : MapQuery} {entries : List MapIndexEntry} {e : MapIndexEntry}

/-- The list of the points, when it is not cut. -/
theorem searchBbox_perm {items : List MapIndexEntry} (h : q.searchBbox entries = .ok (items, false)) :
    items.Perm (q.matching entries) := by
  have hperm : (Keyset.listing pointKey (q.matching entries)).Perm (q.matching entries) :=
    Keyset.perm_listing _
  unfold searchBbox at h
  simp only [bind_ok, pure_ok, Prod.mk.injEq] at h
  obtain ⟨-, -, hitems, hmore⟩ := h
  have hlength : (Keyset.listing pointKey (q.matching entries)).length ≤ q.limit.toNat := by
    have := of_decide_eq_false hmore
    rw [List.length_take] at this
    omega
  rw [← hitems, List.take_of_length_le (by omega : _ ≤ q.limit.toNat + 1),
    List.take_of_length_le hlength]
  exact hperm

theorem mem_clusterRows {row : ClusterRow} :
    row ∈ q.clusterRows entries ↔
      ∃ e ∈ q.matching entries, row = (q.cellOf e, q.membersOf entries e) := mem_groups

/-- **The result of a cluster query**: the first cells of the order. -/
theorem clusterBbox_ok {order : Descending ClusterRow.cnt} {result : MapClusterResult} :
    q.clusterBbox entries order = .ok result ↔
      (q.filters.confidenceBands = none ∧ (q.cellW ≠ 0 ∨ q.matching entries = [])) ∧
        ⟨((order.sort (q.clusterRows entries)).take maxClusterCellsPerResponse).map q.cellFrom,
          decide (maxClusterCellsPerResponse < (q.clusterRows entries).length),
          q.clusterPrecision⟩ = result := by
  have hlength : (order.sort (q.clusterRows entries)).length = (q.clusterRows entries).length :=
    (order.perm _).length_eq
  have htruncated : (maxClusterCellsPerResponse <
      ((order.sort (q.clusterRows entries)).take (maxClusterCellsPerResponse + 1)).length) ↔
      maxClusterCellsPerResponse < (q.clusterRows entries).length := by
    rw [List.length_take, hlength]
    omega
  have hrows : (if maxClusterCellsPerResponse < (q.clusterRows entries).length then
      ((order.sort (q.clusterRows entries)).take (maxClusterCellsPerResponse + 1)).take
        maxClusterCellsPerResponse
      else (order.sort (q.clusterRows entries)).take (maxClusterCellsPerResponse + 1)) =
      (order.sort (q.clusterRows entries)).take maxClusterCellsPerResponse := by
    split
    · rw [List.take_take, min_eq_left (Nat.le_succ _)]
    · rw [List.take_of_length_le (by omega), List.take_of_length_le (by omega)]
  unfold clusterBbox
  simp only [bind_ok, pure_ok, require_ok, decide_eq_true_eq, htruncated, hrows]
  constructor
  · rintro ⟨-, hparses, -, hdefined, h⟩
    exact ⟨⟨hparses, hdefined⟩, h⟩
  · rintro ⟨⟨hparses, hdefined⟩, h⟩
    exact ⟨(), hparses, (), hdefined, h⟩

/-- The mean longitude of a cell, from that of the unwrapped longitudes. -/
theorem mean_lng (members : List MapIndexEntry) :
    mean (members.map MapIndexEntry.lng) =
      mean (members.map q.shiftedLng) - 360 * members.countP q.wraps / members.length := by
  have h := mean_map_shift MapIndexEntry.lng q.wraps 360 members
  have hshift : members.map q.shiftedLng =
      members.map fun e => if q.wraps e then e.lng + 360 else e.lng := rfl
  rw [hshift, h]
  ring

/-- The members of a cell lie in it. -/
theorem members_bounds (hspan : 0 < q.bbox.longitudeSpan) {x : MapIndexEntry}
    (hx : x ∈ q.membersOf entries e) :
    (q.bbox.west + (q.cellOf e).1 * q.cellW ≤ q.shiftedLng x ∧
        q.shiftedLng x < q.bbox.west + (q.cellOf e).1 * q.cellW + q.cellW) ∧
      (q.bbox.south + (q.cellOf e).2 * q.cellH ≤ x.lat ∧
        x.lat < q.bbox.south + (q.cellOf e).2 * q.cellH + q.cellH) := by
  have hcell : q.cellOf x = q.cellOf e := of_decide_eq_true (List.mem_filter.mp hx).2
  rw [← hcell]
  exact ⟨index_bounds (q.cellW_pos_iff.mpr hspan), index_bounds q.cellH_pos⟩

theorem membersOf_ne_nil (he : e ∈ q.matching entries) : q.membersOf entries e ≠ [] :=
  List.ne_nil_of_mem (List.mem_filter.mpr ⟨he, by simp⟩)

/-- The centroid of a cell is in the cell, up to turns, when the sides agree. -/
theorem centroidLongitude_iff (hspan : 0 < q.bbox.longitudeSpan) (he : e ∈ q.matching entries) :
    (∃ turns : Int, q.bbox.west + (q.cellOf e).1 * q.cellW ≤
        mean ((q.membersOf entries e).map MapIndexEntry.lng) + 360 * turns ∧
      mean ((q.membersOf entries e).map MapIndexEntry.lng) + 360 * turns <
        q.bbox.west + (q.cellOf e).1 * q.cellW + q.cellW) ↔
      q.SidesAgree (q.membersOf entries e) (q.cellOf e).1 := by
  have hmean : q.bbox.west + (q.cellOf e).1 * q.cellW ≤
      mean ((q.membersOf entries e).map q.shiftedLng) ∧
        mean ((q.membersOf entries e).map q.shiftedLng) <
          q.bbox.west + (q.cellOf e).1 * q.cellW + q.cellW := by
    refine mean_mem (by simpa using membersOf_ne_nil he) ?_
    intro y hy
    obtain ⟨x, hx, rfl⟩ := List.mem_map.mp hy
    exact (members_bounds hspan hx).1
  have hpos : (0 : ℚ) < (q.membersOf entries e).length := by
    exact_mod_cast List.length_pos_iff.mpr (membersOf_ne_nil he)
  have hcount : ((q.membersOf entries e).countP q.wraps : ℚ) ≤ (q.membersOf entries e).length := by
    exact_mod_cast List.countP_le_length
  have hshare : 360 * ((q.membersOf entries e).countP q.wraps : ℚ) /
      (q.membersOf entries e).length ≤ 360 :=
    (div_le_iff₀ hpos).mpr (mul_le_mul_of_nonneg_left hcount (by norm_num))
  have hmoved := moved_mem_iff q.cellW_le hmean ⟨by positivity, hshare⟩
  rw [mean_lng]
  unfold SidesAgree
  constructor
  · intro h
    exact .inr (.inr (hmoved.mp h))
  · rintro (hnone | hall | hroom)
    · have hzero : (q.membersOf entries e).countP q.wraps = 0 :=
        List.countP_eq_zero.mpr fun x hx => by simp [hnone x hx]
      refine ⟨0, ?_⟩
      rw [hzero]
      simpa using hmean
    · have hwhole : (q.membersOf entries e).countP q.wraps = (q.membersOf entries e).length :=
        List.countP_eq_length.mpr hall
      refine ⟨1, ?_⟩
      rw [hwhole, mul_div_assoc, div_self hpos.ne']
      simpa using hmean
    · exact hmoved.mpr hroom

/-- **When a cell fits**, in a box with a width. -/
theorem cellFits_iff (hspan : 0 < q.bbox.longitudeSpan) (he : e ∈ q.matching entries) :
    q.CellFits (q.cellFrom (q.cellOf e, q.membersOf entries e)) ↔
      0 < q.bbox.latitudeSpan ∧ q.shiftedLng e ≠ q.bbox.west + q.bbox.longitudeSpan ∧
        e.lat ≠ q.bbox.north ∧ q.SidesAgree (q.membersOf entries e) (q.cellOf e).1 := by
  obtain ⟨⟨hwest, heast⟩, hsouth, hnorth⟩ := matching_bounds he
  have hwpos : 0 < q.cellW := q.cellW_pos_iff.mpr hspan
  have hp : (0 : ℚ) < q.clusterPrecision := by exact_mod_cast q.precision_pos
  have hcols : q.clusterPrecision * q.cellW = q.bbox.longitudeSpan := mul_div_cancel₀ _ hp.ne'
  have hx : (q.cellOf e).1 < q.clusterPrecision ↔
      q.shiftedLng e ≠ q.bbox.west + q.bbox.longitudeSpan :=
    index_lt_iff q.precision_pos hspan heast
  have hy : 0 < q.bbox.latitudeSpan →
      ((q.cellOf e).2 < q.clusterPrecision ↔ e.lat ≠ q.bbox.north) := by
    intro hlat
    have htop : q.bbox.south + q.bbox.latitudeSpan = q.bbox.north := by
      unfold MapBoundingBox.latitudeSpan
      ring
    have hrow : q.cellH = q.bbox.latitudeSpan / q.clusterPrecision := if_pos hlat
    have hlt := index_lt_iff (x := e.lat) q.precision_pos hlat (htop ▸ hnorth)
    rw [htop, ← hrow] at hlt
    exact hlt
  constructor
  · rintro ⟨⟨xi, yi, hxi, hyi, hcellWest, hcellSouth⟩, -, ⟨-, hcellNorth⟩, hlng, -⟩
    have hxeq : (q.cellOf e).1 = xi := by
      have : ((q.cellOf e).1 : ℚ) = xi := mul_right_cancel₀ hwpos.ne' (add_left_cancel hcellWest)
      exact_mod_cast this
    have hyeq : (q.cellOf e).2 = yi := by
      have : ((q.cellOf e).2 : ℚ) = yi :=
        mul_right_cancel₀ q.cellH_pos.ne' (add_left_cancel hcellSouth)
      exact_mod_cast this
    have hlat : 0 < q.bbox.latitudeSpan := by
      have hnonneg : (0 : ℚ) ≤ (q.cellOf e).2 * q.cellH :=
        mul_nonneg (by rw [hyeq]; positivity) q.cellH_pos.le
      have hle : q.bbox.south + (q.cellOf e).2 * q.cellH + q.cellH ≤ q.bbox.north := hcellNorth
      have hpos := q.cellH_pos
      unfold MapBoundingBox.latitudeSpan
      linarith
    have hxi : (q.cellOf e).1 < q.clusterPrecision := by rw [hxeq]; exact_mod_cast hxi
    have hyi : (q.cellOf e).2 < q.clusterPrecision := by rw [hyeq]; exact_mod_cast hyi
    exact ⟨hlat, hx.mp hxi, (hy hlat).mp hyi, (centroidLongitude_iff hspan he).mp hlng⟩
  · rintro ⟨hlat, hedge, htop, hsides⟩
    have hrows : q.clusterPrecision * q.cellH = q.bbox.latitudeSpan := by
      rw [show q.cellH = q.bbox.latitudeSpan / q.clusterPrecision from if_pos hlat]
      exact mul_div_cancel₀ _ hp.ne'
    have hxfrom : 0 ≤ (q.cellOf e).1 := index_nonneg hwpos hwest
    have hyfrom : 0 ≤ (q.cellOf e).2 := index_nonneg q.cellH_pos hsouth
    obtain ⟨xi, hxi⟩ := Int.eq_ofNat_of_zero_le hxfrom
    obtain ⟨yi, hyi⟩ := Int.eq_ofNat_of_zero_le hyfrom
    have hxlt : xi < q.clusterPrecision := by
      have := hx.mpr hedge
      omega
    have hylt : yi < q.clusterPrecision := by
      have := (hy hlat).mpr htop
      omega
    have hxcast : ((q.cellOf e).1 : ℚ) = xi := by rw [hxi]; rfl
    have hycast : ((q.cellOf e).2 : ℚ) = yi := by rw [hyi]; rfl
    have hxspan : (xi + 1 : ℚ) * q.cellW ≤ q.bbox.longitudeSpan := by
      rw [← hcols]
      exact mul_le_mul_of_nonneg_right (by exact_mod_cast hxlt) hwpos.le
    have hyspan : (yi + 1 : ℚ) * q.cellH ≤ q.bbox.latitudeSpan := by
      rw [← hrows]
      exact mul_le_mul_of_nonneg_right (by exact_mod_cast hylt) q.cellH_pos.le
    have hxnonneg : (0 : ℚ) ≤ xi * q.cellW := mul_nonneg (by positivity) hwpos.le
    have hynonneg : (0 : ℚ) ≤ yi * q.cellH := mul_nonneg (by positivity) q.cellH_pos.le
    have hlatspan : q.bbox.latitudeSpan = q.bbox.north - q.bbox.south := rfl
    refine ⟨⟨xi, yi, hxlt, hylt, ?_, ?_⟩, ⟨?_, ?_⟩, ⟨?_, ?_⟩, ?_, ?_⟩
    · exact congrArg (fun n => q.bbox.west + n * q.cellW) hxcast
    · exact congrArg (fun n => q.bbox.south + n * q.cellH) hycast
    · change q.bbox.west ≤ q.bbox.west + (q.cellOf e).1 * q.cellW
      rw [hxcast]
      linarith
    · change q.bbox.west + (q.cellOf e).1 * q.cellW + q.cellW ≤ _
      rw [hxcast]
      linarith
    · change q.bbox.south ≤ q.bbox.south + (q.cellOf e).2 * q.cellH
      rw [hycast]
      linarith
    · change q.bbox.south + (q.cellOf e).2 * q.cellH + q.cellH ≤ _
      rw [hycast]
      linarith
    · exact (centroidLongitude_iff hspan he).mpr hsides
    · refine mean_mem (by simpa using membersOf_ne_nil he) ?_
      intro y hy
      obtain ⟨x, hx, rfl⟩ := List.mem_map.mp hy
      exact (members_bounds hspan hx).2

/-- A listed row is that of a point whose cell can be listed. -/
theorem listed_of_mem_take {order : Descending ClusterRow.cnt} {row : ClusterRow}
    (h : row ∈ (order.sort (q.clusterRows entries)).take maxClusterCellsPerResponse) :
    ∃ e ∈ q.matching entries, row = (q.cellOf e, q.membersOf entries e) ∧ q.Listed entries e := by
  have hrow : row ∈ q.clusterRows entries := (order.perm _).mem_iff.mp (List.mem_of_mem_take h)
  obtain ⟨e, he, rfl⟩ := mem_clusterRows.mp hrow
  exact ⟨e, he, rfl, order.length_heavier h⟩

/-- Where there are points, some cell can be listed. -/
theorem exists_listed (h : q.matching entries ≠ []) :
    ∃ e ∈ q.matching entries, q.Listed entries e := by
  let order : Descending ClusterRow.cnt := Descending.stable _
  have hrows : order.sort (q.clusterRows entries) ≠ [] := by
    intro hnil
    have hperm := order.perm (q.clusterRows entries)
    rw [hnil] at hperm
    exact h (groups_eq_nil.mp hperm.nil_eq.symm)
  obtain ⟨row, rest, hcons⟩ := List.exists_cons_of_ne_nil hrows
  have hfirst : row ∈ (order.sort (q.clusterRows entries)).take maxClusterCellsPerResponse := by
    rw [hcons]
    exact List.mem_cons_self
  obtain ⟨e, he, -, hlisted⟩ := listed_of_mem_take hfirst
  exact ⟨e, he, hlisted⟩

/-- The counts of a result that is not truncated. -/
theorem counts_of_ok {order : Descending ClusterRow.cnt} {result : MapClusterResult}
    (h : q.clusterBbox entries order = .ok result) (htruncated : result.truncated = false) :
    (result.cells.map MapClusterCell.count).sum = (q.matching entries).length := by
  obtain ⟨-, rfl⟩ := clusterBbox_ok.mp h
  have hperm := order.perm (q.clusterRows entries)
  have hall : (order.sort (q.clusterRows entries)).take maxClusterCellsPerResponse =
      order.sort (q.clusterRows entries) := by
    refine List.take_of_length_le ?_
    rw [hperm.length_eq]
    exact not_lt.mp (of_decide_eq_false htruncated)
  dsimp only
  rw [hall, List.map_map, (hperm.map _).sum_eq]
  exact sum_length_groups

/-- **When the cells partition the points.** -/
theorem map_clusters_partition_iff (q : MapQuery) (entries : List MapIndexEntry) :
    q.Partitions entries ↔ q.Regular entries := by
  constructor
  · intro h
    obtain ⟨result, hresult⟩ := h.defined (Descending.stable _)
    obtain ⟨hparses, hdefined⟩ := (clusterBbox_ok.mp hresult).1
    refine ⟨hparses, ?_⟩
    by_cases hnone : q.matching entries = []
    · exact .inl hnone
    have hspan : 0 < q.bbox.longitudeSpan := q.cellW_ne_zero_iff.mp (hdefined.resolve_right hnone)
    have hfits : ∀ e ∈ q.matching entries, q.Listed entries e →
        q.CellFits (q.cellFrom (q.cellOf e, q.membersOf entries e)) := by
      intro e he hlisted
      let row : ClusterRow := (q.cellOf e, q.membersOf entries e)
      have hrow : row ∈ q.clusterRows entries := mem_clusterRows.mpr ⟨e, he, rfl⟩
      have hshown := Descending.mem_take_first hrow hlisted
      have hok := (@clusterBbox_ok q entries (Descending.first ClusterRow.cnt row) _).mpr
        ⟨⟨hparses, hdefined⟩, rfl⟩
      exact h.fits _ _ hok _ (List.mem_map_of_mem hshown)
    obtain ⟨e, he, hlisted⟩ := exists_listed hnone
    have hlat : 0 < q.bbox.latitudeSpan := ((cellFits_iff hspan he).mp (hfits e he hlisted)).1
    refine .inr ⟨hspan, hlat, ?_⟩
    intro e he hlisted
    exact ((cellFits_iff hspan he).mp (hfits e he hlisted)).2
  · rintro ⟨hparses, h⟩
    have hdefined : q.cellW ≠ 0 ∨ q.matching entries = [] := by
      rcases h with hnone | ⟨hspan, -⟩
      · exact .inr hnone
      · exact .inl (q.cellW_ne_zero_iff.mpr hspan)
    refine ⟨fun order => ⟨_, clusterBbox_ok.mpr ⟨⟨hparses, hdefined⟩, rfl⟩⟩,
      fun _ _ => counts_of_ok, ?_⟩
    intro order result hok cell hcell
    obtain ⟨-, rfl⟩ := clusterBbox_ok.mp hok
    obtain ⟨row, hrow, rfl⟩ := List.mem_map.mp hcell
    obtain ⟨e, he, rfl, hlisted⟩ := listed_of_mem_take hrow
    rcases h with hnone | ⟨hspan, hlat, hall⟩
    · rw [hnone] at he
      exact absurd he List.not_mem_nil
    · exact (cellFits_iff hspan he).mpr ⟨hlat, hall e he hlisted⟩

end MapQuery

/-! ## Edges and the antimeridian -/

/-- A query without filters over the latitudes from `-10` to `10`, in four cells each way. -/
def bandQuery (west east : ℚ) (hwest : -180 ≤ west ∧ west ≤ 180) (heast : -180 ≤ east ∧ east ≤ 180) :
    MapQuery where
  bbox := ⟨-10, west, 10, east, by norm_num, by norm_num, hwest, heast, by norm_num⟩
  filters := ⟨none, none, none, none, none, none, none, none⟩
  clusterPrecision := 4
  limit := 200
  dates := by decide
  fatalities_nonneg := by decide
  fatalities := by decide
  limit_mem := by decide
  precision_mem := by decide
  bands := by decide

/-- A point on the equator. -/
def equatorPoint (pageId : Uuid) (lng : ℚ) : MapIndexEntry where
  pageId := pageId
  slug := "report"
  title := "Report"
  latitude := .finite 0
  longitude := .finite lng
  operator := none
  aircraftType := none
  country := none
  eventDate := none
  fatalitiesTotal := none
  confidenceBand := .unknown
  lastPublishedAt := 1

/-- The query of the band from 20 to 28 degrees for reports of high confidence. -/
def confidentQuery : MapQuery :=
  { bandQuery 20 28 (by norm_num) (by norm_num) with
    filters := ⟨none, none, none, none, none, none, none, some ["high"]⟩
    dates := by decide
    fatalities_nonneg := by decide
    fatalities := by decide
    bands := by decide }

/-- In a box without width a point makes the query divide by zero; a point on the east edge is in a
cell beyond the box; two points on the sides of the antimeridian have their centroid on the
other side of the earth; and a query with confidence bands has no result. -/
theorem clusters_leave_grid :
    ¬ (bandQuery 20 20 (by norm_num) (by norm_num)).Partitions [equatorPoint 1 20] ∧
      ¬ (bandQuery 20 28 (by norm_num) (by norm_num)).Partitions [equatorPoint 1 28] ∧
      ¬ (bandQuery 175 (-170) (by norm_num) (by norm_num)).Partitions
        [equatorPoint 1 179, equatorPoint 2 (-179)] ∧
      ¬ confidentQuery.Partitions [] := by
  let order : Descending ClusterRow.cnt := Descending.stable _
  have hresults :
      (bandQuery 20 20 (by norm_num) (by norm_num)).clusterBbox [equatorPoint 1 20] order =
        .error .divisionByZero ∧
      (bandQuery 20 28 (by norm_num) (by norm_num)).clusterBbox [equatorPoint 1 28] order =
        .ok ⟨[⟨28, 0, 30, 5, 0, 28, 1⟩], false, 4⟩ ∧
      (bandQuery 175 (-170) (by norm_num) (by norm_num)).clusterBbox
        [equatorPoint 1 179, equatorPoint 2 (-179)] order =
        .ok ⟨[⟨715 / 4, 0, 365 / 2, 5, 0, 0, 2⟩], false, 4⟩ ∧
      confidentQuery.clusterBbox [] order = .error .syntaxError := by decide +kernel
  obtain ⟨hwidth, hedge, hsides, hbands⟩ := hresults
  refine ⟨?_, ?_, ?_, ?_⟩
  · intro h
    obtain ⟨result, hresult⟩ := h.defined order
    rw [hwidth] at hresult
    cases hresult
  · intro h
    have hcell := (h.fits order _ hedge _ (List.mem_singleton_self _)).longitudes.2
    norm_num [bandQuery, MapBoundingBox.longitudeSpan, MapBoundingBox.crossesAntimeridian] at hcell
  · intro h
    obtain ⟨turns, hlow, hhigh⟩ := (h.fits order _ hsides _ (List.mem_singleton_self _)).centroidLongitude
    dsimp only at hlow hhigh
    rcases le_or_gt turns 0 with hturns | hturns
    · have : (turns : ℚ) ≤ 0 := by exact_mod_cast hturns
      linarith
    · have : (1 : ℚ) ≤ turns := by exact_mod_cast hturns
      linarith
  · intro h
    obtain ⟨result, hresult⟩ := h.defined order
    rw [hbands] at hresult
    cases hresult

end Atlas
