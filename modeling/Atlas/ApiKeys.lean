import Atlas.Lib.OrderedCache
import Atlas.Lib.Outcome
import Atlas.Lib.Runs
import Atlas.OutboxLeases

/-!
# API keys and the cache before them

A request is let in by its key: the key is hashed, once with the secret in force and once
with the one before it, and a row of the database is looked for under the hashes.  Rows
that were found stay in a cache for a time, so a key that was revoked may work a little
longer.

The lookup gives up control while it waits for the database.  Between its first look at
the cache, its query and the entry it makes, other requests run, rows change and the cache
may be cleared.  A run below is any such interleaving.
-/

namespace Atlas

namespace ApiKeys

open OrderedCache

/-- `hashlib.sha256(key).hexdigest()` and `hmac.digest(secret, key, sha256).hex()`. -/
class PyDigests where
  sha256 : String → String
  hmacSha256 : String → String → String

/-- Digests that name their input, enough to run the model. -/
instance (priority := low) plainDigests : PyDigests where
  sha256 apiKey := "sha256 " ++ apiKey
  hmacSha256 secret apiKey := "hmac " ++ secret ++ " " ++ apiKey

/-- What the module reads of the settings. -/
structure Settings where
  apiKeyHashSecret : Option String
  apiKeyHashSecretPrevious : Option String
  apiKeyCacheTtlSeconds : Nat
  apiKeyCacheMaxEntries : Nat
deriving DecidableEq, Repr

/-- `ApiKeyModel`. -/
structure ApiKeyRow where
  id : Uuid
  keyHash : String
  userId : Uuid
  role : String
  isActive : Bool
  lastUsedAt : Option Time
  tenantId : Option Uuid
  tenantRole : Option String
deriving DecidableEq, Repr

/-- `_CachedApiKey`. -/
structure CachedApiKey where
  keyId : Uuid
  userId : Uuid
  role : String
  lastUsedAt : Option Time
  expiresAt : Time
  tenantId : Option Uuid
  tenantRole : Option String
deriving DecidableEq, Repr

/-- `Role.values()`. -/
def roleValues : List String := ["analyst", "reviewer", "admin"]

/-- What a request gets: the entry with whether its use is to be noted, or an error. -/
inductive AuthOutcome where
  | required
  | invalid
  | unrecognisedRole
  | authenticated (entry : CachedApiKey) (refresh : Bool)
deriving DecidableEq, Repr

def AuthOutcome.detail : AuthOutcome → Option (Nat × String)
  | .required => some (401, "API key required")
  | .invalid => some (403, "Invalid API key")
  | .unrecognisedRole => some (403, "API key has unrecognised role")
  | .authenticated _ _ => none

abbrev AuthCache := List (String × CachedApiKey)

/-- A secret that is set and not empty. -/
def given : Option String → Option String
  | some "" => none
  | secret => secret

/-- `hash_api_key_candidates`. -/
def hashApiKeyCandidates [PyDigests] (settings : Settings) (apiKey : String) : List String :=
  let current := match given settings.apiKeyHashSecret with
    | some secret => PyDigests.hmacSha256 secret apiKey
    | none => PyDigests.sha256 apiKey
  match given settings.apiKeyHashSecretPrevious with
  | some previous =>
      if some previous ≠ settings.apiKeyHashSecret then
        [current, PyDigests.hmacSha256 previous apiKey]
      else [current]
  | none => [current]

/-- `_LAST_USED_REFRESH_INTERVAL`. -/
def lastUsedRefreshInterval : Time := 5 * 60 * second

/-- `_schedule_last_used_refresh`: the entry with its use noted, and whether it was. -/
def scheduleLastUsedRefresh (entry : CachedApiKey) (now : Time) : CachedApiKey × Bool :=
  if entry.lastUsedAt.all fun last => last + lastUsedRefreshInterval < now then
    ({ entry with lastUsedAt := some now }, true)
  else (entry, false)

/-- `_get_cached_api_key`: an expired entry is dropped, one that is used moves to the end. -/
def getCachedApiKey (cache : AuthCache) (keyHash : String) (now : Time) :
    Option CachedApiKey × AuthCache :=
  match get keyHash cache with
  | none => (none, cache)
  | some entry =>
      if entry.expiresAt ≤ now then (none, pop keyHash cache) else (some entry, put keyHash entry cache)

/-- The loop over the hashes: the first that is cached, its use noted in the entry. -/
def findCached (now : Time) : List String → AuthCache → Option (CachedApiKey × Bool) × AuthCache
  | [], cache => (none, cache)
  | keyHash :: hashes, cache =>
      match getCachedApiKey cache keyHash now with
      | (none, cache) => findCached now hashes cache
      | (some entry, cache) =>
          let noted := scheduleLastUsedRefresh entry now
          (some noted, put keyHash noted.1 cache)

/-- The entry made of a row. -/
def entryOf (row : ApiKeyRow) (expiresAt : Time) : CachedApiKey :=
  ⟨row.id, row.userId, row.role, row.lastUsedAt, expiresAt, row.tenantId, row.tenantRole⟩

/-- The active rows under one of the hashes. -/
def activeRows (rows : List ApiKeyRow) (hashes : List String) : List ApiKeyRow :=
  rows.filter fun r => decide (r.keyHash ∈ hashes) && r.isActive

/-- The row of the first hash that has one; `row_by_hash` keeps the last row of a hash. -/
def preferredRow (hashes : List String) (rows : List ApiKeyRow) : Option ApiKeyRow :=
  (hashes.findSome? fun h => rows.reverse.find? fun r => r.keyHash = h).or rows.head?

/-- What follows the query: nothing more is waited for. -/
def admitRow (settings : Settings) (cache : AuthCache) (hashes : List String) (now : Time)
    (rows : List ApiKeyRow) : AuthOutcome × AuthCache :=
  match preferredRow hashes rows with
  | none => (.invalid, hashes.foldl (fun cache h => pop h cache) cache)
  | some row =>
      if row.role ∉ roleValues then (.unrecognisedRole, cache)
      else if settings.apiKeyCacheTtlSeconds = 0 then
        let noted := scheduleLastUsedRefresh (entryOf row now) now
        (.authenticated noted.1 noted.2, cache)
      else
        -- the cache holds the very entry that is noted and returned
        let noted := scheduleLastUsedRefresh
          (entryOf row (now + settings.apiKeyCacheTtlSeconds * second)) now
        (.authenticated noted.1 noted.2,
          trim settings.apiKeyCacheMaxEntries (put row.keyHash noted.1 cache))

/-! ## Tenant routes -/

/-- `CurrentTenantUser`. -/
structure CurrentTenantUser where
  userId : Uuid
  role : String
  tenantId : Uuid
  tenantRole : String
deriving DecidableEq, Repr

/-- What a tenant route reads of the tenant and of the membership. -/
structure TenantRow where
  id : Uuid
  isActive : Bool
deriving DecidableEq, Repr

structure MembershipRow where
  tenantId : Uuid
  userId : Uuid
  tenantRole : String
deriving DecidableEq, Repr

inductive TenantAccessError where
  | notATenantApiKey
  | crossTenantAccess (callerTenantId targetTenantId : Uuid)
  | tenantInactive (tenantId : Uuid)
  | tenantMembershipRequired
  | insufficientTenantRole (liveRole : String)
deriving DecidableEq, Repr

def TenantAccessError.body : TenantAccessError → String × String
  | .notATenantApiKey => ("NOT_A_TENANT_API_KEY", "This API key is not bound to a tenant")
  | .crossTenantAccess _ _ =>
      ("CROSS_TENANT_ACCESS", "API key is not authorised to access this tenant")
  | .tenantInactive tenantId => ("TENANT_INACTIVE", "Tenant " ++ toString tenantId ++ " is not active")
  | .tenantMembershipRequired =>
      ("TENANT_MEMBERSHIP_REQUIRED", "The authenticated user is not an active member of this tenant")
  | .insufficientTenantRole liveRole =>
      ("INSUFFICIENT_TENANT_ROLE", "Tenant role " ++ liveRole ++ " cannot access this resource")

/-- `get_current_tenant_user`. -/
def getCurrentTenantUser (entry : CachedApiKey) : Except TenantAccessError CurrentTenantUser :=
  match entry.tenantId, entry.tenantRole with
  | some tenantId, some tenantRole => .ok ⟨entry.userId, entry.role, tenantId, tenantRole⟩
  | _, _ => .error .notATenantApiKey

/-- `require_tenant_membership`, on the tables as they are at the request. -/
def requireTenantMembership (tenants : List TenantRow) (memberships : List MembershipRow)
    (allowedRoles : List String) (tenantId : Uuid) (entry : CachedApiKey) :
    Except TenantAccessError CurrentTenantUser := do
  let caller ← getCurrentTenantUser entry
  Outcome.require (caller.tenantId = tenantId) (.crossTenantAccess caller.tenantId tenantId)
  Outcome.require ((Rows.lookup TenantRow.id tenantId tenants).any (·.isActive) = true)
    (.tenantInactive tenantId)
  let membership ← Outcome.fromOption
    (memberships.find? fun m => m.tenantId = tenantId ∧ m.userId = caller.userId)
    .tenantMembershipRequired
  Outcome.require (allowedRoles = [] ∨ membership.tenantRole ∈ allowedRoles)
    (.insufficientTenantRole membership.tenantRole)
  pure ⟨caller.userId, caller.role, caller.tenantId, membership.tenantRole⟩

/-! ## Any interleaving -/

/-- A request between its first look at the cache and its end. -/
structure Lookup where
  task : Nat
  apiKey : String
  now : Time
  found : Option (List ApiKeyRow)
deriving DecidableEq, Repr

/-- What a request was answered. -/
structure Answer where
  apiKey : String
  started : Time
  outcome : AuthOutcome
deriving DecidableEq, Repr

/-- A row as a query found it. -/
structure Sighting where
  row : ApiKeyRow
  time : Time
deriving DecidableEq, Repr

/-- The process, the database, and what has happened so far. -/
structure AuthState where
  clock : Time
  rows : List ApiKeyRow
  cache : AuthCache
  lookups : List Lookup
  sightings : List Sighting
  answers : List Answer
deriving DecidableEq, Repr

/-- What may happen next. -/
inductive AuthEvent where
  | tick (now : Time)
  | write (rows : List ApiKeyRow)
  | clearAuthCache
  | start (task : Nat) (apiKey : String)
  | query (task : Nat)
  | finish (task : Nat)
deriving DecidableEq, Repr

namespace AuthState

def empty : AuthState := ⟨0, [], [], [], [], []⟩

variable [PyDigests] (settings : Settings)

/-- `_resolve_api_key` up to its query. -/
def start (s : AuthState) (task : Nat) (apiKey : String) : AuthState :=
  if apiKey = "" then { s with answers := s.answers ++ [⟨apiKey, s.clock, .required⟩] }
  else
    match findCached s.clock (hashApiKeyCandidates settings apiKey) s.cache with
    | (some noted, cache) =>
        { s with
          cache := cache
          answers := s.answers ++ [⟨apiKey, s.clock, .authenticated noted.1 noted.2⟩] }
    | (none, cache) => { s with cache := cache, lookups := s.lookups ++ [⟨task, apiKey, s.clock, none⟩] }

/-- The query of a lookup. -/
def query (s : AuthState) (task : Nat) : AuthState :=
  match Rows.lookup Lookup.task task s.lookups with
  | none => s
  | some l =>
      if l.found.isSome then s
      else
        let found := activeRows s.rows (hashApiKeyCandidates settings l.apiKey)
        { s with
          lookups := Rows.updateWhere (fun l' => decide (l'.task = task))
            (fun l' => { l' with found := some found }) s.lookups
          sightings := s.sightings ++ found.map fun r => ⟨r, s.clock⟩ }

/-- `_resolve_api_key` from its query on. -/
def finish (s : AuthState) (task : Nat) : AuthState :=
  match Rows.lookup Lookup.task task s.lookups with
  | none => s
  | some l =>
      match l.found with
      | none => s
      | some rows =>
          let out := admitRow settings s.cache (hashApiKeyCandidates settings l.apiKey) l.now rows
          { s with
            cache := out.2
            lookups := s.lookups.filter fun l' => decide (l'.task ≠ task)
            answers := s.answers ++ [⟨l.apiKey, l.now, out.1⟩] }

/-- One event.  A task that is running is not started again. -/
def step (s : AuthState) : AuthEvent → AuthState
  | .tick now => { s with clock := max s.clock now }
  | .write rows => { s with rows := rows }
  | .clearAuthCache => { s with cache := [] }
  | .start task apiKey => if task ∈ s.lookups.map Lookup.task then s else start settings s task apiKey
  | .query task => query settings s task
  | .finish task => finish settings s task

def after (events : List AuthEvent) : AuthState := Runs.run (step settings) empty events

end AuthState

/-! ## What the cache holds -/

/-- The entry was made of the row; when it was last used may differ. -/
structure CachedApiKey.OfRow (e : CachedApiKey) (row : ApiKeyRow) : Prop where
  keyId : e.keyId = row.id
  userId : e.userId = row.userId
  role : e.role = row.role
  tenantId : e.tenantId = row.tenantId
  tenantRole : e.tenantRole = row.tenantRole

/-- Noting the use of an entry changes nothing else in it. -/
theorem scheduleLastUsedRefresh_spec (e : CachedApiKey) (now : Time) :
    (scheduleLastUsedRefresh e now).1.expiresAt = e.expiresAt ∧
      ∀ row, e.OfRow row → (scheduleLastUsedRefresh e now).1.OfRow row := by
  unfold scheduleLastUsedRefresh
  split
  · exact ⟨rfl, fun row h => ⟨h.keyId, h.userId, h.role, h.tenantId, h.tenantRole⟩⟩
  · exact ⟨rfl, fun row h => h⟩

theorem entryOf_ofRow (row : ApiKeyRow) (expiresAt : Time) : (entryOf row expiresAt).OfRow row :=
  ⟨rfl, rfl, rfl, rfl, rfl⟩

/-- What a cache is kept to: its keys, its room, and a property of each of its entries. -/
structure CacheInv (settings : Settings) (P : String → CachedApiKey → Prop) (cache : AuthCache) :
    Prop where
  keys : Rows.Unique Prod.fst cache
  room : cache.length ≤ settings.apiKeyCacheMaxEntries
  entries : ∀ b ∈ cache, P b.1 b.2

namespace CacheInv

variable {settings : Settings} {P : String → CachedApiKey → Prop} {cache : AuthCache}

theorem imp (h : CacheInv settings P cache) {P' : String → CachedApiKey → Prop}
    (hP : ∀ k e, P k e → P' k e) : CacheInv settings P' cache :=
  ⟨h.keys, h.room, fun b hb => hP _ _ (h.entries b hb)⟩

theorem nil : CacheInv settings P [] :=
  ⟨Rows.unique_nil _, Nat.zero_le _, fun _ hb => (List.not_mem_nil hb).elim⟩

theorem pop (h : CacheInv settings P cache) (k : String) :
    CacheInv settings P (OrderedCache.pop k cache) :=
  ⟨unique_pop h.keys k, (length_pop_le k cache).trans h.room, fun b hb => h.entries b (mem_of_mem_pop hb)⟩

/-- An entry takes the place of one under its key. -/
theorem put (h : CacheInv settings P cache) {k : String} {e e' : CachedApiKey} (he : (k, e) ∈ cache)
    (he' : P k e') : CacheInv settings P (OrderedCache.put k e' cache) := by
  refine ⟨unique_put h.keys k e', (length_put_le he e').trans h.room, ?_⟩
  intro b hb
  cases mem_put hb with
  | inl hnew => rw [hnew]; exact he'
  | inr hold => exact h.entries b hold

/-- A new entry, with the oldest ones dropped over the size. -/
theorem trim_put (h : CacheInv settings P cache) {k : String} {e : CachedApiKey} (he : P k e) :
    CacheInv settings P (trim settings.apiKeyCacheMaxEntries (OrderedCache.put k e cache)) := by
  refine ⟨unique_trim (unique_put h.keys k e) _, length_trim_le _ _, ?_⟩
  intro b hb
  cases mem_put (mem_of_mem_trim hb) with
  | inl hnew => rw [hnew]; exact he
  | inr hold => exact h.entries b hold

/-- **The look into the cache** finds an entry that has not expired, under one of the
hashes. -/
theorem findCached (h : CacheInv settings P cache) {now : Time}
    (hP : ∀ k e, P k e → P k (scheduleLastUsedRefresh e now).1) (hashes : List String) :
    CacheInv settings P (ApiKeys.findCached now hashes cache).2 ∧
      ∀ noted, (ApiKeys.findCached now hashes cache).1 = some noted →
        ∃ k ∈ hashes, ∃ e, P k e ∧ now < e.expiresAt ∧ noted = scheduleLastUsedRefresh e now := by
  induction hashes generalizing cache with
  | nil => exact ⟨h, fun noted hnoted => by cases hnoted⟩
  | cons k hashes ih =>
      unfold ApiKeys.findCached getCachedApiKey
      cases hget : get k cache with
      | none =>
          obtain ⟨hcache, hfound⟩ := ih h
          refine ⟨hcache, ?_⟩
          intro noted hnoted
          obtain ⟨k', hk', hrest⟩ := hfound noted hnoted
          exact ⟨k', List.mem_cons_of_mem _ hk', hrest⟩
      | some e =>
          have hmem := get_some hget
          have he : P k e := h.entries _ hmem
          dsimp only
          by_cases hexpired : e.expiresAt ≤ now
          · rw [if_pos hexpired]
            obtain ⟨hcache, hfound⟩ := ih (h.pop k)
            refine ⟨hcache, ?_⟩
            intro noted hnoted
            obtain ⟨k', hk', hrest⟩ := hfound noted hnoted
            exact ⟨k', List.mem_cons_of_mem _ hk', hrest⟩
          · rw [if_neg hexpired]
            refine ⟨(h.put hmem he).put (self_mem_put k e cache) (hP k e he), ?_⟩
            intro noted hnoted
            exact ⟨k, List.mem_cons_self, e, he, not_le.mp hexpired, (Option.some.inj hnoted).symm⟩

theorem foldl_pop (h : CacheInv settings P cache) (hashes : List String) :
    CacheInv settings P (hashes.foldl (fun cache k => OrderedCache.pop k cache) cache) := by
  induction hashes generalizing cache with
  | nil => exact h
  | cons k hashes ih => exact ih (h.pop k)

end CacheInv

theorem mem_of_preferredRow {hashes : List String} {rows : List ApiKeyRow} {row : ApiKeyRow}
    (h : preferredRow hashes rows = some row) : row ∈ rows := by
  unfold preferredRow at h
  cases Option.or_eq_some_iff.mp h with
  | inl hfirst =>
      obtain ⟨k, -, hfound⟩ := List.exists_of_findSome?_eq_some hfirst
      exact List.mem_reverse.mp (List.mem_of_find?_eq_some hfound)
  | inr hhead => exact List.mem_of_mem_head? hhead.2

/-- **What follows the query** keeps the cache to rows with a known role, and answers with
such a row. -/
theorem admitRow_spec {settings : Settings} {P : String → CachedApiKey → Prop} {cache : AuthCache}
    (h : CacheInv settings P cache) (hashes : List String) (now : Time) (rows : List ApiKeyRow)
    (hP : ∀ row ∈ rows, row.role ∈ roleValues → P row.keyHash (scheduleLastUsedRefresh
      (entryOf row (now + settings.apiKeyCacheTtlSeconds * second)) now).1) :
    CacheInv settings P (admitRow settings cache hashes now rows).2 ∧
      ∀ e refresh, (admitRow settings cache hashes now rows).1 = .authenticated e refresh →
        ∃ row ∈ rows, e.OfRow row ∧ row.role ∈ roleValues := by
  unfold admitRow
  cases hrow : preferredRow hashes rows with
  | none => exact ⟨h.foldl_pop hashes, fun e refresh hout => by cases hout⟩
  | some row =>
      have hmem := mem_of_preferredRow hrow
      dsimp only
      by_cases hrole : row.role ∈ roleValues
      · rw [if_neg (not_not.mpr hrole)]
        have hofRow : ∀ expiresAt, (scheduleLastUsedRefresh (entryOf row expiresAt) now).1.OfRow row :=
          fun expiresAt => (scheduleLastUsedRefresh_spec _ _).2 row (entryOf_ofRow row expiresAt)
        split
        · refine ⟨h, ?_⟩
          intro e refresh hout
          rw [← (AuthOutcome.authenticated.inj hout).1]
          exact ⟨row, hmem, hofRow _, hrole⟩
        · refine ⟨h.trim_put (hP row hmem hrole), ?_⟩
          intro e refresh hout
          rw [← (AuthOutcome.authenticated.inj hout).1]
          exact ⟨row, hmem, hofRow _, hrole⟩
      · rw [if_pos hrole]
        exact ⟨h, fun e refresh hout => by cases hout⟩

/-! ## Every interleaving -/

/-- How long an entry lives. -/
def Settings.ttl (settings : Settings) : Time := settings.apiKeyCacheTtlSeconds * second

/-- An entry under a hash goes back to a query that found its row, and expires in time. -/
def EntryBacked (settings : Settings) (sightings : List Sighting) (k : String) (e : CachedApiKey) :
    Prop :=
  ∃ q ∈ sightings, q.row.keyHash = k ∧ e.OfRow q.row ∧ e.expiresAt ≤ q.time + settings.ttl ∧
    e.role ∈ roleValues

theorem EntryBacked.noted {settings : Settings} {sightings : List Sighting} {k : String}
    {e : CachedApiKey} (h : EntryBacked settings sightings k e) (now : Time) :
    EntryBacked settings sightings k (scheduleLastUsedRefresh e now).1 := by
  obtain ⟨q, hq, hkey, hrow, hexpires, hrole⟩ := h
  obtain ⟨hsame, hkept⟩ := scheduleLastUsedRefresh_spec e now
  refine ⟨q, hq, hkey, hkept _ hrow, hsame.le.trans hexpires, ?_⟩
  rw [(hkept _ hrow).role, ← hrow.role]
  exact hrole

section Interleavings

variable [PyDigests] {settings : Settings}

/-- A request that was let in goes back to a query that found an active row under a hash of
its key: one made less than the time to live before the request came, or after it came. -/
def Answer.Backed (settings : Settings) (sightings : List Sighting) (a : Answer) : Prop :=
  ∀ e refresh, a.outcome = .authenticated e refresh →
    ∃ q ∈ sightings, q.row.isActive = true ∧ q.row.keyHash ∈ hashApiKeyCandidates settings a.apiKey ∧
      e.OfRow q.row ∧ e.role ∈ roleValues ∧
        (a.started < q.time + settings.ttl ∨ a.started ≤ q.time)

/-- More sightings back no less. -/
theorem Answer.Backed.mono {sightings more : List Sighting} {a : Answer}
    (h : a.Backed settings sightings) (hsub : sightings ⊆ more) : a.Backed settings more := by
  intro e refresh hout
  obtain ⟨q, hq, hrest⟩ := h e refresh hout
  exact ⟨q, hsub hq, hrest⟩

namespace AuthState

variable {s : AuthState}

structure Inv (settings : Settings) (s : AuthState) : Prop where
  tasks : Rows.Unique Lookup.task s.lookups
  cache : CacheInv settings (EntryBacked settings s.sightings) s.cache
  seen : ∀ q ∈ s.sightings, q.row.isActive = true ∧ q.time ≤ s.clock
  started : ∀ l ∈ s.lookups, l.now ≤ s.clock
  found : ∀ l ∈ s.lookups, ∀ rows, l.found = some rows → ∀ r ∈ rows,
    r.keyHash ∈ hashApiKeyCandidates settings l.apiKey ∧ ∃ q ∈ s.sightings, q.row = r ∧ l.now ≤ q.time
  answers : ∀ a ∈ s.answers, a.Backed settings s.sightings

theorem inv_empty : Inv settings empty :=
  ⟨Rows.unique_nil _, CacheInv.nil, fun _ h => (List.not_mem_nil h).elim, fun _ h => (List.not_mem_nil h).elim,
    fun _ h => (List.not_mem_nil h).elim, fun _ h => (List.not_mem_nil h).elim⟩

/-- An answer more. -/
theorem Inv.answers_append (h : Inv settings s) {a : Answer} (ha : a.Backed settings s.sightings) :
    ∀ b ∈ s.answers ++ [a], b.Backed settings s.sightings := by
  intro b hb
  cases List.mem_append.mp hb with
  | inl hold => exact h.answers b hold
  | inr hnew => rw [List.mem_singleton.mp hnew]; exact ha

theorem Inv.start (h : Inv settings s) {task : Nat} (hnew : task ∉ s.lookups.map Lookup.task)
    (apiKey : String) : Inv settings (start settings s task apiKey) := by
  unfold AuthState.start
  by_cases hkey : apiKey = ""
  · rw [if_pos hkey]
    refine ⟨h.tasks, h.cache, h.seen, h.started, h.found, h.answers_append ?_⟩
    intro e refresh hout
    cases hout
  rw [if_neg hkey]
  obtain ⟨hcache, hfound⟩ := @CacheInv.findCached _ _ _ h.cache s.clock
    (fun k e he => he.noted s.clock) (hashApiKeyCandidates settings apiKey)
  generalize findCached s.clock (hashApiKeyCandidates settings apiKey) s.cache = out at hcache hfound
  obtain ⟨noted, cache⟩ := out
  cases noted with
  | none =>
      -- the lookup goes on to its query
      refine ⟨?_, hcache, h.seen, ?_, ?_, h.answers⟩
      · apply h.tasks.append_single
        intro l hl hsame
        exact hnew (List.mem_map.mpr ⟨l, hl, hsame⟩)
      · intro l hl
        cases List.mem_append.mp hl with
        | inl hold => exact h.started l hold
        | inr hnew => rw [List.mem_singleton.mp hnew]
      · intro l hl rows hrows
        cases List.mem_append.mp hl with
        | inl hold => exact h.found l hold rows hrows
        | inr hnew =>
            rw [List.mem_singleton.mp hnew] at hrows
            cases hrows
  | some noted =>
      refine ⟨h.tasks, hcache, h.seen, h.started, h.found, h.answers_append ?_⟩
      intro e refresh hout
      obtain ⟨k, hk, e₀, he₀, hlive, hnoted⟩ := hfound noted rfl
      obtain ⟨q, hq, hqk, hrow, hexpires, hrole⟩ := he₀.noted s.clock
      have hsame := (scheduleLastUsedRefresh_spec e₀ s.clock).1
      obtain ⟨rfl, -⟩ := AuthOutcome.authenticated.inj hout
      rw [hnoted]
      refine ⟨q, hq, (h.seen q hq).1, by rw [hqk]; exact hk, hrow, hrole, .inl ?_⟩
      rw [hsame] at hexpires
      exact hlive.trans_le hexpires

theorem Inv.query (h : Inv settings s) (task : Nat) : Inv settings (query settings s task) := by
  unfold AuthState.query
  cases hl : Rows.lookup Lookup.task task s.lookups with
  | none => exact h
  | some l =>
      obtain ⟨hmem, htask⟩ := Rows.lookup_some hl
      dsimp only
      by_cases hdone : l.found.isSome = true
      · rw [if_pos hdone]
        exact h
      rw [if_neg hdone]
      generalize hrows : activeRows s.rows (hashApiKeyCandidates settings l.apiKey) = rows
      have hactive : ∀ r ∈ rows, r.keyHash ∈ hashApiKeyCandidates settings l.apiKey ∧
          r.isActive = true := by
        intro r hr
        rw [← hrows] at hr
        simpa using (List.mem_filter.mp hr).2
      have hsub : s.sightings ⊆ s.sightings ++ rows.map fun r => ⟨r, s.clock⟩ :=
        fun q hq => List.mem_append_left _ hq
      refine ⟨h.tasks.updateWhere fun _ => rfl, ?_, ?_, ?_, ?_, ?_⟩
      · apply h.cache.imp
        intro k e he
        obtain ⟨q, hq, hrest⟩ := he
        exact ⟨q, hsub hq, hrest⟩
      · intro q hq
        cases List.mem_append.mp hq with
        | inl hold => exact h.seen q hold
        | inr hnew =>
            obtain ⟨r, hr, rfl⟩ := List.mem_map.mp hnew
            exact ⟨(hactive r hr).2, le_rfl⟩
      · intro l' hl'
        obtain ⟨l₀, hl₀, rfl⟩ := Rows.mem_updateWhere.mp hl'
        split
        · exact h.started l₀ hl₀
        · exact h.started l₀ hl₀
      · intro l' hl' found hfound r hr
        obtain ⟨l₀, hl₀, rfl⟩ := Rows.mem_updateWhere.mp hl'
        split at hfound
        next hthis =>
          -- the lookup that asked: there is no other under its task
          obtain rfl : l₀ = l := h.tasks.eq_of_key hl₀ hmem ((of_decide_eq_true hthis).trans htask.symm)
          rw [if_pos hthis]
          obtain rfl := Option.some.inj hfound
          refine ⟨(hactive r hr).1, ⟨r, s.clock⟩, ?_, rfl, h.started l₀ hl₀⟩
          exact List.mem_append_right _ (List.mem_map.mpr ⟨r, hr, rfl⟩)
        next hother =>
          rw [if_neg hother]
          obtain ⟨hkey, q, hq, hrest⟩ := h.found l₀ hl₀ found hfound r hr
          exact ⟨hkey, q, hsub hq, hrest⟩
      · intro a ha
        exact (h.answers a ha).mono hsub

theorem Inv.finish (h : Inv settings s) (task : Nat) : Inv settings (finish settings s task) := by
  unfold AuthState.finish
  cases hl : Rows.lookup Lookup.task task s.lookups with
  | none => exact h
  | some l =>
      obtain ⟨hmem, -⟩ := Rows.lookup_some hl
      dsimp only
      cases hrows : l.found with
      | none => exact h
      | some rows =>
          have hfound := h.found l hmem rows hrows
          have hroom : ∀ row ∈ rows, row.role ∈ roleValues →
              EntryBacked settings s.sightings row.keyHash (scheduleLastUsedRefresh
                (entryOf row (l.now + settings.apiKeyCacheTtlSeconds * second)) l.now).1 := by
            intro row hrow hrole
            obtain ⟨-, q, hq, rfl, hafter⟩ := hfound row hrow
            apply EntryBacked.noted
            refine ⟨q, hq, rfl, entryOf_ofRow _ _, ?_, hrole⟩
            exact Nat.add_le_add_right hafter _
          obtain ⟨hcache, hout⟩ := admitRow_spec h.cache (hashApiKeyCandidates settings l.apiKey) l.now
            rows hroom
          have hsub : s.lookups.filter (fun l' => decide (l'.task ≠ task)) ⊆ s.lookups :=
            fun l' hl' => (List.mem_filter.mp hl').1
          refine ⟨List.Nodup.sublist (List.filter_sublist.map _) h.tasks, hcache, h.seen,
            fun l' hl' => h.started l' (hsub hl'), fun l' hl' => h.found l' (hsub hl'),
            h.answers_append ?_⟩
          intro e refresh hauth
          obtain ⟨row, hrow, hofRow, hrole⟩ := hout e refresh hauth
          obtain ⟨hkey, q, hq, rfl, hafter⟩ := hfound row hrow
          refine ⟨q, hq, (h.seen q hq).1, hkey, hofRow, ?_, .inr hafter⟩
          rw [hofRow.role]
          exact hrole

theorem Inv.step (h : Inv settings s) (event : AuthEvent) : Inv settings (step settings s event) := by
  cases event with
  | tick now =>
      refine ⟨h.tasks, h.cache, ?_, ?_, h.found, h.answers⟩
      · intro q hq
        exact ⟨(h.seen q hq).1, (h.seen q hq).2.trans (le_max_left _ _)⟩
      · intro l hl
        exact (h.started l hl).trans (le_max_left _ _)
  | write rows => exact ⟨h.tasks, h.cache, h.seen, h.started, h.found, h.answers⟩
  | clearAuthCache => exact ⟨h.tasks, CacheInv.nil, h.seen, h.started, h.found, h.answers⟩
  | start task apiKey =>
      unfold AuthState.step
      dsimp only
      split
      next => exact h
      next hnew => exact h.start hnew apiKey
  | query task => exact h.query task
  | finish task => exact h.finish task

theorem inv_after (events : List AuthEvent) : Inv settings (after settings events) :=
  Runs.invariant (fun _ event h => h.step event) inv_empty events

/-- A sighting that an event adds is of an active row of the database it meets. -/
theorem mem_sightings_step {event : AuthEvent} {q : Sighting}
    (h : q ∈ (step settings s event).sightings) :
    q ∈ s.sightings ∨ q.row ∈ s.rows ∧ q.row.isActive = true := by
  cases event with
  | tick now => exact .inl h
  | write rows => exact .inl h
  | clearAuthCache => exact .inl h
  | start task apiKey =>
      left
      unfold AuthState.step AuthState.start at h
      dsimp only at h
      split at h
      · exact h
      · split at h
        · exact h
        · split at h
          · exact h
          · exact h
  | query task =>
      unfold AuthState.step AuthState.query at h
      dsimp only at h
      split at h
      · exact .inl h
      · split at h
        · exact .inl h
        · cases List.mem_append.mp h with
          | inl hold => exact .inl hold
          | inr hnew =>
              right
              obtain ⟨r, hr, rfl⟩ := List.mem_map.mp hnew
              obtain ⟨hmem, hactive⟩ := List.mem_filter.mp hr
              exact ⟨hmem, by simpa using (Bool.and_eq_true_iff.mp hactive).2⟩
  | finish task =>
      left
      unfold AuthState.step AuthState.finish at h
      dsimp only at h
      split at h
      · exact h
      · split at h
        · exact h
        · exact h

/-- **Who is let in.**  In every interleaving of requests, changes of the database and
clearings of the cache, a request that is let in is given the user, role and tenant of a row
that a query found active under a hash of its key, either after the request came or less
than the time to live before.  The cache keeps within its size, one entry to a hash, and
every entry goes back to such a row with a known role. -/
theorem authentication_backed (events : List AuthEvent) :
    (∀ a ∈ (after settings events).answers, a.Backed settings (after settings events).sightings) ∧
      (after settings events).cache.length ≤ settings.apiKeyCacheMaxEntries ∧
        Rows.Unique Prod.fst (after settings events).cache ∧
          ∀ b ∈ (after settings events).cache,
            EntryBacked settings (after settings events).sightings b.1 b.2 := by
  have hinv : Inv settings (after settings events) := inv_after events
  exact ⟨hinv.answers, hinv.cache.room, hinv.cache.keys, hinv.cache.entries⟩

/-- **A tenant is open to its members of the moment.**  A request that was let in and passes
the gate of a tenant acts for a user who is a member of it now, in the role he has now, in a
tenant that is active now.  The cache only vouches that the key was bound to the tenant. -/
theorem tenant_access_live (events : List AuthEvent) {tenants : List TenantRow}
    {memberships : List MembershipRow} {allowedRoles : List String} {tenantId : Uuid} {a : Answer}
    {e : CachedApiKey} {refresh : Bool} {user : CurrentTenantUser}
    (ha : a ∈ (after settings events).answers) (hin : a.outcome = .authenticated e refresh)
    (hgate : requireTenantMembership tenants memberships allowedRoles tenantId e = .ok user) :
    (∃ t ∈ tenants, t.id = tenantId ∧ t.isActive = true) ∧
      (∃ m ∈ memberships, m.tenantId = tenantId ∧ m.userId = user.userId ∧
        m.tenantRole = user.tenantRole ∧ (allowedRoles = [] ∨ m.tenantRole ∈ allowedRoles)) ∧
        ∃ q ∈ (after settings events).sightings, q.row.isActive = true ∧
          q.row.keyHash ∈ hashApiKeyCandidates settings a.apiKey ∧ q.row.tenantId = some tenantId ∧
            q.row.userId = user.userId ∧
              (a.started < q.time + settings.ttl ∨ a.started ≤ q.time) := by
  unfold requireTenantMembership at hgate
  simp only [Outcome.bind_ok, Outcome.require_ok, Outcome.fromOption_ok, Outcome.pure_ok] at hgate
  obtain ⟨caller, hcaller, -, rfl, -, htenant, m, hm, -, hrole, rfl⟩ := hgate
  have hbound : e.tenantId = some caller.tenantId ∧ e.userId = caller.userId := by
    unfold getCurrentTenantUser at hcaller
    split at hcaller
    next tenantId tenantRole htenantId htenantRole =>
      rw [← Except.ok.inj hcaller]
      exact ⟨htenantId, rfl⟩
    next => cases hcaller
  refine ⟨?_, ?_, ?_⟩
  · obtain ⟨t, ht, hactive⟩ := (Option.any_eq_true _ _).mp htenant
    obtain ⟨hmem, hid⟩ := Rows.lookup_some ht
    exact ⟨t, hmem, hid, hactive⟩
  · have hfound := List.find?_some hm
    simp only [decide_eq_true_eq] at hfound
    exact ⟨m, List.mem_of_find?_eq_some hm, hfound.1, hfound.2, rfl, hrole⟩
  · obtain ⟨q, hq, hactive, hhash, hrow, -, htime⟩ := (inv_after events).answers a ha e refresh hin
    refine ⟨q, hq, hactive, hhash, ?_, ?_, htime⟩
    · rw [← hrow.tenantId]
      exact hbound.1
    · rw [← hrow.userId]
      exact hbound.2

/-- No active row is under a hash of the key. -/
def Revoked (settings : Settings) (apiKey : String) (s : AuthState) : Prop :=
  ∀ r ∈ s.rows, r.isActive = true → r.keyHash ∉ hashApiKeyCandidates settings apiKey

instance (apiKey : String) : Decidable (Revoked settings apiKey s) := by
  unfold Revoked
  infer_instance

/-- **A revoked key is out within the time to live.**  From some moment on the database has
no active row for a key.  A request with the key that comes later than that, by the time to
live at least, is not let in: not from the cache, and not by a lookup that was under way
when the row went. -/
theorem revocation_within_ttl (events later : List AuthEvent) {apiKey : String}
    (hrevoked : Runs.EveryStep (step settings) (fun s _ => Revoked settings apiKey s)
      (after settings events) later) :
    ∀ a ∈ (after settings (events ++ later)).answers, a.apiKey = apiKey →
      (after settings events).clock < a.started →
        (after settings events).clock + settings.ttl ≤ a.started →
          ∀ e refresh, a.outcome ≠ .authenticated e refresh := by
  intro a ha hkey hafter hlate e refresh hout
  -- no query since the moment has seen a row of the key
  have hold : ∀ q ∈ (after settings (events ++ later)).sightings,
      q.row.keyHash ∈ hashApiKeyCandidates settings apiKey →
        q.time ≤ (after settings events).clock := by
    unfold after
    rw [Runs.run_append]
    refine Runs.invariant_of_everyStep
      (P := fun s => ∀ q ∈ s.sightings, q.row.keyHash ∈ hashApiKeyCandidates settings apiKey →
        q.time ≤ (after settings events).clock) ?_ ?_ hrevoked
    · intro s event hs hnone q hq hhash
      cases mem_sightings_step hq with
      | inl hseen => exact hs q hseen hhash
      | inr hnew => exact absurd hhash (hnone q.row hnew.1 hnew.2)
    · intro q hq _
      exact ((inv_after events).seen q hq).2
  obtain ⟨q, hq, -, hhash, -, -, htime⟩ := (inv_after (events ++ later)).answers a ha e refresh hout
  rw [hkey] at hhash
  have hbefore := hold q hq hhash
  cases htime with
  | inl hlive =>
      have hexpired : q.time + settings.ttl ≤ a.started := (Nat.add_le_add_right hbefore _).trans hlate
      exact absurd hlive (not_lt.mpr hexpired)
  | inr hseen => exact absurd hafter (not_lt.mpr (hseen.trans hbefore))

end AuthState

end Interleavings

/-- An owner whose key is served from the cache after the role went down to member. -/
theorem tenant_access_live_member :
    ∃ m ∈ [(⟨70, 7, "MEMBER"⟩ : MembershipRow)], m.tenantId = 70 ∧ m.userId = 7 ∧
      m.tenantRole = "MEMBER" ∧ (["MEMBER"] = [] ∨ m.tenantRole ∈ ["MEMBER"]) :=
  (@AuthState.tenant_access_live _ ⟨none, none, 5, 10⟩
    [.write [⟨1, "sha256 k", 7, "analyst", true, none, some 70, some "OWNER"⟩], .start 1 "k",
      .query 1, .finish 1, .write [], .start 2 "k"]
    [⟨70, true⟩] [⟨70, 7, "MEMBER"⟩] ["MEMBER"] 70
    ⟨"k", 0, .authenticated ⟨1, 7, "analyst", some 0, 5 * second, some 70, some "OWNER"⟩ false⟩
    ⟨1, 7, "analyst", some 0, 5 * second, some 70, some "OWNER"⟩ false
    ⟨7, "analyst", 70, "MEMBER"⟩ (by decide +kernel) rfl (by decide +kernel)).2.1

/-- A key used at once, revoked, and used again when its entry has run out. -/
theorem revocation_within_ttl_reused :
    ∃ a ∈ (AuthState.after ⟨none, none, 5, 10⟩
      ([.write [⟨1, "sha256 k", 7, "admin", true, none, none, none⟩], .start 1 "k", .query 1, .finish 1,
        .write []] ++ [.tick (5 * second), .start 2 "k", .query 2, .finish 2])).answers,
      a.apiKey = "k" ∧ a.started = 5 * second ∧ ∀ e refresh, a.outcome ≠ .authenticated e refresh :=
  ⟨⟨"k", 5 * second, .invalid⟩, by decide +kernel, rfl, rfl,
    @AuthState.revocation_within_ttl _ ⟨none, none, 5, 10⟩
      [.write [⟨1, "sha256 k", 7, "admin", true, none, none, none⟩], .start 1 "k", .query 1, .finish 1,
        .write []] [.tick (5 * second), .start 2 "k", .query 2, .finish 2] "k" (by decide +kernel)
      ⟨"k", 5 * second, .invalid⟩ (by decide +kernel) rfl (by decide +kernel) (by decide +kernel)⟩

end ApiKeys

end Atlas
