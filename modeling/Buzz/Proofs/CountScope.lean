import Buzz.Proofs.Pushdown
import Buzz.Relay.Count

/-!
# COUNT stays inside the reader's channels

A two-run property: change the events of channels a filter may not read, and
the answer stays the same. The argument has three layers.

* A query *confines* to a scope when its channel clauses pass no row of
  another channel. Reads of a confined query cannot tell two stores apart
  that agree on the scope, sorting and the candidate budget included.
* The queries of the two count paths confine to the scope they were built
  for. The bridge's always do. The handler's do unless a filter's `#h` has
  several values that name a single channel: the handler then passes that
  channel to `apply_channel_scope_to_query`, which leaves the query alone,
  while `filter_to_query_params` saw several values and set no channel.
* The loops only ever read through such queries.
-/

namespace Buzz.Relay

open Buzz.Core Buzz.Db

/-! ## Confined queries -/

/-- Two stores with the same channel-less rows and the same rows of every
channel in one of the scopes. A row counts with its deletion mark and its
head mark. -/
def AgreeOn (scopes : List (List Uuid)) (db₁ db₂ : EventStore) : Prop :=
  ∀ row : StoredRow, (∀ ch, row.channelId = some ch → ∃ scope ∈ scopes, ch ∈ scope) →
    (row ∈ db₁.rows ↔ row ∈ db₂.rows)

/-- The query's channel clauses pass channel-less rows and rows of `scope`
only. -/
def Confines (q : EventQuery) (scope : List Uuid) : Prop :=
  ∀ ch, channelClauses q (some ch) = true → ch ∈ scope

section Reads

variable {q : EventQuery} {scopes : List (List Uuid)} {scope : List Uuid}
  {db₁ db₂ : EventStore}

section

variable (h : AgreeOn scopes db₁ db₂)
include h

/-- A predicate that implies the channel clauses selects the same rows of
both stores. -/
theorem AgreeOn.filter_perm (hs : scope ∈ scopes) (hq : Confines q scope)
    {p : StoredRow → Bool}
    (hp : ∀ row, p row = true → channelClauses q row.columns.channelId = true) :
    (db₁.rows.filter p).Perm (db₂.rows.filter p) := by
  rw [List.perm_ext_iff_of_nodup ((rows_nodup db₁).filter _) ((rows_nodup db₂).filter _)]
  intro row
  simp only [List.mem_filter]
  refine and_congr_left fun hrow => h row fun ch hch => ⟨scope, hs, hq ch ?_⟩
  have := hp row hrow
  rwa [columns_channelId, hch] at this

theorem AgreeOn.countEvents (hs : scope ∈ scopes) (hq : Confines q scope) :
    countEvents q db₁ = countEvents q db₂ := by
  have hrows : db₁.rows.countP (countEventsSql q) = db₂.rows.countP (countEventsSql q) := by
    rw [List.countP_eq_length_filter, List.countP_eq_length_filter]
    refine (h.filter_perm hs hq fun row hrow => ?_).length_eq
    simp only [countEventsSql, Bool.and_eq_true] at hrow
    exact hrow.1.1.1.1.1.2
  simp only [Db.countEvents, hrows]

theorem AgreeOn.queryEvents (hs : scope ∈ scopes) (hq : Confines q scope) :
    queryEvents q db₁ = queryEvents q db₂ := by
  have hperm : (db₁.rows.filter (queryEventsSql q)).Perm
      (db₂.rows.filter (queryEventsSql q)) := by
    refine h.filter_perm hs hq fun row hrow => ?_
    simp only [queryEventsSql, pushEventFilters, Bool.and_eq_true] at hrow
    exact hrow.2.1.1.1.1.1.1.2
  have hsort : (db₁.rows.filter (queryEventsSql q)).mergeSort pageOrder =
      (db₂.rows.filter (queryEventsSql q)).mergeSort pageOrder := by
    refine List.Perm.eq_of_pairwise (fun a b ha hb hab hba => ?_)
      (List.pairwise_mergeSort pageOrder_trans pageOrder_total _)
      (List.pairwise_mergeSort pageOrder_trans pageOrder_total _)
      ((List.mergeSort_perm _ _).trans (hperm.trans (List.mergeSort_perm _ _).symm))
    -- Both rows are in the second store.
    rw [List.mem_mergeSort] at ha hb
    exact pageOrder_antisymm (List.mem_filter.1 (hperm.mem_iff.1 ha)).1
      (List.mem_filter.1 hb).1 hab hba
  simp only [Db.queryEvents, hsort]

theorem AgreeOn.countQuery (hs : scope ∈ scopes) (hq : Confines q scope)
    (filter : Filter) (reader : PublicKey) :
    countQuery filter reader q db₁ = countQuery filter reader q db₂ := by
  -- The fallback changes the page, not the channels.
  have hfallback : Confines (prepareCountFallback q) scope := hq
  simp only [Relay.countQuery, h.countEvents hs hq, h.queryEvents hs hfallback]

end

end Reads

/-! ## The queries of the two count paths -/

theorem mem_keepUnseen {seen l : List Uuid} {id : Uuid} :
    id ∈ keepUnseen seen l ↔ id ∈ l ∧ id ∉ seen := by
  induction l generalizing seen with
  | nil => simp [keepUnseen]
  | cons x xs ih =>
      rw [keepUnseen]
      split
      next hx =>
          rw [ih, List.mem_cons]
          constructor
          · exact fun h => ⟨.inr h.1, h.2⟩
          · rintro ⟨rfl | h, hs⟩
            · exact absurd hx hs
            · exact ⟨h, hs⟩
      next hx =>
          rw [List.mem_cons, ih, List.mem_cons, List.mem_cons]
          constructor
          · rintro (rfl | ⟨h, hs⟩)
            · exact ⟨.inl rfl, hx⟩
            · exact ⟨.inr h, fun hs' => hs (.inr hs')⟩
          · rintro ⟨rfl | h, hs⟩
            · exact .inl rfl
            · by_cases hid : id = x
              · exact .inl hid
              · exact .inr ⟨h, not_or.2 ⟨hid, hs⟩⟩

/-- The channels a set of `#h` values names, without repeats. -/
def channelsNamed (parse : String → Option Uuid) (values : BTreeSet String) : List Uuid :=
  keepUnseen [] (parsedChannels parse values)

/-- A `#h` set the handler confines: one value, or not exactly one channel. -/
def NamesPlainly (parse : String → Option Uuid) (values : BTreeSet String) : Prop :=
  values.len = 1 ∨ (channelsNamed parse values).length ≠ 1

section Queries

variable {parse : String → Option Uuid} {filter : Filter} {reader : PublicKey}
  {scope : List Uuid} {q : EventQuery}

theorem extractChannelIdsFromFilters_single :
    extractChannelIdsFromFilters parse [filter] =
      (filter.genericTags.lookup .h).map (channelsNamed parse) := by
  cases h : filter.genericTags.lookup .h with
  | none => simp [extractChannelIdsFromFilters, h]
  | some values => simp [extractChannelIdsFromFilters, h, channelsNamed]

@[simp] theorem channelClauses_withBuzzChannel {bf : BridgeFilter}
    {c : Option Uuid} :
    channelClauses (withBuzzChannel bf q) c = channelClauses q c := by
  unfold withBuzzChannel
  split <;> rfl

theorem confines_unnamedQuery : Confines (unnamedQuery parse filter scope) scope := by
  intro ch h
  simp only [channelClauses, channelScope, unnamedQuery, Bool.and_eq_true] at h
  simpa using h.2

/-- Without a channel of its own, a query with `#h` gets the accessible
channels among those named. -/
theorem confines_applyChannelScope {values : BTreeSet String}
    (hl : filter.genericTags.lookup .h = some values) :
    Confines (applyChannelScopeToQuery parse q filter none scope) scope := by
  intro ch h
  simp only [applyChannelScopeToQuery, hl, channelClauses, channelScope,
    Bool.and_eq_true] at h
  have h := h.2
  simp only [Bool.false_and, Bool.false_or, Option.any_some, List.contains_eq_mem,
    List.mem_filter, decide_eq_true_eq] at h
  exact h.2

/-- A lone `#h` value goes to the `channel_id` column. -/
theorem confines_single {ch : Uuid} (hch : extractChannelIdFromFilter parse filter = some ch)
    (hs : ch ∈ scope) :
    Confines (applyChannelScopeToQuery parse (buildEventQueryFromFilter parse filter)
      filter (some ch) scope) scope := by
  intro c h
  simp only [applyChannelScopeToQuery, buildEventQueryFromFilter, filterToQueryParams, hch,
    channelClauses, Bool.and_eq_true] at h
  have h := h.1
  simp only [beq_iff_eq, Option.some.injEq] at h
  rw [h]
  exact hs

theorem extractChannelIdFromFilter_of_len {values : BTreeSet String} {ch : Uuid}
    (hl : filter.genericTags.lookup .h = some values) (hone : values.len = 1)
    (hch : ch ∈ channelsNamed parse values) :
    extractChannelIdFromFilter parse filter = some ch := by
  obtain ⟨value, hvalue⟩ := List.length_eq_one_iff.1 hone
  rw [channelsNamed, mem_keepUnseen] at hch
  have hch := hch.1
  rw [parsedChannels, hvalue] at hch
  simp only [extractChannelIdFromFilter, hl, Option.bind_some, hvalue]
  cases hp : parse value with
  | none => simp [hp] at hch
  | some c => rw [show ch = c by simpa [hp] using hch]

theorem confines_handleCountQuery
    (hok : ∀ values, filter.genericTags.lookup .h = some values → NamesPlainly parse values)
    (h : handleCountQuery parse filter reader (extractChannelIdsFromFilters parse [filter])
      scope = some q) : Confines q scope := by
  rw [extractChannelIdsFromFilters_single] at h
  cases hl : filter.genericTags.lookup .h with
  | none =>
      simp only [hl, Option.map_none, handleCountQuery, Option.some.injEq] at h
      intro ch hch
      rw [← h, channelClauses_withSharedGate] at hch
      exact confines_unnamedQuery ch hch
  | some values =>
      simp only [hl, Option.map_some, handleCountQuery] at h
      split at h
      · cases h
      next authorized rest hauth =>
      have hmem : authorized ∈ channelsNamed parse values ∧ authorized ∈ scope := by
        have : authorized ∈ (channelsNamed parse values).filter fun id => scope.contains id := by
          rw [hauth]; exact List.mem_cons_self
        simpa using this
      rw [Option.some.injEq] at h
      intro ch hch
      rw [← h, channelClauses_withSharedGate] at hch
      by_cases hone : (channelsNamed parse values).length = 1
      · -- One channel named: the claim's condition leaves one value.
        have hlen : values.len = 1 := (hok values hl).resolve_right fun hne => hne hone
        rw [if_pos hone] at hch
        exact confines_single (extractChannelIdFromFilter_of_len hl hlen hmem.1) hmem.2 ch hch
      · rw [if_neg hone] at hch
        exact confines_applyChannelScope hl ch hch

theorem confines_bridgeCountQuery {bf : BridgeFilter}
    (h : bridgeCountQuery parse bf reader scope = some q) :
    Confines q scope := by
  simp only [bridgeCountQuery, extractChannelIdsFromFilters_single] at h
  cases hl : bf.filter.genericTags.lookup .h with
  | none =>
      simp only [hl, Option.map_none, Option.some.injEq] at h
      intro ch hch
      rw [← h, channelClauses_withSharedGate, channelClauses_withBuzzChannel] at hch
      exact confines_unnamedQuery ch hch
  | some values =>
      simp only [hl, Option.map_some] at h
      split at h
      case isFalse => cases h
      case isTrue hany =>
      obtain ⟨named, hnamed, hscope⟩ := List.any_eq_true.1 hany
      rw [Option.some.injEq] at h
      intro ch hch
      rw [← h, channelClauses_withSharedGate, channelClauses_withBuzzChannel] at hch
      cases hone : extractChannelIdFromFilter parse bf.filter with
      | none =>
          rw [hone] at hch
          exact confines_applyChannelScope hl ch hch
      | some single =>
          -- The lone value is the named channel found in the scope.
          have hlen : values.len = 1 := by
            simp only [extractChannelIdFromFilter, hl, Option.bind_some] at hone
            split at hone
            next value hvalue => simp [BTreeSet.len, hvalue]
            · cases hone
          rw [extractChannelIdFromFilter_of_len hl hlen hnamed] at hone hch
          exact confines_single (extractChannelIdFromFilter_of_len hl hlen hnamed)
            (by simpa using hscope) ch hch

end Queries

/-! ## The loops -/

/-- The scope each round of the loop grants its filter, up to a failed
lookup. Counting has no part in it. -/
def grantedScopes (parse : String → Option Uuid) (access : Access)
    (token : Option (List Uuid)) : List Filter → Reach → List (List Uuid)
  | [], _ => []
  | filter :: rest, reach =>
      match roundScope parse access token filter reach with
      | .error _ => []
      | .ok (reach, scope) => scope :: grantedScopes parse access token rest reach

/-- The scopes `handle_count` grants the filters of a request. -/
def handleCountScopes (parse : String → Option Uuid) (access : Access)
    (session : Option CountSession) (filters : List Filter) : List (List Uuid) :=
  match session with
  | none => []
  | some session =>
      match initialReach parse access filters session.tokenChannelIds with
      | .error _ => []
      | .ok reach => grantedScopes parse access session.tokenChannelIds filters reach

/-- The scopes the bridge grants them. -/
def bridgeScopes (parse : String → Option Uuid) (access : Access) (filters : List Filter) :
    List (List Uuid) :=
  match bridgeReach parse access filters with
  | .error _ => []
  | .ok reach =>
      filters.map fun filter =>
        filterChannelScope parse filter reach.accessible reach.namedOnly

section Loops

variable {parse : String → Option Uuid} {access : Access} {reader : PublicKey}
  {token : Option (List Uuid)} {scopes : List (List Uuid)} {db₁ db₂ : EventStore}

theorem AgreeOn.countLoop (h : AgreeOn scopes db₁ db₂) {filters : List Filter}
    (hok : ∀ filter ∈ filters, ∀ values, filter.genericTags.lookup .h = some values →
      NamesPlainly parse values) {reach : Reach} {total : Nat}
    (hsub : ∀ scope ∈ grantedScopes parse access token filters reach, scope ∈ scopes) :
    countLoop parse access reader token db₁ filters reach total =
      countLoop parse access reader token db₂ filters reach total := by
  induction filters generalizing reach total with
  | nil => rfl
  | cons filter rest ih =>
      have ih := fun reach total => @ih (fun f hf => hok f (List.mem_cons_of_mem _ hf)) reach total
      simp only [Relay.countLoop]
      simp only [grantedScopes] at hsub
      cases hround : roundScope parse access token filter reach with
      | error e => rfl
      | ok granted =>
          obtain ⟨reach', scope⟩ := granted
          simp only [hround, List.mem_cons, forall_eq_or_imp] at hsub ⊢
          cases hquery : handleCountQuery parse filter reader
              (extractChannelIdsFromFilters parse [filter]) scope with
          | none => exact ih reach' total hsub.2
          | some query =>
              have hq : Confines query scope :=
                confines_handleCountQuery (hok filter List.mem_cons_self) hquery
              simp only [h.countQuery hsub.1 hq filter reader]
              cases Relay.countQuery filter reader query db₂ with
              | error e => rfl
              | ok n => exact ih reach' (total + n) hsub.2

theorem AgreeOn.bridgeCountLoop (h : AgreeOn scopes db₁ db₂) {reach : Reach}
    {bfs : List BridgeFilter} {total : Nat}
    (hsub : ∀ bf ∈ bfs,
      filterChannelScope parse bf.filter reach.accessible reach.namedOnly ∈ scopes) :
    bridgeCountLoop parse reader reach db₁ bfs total =
      bridgeCountLoop parse reader reach db₂ bfs total := by
  induction bfs generalizing total with
  | nil => rfl
  | cons bf rest ih =>
      have ih := fun total => @ih total (fun bf hbf => hsub bf (List.mem_cons_of_mem _ hbf))
      simp only [Relay.bridgeCountLoop]
      cases hquery : bridgeCountQuery parse bf reader
          (filterChannelScope parse bf.filter reach.accessible reach.namedOnly) with
      | none => exact ih total
      | some query =>
          have hq := confines_bridgeCountQuery hquery
          simp only [h.countQuery (hsub bf List.mem_cons_self) hq bf.filter reader]
          cases Relay.countQuery bf.filter reader query db₂ with
          | error e => rfl
          | ok n => exact ih (total + n)

end Loops

/-- Two stores that agree on the scopes get the same answer. -/
def Confined {α : Type} (answer : EventStore → α) (scopes : List (List Uuid)) : Prop :=
  ∀ db₁ db₂, AgreeOn scopes db₁ db₂ → answer db₁ = answer db₂

theorem confined_handleCount {parse : String → Option Uuid} {access : Access}
    {session : Option CountSession} {filters : List Filter}
    (hok : tooManyExplicitChannels filters = true ∨
      ∀ filter ∈ filters, ∀ values, filter.genericTags.lookup .h = some values →
        NamesPlainly parse values) :
    Confined (handleCount parse access session filters)
      (handleCountScopes parse access session filters) := by
  intro db₁ db₂ h
  cases session with
  | none => rfl
  | some session =>
      simp only [handleCount]
      cases countRefusal filters session.reader with
      | some reason => rfl
      | none =>
          dsimp only
          split
          · rfl
          next hfew =>
          have hok := hok.resolve_left hfew
          simp only [handleCountScopes] at h
          cases hreach : initialReach parse access filters session.tokenChannelIds with
          | error e => rfl
          | ok reach =>
              simp only [hreach] at h
              dsimp only
              split
              · rfl
              · exact h.countLoop hok fun scope hscope => hscope

theorem confined_countMemberEvents {parse : String → Option Uuid} {access : Access}
    {reader : PublicKey} {bfs : List BridgeFilter} :
    Confined (countMemberEvents parse access reader bfs)
      (bridgeScopes parse access (bfs.map (·.filter))) := by
  intro db₁ db₂ h
  simp only [countMemberEvents]
  split
  · rfl
  cases countRefusal (bfs.map (·.filter)) reader with
  | some reason => rfl
  | none =>
      simp only [bridgeScopes] at h
      cases hreach : bridgeReach parse access (bfs.map (·.filter)) with
      | error e => rfl
      | ok reach =>
          simp only [hreach] at h
          refine h.bridgeCountLoop fun bf hbf => List.mem_map.2 ⟨bf.filter, ?_, rfl⟩
          exact List.mem_map.2 ⟨bf, hbf, rfl⟩

/-! ## The leak

A request with the given `#h` sets and one kind, for a reader of the single
channel that the bad set names. One stored event of another channel is then
counted once for each bad set. -/

/-- A stream-message filter with the given `#h`. -/
def messageFilter (h : Option (BTreeSet String)) : Filter where
  kinds := some (.single 9)
  genericTags :=
    match h with
    | none => ∅
    | some values => (∅ : GenericTags).insert .h values

/-- A reader whose only channel is `ch`. -/
def onlyChannel (ch : Uuid) : Access where
  accessibleChannelIds := .ok [ch]
  readableNamedOnly _ := .ok []
  membershipPairs _ := .ok []
  namedOnlyAmong _ := .ok []

def otherChannel (ch : Uuid) : Uuid :=
  if ch = .ofByte 0 then .ofByte 1 else .ofByte 0

theorem otherChannel_ne (ch : Uuid) : otherChannel ch ≠ ch := by
  unfold otherChannel
  split
  next h => rw [h]; decide
  next h => exact fun h' => h h'.symm

def emptyStore : EventStore := ⟨[], by simp⟩

section Leak

variable {parse : String → Option Uuid} {h : Option (BTreeSet String)}
  {reader : PublicKey} {ch : Uuid} {db : EventStore}

@[simp] theorem lookup_messageFilter :
    (messageFilter h).genericTags.lookup .h = h := by
  cases h with
  | none => rfl
  | some values => exact AList.lookup_insert _

theorem filterToQueryParams_messageFilter {c : Option Uuid} :
    filterToQueryParams (messageFilter h) c =
      { kinds := some [9], limit := some 1000, channelId := c } := by
  cases h <;> rfl

/-- Whatever its channels, the query asks for kind 9 and nothing else. -/
theorem handleCountQuery_messageFilter {requested : Option (List Uuid)} {scope : List Uuid}
    {q : EventQuery}
    (hq : handleCountQuery parse (messageFilter h) reader requested scope = some q) :
    ∃ channelId channelIds includeGlobal limit, q =
      { kinds := some [9], limit := limit, channelId := channelId,
        channelIds := channelIds, channelIdsIncludeGlobal := includeGlobal } := by
  have hgate : ∀ query, withSharedGate (messageFilter h) reader query = query := fun _ => rfl
  simp only [handleCountQuery, unnamedQuery, buildEventQueryFromFilter, hgate,
    filterToQueryParams_messageFilter] at hq
  split at hq
  · cases hq
    exact ⟨_, _, _, _, rfl⟩
  split at hq
  · cases hq
  rw [Option.some.injEq] at hq
  rw [← hq]
  simp only [applyChannelScopeToQuery]
  split
  · exact ⟨_, _, _, _, rfl⟩
  split
  · exact ⟨_, _, _, _, rfl⟩
  · exact ⟨_, _, _, _, rfl⟩

/-- What one round adds. -/
def messageCount (parse : String → Option Uuid) (reader : PublicKey) (ch : Uuid)
    (db : EventStore) (h : Option (BTreeSet String)) : Nat :=
  match handleCountQuery parse (messageFilter h) reader (h.map (channelsNamed parse)) [ch] with
  | none => 0
  | some q => db.rows.countP (countEventsSql q)

theorem roundScope_messageFilter :
    roundScope parse (onlyChannel ch) none (messageFilter h) ⟨[ch], {}⟩ =
      .ok (⟨[ch], {}⟩, [ch]) := by
  have hscope : filterChannelScope parse (messageFilter h) [ch] {} = [ch] := by
    simp [filterChannelScope, keepUnseen]
  have hconfirm : ∀ requested : List Uuid,
      confirmNamed (onlyChannel ch) requested none ⟨[ch], {}⟩ = .ok ⟨[ch], {}⟩ := by
    intro requested
    simp [confirmNamed, confirmRequestedChannelAccess, keepRepairedNamedOnlyChannelsNamed,
      onlyChannel, Except.bind, Except.map]
  rw [roundScope, extractChannelIdsFromFilters_single, lookup_messageFilter]
  cases h with
  | none => simp [Except.map, hscope]
  | some values => simp [Except.map, hconfirm, hscope]

theorem countQuery_messageFilter {requested : Option (List Uuid)} {scope : List Uuid}
    {q : EventQuery}
    (hq : handleCountQuery parse (messageFilter h) reader requested scope = some q) :
    countQuery (messageFilter h) reader q db = .ok (db.rows.countP (countEventsSql q)) := by
  obtain ⟨channelId, channelIds, includeGlobal, limit, rfl⟩ :=
    handleCountQuery_messageFilter hq
  have hsql : countsInSql (messageFilter h) reader = true := by
    cases h <;> rfl
  rw [countQuery, if_pos hsql]
  rfl

theorem countLoop_messageFilters {hs : List (Option (BTreeSet String))} {total : Nat} :
    countLoop parse (onlyChannel ch) reader none db (hs.map messageFilter) ⟨[ch], {}⟩ total =
      .count (total + (hs.map (messageCount parse reader ch db)).sum) := by
  induction hs generalizing total with
  | nil => rfl
  | cons h hs ih =>
      rw [List.map_cons, countLoop, roundScope_messageFilter]
      simp only [extractChannelIdsFromFilters_single, lookup_messageFilter,
        List.map_cons, List.sum_cons, messageCount]
      cases hq : handleCountQuery parse (messageFilter h) reader
          (h.map (channelsNamed parse)) [ch] with
      | none => simpa using ih
      | some q =>
          simp only [countQuery_messageFilter hq, ih, Nat.add_assoc]

theorem initialReach_messageFilters {filters : List Filter} :
    initialReach parse (onlyChannel ch) filters none = .ok ⟨[ch], {}⟩ := by
  have hnamed : readableNamedOnlyChannelsForFilters parse (onlyChannel ch) filters [ch] none =
      .ok {} := by
    unfold readableNamedOnlyChannelsForFilters
    split <;> rfl
  simp only [initialReach, onlyChannel, Except.bind, retainToken] at hnamed ⊢
  rw [hnamed]
  rfl

theorem grantedScopes_messageFilters {hs : List (Option (BTreeSet String))} :
    grantedScopes parse (onlyChannel ch) none (hs.map messageFilter) ⟨[ch], {}⟩ =
      hs.map fun _ => [ch] := by
  induction hs with
  | nil => rfl
  | cons h hs ih => simp [grantedScopes, roundScope_messageFilter, ih]

/-- Several values naming the reader's one channel: no channel reaches SQL. -/
theorem messageCount_leaks {values : BTreeSet String}
    (hnamed : channelsNamed parse values = [ch]) (hlen : values.len ≠ 1) :
    messageCount parse reader ch (oneMessage (otherChannel ch)) (some values) = 1 := by
  have hsingle : extractChannelIdFromFilter parse (messageFilter (some values)) = none := by
    rw [extractChannelIdFromFilter, lookup_messageFilter, Option.bind_some]
    split
    next value hvalue => exact absurd (by simp [BTreeSet.len, hvalue]) hlen
    · rfl
  have hquery : handleCountQuery parse (messageFilter (some values)) reader (some [ch]) [ch] =
      some { kinds := some [9], limit := some 1000 } := by
    simp only [handleCountQuery, List.contains_cons, BEq.rfl, Bool.true_or,
      List.filter_cons_of_pos, List.filter_nil, List.length_singleton, ↓reduceIte,
      applyChannelScopeToQuery, buildEventQueryFromFilter, hsingle,
      filterToQueryParams_messageFilter]
    rfl
  rw [messageCount, Option.map_some, hnamed, hquery]
  rfl

end Leak

/-! ## The two-run property -/

/-- The `#h` budget, from the value sets alone. -/
def overBudget (hs : List (Option (BTreeSet String))) : Bool :=
  maxExplicitChannelValues < (hs.map fun h => (h.map (·.len)).getD 0).sum

theorem tooManyExplicitChannels_eq {filters : List Filter} :
    tooManyExplicitChannels filters =
      overBudget (filters.map fun filter => filter.genericTags.lookup .h) := by
  simp [tooManyExplicitChannels, overBudget, Function.comp_def]

variable {hs : List (Option (BTreeSet String))}

/-- The leaking request: kind 9 under each `#h` set. It passes every gate. -/
theorem handleCount_messageFilters {parse : String → Option Uuid} {ch : Uuid}
    (hbudget : overBudget hs = false) (db : EventStore) :
    handleCount parse (onlyChannel ch) (some { reader := .ofByte 0 })
      (hs.map messageFilter) db =
        .count (hs.map (messageCount parse (.ofByte 0) ch db)).sum := by
  have hgate : ∀ h, pGatedFiltersAuthorized [messageFilter h] (.ofByte 0) = true ∧
      engramFiltersAuthorized [messageFilter h] (.ofByte 0) = true ∧
      authorOnlyFiltersAuthorized [messageFilter h] (.ofByte 0) = true := by
    intro h
    cases h <;> exact ⟨rfl, rfl, rfl⟩
  simp only [pGatedFiltersAuthorized, engramFiltersAuthorized,
    authorOnlyFiltersAuthorized, List.all_cons, List.all_nil, Bool.and_true] at hgate
  have hrefusal : countRefusal (hs.map messageFilter) (.ofByte 0) = none := by
    simp only [countRefusal, pGatedFiltersAuthorized, engramFiltersAuthorized,
      authorOnlyFiltersAuthorized, List.all_map, Function.comp_def, (hgate _).1,
      (hgate _).2.1, (hgate _).2.2]
    simp
  have hfew : tooManyExplicitChannels (hs.map messageFilter) = false := by
    rw [tooManyExplicitChannels_eq, List.map_map]
    simpa [Function.comp_def] using hbudget
  simp [handleCount, hrefusal, hfew, initialReach_messageFilters, countLoop_messageFilters]

theorem agreeOn_messageFilters {parse : String → Option Uuid} {ch : Uuid} :
    AgreeOn (handleCountScopes parse (onlyChannel ch) (some { reader := .ofByte 0 })
      (hs.map messageFilter)) emptyStore (oneMessage (otherChannel ch)) := by
  intro row hrow
  simp only [handleCountScopes, initialReach_messageFilters,
    grantedScopes_messageFilters] at hrow
  refine ⟨fun h => (List.not_mem_nil h).elim, fun h => ?_⟩
  rw [oneMessage, List.mem_singleton] at h
  subst h
  obtain ⟨scope, hscope, hin⟩ := hrow (otherChannel ch) rfl
  obtain ⟨_, _, rfl⟩ := List.mem_map.1 hscope
  exact absurd (List.mem_singleton.1 hin) (otherChannel_ne ch)

theorem not_confined_messageFilters {parse : String → Option Uuid} {ch : Uuid}
    (hbudget : overBudget hs = false) {values : BTreeSet String}
    (hmem : some values ∈ hs) (hnamed : channelsNamed parse values = [ch])
    (hlen : values.len ≠ 1) :
    ¬ Confined (handleCount parse (onlyChannel ch) (some { reader := .ofByte 0 })
        (hs.map messageFilter))
      (handleCountScopes parse (onlyChannel ch) (some { reader := .ofByte 0 })
        (hs.map messageFilter)) := by
  intro hconf
  have heq := hconf _ _ agreeOn_messageFilters
  rw [handleCount_messageFilters hbudget, handleCount_messageFilters hbudget,
    CountAnswer.count.injEq] at heq
  have hzero : (hs.map (messageCount parse (.ofByte 0) ch emptyStore)).sum = 0 := by
    refine List.sum_eq_zero_iff_forall_eq_nat.2 fun n hn => ?_
    obtain ⟨h, -, rfl⟩ := List.mem_map.1 hn
    simp only [messageCount]
    split <;> rfl
  have hpos : 0 < (hs.map (messageCount parse (.ofByte 0) ch
      (oneMessage (otherChannel ch)))).sum := by
    refine List.sum_pos_iff_exists_pos_nat.2
      ⟨_, List.mem_map.2 ⟨some values, hmem, rfl⟩, ?_⟩
    rw [messageCount_leaks hnamed hlen]
    exact Nat.one_pos
  omega

/-- Both counts are confined to the reader's channels for every reader, token,
membership and remaining filter fields exactly when the request's `#h` sets
are over the budget or each names its channels plainly. -/
theorem count_confined_iff (parse : String → Option Uuid)
    (hs : List (Option (BTreeSet String))) :
    (∀ (access : Access) (session : Option CountSession) (reader : PublicKey)
        (bfs : List BridgeFilter),
      (bfs.map fun bf => bf.filter.genericTags.lookup .h) = hs →
      Confined (handleCount parse access session (bfs.map (·.filter)))
        (handleCountScopes parse access session (bfs.map (·.filter))) ∧
      Confined (countMemberEvents parse access reader bfs)
        (bridgeScopes parse access (bfs.map (·.filter)))) ↔
    overBudget hs = true ∨ ∀ values, some values ∈ hs → NamesPlainly parse values := by
  constructor
  · intro hconf
    by_contra hbad
    push Not at hbad
    obtain ⟨hbudget, values, hmem, hplain⟩ := hbad
    simp only [NamesPlainly, not_or, not_not] at hplain
    obtain ⟨ch, hnamed⟩ := List.length_eq_one_iff.1 hplain.2
    have hmap : ((hs.map fun h => BridgeFilter.mk (messageFilter h) none).map (·.filter)) =
        hs.map messageFilter := by simp
    have hc := (hconf (onlyChannel ch) (some { reader := .ofByte 0 }) (.ofByte 0)
      (hs.map fun h => ⟨messageFilter h, none⟩) (by simp [Function.comp_def])).1
    rw [hmap] at hc
    exact not_confined_messageFilters (by simpa using hbudget) hmem hnamed hplain.1 hc
  · intro hok access session reader bfs hlookup
    refine ⟨confined_handleCount ?_, confined_countMemberEvents⟩
    rw [tooManyExplicitChannels_eq, List.map_map]
    refine hok.imp (fun h => ?_) (fun h filter hfilter values hl => h values ?_)
    · simpa [Function.comp_def, hlookup] using h
    · obtain ⟨bf, hbf, rfl⟩ := List.mem_map.1 hfilter
      rw [← hlookup, ← hl]
      exact List.mem_map.2 ⟨bf, hbf, rfl⟩

/-- A reader of one channel asks for `#h: [<channel>, "x"]`, with a parser that
reads the channel's own spelling and refuses the stray value. The answer
counts a message of a channel that is not theirs. -/
theorem strayValue_leaks :
    let mine := Uuid.ofByte 1
    let parse := fun s => if s = mine.toText then some mine else none
    let filters := [messageFilter (some (.ofList [mine.toText, "x"]))]
    let session : CountSession := { reader := .ofByte 0 }
    AgreeOn (handleCountScopes parse (onlyChannel mine) (some session) filters)
      emptyStore (oneMessage (.ofByte 0)) ∧
    handleCount parse (onlyChannel mine) (some session) filters emptyStore = .count 0 ∧
    handleCount parse (onlyChannel mine) (some session) filters
      (oneMessage (.ofByte 0)) = .count 1 := by
  have hother : Uuid.ofByte 0 = otherChannel (.ofByte 1) := by decide
  refine ⟨?_, by decide +kernel, by decide +kernel⟩
  rw [hother, ← List.map_singleton]
  exact agreeOn_messageFilters

end Buzz.Relay
