import Buzz.Proofs.FanOut
import Buzz.Relay.RegistryCalls

/-!
# Concurrent index maintenance never strands a live subscription

A connection's part of the registry is its own subscription map and, for
each bucket, which of its subscriptions the bucket holds. Every call changes
the part of one connection only. The interesting case is `remove_if`: it
drops a bucket other connections may use, but only an empty one, so no part
changes at all. With that, the operations of one connection can be read as
if they ran alone, and alone each of them keeps every live subscription in
all of its buckets.
-/

namespace Buzz.Relay

open Buzz.Core Buzz.Lib RegistryCall RegistryTask SubscriptionRegistry

/-- One connection's part of the registry. -/
structure ConnView where
  subs : Option (HMap SubId SubEntry)
  indexed : Bucket → SubId → Prop

namespace ConnView

def of (conn : ConnId) (r : SubscriptionRegistry) : ConnView :=
  ⟨r.subs.lookup conn, fun b sub => (conn, sub) ∈ r.members b⟩

def entry (v : ConnView) (sub : SubId) : Option SubEntry :=
  v.subs.bind (·.lookup sub)

/-- Every live subscription is in every bucket it selects. -/
def Complete (v : ConnView) : Prop :=
  ∀ sub e, v.entry sub = some e → ∀ b ∈ e.indexKeys, v.indexed b sub

def eraseSub (v : ConnView) (sub : SubId) : ConnView :=
  { v with subs := v.subs.map (·.erase sub) }

def insertSub (v : ConnView) (sub : SubId) (e : SubEntry) : ConnView :=
  { v with subs := some ((v.subs.getD ∅).insert sub e) }

/-- A call as the connection that makes it sees it. -/
def exec (v : ConnView) : RegistryCall → ConnView × List RegistryCall
  | .takeSub conn sub =>
      match v.entry sub with
      | none => (v, [])
      | some e => (v.eraseSub sub, retains conn sub e.indexKeys)
  | .putSub _ sub e => (v.insertSub sub e, [])
  | .push b pair =>
      ({ v with indexed := fun b' s => v.indexed b' s ∨ (b' = b ∧ s = pair.2) }, [])
  | .retain b pair =>
      ({ v with indexed := fun b' s => v.indexed b' s ∧ ¬(b' = b ∧ s = pair.2) }, [])
  | .takeConn conn =>
      match v.subs with
      | none => (v, [])
      | some connSubs =>
          ({ v with subs := none },
            connSubs.entries.flatMap fun s => retains conn s.1 s.2.indexKeys)
  | .collect c conn ch =>
      (v, [.narrow c conn ch ((v.subs.map fun connSubs =>
        (connSubs.entries.filter fun s => s.2.communityId == c &&
          s.2.scope.channelIds.contains ch).map (·.1)).getD [])])
  | .narrow _ _ _ [] => (v, [])
  | .narrow c conn ch (sub :: rest) =>
      match v.subs with
      | none => (v, [])
      | some connSubs =>
          match connSubs.lookup sub with
          | none => (v, [.narrow c conn ch rest])
          | some e =>
              match e.scope with
              | .global => (v, [.narrow c conn ch rest])
              | .channels channelIds =>
                  let kept := channelIds.filter (· != ch)
                  (v.insertSub sub { e with scope := .channels kept },
                    retains conn sub (indexKeys c e.filters (.channels [ch])) ++
                    (if kept.isEmpty then [.dropSub conn sub] else []) ++
                    [.narrow c conn ch rest])
  | .dropSub _ sub => (v.eraseSub sub, [])
  | .removeIf _ => (v, [])
  | .getBucket _ _ _ => (v, [])
  | .matchPair _ _ _ => (v, [])

end ConnView

/-! ## Calls act on one connection's part -/

section View

open SubscriptionRegistry

variable {r : SubscriptionRegistry} {conn : ConnId}

theorem of_insertSub (conn' : ConnId) (sub : SubId) (e : SubEntry) :
    ConnView.of conn (r.insertSub conn' sub e) =
      if conn = conn' then (ConnView.of conn r).insertSub sub e
      else ConnView.of conn r := by
  unfold ConnView.of insertSub
  rw [HMap.lookup_alter]
  split
  · next h => subst h; rfl
  · rfl

theorem of_eraseSub (conn' : ConnId) (sub : SubId) :
    ConnView.of conn (r.eraseSub conn' sub) =
      if conn = conn' then (ConnView.of conn r).eraseSub sub
      else ConnView.of conn r := by
  unfold ConnView.of eraseSub
  rw [HMap.lookup_alter]
  split
  · next h => subst h; rfl
  · rfl

theorem of_eraseConn (conn' : ConnId) :
    ConnView.of conn (r.eraseConn conn') =
      if conn = conn' then { ConnView.of conn r with subs := none }
      else ConnView.of conn r := by
  unfold ConnView.of eraseConn
  rw [HMap.lookup_erase_ite]
  split <;> rfl

theorem of_pushBucket (b : Bucket) (pair : ConnId × SubId) :
    ConnView.of conn (r.pushBucket b pair) =
      if conn = pair.1 then
        { ConnView.of conn r with indexed := fun b' s =>
            (ConnView.of conn r).indexed b' s ∨ (b' = b ∧ s = pair.2) }
      else ConnView.of conn r := by
  unfold ConnView.of
  simp only [subs_pushBucket, mem_members_pushBucket, Prod.ext_iff]
  split
  · next h => simp [h]
  · next h => simp [h]

theorem of_retainBucket (b : Bucket) (pair : ConnId × SubId) :
    ConnView.of conn (r.retainBucket b pair) =
      if conn = pair.1 then
        { ConnView.of conn r with indexed := fun b' s =>
            (ConnView.of conn r).indexed b' s ∧ ¬(b' = b ∧ s = pair.2) }
      else ConnView.of conn r := by
  unfold ConnView.of
  simp only [retainBucket, subs_alterBucket]
  simp only [← retainBucket.eq_def, mem_members_retainBucket, Prod.ext_iff]
  split
  · next h => simp [h]
  · next h => simp [h]

/-- Dropping a bucket that is still empty is invisible to every connection. -/
theorem of_removeIfEmpty (b : Bucket) :
    ConnView.of conn (r.removeIfEmpty b) = ConnView.of conn r := by
  unfold ConnView.of
  simp only [mem_members_removeIfEmpty]
  simp only [removeIfEmpty, subs_alterBucket]

/-- A retain on an absent bucket has nothing to take out. -/
theorem indexed_retain_none {b : Bucket} (h : r.bucket b = none) (s : SubId) :
    (fun b' s' => (ConnView.of conn r).indexed b' s' ∧ ¬(b' = b ∧ s' = s)) =
      (ConnView.of conn r).indexed := by
  funext b' s'
  rw [eq_iff_iff]
  refine ⟨And.left, fun hx => ⟨hx, ?_⟩⟩
  rintro ⟨rfl, -⟩
  simp [ConnView.of, members, h] at hx

end View

open RegistryCall

variable {r : SubscriptionRegistry} {results : List (ConnId × SubId)}
  {a : RegistryCall}

theorem of_exec_of_ne {k : ConnId} (hk : owner a ≠ some k) :
    ConnView.of k (exec r results a).1 = ConnView.of k r := by
  cases a with
  | takeSub conn sub =>
      have hne : k ≠ conn := fun h => hk (by rw [h]; rfl)
      simp only [exec]
      split
      · rfl
      · rw [of_eraseSub, if_neg hne]
  | putSub conn sub e =>
      have hne : k ≠ conn := fun h => hk (by rw [h]; rfl)
      simp only [exec]
      rw [of_insertSub, if_neg hne]
  | push b pair =>
      have hne : k ≠ pair.1 := fun h => hk (by rw [h]; rfl)
      simp only [exec]
      rw [of_pushBucket, if_neg hne]
  | retain b pair =>
      have hne : k ≠ pair.1 := fun h => hk (by rw [h]; rfl)
      simp only [exec]
      split
      · rfl
      · rw [of_retainBucket, if_neg hne]
  | removeIf b => exact of_removeIfEmpty b
  | takeConn conn =>
      have hne : k ≠ conn := fun h => hk (by rw [h]; rfl)
      simp only [exec]
      split
      · rfl
      · rw [of_eraseConn, if_neg hne]
  | collect c conn ch => rfl
  | narrow c conn ch subs =>
      have hne : k ≠ conn := fun h => hk (by rw [h]; rfl)
      cases subs with
      | nil => rfl
      | cons sub rest =>
          simp only [exec]
          split
          · rfl
          · split
            · rfl
            · split
              · rfl
              · rw [of_insertSub, if_neg hne]
  | dropSub conn sub =>
      have hne : k ≠ conn := fun h => hk (by rw [h]; rfl)
      simp only [exec]
      rw [of_eraseSub, if_neg hne]
  | getBucket c ev b => rfl
  | matchPair c ev pair => rfl

theorem exec_of {k : ConnId} (hk : owner a = some k) :
    (ConnView.of k r).exec a = (ConnView.of k (exec r results a).1,
      (exec r results a).2.2.filter fun b => (owner b).isSome) := by
  have hretains : ∀ conn sub keys,
      (retains conn sub keys).filter (fun b => (owner b).isSome) =
        retains conn sub keys := by
    intro conn sub keys
    simp [retains, List.filter_eq_self, owner]
  have hmore : ∀ b : Bucket, ∀ p : Bool,
      ((if p then [removeIf b] else []).filter
        fun b => (owner b).isSome) = [] := by
    intro b p; cases p <;> rfl
  cases a with
  | takeSub conn sub =>
      cases hk
      simp only [exec, ConnView.exec]
      have he : (ConnView.of k r).entry sub = r.entry k sub := rfl
      rw [he]
      cases r.entry k sub with
      | none => rfl
      | some e => rw [of_eraseSub, if_pos rfl, hretains]
  | putSub conn sub e =>
      cases hk
      simp only [exec, ConnView.exec]
      rw [of_insertSub, if_pos rfl]
      rfl
  | push b pair =>
      cases hk
      simp only [exec, ConnView.exec]
      rw [of_pushBucket, if_pos rfl]
      rfl
  | retain b pair =>
      cases hk
      simp only [exec, ConnView.exec]
      split
      · next hb => rw [indexed_retain_none hb]; rfl
      · rw [of_retainBucket, if_pos rfl, hmore]
  | removeIf b => cases hk
  | takeConn conn =>
      cases hk
      simp only [exec, ConnView.exec]
      have hs : (ConnView.of k r).subs = r.subs.lookup k := rfl
      rw [hs]
      cases r.subs.lookup k with
      | none => rfl
      | some connSubs =>
          rw [of_eraseConn, if_pos rfl, List.filter_flatMap]
          simp only [hretains]
  | collect c conn ch => cases hk; rfl
  | narrow c conn ch subs =>
      cases hk
      cases subs with
      | nil => rfl
      | cons sub rest =>
          simp only [exec, ConnView.exec]
          have hs : (ConnView.of k r).subs = r.subs.lookup k := rfl
          rw [hs]
          cases r.subs.lookup k with
          | none => rfl
          | some connSubs =>
              dsimp only
              cases connSubs.lookup sub with
              | none => rfl
              | some e =>
                  obtain ⟨filters, com, scope⟩ := e
                  cases scope with
                  | global => rfl
                  | channels channelIds =>
                      dsimp only
                      rw [of_insertSub, if_pos rfl, List.filter_append,
                        List.filter_append, hretains]
                      split <;> rfl
  | dropSub conn sub =>
      cases hk
      simp only [exec, ConnView.exec]
      rw [of_eraseSub, if_pos rfl]
      rfl
  | getBucket c ev b => cases hk
  | matchPair c ev pair => cases hk

theorem owner_of_mem_exec {b : RegistryCall} (hb : b ∈ (exec r results a).2.2) :
    owner b = owner a ∨ owner b = none := by
  cases a with
  | takeSub conn sub =>
      simp only [exec] at hb
      split at hb
      · cases hb
      · obtain ⟨key, -, rfl⟩ := List.mem_map.1 hb
        exact .inl rfl
  | retain key pair =>
      simp only [exec] at hb
      split at hb
      · cases hb
      · split at hb
        · rw [List.mem_singleton.1 hb]; exact .inr rfl
        · cases hb
  | takeConn conn =>
      simp only [exec] at hb
      split at hb
      · cases hb
      · obtain ⟨s, -, hb⟩ := List.mem_flatMap.1 hb
        obtain ⟨key, -, rfl⟩ := List.mem_map.1 hb
        exact .inl rfl
  | collect c conn ch =>
      rw [List.mem_singleton.1 hb]
      exact .inl rfl
  | narrow c conn ch subs =>
      cases subs with
      | nil => cases hb
      | cons sub rest =>
          simp only [exec] at hb
          split at hb
          · cases hb
          · split at hb
            · rw [List.mem_singleton.1 hb]; exact .inl rfl
            · split at hb
              · rw [List.mem_singleton.1 hb]; exact .inl rfl
              · rcases List.mem_append.1 hb with hb | hb
                · rcases List.mem_append.1 hb with hb | hb
                  · obtain ⟨key, -, rfl⟩ := List.mem_map.1 hb
                    exact .inl rfl
                  · split at hb
                    · rw [List.mem_singleton.1 hb]; exact .inl rfl
                    · cases hb
                · rw [List.mem_singleton.1 hb]; exact .inl rfl
  | getBucket c ev key =>
      obtain ⟨pair, -, rfl⟩ := List.mem_map.1 hb
      exact .inr rfl
  | putSub | push | removeIf | dropSub | matchPair => cases hb

theorem owner_of_mem_calls {task : RegistryTask} (ha : a ∈ task.calls) :
    owner a = task.conn ∨ owner a = none := by
  have hreg : ∀ c conn sub filters scope,
      ∀ a ∈ registerCalls c conn sub filters scope,
        owner a = some conn := by
    intro c conn sub filters scope a ha
    rcases List.mem_cons.1 ha with rfl | ha
    · rfl
    · rcases List.mem_cons.1 ha with rfl | ha
      · rfl
      · obtain ⟨key, -, rfl⟩ := List.mem_map.1 ha
        rfl
  cases task with
  | update op =>
      left
      cases op with
      | registerScoped => exact hreg _ _ _ _ _ a ha
      | registerChannelsScoped => exact hreg _ _ _ _ _ a ha
      | removeSubscription => rw [List.mem_singleton.1 ha]; rfl
      | removeChannelSubscriptionsScoped => rw [List.mem_singleton.1 ha]; rfl
      | removeConnection => rw [List.mem_singleton.1 ha]; rfl
  | fanOut c ev =>
      obtain ⟨b, -, rfl⟩ := List.mem_map.1 ha
      exact .inr rfl

theorem registryCode_owned :
    registryCode.Owned owner conn ConnView.of ConnView.exec where
  frame _ _ _ _ hk := of_exec_of_ne hk
  sim _ _ _ _ hk := exec_of hk
  more _ _ _ _ hb := owner_of_mem_exec hb
  launched _ _ ha := owner_of_mem_calls ha

/-! ## Each operation alone keeps every live subscription indexed -/

namespace ConnView

open Code

variable {v w : ConnView} {conn : ConnId} {sub : SubId} {keys : List Bucket}
  {c : CommunityId}

theorem entry_eraseSub (sub' : SubId) :
    (v.eraseSub sub).entry sub' = if sub' = sub then none else v.entry sub' := by
  unfold entry eraseSub
  cases v.subs with
  | none => simp
  | some m =>
      simp only [Option.map_some, Option.bind_some]
      exact HMap.lookup_erase_ite m sub sub'

theorem entry_insertSub (e : SubEntry) (sub' : SubId) :
    (v.insertSub sub e).entry sub' =
      if sub' = sub then some e else v.entry sub' := by
  unfold entry insertSub
  simp only [Option.bind_some]
  rw [HMap.lookup_insert_ite]
  cases v.subs with
  | none => simp
  | some m => rfl

/-- A call for each bucket of a list, where every call leaves the subscriptions
alone and decides one pair: whether the id is in the call's own bucket. -/
theorem finishes_map (sub : SubId) (p : Prop) {call : Bucket → RegistryCall}
    (h : Finishes exec v (keys.map call) w)
    (hcall : ∀ v key, ∃ u, exec v (call key) = (u, []) ∧ u.subs = v.subs ∧
      ∀ b s, u.indexed b s ↔
      (b = key ∧ s = sub) ∧ p ∨ ¬(b = key ∧ s = sub) ∧ v.indexed b s) :
    w.subs = v.subs ∧
      ∀ b s, w.indexed b s ↔
        (b ∈ keys ∧ s = sub) ∧ p ∨ ¬(b ∈ keys ∧ s = sub) ∧ v.indexed b s := by
  induction keys generalizing v with
  | nil => rw [h.of_nil]; simp
  | cons key keys ih =>
      cases h with
      | cons he h =>
          obtain ⟨u, hu, hsame, hset⟩ := hcall v key
          rw [hu] at he
          cases he
          obtain ⟨hsubs, hidx⟩ := ih h
          refine ⟨hsubs.trans hsame, fun b s => ?_⟩
          rw [hidx, hset, List.mem_cons]
          tauto

theorem finishes_pushes (h : Finishes exec v (pushes conn sub keys) w) :
    w.subs = v.subs ∧
      ∀ b s, w.indexed b s ↔ v.indexed b s ∨ (b ∈ keys ∧ s = sub) := by
  obtain ⟨hsubs, hidx⟩ := finishes_map sub True h
    fun v key => ⟨_, rfl, rfl, fun b s => by tauto⟩
  exact ⟨hsubs, fun b s => (hidx b s).trans (by tauto)⟩

theorem finishes_retains (h : Finishes exec v (retains conn sub keys) w) :
    w.subs = v.subs ∧
      ∀ b s, w.indexed b s ↔ v.indexed b s ∧ ¬(b ∈ keys ∧ s = sub) := by
  obtain ⟨hsubs, hidx⟩ := finishes_map sub False h
    fun v key => ⟨_, rfl, rfl, fun b s => by tauto⟩
  exact ⟨hsubs, fun b s => (hidx b s).trans (by tauto)⟩

theorem entry_of_subs_eq (h : w.subs = v.subs) (s : SubId) :
    w.entry s = v.entry s := by
  unfold entry; rw [h]

/-- Taking out the index entries of an id that is no longer live. -/
theorem complete_retains (hv : Complete v) (hsub : v.entry sub = none)
    (h : Finishes exec v (retains conn sub keys) w) : Complete w := by
  obtain ⟨hsubs, hidx⟩ := finishes_retains h
  intro s e he b hb
  rw [entry_of_subs_eq hsubs] at he
  rw [hidx]
  refine ⟨hv s e he b hb, ?_⟩
  rintro ⟨-, rfl⟩
  rw [hsub] at he
  cases he

theorem complete_eraseSub (hv : Complete v) : Complete (v.eraseSub sub) := by
  intro s e he b hb
  rw [entry_eraseSub] at he
  split at he
  · cases he
  · exact hv s e he b hb

theorem complete_takeSub (hv : Complete v)
    (h : Finishes exec v [.takeSub conn sub] w) : Complete w := by
  cases h with
  | cons he h =>
      simp only [exec] at he
      split at he
      · cases he
        rw [h.of_nil]
        exact hv
      · cases he
        rw [List.append_nil] at h
        exact complete_retains (complete_eraseSub hv)
          (by rw [entry_eraseSub, if_pos rfl]) h

theorem complete_register {filters : List Filter} {scope : SubscriptionScope}
    (hv : Complete v)
    (h : Finishes exec v (registerCalls c conn sub filters scope) w) :
    Complete w := by
  have h : Finishes exec v ([.takeSub conn sub] ++ _) w := h
  obtain ⟨u, htake, h⟩ := h.append
  have hu := complete_takeSub hv htake
  cases h with
  | cons he h =>
      cases he
      obtain ⟨hsubs, hidx⟩ := finishes_pushes h
      intro s e he b hb
      rw [entry_of_subs_eq hsubs, entry_insertSub] at he
      rw [hidx]
      split at he
      · next hs =>
          cases he
          exact .inr ⟨hb, hs⟩
      · exact .inl (hu s e he b hb)

theorem complete_takeConn (h : Finishes exec v [.takeConn conn] w)
    (hv : Complete v) : Complete w := by
  have hsubs : ∀ (l : List ((_ : SubId) × SubEntry)) (v : ConnView),
      Finishes exec v (l.flatMap fun s => retains conn s.1 s.2.indexKeys) w →
      w.subs = v.subs := by
    intro l
    induction l with
    | nil => intro v h; rw [h.of_nil]
    | cons s l ih =>
        intro v h
        obtain ⟨u, h₁, h₂⟩ := h.append
        exact (ih u h₂).trans (finishes_retains h₁).1
  cases h with
  | cons he h =>
      simp only [exec] at he
      split at he
      · cases he
        rw [h.of_nil]
        exact hv
      · cases he
        rw [List.append_nil] at h
        intro s e he
        rw [entry, hsubs _ _ h] at he
        cases he

/-- The channels a narrowed scope keeps are indexed elsewhere than the
revoked one, whatever community the removal names. -/
theorem complete_narrowed {ch : Uuid} {e : SubEntry} {channelIds : List Uuid}
    (hv : Complete v) (he : v.entry sub = some e)
    (hs : e.scope = .channels channelIds)
    (h : Finishes exec
      (v.insertSub sub { e with scope := .channels (channelIds.filter (· != ch)) })
      (retains conn sub (indexKeys c e.filters (.channels [ch]))) w) :
    Complete w := by
  obtain ⟨hsubs, hidx⟩ := finishes_retains h
  intro s e' he' b hb
  rw [entry_of_subs_eq hsubs, entry_insertSub] at he'
  rw [hidx]
  split at he'
  · next hss =>
      subst hss
      cases he'
      rw [SubEntry.indexKeys, mem_indexKeys_channels] at hb
      obtain ⟨ch', hch', hb⟩ := hb
      rw [List.mem_filter, bne_iff_ne] at hch'
      refine ⟨hv s e he b ?_, ?_⟩
      · rw [SubEntry.indexKeys, hs, mem_indexKeys_channels]
        exact ⟨ch', hch'.1, hb⟩
      · rintro ⟨hb', -⟩
        exact hch'.2 (indexKeys_channel_disjoint hb hb')
  · next hss => exact ⟨hv s e' he' b hb, fun h => hss h.2⟩

theorem complete_narrow {ch : Uuid} {subs : List SubId} (hv : Complete v)
    (h : Finishes exec v [.narrow c conn ch subs] w) :
    Complete w := by
  induction subs generalizing v with
  | nil =>
      cases h with
      | cons he h =>
          cases he
          rw [h.of_nil]
          exact hv
  | cons sub rest ih =>
      cases h with
      | cons he h =>
          rw [List.append_nil] at h
          simp only [exec] at he
          split at he
          · cases he
            rw [h.of_nil]
            exact hv
          · next connSubs hsubs =>
              split at he
              · cases he; exact ih hv h
              · next e hlook =>
                  split at he
                  · cases he; exact ih hv h
                  · next channelIds hscope =>
                      cases he
                      have hentry : v.entry sub = some e := by
                        rw [entry, hsubs]; exact hlook
                      rw [List.append_assoc] at h
                      obtain ⟨u, hret, h⟩ := h.append
                      have hu := complete_narrowed hv hentry hscope hret
                      obtain ⟨u', hdrop, h⟩ := h.append
                      refine ih ?_ h
                      split at hdrop
                      · cases hdrop with
                        | cons he hdrop =>
                            cases he
                            rw [hdrop.of_nil]
                            exact complete_eraseSub hu
                      · rw [hdrop.of_nil]; exact hu

theorem complete_collect {ch : Uuid} (hv : Complete v)
    (h : Finishes exec v [.collect c conn ch] w) : Complete w := by
  cases h with
  | cons he h =>
      cases he
      exact complete_narrow hv h

theorem complete_update {op : RegistryOp} (hv : Complete v)
    (h : Finishes exec v (visible owner (update op).calls) w) :
    Complete w := by
  have hvis : visible owner (update op).calls =
      (update op).calls := by
    refine List.filter_eq_self.2 fun a ha => ?_
    cases op with
    | registerScoped | registerChannelsScoped =>
        rcases List.mem_cons.1 ha with rfl | ha
        · rfl
        · rcases List.mem_cons.1 ha with rfl | ha
          · rfl
          · obtain ⟨key, -, rfl⟩ := List.mem_map.1 ha
            rfl
    | removeSubscription | removeChannelSubscriptionsScoped
    | removeConnection => rw [List.mem_singleton.1 ha]; rfl
  rw [hvis] at h
  cases op with
  | registerScoped => exact complete_register hv h
  | registerChannelsScoped => exact complete_register hv h
  | removeSubscription => exact complete_takeSub hv h
  | removeChannelSubscriptionsScoped => exact complete_collect hv h
  | removeConnection => exact complete_takeConn h hv

end ConnView

/-! ## The calls of a task, run alone, are the operation -/

section Alone

open Code SubscriptionRegistry

variable {conn : ConnId} {sub : SubId}

theorem alone_cons {r' : SubscriptionRegistry}
    {results' : List (ConnId × SubId)} {a : RegistryCall}
    {more rest : List RegistryCall} {w : SubscriptionRegistry × List (ConnId × SubId)}
    (he : RegistryCall.exec r results a = (r', results', more))
    (h : Finishes registryCode.alone (r', results') (more ++ rest) w) :
    Finishes registryCode.alone (r, results) (a :: rest) w := by
  refine .cons ?_ h
  show ((_, _), _) = _
  rw [show registryCode.exec = RegistryCall.exec from rfl, he]

theorem alone_pushes (keys : List Bucket) :
    Finishes registryCode.alone (r, results) (pushes conn sub keys)
      (keys.foldl (fun r b => r.pushBucket b (conn, sub)) r, results) := by
  induction keys generalizing r with
  | nil => exact .nil _
  | cons key keys ih => exact .cons rfl ih

theorem alone_retains (keys : List Bucket) :
    Finishes registryCode.alone (r, results) (retains conn sub keys)
      (keys.foldl (fun r b => r.removeIndexEntry b (conn, sub)) r, results) := by
  induction keys generalizing r with
  | nil => exact .nil _
  | cons key keys ih =>
      have hone : Finishes registryCode.alone (r, results)
          [.retain key (conn, sub)]
          (r.removeIndexEntry key (conn, sub), results) := by
        unfold removeIndexEntry
        cases hb : r.bucket key with
        | none =>
            have he : exec r results (.retain key (conn, sub)) =
              (r, results, []) := by simp [RegistryCall.exec, hb]
            exact alone_cons he (.nil _)
        | some entries =>
            dsimp only
            split
            · next hempty =>
                have he : exec r results (.retain key (conn, sub)) =
                  (r.retainBucket key (conn, sub), results, [.removeIf key]) := by
                  simp [RegistryCall.exec, hb, hempty]
                exact alone_cons he (.cons rfl (.nil _))
            · next hne =>
                have he : exec r results (.retain key (conn, sub)) =
                  (r.retainBucket key (conn, sub), results, []) := by
                  simp [RegistryCall.exec, hb, hne]
                exact alone_cons he (.nil _)
      exact Finishes.trans hone ih

theorem alone_removeFromIndex (filters : List Filter) (c : CommunityId)
    (scope : SubscriptionScope) :
    Finishes registryCode.alone (r, results)
      (retains conn sub (indexKeys c filters scope))
      (r.removeFromIndex conn sub filters c scope, results) := by
  rw [removeFromIndex_eq]
  exact alone_retains _

theorem alone_takeSub :
    Finishes registryCode.alone (r, results) [.takeSub conn sub]
      ((r.removeSubscription conn sub).1, results) := by
  unfold removeSubscription
  cases h : r.entry conn sub with
  | none =>
      have he : exec r results (.takeSub conn sub) =
        (r, results, []) := by simp [RegistryCall.exec, h]
      exact alone_cons he (.nil _)
  | some e =>
      have he : exec r results (.takeSub conn sub) =
        (r.eraseSub conn sub, results, retains conn sub e.indexKeys) := by
        simp [RegistryCall.exec, h]
      refine alone_cons he ?_
      rw [List.append_nil]
      exact alone_removeFromIndex _ _ _

theorem alone_register (c : CommunityId) (filters : List Filter)
    (scope : SubscriptionScope) :
    Finishes registryCode.alone (r, results)
      (registerCalls c conn sub filters scope)
      ((r.registerWithScope c conn sub filters scope).1, results) := by
  rw [registerWithScope_eq]
  exact Finishes.trans alone_takeSub (.cons rfl (alone_pushes _))

theorem alone_takeConn :
    Finishes registryCode.alone (r, results) [.takeConn conn]
      ((r.removeConnection conn).1, results) := by
  have hloop : ∀ (l : List ((_ : SubId) × SubEntry)) (r : SubscriptionRegistry),
      Finishes registryCode.alone (r, results)
        (l.flatMap fun s => retains conn s.1 s.2.indexKeys)
        (l.foldl (fun r s => r.removeFromIndex conn s.1 s.2.filters
          s.2.communityId s.2.scope) r, results) := by
    intro l
    induction l with
    | nil => intro r; exact .nil _
    | cons s l ih =>
        intro r
        exact Finishes.trans (alone_removeFromIndex _ _ _) (ih _)
  unfold removeConnection
  cases h : r.subs.lookup conn with
  | none =>
      have he : exec r results (.takeConn conn) =
        (r, results, []) := by simp [RegistryCall.exec, h]
      exact alone_cons he (.nil _)
  | some connSubs =>
      have he : exec r results (.takeConn conn) =
        (r.eraseConn conn, results,
          connSubs.entries.flatMap fun s => retains conn s.1 s.2.indexKeys) := by
        simp [RegistryCall.exec, h]
      refine alone_cons he ?_
      rw [List.append_nil]
      exact hloop _ _

theorem alone_narrow (c : CommunityId) (ch : Uuid) (subs : List SubId) :
    Finishes registryCode.alone (r, results) [.narrow c conn ch subs]
      ((narrowSubs c conn ch r subs).1, results) := by
  induction subs generalizing r with
  | nil => exact .cons rfl (.nil _)
  | cons sub rest ih =>
      unfold narrowSubs
      cases h : r.subs.lookup conn with
      | none =>
          have he : RegistryCall.exec r results (.narrow c conn ch (sub :: rest)) =
            (r, results, []) := by simp [RegistryCall.exec, h]
          exact alone_cons he (.nil _)
      | some connSubs =>
          -- An id that is gone or no longer channel-scoped is passed over.
          have hskip : RegistryCall.exec r results (.narrow c conn ch (sub :: rest)) =
              (r, results, [.narrow c conn ch rest]) →
              Finishes registryCode.alone (r, results)
                [.narrow c conn ch (sub :: rest)]
                ((narrowSubs c conn ch r rest).1, results) :=
            fun he => alone_cons he ih
          dsimp only
          cases hl : connSubs.lookup sub with
          | none => exact hskip (by simp [RegistryCall.exec, h, hl])
          | some e =>
              dsimp only
              cases hs : e.scope with
              | global => exact hskip (by simp [RegistryCall.exec, h, hl, hs])
              | channels channelIds =>
                  have he : RegistryCall.exec r results
                      (.narrow c conn ch (sub :: rest)) =
                    (r.insertSub conn sub { e with
                        scope := .channels (channelIds.filter (· != ch)) }, results,
                      retains conn sub (indexKeys c e.filters (.channels [ch])) ++
                      (if (channelIds.filter (· != ch)).isEmpty
                        then [.dropSub conn sub] else []) ++
                      [.narrow c conn ch rest]) := by
                    simp [RegistryCall.exec, h, hl, hs]
                  refine alone_cons he ?_
                  rw [List.append_nil]
                  refine Finishes.trans (Finishes.trans
                    (alone_removeFromIndex _ _ _) ?_) ih
                  unfold narrowSub
                  dsimp only
                  split
                  · exact .cons rfl (.nil _)
                  · exact .nil _

/-- A task that runs without interference does what the operation does. -/
theorem alone_update (op : RegistryOp) :
    Finishes registryCode.alone (r, results) (update op).calls
      (op.apply r, results) := by
  cases op with
  | registerScoped => exact alone_register _ _ _
  | registerChannelsScoped => exact alone_register _ _ _
  | removeSubscription => exact alone_takeSub
  | removeChannelSubscriptionsScoped => exact .cons rfl (alone_narrow _ _ _)
  | removeConnection => exact alone_takeConn

theorem alone_fanOut (c : CommunityId) (ev : StoredEvent) :
    Finishes registryCode.alone (r, []) (fanOut c ev).calls
      (r, r.fanOutScoped c ev) := by
  have hcandidates : ∀ (l : List (ConnId × SubId)) (results),
      Finishes registryCode.alone (r, results) (l.map (.matchPair c ev))
        (r, l.foldl (r.pushMatch c ev) results) := by
    intro l
    induction l with
    | nil => intro results; exact .nil _
    | cons pair l ih => intro results; exact .cons rfl (ih _)
  have hbuckets : ∀ (bs : List Bucket) (results),
      Finishes registryCode.alone (r, results) (bs.map (.getBucket c ev))
        (r, bs.foldl (r.matchBucket c ev) results) := by
    intro bs
    induction bs with
    | nil => intro results; exact .nil _
    | cons b bs ih =>
        intro results
        have hone : Finishes registryCode.alone (r, results) [.getBucket c ev b]
            (r, r.matchBucket c ev results b) := by
          have he : exec r results (.getBucket c ev b) =
            (r, results, ((r.bucket b).getD []).map (.matchPair c ev)) := rfl
          refine alone_cons he ?_
          rw [List.append_nil]
          unfold matchBucket
          cases r.bucket b with
          | none => exact hcandidates [] results
          | some l => exact hcandidates l results
        exact Finishes.trans hone (ih _)
  rw [fanOutScoped_eq]
  exact hbuckets _ _

/-- Any number of updates one after another, and a fan-out after them, do at the level of
the calls what the operations do: the registry they leave, and the subscriptions that the
event reaches. -/
theorem registry_tasks_alone (r : SubscriptionRegistry) (ops : List RegistryOp) (c : CommunityId)
    (ev : StoredEvent) :
    Finishes registryCode.alone (r, [])
      (ops.flatMap (fun op => (update op).calls) ++ (fanOut c ev).calls)
      (ops.foldl (fun r op => op.apply r) r,
        (ops.foldl (fun r op => op.apply r) r).fanOutScoped c ev) := by
  induction ops generalizing r with
  | nil => exact alone_fanOut c ev
  | cons op ops ih =>
      rw [List.flatMap_cons, List.append_assoc]
      exact Finishes.trans (alone_update op) (ih (op.apply r))

end Alone

/-! ## Fan-out results come from matching reads -/

/-- Whatever a fan-out holds, it got from a read that matched; and it only
ever runs its own event's calls. -/
def FanOutSound (h : List (Code.Executed SubscriptionRegistry RegistryCall
    (List (ConnId × SubId)))) (i : Nat)
    (t : Task RegistryTask RegistryCall (List (ConnId × SubId))) : Prop :=
  ∀ c ev, t.op = .fanOut c ev →
    (∀ a ∈ t.todo, (∃ b, a = .getBucket c ev b) ∨ ∃ pair, a = .matchPair c ev pair) ∧
    ∀ pair ∈ t.loc, ∃ x ∈ h, x.task = i ∧ x.action = .matchPair c ev pair ∧
      ∃ e, x.state.entry pair.1 pair.2 = some e ∧
        entryMatches c ev e = true

theorem fanOutSound_history (moves : List (Move RegistryTask)) (i : Nat)
    (t : Task RegistryTask RegistryCall (List (ConnId × SubId)))
    (ht : (registryCode.run ⟨.new, []⟩ moves).tasks[i]? = some t) :
    FanOutSound (registryCode.history ⟨.new, []⟩ moves) i t := by
  have hinv := registryCode.history_inv (P := FanOutSound)
    (s := ⟨new, []⟩) (h := [])
  refine hinv ?_ ?_ ?_ (by simp) moves i t ht
  · intro h h' i t ht c ev hop
    obtain ⟨htodo, hloc⟩ := ht c ev hop
    refine ⟨htodo, fun pair hp => ?_⟩
    obtain ⟨x, hx, hrest⟩ := hloc pair hp
    exact ⟨x, List.mem_append_left _ hx, hrest⟩
  · intro h i op c ev hop
    have hop : op = .fanOut c ev := hop
    subst hop
    refine ⟨fun a ha => ?_, by simp [registryCode]⟩
    obtain ⟨b, -, rfl⟩ := List.mem_map.1 ha
    exact .inl ⟨b, rfl⟩
  · intro h i op a rest loc r hP c ev hop
    obtain ⟨htodo, hloc⟩ := hP c ev hop
    have hrest : ∀ a ∈ rest, (∃ b, a = getBucket c ev b) ∨
        ∃ pair, a = matchPair c ev pair :=
      fun a ha => htodo a (List.mem_cons_of_mem _ ha)
    have hkeep : ∀ pair ∈ loc, ∃ x ∈ h ++ [⟨i, r, loc, a⟩], x.task = i ∧
        x.action = matchPair c ev pair ∧
        ∃ e, x.state.entry pair.1 pair.2 = some e ∧
          entryMatches c ev e = true := by
      intro pair hp
      obtain ⟨x, hx, hx'⟩ := hloc pair hp
      exact ⟨x, List.mem_append_left _ hx, hx'⟩
    rcases htodo a List.mem_cons_self with ⟨b, rfl⟩ | ⟨pair, rfl⟩
    · refine ⟨fun a ha => ?_, hkeep⟩
      rcases List.mem_append.1 ha with ha | ha
      · obtain ⟨pair, -, rfl⟩ := List.mem_map.1 ha
        exact .inr ⟨pair, rfl⟩
      · exact hrest a ha
    · refine ⟨hrest, fun pair' hp => ?_⟩
      rcases (mem_pushMatch pair).1 hp with hp | ⟨rfl, hm⟩
      · exact hkeep pair' hp
      · exact ⟨⟨i, r, loc, .matchPair c ev pair'⟩, by simp, rfl, rfl, hm⟩

/-- Whatever the interleaving: when each connection's updates run one after
another, every subscription of a connection with no update under way is in
every bucket its filters and scope select; and even when they do not, every
pair a fan-out returns was read by its `push_match` from an entry with the
event's community, a matching scope and matching filters. -/
theorem interleaved_calls_safe (moves : List (Move RegistryTask)) :
    let s := registryCode.run ⟨.new, []⟩ moves
    (registryCode.Serial RegistryTask.conn ⟨.new, []⟩ moves →
      ∀ conn, Code.Idle RegistryTask.conn conn s →
      ∀ sub filters c scope,
        s.state.entry conn sub = some ⟨filters, c, scope⟩ →
        ∀ b ∈ indexKeys c filters scope, (conn, sub) ∈ s.state.members b) ∧
    (∀ i t c ev, s.tasks[i]? = some t → t.op = .fanOut c ev →
      ∀ pair ∈ t.loc, ∃ x ∈ registryCode.history ⟨.new, []⟩ moves,
        x.task = i ∧ x.action = .matchPair c ev pair ∧
        ∃ filters scope,
          x.state.entry pair.1 pair.2 = some ⟨filters, c, scope⟩ ∧
          scope.matchesChannel ev.channelId = true ∧
          filtersMatch filters ev = true) := by
  intro s
  constructor
  · intro hserial conn hidle sub filters c scope he b hb
    have hnew : ∀ k, (ConnView.of k .new).Complete := by
      intro k sub e he
      cases he
    have hop : ∀ (task : RegistryTask) k v w, task.conn = some k →
        v.Complete → Code.Finishes ConnView.exec v
          (Code.visible owner (registryCode.launch task).todo) w →
        w.Complete := by
      intro task k v w hk hv hw
      cases task with
      | update op => exact ConnView.complete_update hv hw
      | fanOut c ev => cases hk
    have hc := Code.quiescent_inv registryCode_owned hop hnew moves hserial conn hidle
    exact hc sub ⟨filters, c, scope⟩ he b hb
  · intro i t c ev ht hop pair hp
    obtain ⟨x, hx, htask, haction, e, he, hm⟩ :=
      (fanOutSound_history moves i t ht c ev hop).2 pair hp
    simp only [entryMatches, Bool.and_eq_true, beq_iff_eq,
      and_assoc] at hm
    obtain ⟨rfl, hscope, hfilters⟩ := hm
    exact ⟨x, hx, htask, haction, e.filters, e.scope, he, hscope, hfilters⟩

end Buzz.Relay
