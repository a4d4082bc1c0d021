import Buzz.Lib.Interleave
import Buzz.Relay.Subscription

/-!
# The registry under concurrent calls

The registry's maps are sharded concurrent maps: each single call on one of
them is atomic, and the calls of different tasks interleave freely. Here an
operation is the list of its calls. A call that decides what comes next (the
entry a removal takes out, the ids a revocation collects, the candidates of a
bucket) puts those calls in front of the rest.

The source holds a shard guard of `subs` over some of these calls. The model
does not, so it allows every interleaving of the code and more.
-/

namespace Buzz.Relay

open Buzz.Core Buzz.Lib

inductive RegistryCall where
  /-- `conn_subs.remove(sub_id)` under `subs.get_mut(conn_id)`, at the start
  of `remove_subscription`. -/
  | takeSub (conn : ConnId) (sub : SubId)
  /-- `subs.entry(conn_id).or_default().insert(sub_id, entry)`. -/
  | putSub (conn : ConnId) (sub : SubId) (e : SubEntry)
  /-- `index.entry(key).or_default().push(..)`. -/
  | push (b : Bucket) (pair : ConnId × SubId)
  /-- `index.get_mut(key)` and `retain`. -/
  | retain (b : Bucket) (pair : ConnId × SubId)
  /-- `index.remove_if(key, |_, entries| entries.is_empty())`. -/
  | removeIf (b : Bucket)
  /-- `subs.remove(conn_id)`. -/
  | takeConn (conn : ConnId)
  /-- `subs.get(conn_id)`, collecting the ids a revocation reaches. -/
  | collect (communityId : CommunityId) (conn : ConnId) (channelId : Uuid)
  /-- `subs.get_mut(conn_id)` of the revocation loop, once per id. -/
  | narrow (communityId : CommunityId) (conn : ConnId) (channelId : Uuid)
      (subs : List SubId)
  /-- `conn_subs.remove(sub_id)` at the end of a round that left no channel. -/
  | dropSub (conn : ConnId) (sub : SubId)
  /-- `index.get(key)` of a fan-out, cloning the candidates. -/
  | getBucket (communityId : CommunityId) (ev : StoredEvent) (b : Bucket)
  /-- `subs.get(conn_id)` of `push_match`. -/
  | matchPair (communityId : CommunityId) (ev : StoredEvent)
      (pair : ConnId × SubId)

namespace RegistryCall

/-- The `retain` calls of `remove_from_index`. -/
def retains (conn : ConnId) (sub : SubId) (keys : List Bucket) :
    List RegistryCall :=
  keys.map (.retain · (conn, sub))

def pushes (conn : ConnId) (sub : SubId) (keys : List Bucket) :
    List RegistryCall :=
  keys.map (.push · (conn, sub))

/-- One call on the registry. `results` is the fan-out's own result list. -/
def exec (r : SubscriptionRegistry) (results : List (ConnId × SubId)) :
    RegistryCall →
    SubscriptionRegistry × List (ConnId × SubId) × List RegistryCall
  | .takeSub conn sub =>
      match r.entry conn sub with
      | none => (r, results, [])
      | some e => (r.eraseSub conn sub, results, retains conn sub e.indexKeys)
  | .putSub conn sub e => (r.insertSub conn sub e, results, [])
  | .push b pair => (r.pushBucket b pair, results, [])
  | .retain b pair =>
      match r.bucket b with
      | none => (r, results, [])
      | some _ =>
          let r := r.retainBucket b pair
          (r, results, if (r.bucket b).any (·.isEmpty) then [.removeIf b] else [])
  | .removeIf b => (r.removeIfEmpty b, results, [])
  | .takeConn conn =>
      match r.subs.lookup conn with
      | none => (r, results, [])
      | some connSubs =>
          (r.eraseConn conn, results,
            connSubs.entries.flatMap fun s => retains conn s.1 s.2.indexKeys)
  | .collect c conn ch =>
      (r, results, [.narrow c conn ch (r.channelSubIds c conn ch)])
  | .narrow _ _ _ [] => (r, results, [])
  | .narrow c conn ch (sub :: rest) =>
      match r.subs.lookup conn with
      | none => (r, results, [])
      | some connSubs =>
          match connSubs.lookup sub with
          | none => (r, results, [.narrow c conn ch rest])
          | some e =>
              match e.scope with
              | .global => (r, results, [.narrow c conn ch rest])
              | .channels channelIds =>
                  let kept := channelIds.filter (· != ch)
                  (r.insertSub conn sub { e with scope := .channels kept }, results,
                    retains conn sub (indexKeys c e.filters (.channels [ch])) ++
                    (if kept.isEmpty then [.dropSub conn sub] else []) ++
                    [.narrow c conn ch rest])
  | .dropSub conn sub => (r.eraseSub conn sub, results, [])
  | .getBucket c ev b =>
      (r, results, ((r.bucket b).getD []).map (.matchPair c ev))
  | .matchPair c ev pair => (r, r.pushMatch c ev results pair, [])

/-- The connection whose registrations a call touches. -/
def owner : RegistryCall → Option ConnId
  | .takeSub conn _ => some conn
  | .putSub conn _ _ => some conn
  | .push _ pair => some pair.1
  | .retain _ pair => some pair.1
  | .removeIf _ => none
  | .takeConn conn => some conn
  | .collect _ conn _ => some conn
  | .narrow _ conn _ _ => some conn
  | .dropSub conn _ => some conn
  | .getBucket _ _ _ => none
  | .matchPair _ _ _ => none

end RegistryCall

/-- A call into the registry: one of its updates, or a fan-out. -/
inductive RegistryTask where
  | update (op : RegistryOp)
  | fanOut (communityId : CommunityId) (ev : StoredEvent)

namespace RegistryTask

/-- The calls of `register_with_scope`. -/
def registerCalls (c : CommunityId) (conn : ConnId) (sub : SubId)
    (filters : List Filter) (scope : SubscriptionScope) : List RegistryCall :=
  .takeSub conn sub :: .putSub conn sub ⟨filters, c, scope⟩ ::
    RegistryCall.pushes conn sub (indexKeys c filters scope)

def calls : RegistryTask → List RegistryCall
  | .update (.registerScoped c conn sub filters ch) =>
      registerCalls c conn sub filters
        ((ch.map fun ch => .channels [ch]).getD .global)
  | .update (.registerChannelsScoped c conn sub filters chs) =>
      registerCalls c conn sub filters (.channels chs)
  | .update (.removeSubscription conn sub) => [.takeSub conn sub]
  | .update (.removeChannelSubscriptionsScoped c conn ch) =>
      [.collect c conn ch]
  | .update (.removeConnection conn) => [.takeConn conn]
  | .fanOut c ev => (eventBuckets c ev).map (.getBucket c ev)

/-- The connection an update works for; a fan-out works for none. -/
def conn : RegistryTask → Option ConnId
  | .update (.registerScoped _ conn _ _ _) => some conn
  | .update (.registerChannelsScoped _ conn _ _ _) => some conn
  | .update (.removeSubscription conn _) => some conn
  | .update (.removeChannelSubscriptionsScoped _ conn _) => some conn
  | .update (.removeConnection conn) => some conn
  | .fanOut _ _ => none

end RegistryTask

/-- The registry's code as interleaved tasks. -/
def registryCode : Code SubscriptionRegistry RegistryTask RegistryCall
    (List (ConnId × SubId)) where
  exec := RegistryCall.exec
  launch task := ⟨task, task.calls, []⟩
  launch_op _ := rfl

end Buzz.Relay
