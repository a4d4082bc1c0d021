import Buzz.Relay.SyncInbox

/-!
# A sync's inbox loses nothing

Fan-out and the loss detectors write to an inbox; the sync's task takes what is there and
leaves an empty one. Whatever was written since then, the inbox either holds exactly the
artifacts that were named, each with the last removal of it, within both bounds, or it holds
nothing and says that the sync must end. `held_bytes` is the size of what is held, so that
the subtraction in `hold` never goes below zero.
-/

namespace Buzz.Relay

open Buzz.Core Buzz.Lib

/-- What is written to an inbox. -/
inductive InboxWrite where
  | signal (stored : StoredEvent)
  | resync (reason : String)

namespace InboxWrite

/-- Whether the write alone ends the sync. -/
def ends : InboxWrite → Bool
  | .signal stored => isResyncKind stored.event.kind
  | .resync _ => true

def names (codec : Codec) (d : Uuid) : InboxWrite → Bool
  | .signal stored => artifactId codec stored.event = some d
  | .resync _ => false

/-- The removal of the artifact, if the write is one. -/
def removal (codec : Codec) (d : Uuid) : InboxWrite → Option Event
  | .signal stored =>
      if artifactId codec stored.event = some d ∧ stored.event.kind = 45011 then
        some stored.event
      else none
  | .resync _ => none

end InboxWrite

namespace Pending

variable {codec : Codec} {p : Pending} {w : InboxWrite} {ws : List InboxWrite} {d : Uuid}

def write (codec : Codec) (p : Pending) : InboxWrite → Pending
  | .signal stored => p.signal codec stored
  | .resync reason => p.stop reason

/-- The inbox after these writes, the newest first. -/
def after (codec : Codec) (ws : List InboxWrite) : Pending :=
  ws.foldr (fun w p => p.write codec w) {}

/-- The size of what is held. -/
def size (codec : Codec) (changed : HMap Uuid (Option Event)) : Nat :=
  HMap.sum changed fun _ removal => removal.elim 0 codec.jsonLen

/-- The inbox holds what was written. -/
structure Holds (codec : Codec) (ws : List InboxWrite) (p : Pending) : Prop where
  going : p.resync = none
  quiet : ∀ w ∈ ws, w.ends = false
  changed : ∀ d, p.changed.lookup d =
    if ws.any (·.names codec d) then some (ws.filterMap (·.removal codec d)).head? else none
  bytes : p.heldBytes = size codec p.changed
  few : p.changed.keys.length ≤ maxSyncEvents
  small : p.heldBytes ≤ maxHeldBytes

/-- The sync must end, and nothing is held for it. -/
structure Ended (p : Pending) : Prop where
  resync : p.resync.isSome
  changed : p.changed = ∅
  bytes : p.heldBytes = 0

/-- A write that has to end the sync: by its kind, or because what it names does
not fit next to what is held. -/
def Overfills (codec : Codec) (p : Pending) (w : InboxWrite) : Prop :=
  w.ends = true ∨ ∃ d, w.names codec d = true ∧
    (((p.changed.lookup d).isNone ∧ maxSyncEvents ≤ p.changed.keys.length) ∨
      maxHeldBytes < size codec (p.changed.insert d (w.removal codec d)))

theorem ended_stop (p : Pending) (reason : String) : (p.stop reason).Ended := ⟨rfl, rfl, rfl⟩

/-- What a write does: it ends the sync, it names no artifact, or it holds the one it
names. -/
theorem write_cases (codec : Codec) (p : Pending) (w : InboxWrite) :
    (∃ reason, w.ends = true ∧ p.write codec w = p.stop reason) ∨
      (w.ends = false ∧ (∀ d, w.names codec d = false) ∧ p.write codec w = p) ∨
      ∃ d, w.ends = false ∧ (∀ d', w.names codec d' = true ↔ d' = d) ∧
        p.write codec w = p.hold codec d (w.removal codec d) := by
  cases w with
  | resync reason => exact .inl ⟨reason, rfl, rfl⟩
  | signal stored =>
      unfold write signal InboxWrite.ends isResyncKind
      dsimp only
      by_cases hredaction : stored.event.kind = kindRedaction
      · exact .inl ⟨_, by rw [beq_iff_eq.2 hredaction]; rfl, if_pos hredaction⟩
      · by_cases haccess : stored.event.kind ∈ accessKinds
        · exact .inl ⟨_, by rw [decide_eq_true haccess, Bool.or_true],
            (if_neg hredaction).trans (if_pos haccess)⟩
        · have hquiet : (stored.event.kind == kindRedaction ||
              decide (stored.event.kind ∈ accessKinds)) = false := by
            rw [beq_eq_false_iff_ne.2 hredaction, decide_eq_false haccess]
            rfl
          rw [if_neg hredaction, if_neg haccess]
          refine .inr ?_
          unfold InboxWrite.names InboxWrite.removal
          dsimp only
          cases hd : artifactId codec stored.event with
          | none => exact .inl ⟨hquiet, fun d => rfl, rfl⟩
          | some d =>
              refine .inr ⟨d, hquiet, fun d' => ?_, ?_⟩
              · rw [decide_eq_true_eq, Option.some.injEq]
                exact eq_comm
              · dsimp only
                simp only [true_and]

theorem Ended.write (h : p.Ended) (w : InboxWrite) : (p.write codec w).Ended := by
  rcases write_cases codec p w with ⟨reason, -, hw⟩ | ⟨-, -, hw⟩ | ⟨d, -, -, hw⟩
  · rw [hw]
    exact ended_stop p reason
  · rw [hw]
    exact h
  · rw [hw]
    unfold hold
    rw [if_pos h.resync]
    exact h

/-- The first reason stays. -/
theorem resync_write {reason : String} (h : p.resync = some reason) (w : InboxWrite) :
    (p.write codec w).resync = some reason := by
  rcases write_cases codec p w with ⟨other, -, hw⟩ | ⟨-, -, hw⟩ | ⟨d, -, -, hw⟩
  · rw [hw]
    show some (p.resync.getD other) = some reason
    rw [h]
    rfl
  · rw [hw, h]
  · rw [hw]
    unfold hold
    rw [if_pos (by rw [h]; rfl), h]

/-- A write removes only what it names. -/
theorem removal_eq_none (h : w.names codec d = false) : w.removal codec d = none := by
  cases w with
  | resync reason => rfl
  | signal stored =>
      unfold InboxWrite.removal
      dsimp only
      exact if_neg fun hd => of_decide_eq_false h hd.1

/-- One more key at most. -/
theorem length_keys_insert_le {changed : HMap Uuid (Option Event)} {d : Uuid}
    (removal : Option Event) (hfew : changed.keys.length ≤ maxSyncEvents)
    (hroom : ¬((changed.lookup d).isNone ∧ maxSyncEvents ≤ changed.keys.length)) :
    (changed.insert d removal).keys.length ≤ maxSyncEvents := by
  rw [← HMap.card_keySet] at hfew hroom ⊢
  rw [HMap.keySet_insert]
  by_cases hd : d ∈ changed.keySet
  · rw [Finset.insert_eq_of_mem hd]
    exact hfew
  · have hnone : (changed.lookup d).isNone := by
      rw [HMap.mem_keySet] at hd
      simpa using hd
    have hlt : ¬maxSyncEvents ≤ changed.keySet.card := fun hle => hroom ⟨hnone, hle⟩
    rw [Finset.card_insert_of_notMem hd]
    omega

namespace Holds

theorem latest (h : Holds codec ws p) (d : Uuid) :
    (p.changed.lookup d).getD none = (ws.filterMap (·.removal codec d)).head? := by
  rw [h.changed d]
  split
  · rfl
  · next hnone =>
      have hnil : ws.filterMap (·.removal codec d) = [] := by
        refine List.filterMap_eq_nil_iff.2 fun w hw => removal_eq_none ?_
        rw [Bool.eq_false_iff]
        exact fun hnames => hnone (List.any_eq_true.2 ⟨w, hw, hnames⟩)
      rw [hnil]
      rfl

/-- What a write names is held next to the rest. -/
theorem insert (h : Holds codec ws p) {removal : Option Event} {bytes : Nat}
    (hquiet : w.ends = false) (hnames : ∀ d', w.names codec d' = true ↔ d' = d)
    (hlatest : ((w :: ws).filterMap (·.removal codec d)).head? = removal)
    (hroom : ¬((p.changed.lookup d).isNone ∧ maxSyncEvents ≤ p.changed.keys.length))
    (hbytes : bytes = size codec (p.changed.insert d removal)) (hsmall : bytes ≤ maxHeldBytes) :
    Holds codec (w :: ws)
      { p with changed := p.changed.insert d removal, heldBytes := bytes } where
  going := h.going
  quiet := List.forall_mem_cons.2 ⟨hquiet, h.quiet⟩
  changed d' := by
    rw [HMap.lookup_insert_ite, List.any_cons]
    by_cases hd : d' = d
    · rw [if_pos hd, (hnames d').2 hd, Bool.true_or, if_pos rfl, hd, hlatest]
    · have hother : w.names codec d' = false := by
        rw [Bool.eq_false_iff, ne_eq, hnames d']
        exact hd
      rw [if_neg hd, hother, Bool.false_or, List.filterMap_cons_none (removal_eq_none hother)]
      exact h.changed d'
  bytes := hbytes
  few := length_keys_insert_le removal h.few hroom
  small := hsmall

theorem hold (h : Holds codec ws p) (hquiet : w.ends = false)
    (hnames : ∀ d', w.names codec d' = true ↔ d' = d) :
    Holds codec (w :: ws) (p.hold codec d (w.removal codec d)) ∨
      (p.hold codec d (w.removal codec d)).Ended ∧ Overfills codec p w := by
  have hd := (hnames d).2 rfl
  have hold := HMap.sum_eq_add_sum_erase p.changed d fun _ removal => removal.elim 0 codec.jsonLen
  have hsize := h.bytes
  unfold size at hsize
  unfold Pending.hold
  rw [if_neg (by rw [h.going]; exact Bool.false_ne_true)]
  split
  · next hfull => exact .inr ⟨ended_stop p _, .inr ⟨d, hd, .inl hfull⟩⟩
  · next hroom =>
      cases hremoval : w.removal codec d with
      | none =>
          refine .inl (h.insert hquiet hnames ?_ hroom ?_ h.small)
          · rw [List.filterMap_cons_none hremoval, ← h.latest d]
          · unfold size
            rw [HMap.sum_insert, hsize, hold]
            cases p.changed.lookup d <;> rfl
      | some removal =>
          have hheld : p.heldBytes -
              ((p.changed.lookup d).getD none).elim 0 codec.jsonLen +
                codec.jsonLen removal =
              size codec (p.changed.insert d (some removal)) := by
            unfold size
            rw [HMap.sum_insert, hsize, hold]
            cases p.changed.lookup d with
            | none => simp [Nat.add_comm]
            | some old => cases old <;> simp <;> omega
          dsimp only
          split
          · next hlarge =>
              rw [hheld, ← hremoval] at hlarge
              exact .inr ⟨ended_stop p _, .inr ⟨d, hd, .inr hlarge⟩⟩
          · next hsmall =>
              refine .inl
                (h.insert hquiet hnames ?_ hroom hheld (Nat.not_lt.1 hsmall))
              rw [List.filterMap_cons_some hremoval]
              rfl

theorem write (h : Holds codec ws p) (w : InboxWrite) :
    Holds codec (w :: ws) (p.write codec w) ∨
      (p.write codec w).Ended ∧ Overfills codec p w := by
  rcases write_cases codec p w with ⟨reason, hends, hw⟩ | ⟨hquiet, hnames, hw⟩ | ⟨d, hquiet, hnames, hw⟩
  · rw [hw]
    exact .inr ⟨ended_stop p reason, .inl hends⟩
  · rw [hw]
    refine .inl { h with quiet := List.forall_mem_cons.2 ⟨hquiet, h.quiet⟩, changed := ?_ }
    intro d
    rw [List.any_cons, hnames d, Bool.false_or,
      List.filterMap_cons_none (removal_eq_none (hnames d))]
    exact h.changed d
  · rw [hw]
    exact h.hold hquiet hnames

end Holds

theorem holds_or_ended (codec : Codec) (ws : List InboxWrite) :
    Holds codec ws (after codec ws) ∨ (after codec ws).Ended := by
  induction ws with
  | nil =>
      refine .inl ⟨rfl, fun w hw => absurd hw List.not_mem_nil, fun d => rfl, rfl, ?_, ?_⟩
      · exact Nat.zero_le _
      · exact Nat.zero_le _
  | cons w ws ih =>
      rcases ih with hholds | hended
      · exact (hholds.write w).imp_right And.left
      · exact .inr (hended.write w)

/-- However many changes, removals and losses are written to an inbox, in whatever
order: it holds exactly what was named, within the bounds, or it tells the sync to
end. It does so at a write that overfills it and no earlier, and once it does, it
says why for good. -/
theorem inbox_exact_or_ended (codec : Codec) (ws : List InboxWrite) :
    (Holds codec ws (after codec ws) ∨ (after codec ws).Ended) ∧
      (∀ w, (after codec ws).resync = none →
        (after codec (w :: ws)).resync.isSome → Overfills codec (after codec ws) w) ∧
      ∀ later reason, (after codec ws).resync = some reason →
        (after codec (later ++ ws)).resync = some reason := by
  refine ⟨holds_or_ended codec ws, ?_, ?_⟩
  · intro w hgoing hends
    rcases holds_or_ended codec ws with hholds | hended
    · rcases hholds.write w with hnext | ⟨-, hover⟩
      · have hnone : (after codec (w :: ws)).resync = none := hnext.going
        rw [hnone] at hends
        cases hends
      · exact hover
    · have hsome := hended.resync
      rw [hgoing] at hsome
      cases hsome
  · intro later reason h
    induction later with
    | nil => exact h
    | cons w later ih => exact resync_write ih w

end Pending

end Buzz.Relay
