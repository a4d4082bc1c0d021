import Buzz.Audit.Service
import Buzz.Lib.SortedBy
import Buzz.Proofs.AuditEncoding
import Mathlib.Data.List.Chain

/-!
# What the audit chain gives away

The rows of a community are linked from the first one on, each by the hash of
the row before it, and numbered without a gap. So every part of the chain
verifies. Conversely the last row of a range that verifies determines the row
before it, that one the next, and so on: whatever is found in front of a row
that was not touched is what was logged there. Nothing says where the range has
to begin, though.
-/

namespace Buzz.Audit

open Buzz.Lib (Sha256.digest SortedBy)

/-- The rows of a community in the order they were logged. -/
def chainRows (log : AuditLog) (community : Uuid) : List AuditRow :=
  (log.rows.filter fun r => r.communityId == community).reverse

/-- What the hash of a row is computed of. -/
def rowEncoding (r : AuditRow) : Option (List UInt8) :=
  match rowToAuditEntry r with
  | .ok entry => (encoding entry).toOption
  | .error _ => none

/-- The row carries the hash of what it says. -/
def Sealed (r : AuditRow) : Prop :=
  ∃ bytes, rowEncoding r = some bytes ∧ Sha256.digest bytes = r.hash.val

/-- Named by the row after it. -/
def Links (a b : AuditRow) : Prop := b.prevHash = some a.hash

/-- An unbroken chain from the first row on: linked, numbered and sealed. -/
structure Chain (rows : List AuditRow) : Prop where
  links : rows.IsChain Links
  numbered : rows.IsChain fun a b => b.seq.toInt = a.seq.toInt + 1
  first : ∀ r ∈ rows.head?, r.prevHash = none ∧ r.seq.toInt = 1
  sealed : ∀ r ∈ rows, Sealed r
  version : ∀ r ∈ rows, r.hashVersion = currentHashVersion

/-! ## The loop of the verification -/

variable {r : AuditRow}

theorem rowToAuditEntry_ok {e : AuditEntry} (h : rowToAuditEntry r = .ok e) :
    r.action = e.action.asStr ∧ r.detail = some e.detail ∧ e.communityId = r.communityId ∧
      e.seq = r.seq ∧ e.hashVersion = r.hashVersion ∧ e.hash = r.hash ∧ e.prevHash = r.prevHash ∧
      e.actorPubkey = r.actorPubkey ∧ e.objectId = r.objectId ∧ e.createdAt = r.createdAt := by
  unfold rowToAuditEntry at h
  split at h
  · cases h
  · next action haction =>
      split at h
      · cases h
      · next detail hdetail =>
          cases h
          have htext := List.find?_some haction
          exact ⟨(beq_iff_eq.1 htext).symm, hdetail, rfl, rfl, rfl, rfl, rfl, rfl, rfl, rfl⟩

theorem rowEncoding_eq_some_iff {bytes : List UInt8} :
    rowEncoding r = some bytes ↔
      ∃ e, rowToAuditEntry r = .ok e ∧ encoding e = .ok bytes := by
  unfold rowEncoding
  cases rowToAuditEntry r with
  | error e => simp
  | ok e => cases h : encoding e <;> simp [h, Except.toOption]

theorem sealed_iff {e : AuditEntry} (h : rowToAuditEntry r = .ok e) :
    Sealed r ↔ computeHash e = .ok e.hash.val := by
  obtain ⟨-, -, -, -, -, hhash, -⟩ := rowToAuditEntry_ok h
  unfold Sealed computeHash
  simp only [rowEncoding_eq_some_iff, h, Except.ok.injEq, exists_eq_left', ← hhash]
  cases h : encoding e <;> simp [Except.map]

/-- One row of the loop. -/
theorem verifyRows_cons_ok_iff (expected : Option Bytes) (r : AuditRow) (rest : List AuditRow) :
    verifyRows expected (r :: rest) = .ok () ↔
      (∀ x ∈ expected, r.prevHash = some x) ∧ Sealed r ∧
        verifyRows (some r.hash) rest = .ok () := by
  rw [verifyRows]
  cases hentry : rowToAuditEntry r with
  | error e =>
      constructor
      · intro h
        cases h
      · rintro ⟨-, ⟨bytes, hbytes, -⟩, -⟩
        rw [rowEncoding, hentry] at hbytes
        cases hbytes
  | ok e =>
      obtain ⟨-, -, -, -, -, hhash, hprev, -⟩ := rowToAuditEntry_ok hentry
      have hexpected : (∀ x ∈ expected, r.prevHash = some x) ↔
          ¬(expected.isSome ∧ r.prevHash ≠ expected) := by
        cases expected with
        | none => simp
        | some x => simp
      simp only [hprev, hexpected, sealed_iff hentry, ← hhash]
      split
      · next h =>
          constructor
          · intro heq
            cases heq
          · rintro ⟨hno, -⟩
            exact (hno h).elim
      · next h =>
          cases computeHash e with
          | error err => simp
          | ok computed =>
              simp only [Except.ok.injEq]
              split
              · next hne => simp [hne]
              · next heq => simp [h, not_not.1 heq]

theorem verifyRows_eq_ok_iff (expected : Option Bytes) (rows : List AuditRow) :
    verifyRows expected rows = .ok () ↔
      (∀ x ∈ expected, ∀ r ∈ rows.head?, r.prevHash = some x) ∧ (∀ r ∈ rows, Sealed r) ∧
        rows.IsChain Links := by
  induction rows generalizing expected with
  | nil => simp [verifyRows]
  | cons r rest ih =>
      rw [verifyRows_cons_ok_iff, ih, List.isChain_cons, List.forall_mem_cons]
      have hlinks : (∀ x ∈ some r.hash, ∀ s ∈ rest.head?, s.prevHash = some x) ↔
          ∀ s ∈ rest.head?, Links r s := by
        simp [Links]
      have hhead : (∀ x ∈ expected, ∀ s ∈ (r :: rest).head?, s.prevHash = some x) ↔
          ∀ x ∈ expected, r.prevHash = some x := by
        simp
      rw [hlinks, hhead]
      tauto

theorem verifyChain_eq_true_iff (log : AuditLog) (community : Uuid) (fromSeq toSeq : Int64) :
    verifyChain log community fromSeq toSeq = .ok true ↔
      rangeRows log community fromSeq toSeq ≠ [] ∧
        (∀ r ∈ rangeRows log community fromSeq toSeq, Sealed r) ∧
        (rangeRows log community fromSeq toSeq).IsChain Links := by
  have hrows := verifyRows_eq_ok_iff none (rangeRows log community fromSeq toSeq)
  unfold verifyChain
  cases hlist : rangeRows log community fromSeq toSeq with
  | nil => simp
  | cons r rest =>
      rw [hlist] at hrows
      simp only [List.isEmpty_cons, Bool.false_eq_true, if_false]
      have hok : (verifyRows none (r :: rest)).map (fun _ => true) = .ok true ↔
          verifyRows none (r :: rest) = .ok () := by
        cases verifyRows none (r :: rest) <;> simp [Except.map]
      rw [hok, hrows]
      simp

/-! ## The last row determines those before it -/

theorem row_eq_of_encoding {s : AuditRow} {bytes : List UInt8}
    (hversion : r.hashVersion = currentHashVersion)
    (hcommunity : s.communityId = r.communityId) (hhash : s.hash = r.hash)
    (hr : rowEncoding r = some bytes) (hs : rowEncoding s = some bytes) :
    s = r := by
  obtain ⟨e, he, hok⟩ := rowEncoding_eq_some_iff.1 hr
  obtain ⟨e', he', hok'⟩ := rowEncoding_eq_some_iff.1 hs
  obtain ⟨haction, hdetail, hcomm, hseq, hver, -, hprev, hactor, hobject, hcreated⟩ :=
    rowToAuditEntry_ok he
  obtain ⟨haction', hdetail', hcomm', hseq', hver', -, hprev', hactor', hobject', hcreated'⟩ :=
    rowToAuditEntry_ok he'
  obtain ⟨hversion', hsame⟩ := encoding_inj (hver.trans hversion)
    (hcomm'.trans (hcommunity.trans hcomm.symm)) hok hok'
  have htime := hsame.createdAt
  rw [hcreated, hcreated', toStoragePrecision_eq_self r.stored,
    toStoragePrecision_eq_self s.stored] at htime
  have hactionEq : s.action = r.action := by rw [haction, haction', hsame.action]
  have hdetailEq : s.detail = r.detail := by rw [hdetail, hdetail', hsame.detail]
  have hseqEq : s.seq = r.seq := by rw [← hseq, ← hseq', hsame.seq]
  have hprevEq : s.prevHash = r.prevHash := by rw [← hprev, ← hprev', hsame.prevHash]
  have hactorEq : s.actorPubkey = r.actorPubkey := by rw [← hactor, ← hactor', hsame.actorPubkey]
  have hobjectEq : s.objectId = r.objectId := by rw [← hobject, ← hobject', hsame.objectId]
  have hverEq : s.hashVersion = r.hashVersion := by rw [hversion, ← hver', hversion']
  cases r
  cases s
  simp only at *
  subst hactionEq hdetailEq hseqEq hprevEq hactorEq hobjectEq hverEq hcommunity hhash htime
  rfl

/-- No two of these messages collide. -/
def NoCollision (rows found : List AuditRow) : Prop :=
  ∀ r ∈ rows, ∀ s ∈ found, ∀ a ∈ rowEncoding r, ∀ b ∈ rowEncoding s,
    Sha256.digest a = Sha256.digest b → a = b

/-- Rows with one hash are one row. -/
theorem row_eq_of_hash {s : AuditRow}
    (hversion : r.hashVersion = currentHashVersion)
    (hcommunity : s.communityId = r.communityId) (hr : Sealed r) (hs : Sealed s)
    (hhash : s.hash = r.hash) (hno : NoCollision [r] [s]) : s = r := by
  obtain ⟨a, ha, hda⟩ := hr
  obtain ⟨b, hb, hdb⟩ := hs
  have hab : a = b := by
    refine hno r List.mem_cons_self s List.mem_cons_self a ha b hb ?_
    rw [hda, hdb, hhash]
  subst hab
  exact row_eq_of_encoding hversion hcommunity hhash ha hb

/-- What is found in front of a row that was logged, and linked to it, is what
was logged in front of it. -/
theorem isSuffix_of_links {found before after : List AuditRow}
    (hchain : Chain (before ++ r :: after))
    (hlinks : (found ++ [r]).IsChain Links) (hsealed : ∀ s ∈ found, Sealed s)
    (hcommunity : ∀ s ∈ found, ∀ p ∈ before, s.communityId = p.communityId)
    (hno : NoCollision before found) : found <:+ before := by
  induction found using List.reverseRecOn generalizing before after r with
  | nil => exact List.nil_suffix
  | append_singleton found s ih =>
      have hprev : Links s r := by
        rw [List.append_assoc] at hlinks
        exact (List.isChain_append.1 hlinks).2.1.rel
      -- the row was not the first one, since it names another
      rcases List.eq_nil_or_concat' before with rfl | ⟨before, p, rfl⟩
      · have hfirst := (hchain.first r rfl).1
        rw [hprev] at hfirst
        cases hfirst
      · have hp : p ∈ before ++ [p] := List.mem_append_right _ List.mem_cons_self
        have hs : s ∈ found ++ [s] := List.mem_append_right _ List.mem_cons_self
        have hmem : p ∈ before ++ [p] ++ r :: after := List.mem_append_left _ hp
        have hpr : Links p r := by
          have hlinks' := hchain.links
          rw [List.append_assoc] at hlinks'
          exact (List.isChain_append.1 hlinks').2.1.rel
        have hhash : s.hash = p.hash := Option.some.inj (hprev.symm.trans hpr)
        have hsp : s = p := row_eq_of_hash (hchain.version p hmem) (hcommunity s hs p hp)
          (hchain.sealed p hmem) (hsealed s hs) hhash (by
            intro r' hr' s' hs'
            rw [List.mem_singleton.1 hr', List.mem_singleton.1 hs']
            exact hno p hp s hs)
        subst hsp
        have hbefore : Chain (before ++ s :: (r :: after)) := by rwa [List.append_assoc] at hchain
        have hrest : found <:+ before := by
          refine ih hbefore (List.isChain_append.1 hlinks).1 ?_ ?_ ?_
          · exact fun t ht => hsealed t (List.mem_append_left _ ht)
          · exact fun t ht q hq =>
              hcommunity t (List.mem_append_left _ ht) q (List.mem_append_left _ hq)
          · exact fun q hq t ht => hno q (List.mem_append_left _ hq) t (List.mem_append_left _ ht)
        obtain ⟨front, rfl⟩ := hrest
        exact ⟨front, by rw [List.append_assoc]⟩

/-! ## Ranges of a chain -/

def inRange (fromSeq toSeq : Int64) (r : AuditRow) : Bool := fromSeq ≤ r.seq && r.seq ≤ toSeq

variable {fromSeq toSeq : Int64}

theorem inRange_eq_true_iff :
    inRange fromSeq toSeq r = true ↔
      fromSeq.toInt ≤ r.seq.toInt ∧ r.seq.toInt ≤ toSeq.toInt := by
  rw [inRange, Bool.and_eq_true, decide_eq_true_iff, decide_eq_true_iff, Int64.le_iff_toInt_le,
    Int64.le_iff_toInt_le]

variable {rows : List AuditRow}

theorem pairwise_of_numbered
    (h : rows.IsChain fun a b => b.seq.toInt = a.seq.toInt + 1) :
    rows.Pairwise fun a b => a.seq.toInt < b.seq.toInt := by
  have hlt : rows.IsChain fun a b => a.seq.toInt < b.seq.toInt :=
    h.imp fun a b hab => by omega
  have : IsTrans AuditRow fun a b => a.seq.toInt < b.seq.toInt :=
    ⟨fun a b c hab hbc => Int.lt_trans hab hbc⟩
  exact List.isChain_iff_pairwise.1 hlt

/-- The part of a chain in a range of numbers is a chain again. -/
theorem links_filter_inRange (fromSeq toSeq : Int64)
    (hlinks : rows.IsChain Links)
    (hnumbered : rows.IsChain fun a b => b.seq.toInt = a.seq.toInt + 1) :
    (rows.filter (inRange fromSeq toSeq)).IsChain Links := by
  induction rows with
  | nil => exact List.isChain_nil
  | cons r rest ih =>
      have hrest := ih (List.isChain_cons.1 hlinks).2 (List.isChain_cons.1 hnumbered).2
      rw [List.filter_cons]
      split
      · next hr =>
          refine List.isChain_cons.2 ⟨?_, hrest⟩
          cases rest with
          | nil =>
              intro s hs
              cases hs
          | cons s rest =>
              have hsr := (List.isChain_cons.1 hnumbered).1 s rfl
              rw [List.filter_cons]
              split
              · intro t ht
                cases ht
                exact (List.isChain_cons.1 hlinks).1 s rfl
              · next hs =>
                  -- the range ends at `r`, so nothing later is in it
                  have hnone : rest.filter (inRange fromSeq toSeq) = [] := by
                    refine List.filter_eq_nil_iff.2 fun t ht => ?_
                    have hpairs := pairwise_of_numbered (List.isChain_cons.1 hnumbered).2
                    have hst := (List.pairwise_cons.1 hpairs).1 t ht
                    rw [inRange_eq_true_iff] at hr hs ⊢
                    omega
                  rw [hnone]
                  intro t ht
                  cases ht
      · exact hrest

/-- Sorting what was logged newest first turns it around. -/
theorem insertionSort_eq_reverse
    (h : rows.Pairwise fun a b => b.seq.toInt < a.seq.toInt) :
    rows.insertionSort (fun a b => a.seq ≤ b.seq) = rows.reverse := by
  have : Std.Total fun a b : AuditRow => a.seq ≤ b.seq :=
    ⟨fun a b => by simp only [Int64.le_iff_toInt_le]; exact Int.le_total _ _⟩
  have : IsTrans AuditRow fun a b => a.seq ≤ b.seq :=
    ⟨fun a b c hab hbc => by
      simp only [Int64.le_iff_toInt_le] at hab hbc ⊢
      exact Int.le_trans hab hbc⟩
  have hreverse : SortedBy (fun r : AuditRow => r.seq.toInt) rows.reverse :=
    List.pairwise_reverse.2 h
  have hperm := List.perm_insertionSort (fun a b : AuditRow => a.seq ≤ b.seq) rows
  have hsorted : SortedBy (fun r : AuditRow => r.seq.toInt)
      (rows.insertionSort fun a b => a.seq ≤ b.seq) := by
    refine SortedBy.of_le ((List.pairwise_insertionSort _ rows).imp Int64.le_iff_toInt_le.1) ?_
    rw [(hperm.map _).nodup_iff]
    exact List.pairwise_map.2 (h.imp fun hlt heq => by omega)
  refine hsorted.ext hreverse fun r => ?_
  rw [hperm.mem_iff, List.mem_reverse]

variable {community : Uuid}

theorem Chain.newestFirst {log : AuditLog} (h : Chain (chainRows log community)) :
    (log.rows.filter fun r => r.communityId == community).Pairwise
      fun a b => b.seq.toInt < a.seq.toInt := by
  have := pairwise_of_numbered h.numbered
  rwa [chainRows, List.pairwise_reverse] at this

theorem rangeRows_of_newestFirst {log : AuditLog}
    (h : (log.rows.filter fun r => r.communityId == community).Pairwise
      fun a b => b.seq.toInt < a.seq.toInt) (fromSeq toSeq : Int64) :
    rangeRows log community fromSeq toSeq =
      (chainRows log community).filter (inRange fromSeq toSeq) := by
  have hfilter : (log.rows.filter fun r => r.communityId == community &&
      (fromSeq ≤ r.seq && r.seq ≤ toSeq)) =
      (log.rows.filter fun r => r.communityId == community).filter (inRange fromSeq toSeq) := by
    rw [List.filter_filter]
    refine List.filter_congr fun r _ => ?_
    rw [Bool.and_comm, inRange]
  rw [rangeRows, hfilter, insertionSort_eq_reverse (h.filter _), chainRows, List.filter_reverse]

theorem rangeRows_of_chain {log : AuditLog}
    (h : Chain (chainRows log community)) (fromSeq toSeq : Int64) :
    rangeRows log community fromSeq toSeq =
      (chainRows log community).filter (inRange fromSeq toSeq) :=
  rangeRows_of_newestFirst h.newestFirst fromSeq toSeq

theorem chainHead_of_chain {log : AuditLog}
    (h : Chain (chainRows log community)) :
    chainHead log community = (chainRows log community).getLast? := by
  have hsorted := h.newestFirst.imp fun {a b} hlt =>
    (Int64.le_iff_toInt_le.2 (Int.le_of_lt hlt) : b.seq ≤ a.seq)
  rw [chainHead, hsorted.insertionSort_eq, chainRows, List.getLast?_reverse]

theorem mem_rangeRows {log : AuditLog}
    (h : r ∈ rangeRows log community fromSeq toSeq) :
    r.communityId = community ∧ inRange fromSeq toSeq r = true := by
  have hmem := List.mem_filter.1 ((List.mem_insertionSort _).1 h)
  rw [Bool.and_eq_true, beq_iff_eq] at hmem
  exact hmem.2

/-! ## What `log` appends -/

theorem fromStr_asStr (a : AuditAction) : AuditAction.fromStr a.asStr = some a := by
  cases a <;> decide

theorem rowToAuditEntry_toRow (e : AuditEntry) (h : e.createdAt.nanos % 1000 = 0) :
    rowToAuditEntry (e.toRow h) = .ok e := by
  simp only [rowToAuditEntry, AuditEntry.toRow, fromStr_asStr]

variable {log' : AuditLog} {row : AuditRow}

theorem insert_eq_some {pg : Postgres} {log : AuditLog}
    (hreads : ∀ d ∈ row.detail, pg.ReadsBack d)
    (h : pg.insert log row = some log') :
    log'.rows = row :: log.rows ∧ log.rows.length < 9223372036854775807 := by
  unfold Postgres.insert at h
  split at h
  · cases h
  · next hcolumn =>
      have hstored : { row with detail := (row.detail.map pg.column).join } = row := by
        cases row with
        | mk _ _ _ _ _ _ _ detail _ _ _ =>
            cases detail with
            | none => rfl
            | some d =>
                simp only [Option.map_some] at hcolumn
                cases hd : pg.column d with
                | none => exact (hcolumn (congrArg some hd)).elim
                | some d' =>
                    have := hreads d rfl d' hd
                    subst this
                    simp [hd]
      dsimp only at h
      split at h
      · cases h
      · split at h
        · cases h
        · split at h
          · next htakes =>
              cases h
              exact ⟨congrArg (· :: log.rows) hstored, pg.room log _ htakes⟩
          · cases h

/-- A call leaves the table as it is, or appends a row that follows the last
one of its community. -/
theorem log_cases (pg : Postgres) (table : AuditLog) (call : LogCall)
    (hreads : pg.ReadsBack call.entry.detail) :
    (log pg table call).2 = table ∨
      ∃ row, (log pg table call).2.rows = row :: table.rows ∧
        table.rows.length < 9223372036854775807 ∧ Sealed row ∧
        row.hashVersion = currentHashVersion ∧ row.communityId = call.entry.communityId ∧
        row.prevHash = (chainHead table call.entry.communityId).map AuditRow.hash ∧
        row.seq = ((chainHead table call.entry.communityId).map AuditRow.seq).getD 0 + 1 := by
  unfold log
  split
  · exact .inl rfl
  · dsimp only
    split
    · exact .inl rfl
    · next bytes hbytes =>
        split
        · next table' hinsert =>
            obtain ⟨hrows, hroom⟩ := insert_eq_some (by
              intro d hd
              cases hd
              exact hreads) hinsert
            refine .inr ⟨_, hrows, hroom, ⟨bytes, ?_, rfl⟩, rfl, rfl, rfl, rfl⟩
            exact rowEncoding_eq_some_iff.2 ⟨_, rowToAuditEntry_toRow _ _, hbytes⟩
        · exact .inl rfl

theorem seq_getLast (h : Chain rows) (hr : rows.getLast? = some r) :
    r.seq.toInt = rows.length := by
  have hnumbered := h.numbered
  have hfirst := h.first
  clear h
  induction rows using List.reverseRecOn generalizing r with
  | nil => cases hr
  | append_singleton rows s ih =>
      rw [List.getLast?_concat] at hr
      cases hr
      rcases List.eq_nil_or_concat' rows with rfl | ⟨rows, p, rfl⟩
      · exact (hfirst s rfl).2
      · have hp : p.seq.toInt = ((rows ++ [p]).length : Int) := by
          refine ih (List.getLast?_concat ..) (List.isChain_append.1 hnumbered).1 ?_
          intro t ht
          refine hfirst t ?_
          rw [List.head?_append, Option.mem_def.1 ht]
          rfl
        have hstep : s.seq.toInt = p.seq.toInt + 1 := by
          rw [List.append_assoc] at hnumbered
          exact (List.isChain_append.1 hnumbered).2.1.rel
        rw [hstep, hp, List.length_append, List.length_append, List.length_append,
          List.length_singleton, List.length_singleton, Int.natCast_add]
        rfl

theorem chainRows_cons {log : AuditLog} (h : log'.rows = row :: log.rows)
    (community : Uuid) :
    chainRows log' community =
      if row.communityId = community then chainRows log community ++ [row]
      else chainRows log community := by
  unfold chainRows
  rw [h, List.filter_cons]
  by_cases heq : row.communityId = community
  · rw [if_pos (beq_iff_eq.2 heq), if_pos heq, List.reverse_cons]
  · rw [if_neg (fun hb => heq (beq_iff_eq.1 hb)), if_neg heq]

theorem length_chainRows_le (log : AuditLog) (community : Uuid) :
    (chainRows log community).length ≤ log.rows.length := by
  rw [chainRows, List.length_reverse]
  exact List.length_filter_le _ _

/-- A row that follows the last one goes on with the chain. -/
theorem Chain.append (h : Chain rows)
    (hroom : rows.length < 9223372036854775807) (hsealed : Sealed row)
    (hversion : row.hashVersion = currentHashVersion)
    (hprev : row.prevHash = rows.getLast?.map AuditRow.hash)
    (hseq : row.seq = (rows.getLast?.map AuditRow.seq).getD 0 + 1) :
    Chain (rows ++ [row]) := by
  have hnumber : row.seq.toInt = rows.length + 1 := by
    rw [hseq, Int64.toInt_add]
    cases hlast : rows.getLast? with
    | none =>
        rw [List.getLast?_eq_none_iff.1 hlast]
        rfl
    | some p =>
        have hp := seq_getLast h hlast
        show (p.seq.toInt + 1).bmod (2 ^ 64) = _
        rw [hp]
        exact Int.bmod_eq_of_le (by omega) (by omega)
  refine ⟨?_, ?_, ?_, ?_, ?_⟩
  · refine List.isChain_append.2 ⟨h.links, List.isChain_singleton row, ?_⟩
    intro p hp s hs
    cases hs
    rw [Links, hprev, Option.mem_def.1 hp]
    rfl
  · refine List.isChain_append.2 ⟨h.numbered, List.isChain_singleton row, ?_⟩
    intro p hp s hs
    cases hs
    rw [hnumber, seq_getLast h hp]
  · intro r hr
    cases rows with
    | nil =>
        cases hr
        exact ⟨hprev, hnumber⟩
    | cons first rest => exact h.first r hr
  · intro r hr
    rcases List.mem_append.1 hr with hr | hr
    · exact h.sealed r hr
    · rw [List.mem_singleton.1 hr]
      exact hsealed
  · intro r hr
    rcases List.mem_append.1 hr with hr | hr
    · exact h.version r hr
    · rw [List.mem_singleton.1 hr]
      exact hversion

theorem chain_log {pg : Postgres} {table : AuditLog} {call : LogCall}
    (hreads : pg.ReadsBack call.entry.detail) (h : ∀ c, Chain (chainRows table c)) :
    ∀ c, Chain (chainRows (log pg table call).2 c) := by
  intro c
  rcases log_cases pg table call hreads with heq | ⟨row, hrows, hroom, hsealed, hversion, hcomm,
    hprev, hseq⟩
  · rw [heq]
    exact h c
  · rw [chainRows_cons hrows]
    split
    · next hc =>
        have hown : call.entry.communityId = c := hcomm.symm.trans hc
        rw [hown, chainHead_of_chain (h c)] at hprev hseq
        exact (h c).append (Nat.lt_of_le_of_lt (length_chainRows_le table c) hroom) hsealed hversion
          hprev hseq
    · exact h c

theorem chain_logAll (pg : Postgres) {calls : List LogCall}
    (hreads : ∀ call ∈ calls, pg.ReadsBack call.entry.detail) (c : Uuid) :
    Chain (chainRows (logAll pg calls) c) := by
  have hrun : ∀ (calls : List LogCall) (table : AuditLog),
      (∀ call ∈ calls, pg.ReadsBack call.entry.detail) → (∀ c, Chain (chainRows table c)) →
      ∀ c, Chain (chainRows (calls.foldl (fun log' call => (log pg log' call).2) table) c) := by
    intro calls
    induction calls with
    | nil => exact fun table _ h => h
    | cons call calls ih =>
        intro table hreads h
        exact ih _ (fun call' hcall' => hreads call' (List.mem_cons_of_mem _ hcall'))
          (chain_log (hreads call List.mem_cons_self) h)
  refine hrun calls AuditLog.empty hreads (fun c => ?_) c
  exact ⟨List.isChain_nil, List.isChain_nil, nofun, fun _ hr => absurd hr List.not_mem_nil,
    fun _ hr => absurd hr List.not_mem_nil⟩

/-! ## Verification and tampering -/

/-- A part of a chain that reaches to the end of a range is verified. -/
theorem verifyChain_of_isSuffix {log : AuditLog}
    (hchain : Chain (chainRows log community))
    (hne : rangeRows log' community fromSeq toSeq ≠ [])
    (h : rangeRows log' community fromSeq toSeq <:+ rangeRows log community fromSeq toSeq) :
    verifyChain log' community fromSeq toSeq = .ok true := by
  rw [rangeRows_of_chain hchain] at h
  refine (verifyChain_eq_true_iff log' community fromSeq toSeq).2 ⟨hne, ?_, ?_⟩
  · exact fun r hr => hchain.sealed r (List.mem_of_mem_filter (h.mem hr))
  · exact (links_filter_inRange fromSeq toSeq hchain.links hchain.numbered).suffix h

/-- What verifies, and ends with the row that was logged last in the range, was
logged. -/
theorem isSuffix_of_verifyChain {log : AuditLog} {last : AuditRow}
    (hchain : Chain (chainRows log community))
    (hlast : (rangeRows log community fromSeq toSeq).getLast? = some last)
    (hlast' : (rangeRows log' community fromSeq toSeq).getLast? = some last)
    (hno : NoCollision (chainRows log community) (rangeRows log' community fromSeq toSeq))
    (h : verifyChain log' community fromSeq toSeq = .ok true) :
    rangeRows log' community fromSeq toSeq <:+ rangeRows log community fromSeq toSeq := by
  obtain ⟨-, hsealed, hlinks⟩ := (verifyChain_eq_true_iff log' community fromSeq toSeq).1 h
  have hmem : ∀ r ∈ rangeRows log' community fromSeq toSeq,
      r.communityId = community ∧ inRange fromSeq toSeq r = true := fun r hr => mem_rangeRows hr
  rw [rangeRows_of_chain hchain] at hlast ⊢
  generalize rangeRows log' community fromSeq toSeq = found at *
  obtain ⟨found, rfl⟩ := List.getLast?_eq_some_iff.1 hlast'
  -- the rows logged up to the last one of the range
  obtain ⟨front, hfront⟩ := List.getLast?_eq_some_iff.1 hlast
  obtain ⟨before, rest, hrows, hbefore, hrest⟩ := List.filter_eq_append_iff.1 hfront
  obtain ⟨gap, after, rfl, hgap, -, hafter⟩ := List.filter_eq_cons_iff.1 hrest
  have hsplit : chainRows log community = (before ++ gap) ++ last :: after := by
    rw [hrows, List.append_assoc]
  have hown : ∀ p ∈ chainRows log community, p.communityId = community := fun p hp =>
    beq_iff_eq.1 (List.mem_filter.1 (List.mem_reverse.1 hp)).2
  have hsuffix : found <:+ before ++ gap := by
    rw [hsplit] at hchain
    refine isSuffix_of_links hchain hlinks ?_ ?_ ?_
    · exact fun s hs => hsealed s (List.mem_append_left _ hs)
    · intro s hs p hp
      rw [(hmem s (List.mem_append_left _ hs)).1, hown p]
      rw [hsplit]
      exact List.mem_append_left _ hp
    · intro p hp s hs
      refine hno p ?_ s (List.mem_append_left _ hs)
      rw [hsplit]
      exact List.mem_append_left _ hp
  have hfound : found.filter (inRange fromSeq toSeq) = found :=
    List.filter_eq_self.2 fun s hs => (hmem s (List.mem_append_left _ hs)).2
  have hgapNone : gap.filter (inRange fromSeq toSeq) = [] :=
    List.filter_eq_nil_iff.2 fun s hs => hgap s hs
  have hrange := hsuffix.filter (inRange fromSeq toSeq)
  rw [hfound, List.filter_append, hgapNone, List.append_nil, hbefore] at hrange
  rw [hfront]
  obtain ⟨lost, rfl⟩ := hrange
  exact ⟨lost, by rw [List.append_assoc]⟩

/-- Whatever was logged verifies, over every range with a row in it. And a range
of a table that was changed in any way, its last row apart, verifies exactly if
nothing but the first rows of the range is missing. -/
theorem audit_chain_tamper_evident (pg : Postgres) (calls : List LogCall)
    (hreads : ∀ call ∈ calls, pg.ReadsBack call.entry.detail) (community : Uuid)
    (fromSeq toSeq : Int64) :
    (rangeRows (logAll pg calls) community fromSeq toSeq ≠ [] →
      verifyChain (logAll pg calls) community fromSeq toSeq = .ok true) ∧
    ∀ (tampered : AuditLog) (last : AuditRow),
      (rangeRows (logAll pg calls) community fromSeq toSeq).getLast? = some last →
      (rangeRows tampered community fromSeq toSeq).getLast? = some last →
      NoCollision (chainRows (logAll pg calls) community)
        (rangeRows tampered community fromSeq toSeq) →
      (verifyChain tampered community fromSeq toSeq = .ok true ↔
        rangeRows tampered community fromSeq toSeq <:+
          rangeRows (logAll pg calls) community fromSeq toSeq) := by
  have hchain := chain_logAll pg hreads community
  refine ⟨fun hne => verifyChain_of_isSuffix hchain hne (List.suffix_refl _), ?_⟩
  intro tampered last hlast hlast' hno
  refine ⟨isSuffix_of_verifyChain hchain hlast hlast' hno, verifyChain_of_isSuffix hchain ?_⟩
  intro hnil
  rw [hnil] at hlast'
  cases hlast'

/-! ## Two rows, and one -/

/-- A database that keeps every value as it is. -/
def plainPostgres : Postgres where
  column := some
  takes := fun log _ => decide (log.rows.length < 9223372036854775807)
  room := fun _ _ h => of_decide_eq_true h

def loginCall : LogCall where
  entry :=
    { communityId := Uuid.ofByte 7
      action := .authSuccess
      actorPubkey := none
      objectId := none
      detail := .null }
  now := .newYear 123456789 (by decide)
  admitted := true

/-- `DELETE FROM audit_log WHERE seq = $1` -/
def AuditLog.deleteSeq (log : AuditLog) (seq : Int64) : AuditLog where
  rows := log.rows.filter fun r => r.seq != seq
  keys := log.keys.sublist (List.filter_sublist.map _)
  hashes := log.hashes.sublist (List.filter_sublist.map _)

theorem rangeRows_deleteSeq {log : AuditLog}
    (h : Chain (chainRows log community)) (fromSeq toSeq seq : Int64) :
    rangeRows (log.deleteSeq seq) community fromSeq toSeq =
      (rangeRows log community fromSeq toSeq).filter fun r => r.seq != seq := by
  have hrows : ((log.deleteSeq seq).rows.filter fun r => r.communityId == community) =
      (log.rows.filter fun r => r.communityId == community).filter fun r => r.seq != seq := by
    exact List.filter_comm _ _ _
  have hnewest := h.newestFirst.filter fun r => r.seq != seq
  rw [← hrows] at hnewest
  rw [rangeRows_of_newestFirst hnewest, rangeRows_of_chain h, chainRows, hrows, chainRows,
    List.filter_reverse, List.filter_reverse, List.filter_reverse]
  exact congrArg List.reverse (List.filter_comm _ _ _)

theorem chain_loginCalls (n : Nat) (c : Uuid) :
    Chain (chainRows (logAll plainPostgres (List.replicate n loginCall)) c) :=
  chain_logAll plainPostgres (fun _ _ _ hd => (Option.some.inj hd).symm) c

theorem eq_pair_of_map_seq {m n : Int64} (h : rows.map AuditRow.seq = [m, n]) :
    ∃ a b, rows = [a, b] ∧ a.seq = m ∧ b.seq = n := by
  obtain ⟨a, rest, rfl, ha, hrest⟩ := List.map_eq_cons_iff.1 h
  obtain ⟨b, rest, rfl, hb, hrest⟩ := List.map_eq_cons_iff.1 hrest
  rw [List.map_eq_nil_iff.1 hrest]
  exact ⟨a, b, rfl, ha, hb⟩

/-- Where only the first row of two is deleted, the second is what is left. -/
theorem rangeRows_deleteFirst {log : AuditLog}
    (h : Chain (chainRows log community))
    (hrows : (rangeRows log community fromSeq toSeq).map AuditRow.seq = [1, 2]) :
    ∃ a b, rangeRows log community fromSeq toSeq = [a, b] ∧ b.seq = 2 ∧
      rangeRows (log.deleteSeq 1) community fromSeq toSeq = [b] := by
  obtain ⟨a, b, hlist, ha, hb⟩ := eq_pair_of_map_seq hrows
  have hdeleted : [a, b].filter (fun r => r.seq != 1) = [b] := by
    simp [ha, hb]
  refine ⟨a, b, hlist, hb, ?_⟩
  rw [rangeRows_deleteSeq h, hlist, hdeleted]

theorem loginRows_checked :
    (rangeRows (logAll plainPostgres [loginCall, loginCall]) (Uuid.ofByte 7) 1 2).map
        AuditRow.seq = [1, 2] ∧
      verifyChain ((logAll plainPostgres [loginCall, loginCall]).deleteSeq 1) (Uuid.ofByte 7) 1 2 =
        .ok true := by
  decide +kernel

theorem loginRows_seq :
    (rangeRows (logAll plainPostgres [loginCall, loginCall]) (Uuid.ofByte 7) 1 2).map
      AuditRow.seq = [1, 2] :=
  loginRows_checked.1

theorem verify_loginRows_deleted :
    verifyChain ((logAll plainPostgres [loginCall, loginCall]).deleteSeq 1) (Uuid.ofByte 7) 1 2 =
      .ok true :=
  loginRows_checked.2

/-- The first of two rows is deleted, the second is as it was, and the range of
both still verifies. -/
theorem audit_chain_first_row_deleted :
    let logged := logAll plainPostgres [loginCall, loginCall]
    let tampered := logged.deleteSeq 1
    (rangeRows logged (Uuid.ofByte 7) 1 2).map AuditRow.seq = [1, 2] ∧
      (rangeRows tampered (Uuid.ofByte 7) 1 2).map AuditRow.seq = [2] ∧
      (rangeRows tampered (Uuid.ofByte 7) 1 2).getLast? =
        (rangeRows logged (Uuid.ofByte 7) 1 2).getLast? ∧
      verifyChain tampered (Uuid.ofByte 7) 1 2 = .ok true := by
  obtain ⟨a, b, hlist, hb, hleft⟩ := rangeRows_deleteFirst (chain_loginCalls 2 _) loginRows_seq
  refine ⟨loginRows_seq, ?_, ?_, verify_loginRows_deleted⟩
  · show (rangeRows ((logAll plainPostgres (List.replicate 2 loginCall)).deleteSeq 1) _ _ _).map _
      = _
    rw [hleft, List.map_singleton, hb]
  · show (rangeRows ((logAll plainPostgres (List.replicate 2 loginCall)).deleteSeq 1) _ _ _).getLast?
      = (rangeRows (logAll plainPostgres (List.replicate 2 loginCall)) _ _ _).getLast?
    rw [hleft, hlist]
    rfl

/-- The theorem at that table: what is left is what the second call logged. -/
theorem audit_chain_tamper_evident_deleted :
    let logged := logAll plainPostgres [loginCall, loginCall]
    let tampered := logged.deleteSeq 1
    rangeRows tampered (Uuid.ofByte 7) 1 2 <:+ rangeRows logged (Uuid.ofByte 7) 1 2 := by
  intro logged tampered
  obtain ⟨first, last, hlist, -, hleft⟩ :=
    rangeRows_deleteFirst (chain_loginCalls 2 _) loginRows_seq
  have hlast : (rangeRows logged (Uuid.ofByte 7) 1 2).getLast? = some last :=
    (congrArg List.getLast? hlist).trans rfl
  have hlast' : (rangeRows tampered (Uuid.ofByte 7) 1 2).getLast? = some last :=
    (congrArg List.getLast? hleft).trans rfl
  refine ((audit_chain_tamper_evident plainPostgres [loginCall, loginCall]
    (fun _ _ _ hd => (Option.some.inj hd).symm) (Uuid.ofByte 7) 1 2).2 tampered last hlast
    hlast' ?_).1 verify_loginRows_deleted
  unfold NoCollision
  decide +kernel

end Buzz.Audit
