import Buzz.Git.Report
import Buzz.Lib.PktLine

/-!
# Framing of the report

With a side band the report is one stream of pkt-lines, cut into the payloads of
channel 1 wherever the sender likes. The scan reads every payload on its own, so
it finds what lies whole in one payload after whole lines, and nothing else. It
is right where every payload is made of whole lines. A line that is cut it does
not see; and what is no line may look like one to a scan that starts in the
middle of another.
-/

namespace Buzz.Git

open Buzz.Lib (digitByte pktHeader pkt pktGroup pktGroup_cons)

variable {buf rest header payload line inner stdout : List UInt8}
  {lines payloads : List (List UInt8)}

/-! ## The scan -/

theorem pktLinesLoop_congr (f g : Nat) (hf : buf.length ≤ f) (hg : buf.length ≤ g) :
    pktLinesLoop f buf = pktLinesLoop g buf := by
  induction f generalizing g buf with
  | zero =>
      have hnil : buf = [] := List.eq_nil_of_length_eq_zero (by omega)
      subst hnil
      cases g with
      | zero => rfl
      | succ g => rfl
  | succ f ih =>
      cases g with
      | zero =>
          have hnil : buf = [] := List.eq_nil_of_length_eq_zero (by omega)
          subst hnil
          rfl
      | succ g =>
          unfold pktLinesLoop
          split
          · rfl
          · next hlong =>
              have hdrop : ∀ n, 4 ≤ n → (buf.drop n).length ≤ f ∧ (buf.drop n).length ≤ g := by
                intro n hn
                rw [List.length_drop]
                omega
              split
              · rfl
              · next len _ =>
                  split
                  · exact ih g (hdrop 4 (by omega)).1 (hdrop 4 (by omega)).2
                  · split
                    · rfl
                    · rw [ih g (hdrop len (by omega)).1 (hdrop len (by omega)).2]

/-- The scan without its fuel. -/
theorem pktLines_eq (hlong : 4 ≤ buf.length) :
    pktLines buf =
      match pktLength (buf.take 4) with
      | none => []
      | some len =>
          if len < 4 then pktLines (buf.drop 4)
          else if buf.length < len then []
          else (buf.take len).drop 4 :: pktLines (buf.drop len) := by
  obtain ⟨fuel, hfuel⟩ : ∃ fuel, buf.length = fuel + 1 := ⟨buf.length - 1, by omega⟩
  have hdrop : ∀ n, 4 ≤ n → pktLinesLoop fuel (buf.drop n) = pktLines (buf.drop n) := by
    intro n hn
    refine pktLinesLoop_congr _ _ ?_ (Nat.le_refl _)
    rw [List.length_drop]
    omega
  have hstart : pktLines buf = pktLinesLoop (fuel + 1) buf := by
    unfold pktLines
    rw [hfuel]
  rw [hstart, pktLinesLoop, if_neg (by omega)]
  cases hlen : pktLength (buf.take 4) with
  | none => rfl
  | some len =>
      dsimp only
      rw [hdrop 4 (Nat.le_refl 4)]
      split
      · rfl
      · split
        · rfl
        · rw [hdrop len (by omega)]

theorem pktLines_of_short (h : buf.length < 4) : pktLines buf = [] := by
  unfold pktLines
  cases hlen : buf.length with
  | zero => rfl
  | succ n =>
      unfold pktLinesLoop
      exact if_pos h

theorem pktLines_control {n : Nat} (hlen : header.length = 4) (h : pktLength header = some n)
    (hn : n < 4) (rest : List UInt8) : pktLines (header ++ rest) = pktLines rest := by
  rw [pktLines_eq (by rw [List.length_append]; omega), List.take_left' hlen, h]
  dsimp only
  rw [if_pos hn, List.drop_left' hlen]

theorem pktLines_line (hlen : header.length = 4) (h : pktLength header = some (payload.length + 4))
    (rest : List UInt8) : pktLines (header ++ (payload ++ rest)) = payload :: pktLines rest := by
  have hlength : (header ++ (payload ++ rest)).length = payload.length + 4 + rest.length := by
    rw [List.length_append, List.length_append, hlen]
    omega
  have hsplit : (header ++ payload).length = payload.length + 4 := by
    rw [List.length_append, hlen]
    omega
  rw [pktLines_eq (by omega), List.take_left' hlen, h]
  dsimp only
  rw [if_neg (by omega), if_neg (by omega), ← List.append_assoc, List.take_left' hsplit,
    List.drop_left' hlen, List.drop_left' hsplit]

/-- A line the scan finds is a packet at some offset. -/
theorem mem_pktLines (h : line ∈ pktLines buf) :
    ∃ offset len, pktLength ((buf.drop offset).take 4) = some len ∧
      len ≤ (buf.drop offset).length ∧ line = ((buf.drop offset).take len).drop 4 := by
  induction hn : buf.length using Nat.strongRecOn generalizing buf with
  | ind n ih =>
      rcases Nat.lt_or_ge buf.length 4 with hshort | hlong
      · rw [pktLines_of_short hshort] at h
        cases h
      · rw [pktLines_eq hlong] at h
        -- What a later round finds it finds further on.
        have hlater : ∀ k, 4 ≤ k → line ∈ pktLines (buf.drop k) →
            ∃ offset len, pktLength ((buf.drop offset).take 4) = some len ∧
              len ≤ (buf.drop offset).length ∧ line = ((buf.drop offset).take len).drop 4 := by
          intro k hk hmem
          obtain ⟨offset, len, hlen, hle, heq⟩ :=
            ih (buf.drop k).length (by rw [List.length_drop]; omega) hmem rfl
          rw [List.drop_drop] at hlen hle heq
          exact ⟨k + offset, len, hlen, hle, heq⟩
        split at h
        · cases h
        · next len hlen =>
            split at h
            · exact hlater 4 (Nat.le_refl 4) h
            · next hge =>
                split at h
                · cases h
                · next hfits =>
                    rcases List.mem_cons.1 h with rfl | h
                    · exact ⟨0, len, hlen, Nat.le_of_not_lt hfits, rfl⟩
                    · exact hlater len (Nat.le_of_not_lt hge) h

/-! ## Streams -/

/-- `LARGE_PACKET_MAX` of git. -/
def largePacketMax : Nat := 65520

/-- Four hex digits that give this length. -/
structure IsHeader (header : List UInt8) (n : Nat) : Prop where
  length : header.length = 4
  digits : header.all fun b => (hexByte b).isSome
  value : pktLength header = some n
  le : n ≤ largePacketMax

/-- A valid stream of pkt-lines, with the payloads of those that have one. -/
inductive PktStream : List UInt8 → List (List UInt8) → Prop where
  | nil : PktStream [] []
  | control {header rest : List UInt8} {lines : List (List UInt8)} {n : Nat}
      (hheader : IsHeader header n) (hn : n < 3) (hrest : PktStream rest lines) :
      PktStream (header ++ rest) lines
  | line {header payload rest : List UInt8} {lines : List (List UInt8)}
      (hheader : IsHeader header (payload.length + 4)) (hrest : PktStream rest lines) :
      PktStream (header ++ (payload ++ rest)) (payload :: lines)

/-- The scan reads a valid stream to its end. -/
theorem PktStream.pktLines_eq (h : PktStream buf lines) : pktLines buf = lines := by
  induction h with
  | nil => rfl
  | control hheader hn _ ih =>
      rw [pktLines_control hheader.length hheader.value (by omega), ih]
  | line hheader _ ih => rw [pktLines_line hheader.length hheader.value, ih]

theorem PktStream.append {buf' : List UInt8} {lines' : List (List UInt8)} (h : PktStream buf lines)
    (h' : PktStream buf' lines') : PktStream (buf ++ buf') (lines ++ lines') := by
  induction h with
  | nil => exact h'
  | control hheader hn _ ih =>
      rw [List.append_assoc]
      exact .control hheader hn ih
  | line hheader _ ih =>
      rw [List.append_assoc, List.append_assoc]
      exact .line hheader ih

theorem PktStream.payload_le (h : PktStream buf lines) (hmem : payload ∈ lines) :
    payload.length + 4 ≤ largePacketMax := by
  induction h with
  | nil => cases hmem
  | control _ _ _ ih => exact ih hmem
  | line hheader _ ih =>
      rcases List.mem_cons.1 hmem with rfl | hmem
      · exact hheader.le
      · exact ih hmem

/-- Every payload starts with its channel. -/
def SideBand (payloads : List (List UInt8)) : Prop :=
  ∀ p ∈ payloads, p.head? = some 1 ∨ p.head? = some 2 ∨ p.head? = some 3

/-- What channel 1 carries. -/
def bandOne (payloads : List (List UInt8)) : List UInt8 :=
  payloads.flatMap fun p => if p.head? = some 1 then p.tail else []

/-- The report rejects a ref. -/
def rejects (lines : List (List UInt8)) : Bool := lines.any fun line => decide (ngPrefix <+: line)

/-- The lines of a report. -/
def IsReportLine (line : List UInt8) : Prop :=
  ∃ start ∈ ["unpack ", "ok ", "ng ", "option "], Audit.utf8 start.toList <+: line

/-! ## What the scan finds -/

/-- With a side band, it looks into the payloads of channel 1. -/
theorem rejected_of_sideBand (h : PktStream stdout payloads) (hband : SideBand payloads) :
    receivePackReportRejected stdout = true ↔
      ∃ p ∈ payloads, p.head? = some 1 ∧ rejects (pktLines p.tail) = true := by
  unfold receivePackReportRejected
  rw [h.pktLines_eq, List.any_eq_true]
  refine exists_congr fun p => and_congr_right fun hp => ?_
  rcases hband p hp with hone | htwo | hthree
  · rw [hone]
    exact ⟨fun h => ⟨rfl, h⟩, fun h => h.2⟩
  · rw [htwo]
    exact ⟨nofun, fun h => by cases h.1⟩
  · rw [hthree]
    exact ⟨nofun, fun h => by cases h.1⟩

/-- A packet with a rejection starts here, and would fit into a payload. -/
def ngFits (buf : List UInt8) : Bool :=
  match pktLength (buf.take 4) with
  | none => false
  | some len =>
      decide (len + 5 ≤ largePacketMax) && decide (len ≤ buf.length) &&
        decide (ngPrefix <+: (buf.take len).drop 4)

theorem ngFits_eq_true :
    ngFits buf = true ↔ ∃ len, pktLength (buf.take 4) = some len ∧ len + 5 ≤ largePacketMax ∧
      len ≤ buf.length ∧ ngPrefix <+: (buf.take len).drop 4 := by
  unfold ngFits
  cases pktLength (buf.take 4) with
  | none => exact ⟨nofun, fun ⟨_, h, _⟩ => by cases h⟩
  | some len =>
      simp only [Bool.and_eq_true, decide_eq_true_eq, Option.some.injEq]
      constructor
      · rintro ⟨⟨hmax, hle⟩, hng⟩
        exact ⟨len, rfl, hmax, hle, hng⟩
      · rintro ⟨_, rfl, hmax, hle, hng⟩
        exact ⟨⟨hmax, hle⟩, hng⟩

theorem length_of_pktLength {n : Nat} (h : pktLength header = some n) : header.length = 4 := by
  unfold pktLength at h
  split at h
  · rfl
  · cases h

/-- What is found in a piece of the report is in the report. -/
theorem ngFits_of_piece {before piece after : List UInt8} (hmax : piece.length + 5 ≤ largePacketMax)
    (h : rejects (pktLines piece) = true) :
    ∃ offset, ngFits ((before ++ (piece ++ after)).drop offset) = true := by
  obtain ⟨line, hmem, hng⟩ := List.any_eq_true.1 h
  obtain ⟨offset, len, hlen, hle, rfl⟩ := mem_pktLines hmem
  have hfour := length_of_pktLength hlen
  rw [List.length_take] at hfour
  have hoffset : offset ≤ piece.length := by
    by_contra hgt
    rw [List.drop_eq_nil_of_le (by omega)] at hfour
    cases hfour
  have hdrop : (before ++ (piece ++ after)).drop (before.length + offset) =
      piece.drop offset ++ after := by
    rw [List.drop_append, List.drop_eq_nil_of_le (by omega), List.nil_append,
      Nat.add_sub_cancel_left, List.drop_append_of_le_length hoffset]
  refine ⟨before.length + offset, ngFits_eq_true.2 ⟨len, ?_, ?_, ?_, ?_⟩⟩
  · rw [hdrop, List.take_append_of_le_length (by omega)]
    exact hlen
  · rw [List.length_drop] at hle
    omega
  · rw [hdrop, List.length_append]
    omega
  · rw [hdrop, List.take_append_of_le_length hle]
    exact of_decide_eq_true hng

/-! ## Cuttings -/

theorem isHeader_pktHeader {n : Nat} (h : n ≤ largePacketMax) : IsHeader (pktHeader n) n := by
  have hdigit : ∀ d < 16, hexByte (digitByte d) = some d ∧ digitByte d ≠ 43 := by decide
  have hmax : n ≤ 65520 := h
  have hfirst := hdigit (n / 4096) (by omega)
  have hsecond := hdigit (n / 256 % 16) (by omega)
  have hthird := hdigit (n / 16 % 16) (by omega)
  have hfourth := hdigit (n % 16) (by omega)
  refine ⟨rfl, ?_, ?_, h⟩
  · simp [pktHeader, hfirst.1, hsecond.1, hthird.1, hfourth.1]
  · unfold pktHeader pktLength
    dsimp only
    rw [if_neg hfirst.2, hfirst.1, hsecond.1, hthird.1, hfourth.1]
    dsimp only
    congr 1
    omega

/-- The report in these pieces, each in a packet of channel 1. -/
def cut (pieces : List (List UInt8)) : List UInt8 :=
  pieces.flatMap fun piece => pkt (1 :: piece)

theorem pktStream_cut {pieces : List (List UInt8)}
    (h : ∀ piece ∈ pieces, piece.length + 5 ≤ largePacketMax) :
    PktStream (cut pieces) (pieces.map (1 :: ·)) := by
  induction pieces with
  | nil => exact .nil
  | cons piece pieces ih =>
      obtain ⟨hpiece, hpieces⟩ := List.forall_mem_cons.1 h
      have hcut : cut (piece :: pieces) =
          pktHeader (piece.length + 5) ++ ((1 :: piece) ++ cut pieces) :=
        List.append_assoc ..
      rw [hcut, List.map_cons]
      exact .line (isHeader_pktHeader hpiece) (ih hpieces)

theorem sideBand_cut (pieces : List (List UInt8)) : SideBand (pieces.map (1 :: ·)) := by
  intro p hp
  obtain ⟨piece, -, rfl⟩ := List.mem_map.1 hp
  exact .inl rfl

theorem bandOne_cut (pieces : List (List UInt8)) :
    bandOne (pieces.map (1 :: ·)) = pieces.flatten := by
  induction pieces with
  | nil => rfl
  | cons piece pieces ih =>
      show piece ++ bandOne (pieces.map (1 :: ·)) = _
      rw [ih, List.flatten_cons]

theorem rejected_cut {pieces : List (List UInt8)}
    (h : ∀ piece ∈ pieces, piece.length + 5 ≤ largePacketMax) :
    receivePackReportRejected (cut pieces) = true ↔
      ∃ piece ∈ pieces, rejects (pktLines piece) = true := by
  rw [rejected_of_sideBand (pktStream_cut h) (sideBand_cut pieces)]
  constructor
  · rintro ⟨p, hp, -, hrejects⟩
    obtain ⟨piece, hmem, rfl⟩ := List.mem_map.1 hp
    exact ⟨piece, hmem, hrejects⟩
  · rintro ⟨piece, hmem, hrejects⟩
    exact ⟨1 :: piece, List.mem_map_of_mem hmem, rfl, hrejects⟩

theorem byte_fits (b : UInt8) : [b].length + 5 ≤ largePacketMax := by
  unfold largePacketMax
  rw [List.length_singleton]
  omega

theorem flatten_singletons (buf : List UInt8) : (buf.map fun b => [b]).flatten = buf := by
  induction buf with
  | nil => rfl
  | cons b buf ih => rw [List.map_cons, List.flatten_cons, ih, List.singleton_append]

/-! ## The results -/

/-- The scan is right about this report, however it is cut. -/
def FramingIndependent (inner : List UInt8) (lines : List (List UInt8)) : Prop :=
  ∀ stdout payloads, PktStream stdout payloads → SideBand payloads → bandOne payloads = inner →
    receivePackReportRejected stdout = rejects lines

/-- In pieces of one byte there is no line. -/
theorem FramingIndependent.rejects_eq_false (h : FramingIndependent inner lines) :
    rejects lines = false := by
  have hsmall : ∀ piece ∈ inner.map fun b => [b], piece.length + 5 ≤ largePacketMax := by
    intro piece hpiece
    obtain ⟨b, -, rfl⟩ := List.mem_map.1 hpiece
    exact byte_fits b
  have hscan := h (cut (inner.map fun b => [b])) _ (pktStream_cut hsmall) (sideBand_cut _)
    ((bandOne_cut _).trans (flatten_singletons inner))
  rw [← hscan]
  cases hfound : receivePackReportRejected (cut (inner.map fun b => [b])) with
  | false => rfl
  | true =>
      obtain ⟨piece, hpiece, hrejects⟩ := (rejected_cut hsmall).1 hfound
      obtain ⟨b, -, rfl⟩ := List.mem_map.1 hpiece
      cases hrejects

/-- A piece that is one packet with a rejection. -/
theorem rejects_of_ngFits {len : Nat} (hlen : pktLength (buf.take 4) = some len)
    (hle : len ≤ buf.length) (hng : ngPrefix <+: (buf.take len).drop 4) :
    rejects (pktLines (buf.take len)) = true := by
  have hlength := hng.length_le
  rw [List.length_drop, List.length_take] at hlength
  have hseven : 7 ≤ len := by
    have hthree : ngPrefix.length = 3 := rfl
    omega
  have htake : (buf.take len).length = len := by
    rw [List.length_take]
    omega
  rw [pktLines_eq (by omega), List.take_take, Nat.min_eq_left (by omega), hlen]
  dsimp only
  rw [if_neg (by omega), if_neg (by omega), List.take_take, Nat.min_self]
  exact List.any_eq_true.2 ⟨_, List.mem_cons_self, decide_eq_true hng⟩

theorem FramingIndependent.ngFits_eq_false (h : FramingIndependent inner lines) (offset : Nat) :
    ngFits (inner.drop offset) = false := by
  cases hfits : ngFits (inner.drop offset) with
  | false => rfl
  | true =>
      obtain ⟨len, hlen, hmax, hle, hng⟩ := ngFits_eq_true.1 hfits
      -- The packet in one piece, the rest in bytes.
      have hflat : ((inner.take offset).map (fun b => [b]) ++ [(inner.drop offset).take len] ++
          ((inner.drop offset).drop len).map fun b => [b]).flatten = inner := by
        rw [List.flatten_append, List.flatten_append, flatten_singletons, flatten_singletons,
          List.flatten_singleton, List.append_assoc, List.take_append_drop, List.take_append_drop]
      have hsmall : ∀ piece ∈ (inner.take offset).map (fun b => [b]) ++
          [(inner.drop offset).take len] ++ ((inner.drop offset).drop len).map fun b => [b],
          piece.length + 5 ≤ largePacketMax := by
        intro piece hpiece
        rcases List.mem_append.1 hpiece with hpiece | hpiece
        · rcases List.mem_append.1 hpiece with hpiece | hpiece
          · obtain ⟨b, -, rfl⟩ := List.mem_map.1 hpiece
            exact byte_fits b
          · rw [List.mem_singleton.1 hpiece, List.length_take]
            omega
        · obtain ⟨b, -, rfl⟩ := List.mem_map.1 hpiece
          exact byte_fits b
      have hscan := h (cut _) _ (pktStream_cut hsmall) (sideBand_cut _)
        ((bandOne_cut _).trans hflat)
      rw [h.rejects_eq_false] at hscan
      have hfound : receivePackReportRejected (cut _) = true := (rejected_cut hsmall).2
        ⟨(inner.drop offset).take len, by simp, rejects_of_ngFits hlen hle hng⟩
      rw [hscan] at hfound
      cases hfound

theorem bandOne_piece (hmem : payload ∈ payloads) (hone : payload.head? = some 1) :
    ∃ before after, bandOne payloads = before ++ (payload.tail ++ after) := by
  obtain ⟨l, l', rfl⟩ := List.append_of_mem hmem
  refine ⟨bandOne l, bandOne l', ?_⟩
  unfold bandOne
  rw [List.flatMap_append, List.flatMap_cons, if_pos hone]

theorem framingIndependent_iff :
    FramingIndependent inner lines ↔
      rejects lines = false ∧ ∀ offset, ngFits (inner.drop offset) = false := by
  refine ⟨fun h => ⟨h.rejects_eq_false, h.ngFits_eq_false⟩, fun ⟨hlines, hnone⟩ => ?_⟩
  intro stdout payloads hstream hband hinner
  rw [hlines]
  cases hfound : receivePackReportRejected stdout with
  | false => rfl
  | true =>
      obtain ⟨p, hmem, hone, hrejects⟩ := (rejected_of_sideBand hstream hband).1 hfound
      obtain ⟨before, after, hpiece⟩ := bandOne_piece hmem hone
      have hmax := hstream.payload_le hmem
      obtain ⟨tail, rfl⟩ : ∃ tail, p = 1 :: tail := by
        cases p with
        | nil => cases hone
        | cons b tail => exact ⟨tail, congrArg (· :: tail) (Option.some.inj hone)⟩
      obtain ⟨offset, hfits⟩ : ∃ offset, ngFits ((before ++ (tail ++ after)).drop offset) = true :=
        ngFits_of_piece (by rw [List.length_cons] at hmax; omega) hrejects
      rw [← hinner, hpiece] at hnone
      cases hfits.symm.trans (hnone offset)

/-- Where every payload of channel 1 is made of whole lines, the scan is right. -/
theorem rejected_of_whole_lines (hstream : PktStream stdout payloads) (hband : SideBand payloads)
    (hwhole : ∀ p ∈ payloads, p.head? = some 1 → ∃ ls, PktStream p.tail ls)
    (hlines : PktStream (bandOne payloads) lines) :
    receivePackReportRejected stdout = rejects lines := by
  have hjoined : ∀ payloads : List (List UInt8),
      (∀ p ∈ payloads, p.head? = some 1 → ∃ ls, PktStream p.tail ls) →
      ∃ ls, PktStream (bandOne payloads) ls ∧
        (rejects ls = true ↔
          ∃ p ∈ payloads, p.head? = some 1 ∧ rejects (pktLines p.tail) = true) := by
    intro payloads hwhole
    induction payloads with
    | nil => exact ⟨[], .nil, nofun, fun ⟨_, hp, _⟩ => by cases hp⟩
    | cons p payloads ih =>
        obtain ⟨hp, hrest⟩ := List.forall_mem_cons.1 hwhole
        obtain ⟨ls, hls, hiff⟩ := ih hrest
        have hunfold : bandOne (p :: payloads) =
            (if p.head? = some 1 then p.tail else []) ++ bandOne payloads := rfl
        by_cases hone : p.head? = some 1
        · obtain ⟨first, hfirst⟩ := hp hone
          refine ⟨first ++ ls, ?_, ?_⟩
          · rw [hunfold, if_pos hone]
            exact hfirst.append hls
          · unfold rejects at hiff ⊢
            simp only [List.mem_cons, exists_eq_or_imp]
            rw [List.any_append, Bool.or_eq_true, hiff, hfirst.pktLines_eq, and_iff_right hone]
        · refine ⟨ls, ?_, ?_⟩
          · rw [hunfold, if_neg hone]
            exact hls
          · simp only [List.mem_cons, exists_eq_or_imp]
            rw [hiff]
            exact ⟨.inr, fun h => h.resolve_left fun h => hone h.1⟩
  obtain ⟨ls, hls, hiff⟩ := hjoined payloads hwhole
  obtain rfl : ls = lines := hls.pktLines_eq.symm.trans hlines.pktLines_eq
  rw [Bool.eq_iff_iff, hiff]
  exact rejected_of_sideBand hstream hband

/-- Without a side band it is right too: no line of a report starts like a payload
of a channel. -/
theorem rejected_of_plain (hstream : PktStream stdout lines)
    (hlines : ∀ line ∈ lines, IsReportLine line) :
    receivePackReportRejected stdout = rejects lines := by
  unfold receivePackReportRejected rejects
  rw [hstream.pktLines_eq, Bool.eq_iff_iff, List.any_eq_true, List.any_eq_true]
  refine exists_congr fun line => and_congr_right fun hmem => ?_
  obtain ⟨start, hstart, rest, rfl⟩ := hlines line hmem
  have hfirst : ∀ start ∈ ["unpack ", "ok ", "ng ", "option "], ∃ b bs,
      Audit.utf8 start.toList = b :: bs ∧ b ≠ 1 ∧ b ≠ 2 ∧ b ≠ 3 := by
    intro start hstart
    simp only [List.mem_cons, List.not_mem_nil, or_false] at hstart
    rcases hstart with rfl | rfl | rfl | rfl
    all_goals exact ⟨_, _, rfl, by decide, by decide, by decide⟩
  obtain ⟨b, bs, heq, hone, htwo, hthree⟩ := hfirst start hstart
  rw [heq, List.cons_append, List.head?_cons]
  split
  · next h => exact absurd (Option.some.inj h) hone
  · next h => exact absurd (Option.some.inj h) htwo
  · next h => exact absurd (Option.some.inj h) hthree
  · rfl

/-- The scan is right about a report under every cutting exactly when the report
rejects nothing and has nowhere, lines or not, what would be a packet with a
rejection. It is right where the report is cut between its lines, and where there
is no side band. -/
theorem rejection_detection (inner : List UInt8) (lines : List (List UInt8))
    (hinner : PktStream inner lines) :
    (FramingIndependent inner lines ↔
      rejects lines = false ∧ ∀ offset, ngFits (inner.drop offset) = false) ∧
    (∀ stdout payloads, PktStream stdout payloads → SideBand payloads →
      bandOne payloads = inner →
      (∀ p ∈ payloads, p.head? = some 1 → ∃ ls, PktStream p.tail ls) →
      receivePackReportRejected stdout = rejects lines) ∧
    ((∀ line ∈ lines, IsReportLine line) → receivePackReportRejected inner = rejects lines) := by
  refine ⟨framingIndependent_iff, fun stdout payloads hstream hband hcut hwhole => ?_, fun hlines =>
    rejected_of_plain hinner hlines⟩
  subst hcut
  exact rejected_of_whole_lines hstream hband hwhole hinner

theorem pktStream_pktGroup (h : ∀ line ∈ lines, line.length + 4 ≤ largePacketMax) :
    PktStream (pktGroup lines) lines := by
  induction lines with
  | nil =>
      show PktStream (pktHeader 0 ++ []) []
      exact .control (isHeader_pktHeader (Nat.zero_le _)) (by decide) .nil
  | cons line lines ih =>
      obtain ⟨hline, hlines⟩ := List.forall_mem_cons.1 h
      rw [pktGroup_cons]
      exact .line (isHeader_pktHeader hline) (ih hlines)

def unpackOk : List UInt8 := Audit.utf8 "unpack ok\n".toList

/-- A report that accepts a ref, and one that rejects it. -/
def acceptedMain : List (List UInt8) := [unpackOk, Audit.utf8 "ok refs/heads/main\n".toList]

def declinedMain : List (List UInt8) :=
  [unpackOk, Audit.utf8 "ng refs/heads/main pre-receive hook declined\n".toList]

theorem accepted_main_is_read :
    FramingIndependent (pktGroup acceptedMain) acceptedMain := by
  refine (rejection_detection (pktGroup acceptedMain) acceptedMain
    (pktStream_pktGroup (by decide))).1.2 ⟨by decide, fun offset => ?_⟩
  rcases Nat.lt_or_ge offset (pktGroup acceptedMain).length with hlt | hge
  · have hall : ∀ offset < (pktGroup acceptedMain).length,
        ngFits ((pktGroup acceptedMain).drop offset) = false := by decide +kernel
    exact hall offset hlt
  · rw [List.drop_eq_nil_of_le hge]
    rfl

/-- Cut in the middle of the line that rejects the ref, the report looks as if it
rejected nothing. -/
theorem cut_rejection_is_missed :
    PktStream (pktGroup declinedMain) declinedMain ∧ rejects declinedMain = true ∧
      ¬FramingIndependent (pktGroup declinedMain) declinedMain := by
  refine ⟨pktStream_pktGroup (by decide), by decide, fun h => ?_⟩
  have hsmall : ∀ piece ∈
      [(pktGroup declinedMain).take 30, (pktGroup declinedMain).drop 30],
      piece.length + 5 ≤ largePacketMax := by decide +kernel
  have hscan := h _ _ (pktStream_cut hsmall) (sideBand_cut _) (by decide +kernel)
  have hmissed : receivePackReportRejected
      (cut [(pktGroup declinedMain).take 30, (pktGroup declinedMain).drop 30]) ≠
      rejects declinedMain := by decide +kernel
  exact hmissed hscan

end Buzz.Git
