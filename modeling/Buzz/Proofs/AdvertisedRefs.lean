import Buzz.Git.Advertisement
import Buzz.Proofs.PublishedHead
import Buzz.Proofs.ReportFraming

/-!
# What is advertised is what is published

A frame says how long it is in four hex digits, so it must not be longer than
four digits can say: the names of an eligible manifest are short enough, with
the capabilities too. Everything in its lines is ASCII and has no blank, no NUL
and no newline, so that the lines come apart again where they were put together.
-/

namespace Buzz.Git

open Buzz.Audit (utf8 utf8_append utf8EncodeChar_ascii)
open Buzz.Lib (flatMap_hexLen flushPkt hexLen pktHeader)

/-! ## Text -/

theorem length_utf8_append (s t : List Char) :
    (utf8 (s ++ t)).length = (utf8 s).length + (utf8 t).length := by
  rw [utf8_append, List.length_append]

def isAscii (c : Char) : Bool := decide (c.toNat < 128)

def asciiByte (c : Char) : UInt8 := UInt8.ofNat c.toNat

variable {c : Char}

theorem toNat_asciiByte (h : isAscii c = true) :
    (asciiByte c).toNat = c.toNat :=
  UInt8.toNat_ofNat_of_lt' (Nat.lt_trans (of_decide_eq_true h) (by decide))

variable {s : List Char}

theorem utf8_of_ascii (h : s.all isAscii = true) :
    utf8 s = s.map asciiByte := by
  induction s with
  | nil => rfl
  | cons c s ih =>
      rw [List.all_cons, Bool.and_eq_true] at h
      have hbyte := utf8EncodeChar_ascii c.toNat (of_decide_eq_true h.1)
      rw [Char.ofNat_toNat] at hbyte
      rw [List.map_cons, ← ih h.2]
      show String.utf8EncodeChar c ++ utf8 s = _
      rw [hbyte]
      rfl

/-- ASCII text is read back from its bytes. -/
theorem asciiText_utf8 (h : s.all isAscii = true) : asciiText (utf8 s) = s := by
  rw [utf8_of_ascii h, asciiText, List.map_map]
  conv_rhs => rw [← List.map_id s]
  refine List.map_congr_left fun c hc => ?_
  show Char.ofNat (asciiByte c).toNat = c
  rw [toNat_asciiByte (List.all_eq_true.1 h c hc), Char.ofNat_toNat]

theorem length_utf8_ascii (h : s.all isAscii = true) :
    (utf8 s).length = s.length := by
  rw [utf8_of_ascii h, List.length_map]

/-- The order of the characters is that of the bytes. -/
theorem utf8_lt {t : List Char} (hs : s.all isAscii = true)
    (ht : t.all isAscii = true) (hlt : s < t) : utf8 s < utf8 t := by
  rw [utf8_of_ascii hs, utf8_of_ascii ht]
  induction s generalizing t with
  | nil =>
      cases t with
      | nil => exact absurd hlt (lt_irrefl _)
      | cons d t => exact List.Lex.nil
  | cons c s ih =>
      cases t with
      | nil => exact absurd hlt (List.not_lt_nil _)
      | cons d t =>
          rw [List.all_cons, Bool.and_eq_true] at hs ht
          rw [List.map_cons, List.map_cons, List.cons_lt_cons_iff]
          rcases List.cons_lt_cons_iff.1 hlt with hcd | ⟨rfl, hst⟩
          · refine .inl ?_
            rw [UInt8.lt_iff_toNat_lt, toNat_asciiByte hs.1, toNat_asciiByte ht.1]
            exact hcd
          · exact .inr ⟨rfl, ih hs.2 ht.2 hst⟩

/-! ## Names and object ids -/

def isRefChar (c : Char) : Bool :=
  c.isAlphanum || c == '/' || c == '_' || c == '.' || c == '-'

theorem isSafeRefname_all {s : RefName} (h : isSafeRefname s = true) : s.all isRefChar = true := by
  unfold isSafeRefname at h
  rw [Bool.and_eq_true] at h
  exact h.2

/-- A character up to `z` is one of those below 128. -/
theorem isAscii_of_le {d : Char} (hd : d.toNat < 128) (h : c ≤ d) :
    isAscii c = true :=
  decide_eq_true (Nat.lt_of_le_of_lt h hd)

/-- The characters of a ref name are ASCII, and none comes before the dash. -/
theorem isRefChar_bounds (h : isRefChar c = true) :
    '-'.toNat ≤ c.toNat ∧ isAscii c = true := by
  unfold isRefChar Char.isAlphanum Char.isAlpha Char.isUpper Char.isLower Char.isDigit at h
  simp only [Bool.or_eq_true, Bool.and_eq_true, decide_eq_true_eq, beq_iff_eq] at h
  have hrange : ∀ {a d : Char}, '-'.toNat ≤ a.toNat → d.toNat < 128 → a ≤ c → c ≤ d →
      '-'.toNat ≤ c.toNat ∧ isAscii c = true :=
    fun ha hd hac hcd => ⟨Nat.le_trans ha hac, isAscii_of_le hd hcd⟩
  rcases h with (((((hup | hlow) | hdig) | rfl) | rfl) | rfl) | rfl
  · exact hrange (a := 'A') (d := 'Z') (by decide) (by decide) hup.1 hup.2
  · exact hrange (a := 'a') (d := 'z') (by decide) (by decide) hlow.1 hlow.2
  · exact hrange (a := '0') (d := '9') (by decide) (by decide) hdig.1 hdig.2
  all_goals decide

theorem isRefChar_ascii (h : isRefChar c = true) : isAscii c = true :=
  (isRefChar_bounds h).2

theorem refname_ascii {s : RefName} (h : isSafeRefname s = true) : s.all isAscii = true :=
  List.all_eq_true.2 fun c hc => isRefChar_ascii (List.all_eq_true.1 (isSafeRefname_all h) c hc)

theorem blank_notMem_refname {s : RefName} (h : isSafeRefname s = true) : ' ' ∉ s := by
  intro hmem
  have hchar := List.all_eq_true.1 (isSafeRefname_all h) _ hmem
  exact absurd hchar (by decide)

theorem isHexOid_all {s : Oid} (h : isHexOid s = true) : s.all isAsciiHexdigit = true := by
  unfold isHexOid at h
  rw [Bool.and_eq_true] at h
  exact h.2

theorem isHexOid_length {s : Oid} (h : isHexOid s = true) : s.length ≤ 64 := by
  unfold isHexOid at h
  rw [Bool.and_eq_true, Bool.or_eq_true, beq_iff_eq, beq_iff_eq] at h
  omega

theorem hexdigit_ascii (h : isAsciiHexdigit c = true) : isAscii c = true := by
  unfold isAsciiHexdigit hexValue at h
  split at h
  · next hc => exact isAscii_of_le (d := '9') (by decide) hc.2
  · split at h
    · next hc => exact isAscii_of_le (d := 'f') (by decide) hc.2
    · split at h
      · next hc => exact isAscii_of_le (d := 'F') (by decide) hc.2
      · cases h

theorem oid_ascii {s : Oid} (h : isHexOid s = true) : s.all isAscii = true :=
  List.all_eq_true.2 fun c hc => hexdigit_ascii (List.all_eq_true.1 (isHexOid_all h) c hc)

theorem notMem_oid {s : Oid} (h : isHexOid s = true)
    (hc : isAsciiHexdigit c = false) :
    c ∉ s := by
  intro hmem
  rw [List.all_eq_true.1 (isHexOid_all h) c hmem] at hc
  cases hc

/-! ## Frames -/

/-- The iterator gives the lines among the frames. -/
theorem pktLines_eq_frames (buf : List UInt8) :
    pktLines buf = (pktFrames buf).1.filterMap Frame.payload? := by
  have hloop : ∀ (fuel : Nat) (buf : List UInt8),
      pktLinesLoop fuel buf = (pktFramesLoop fuel buf).1.filterMap Frame.payload? := by
    intro fuel
    induction fuel with
    | zero => exact fun buf => rfl
    | succ fuel ih =>
        intro buf
        unfold pktLinesLoop pktFramesLoop
        split
        · rfl
        · cases pktLength (buf.take 4) with
          | none => rfl
          | some len =>
              dsimp only
              split
              · rw [ih]
                rfl
              · split
                · rfl
                · rw [ih]
                  rfl
  exact hloop buf.length buf

/-- The length in front of a frame. -/
def Frame.len : Frame → Nat
  | .control len => len
  | .line payload => payload.length + 4

def Frame.bytes (frame : Frame) : List UInt8 :=
  utf8 (hexLen frame.len) ++ frame.payload?.getD []

/-- A control packet has no payload and no length, a line has a length that can
be written. -/
def Frame.Fits : Frame → Prop
  | .control len => len < 4
  | .line payload => payload.length + 4 ≤ largePacketMax

theorem utf8_hexLen {n : Nat} (h : n < 65536) : utf8 (hexLen n) = pktHeader n :=
  flatMap_hexLen h

theorem Frame.Fits.isHeader {frame : Frame} (h : frame.Fits) :
    IsHeader (utf8 (hexLen frame.len)) frame.len := by
  have hle : frame.len ≤ largePacketMax := by
    cases frame with
    | control len => exact Nat.le_trans (Nat.le_of_lt h) (by decide)
    | line payload => exact h
  rw [utf8_hexLen (Nat.lt_of_le_of_lt hle (by decide))]
  exact isHeader_pktHeader hle

theorem pktFramesLoop_control {header : List UInt8} {n : Nat} (h : IsHeader header n) (hn : n < 4)
    (fuel : Nat) (rest : List UInt8) :
    pktFramesLoop (fuel + 1) (header ++ rest) =
      (.control n :: (pktFramesLoop fuel rest).1, (pktFramesLoop fuel rest).2) := by
  have hlength := h.length
  rw [pktFramesLoop, if_neg (by rw [List.length_append]; omega), List.take_left' hlength, h.value]
  dsimp only
  rw [if_pos hn, List.drop_left' hlength]

theorem pktFramesLoop_line {header payload : List UInt8} (h : IsHeader header (payload.length + 4))
    (fuel : Nat) (rest : List UInt8) :
    pktFramesLoop (fuel + 1) (header ++ payload ++ rest) =
      (.line payload :: (pktFramesLoop fuel rest).1, (pktFramesLoop fuel rest).2) := by
  have hlength := h.length
  have hsplit : (header ++ payload).length = payload.length + 4 := by
    rw [List.length_append]
    omega
  have htake : (header ++ payload ++ rest).take 4 = header := by
    rw [List.append_assoc, List.take_left' hlength]
  rw [pktFramesLoop, if_neg (by rw [List.length_append]; omega), htake, h.value]
  dsimp only
  rw [if_neg (by omega), if_neg (by rw [List.length_append]; omega), List.take_left' hsplit,
    List.drop_left' hlength, List.drop_left' hsplit]

theorem pktFramesLoop_cons {frame : Frame} (h : frame.Fits) (fuel : Nat) (rest : List UInt8) :
    pktFramesLoop (fuel + 1) (frame.bytes ++ rest) =
      (frame :: (pktFramesLoop fuel rest).1, (pktFramesLoop fuel rest).2) := by
  have hheader := h.isHeader
  cases frame with
  | control len =>
      have hbytes : (Frame.control len).bytes = utf8 (hexLen len) := List.append_nil _
      rw [hbytes]
      exact pktFramesLoop_control hheader h fuel rest
  | line payload => exact pktFramesLoop_line hheader fuel rest

/-- Frames come apart where they were put together. -/
theorem pktFrames_flatMap {frames : List Frame} (h : ∀ frame ∈ frames, frame.Fits) :
    pktFrames (frames.flatMap Frame.bytes) = (frames, []) := by
  have hloop : ∀ fuel, frames.length ≤ fuel →
      pktFramesLoop fuel (frames.flatMap Frame.bytes) = (frames, []) := by
    induction frames with
    | nil =>
        intro fuel _
        cases fuel with
        | zero => rfl
        | succ fuel => rfl
    | cons frame frames ih =>
        intro fuel hfuel
        obtain ⟨hframe, hframes⟩ := List.forall_mem_cons.1 h
        cases fuel with
        | zero => cases hfuel
        | succ fuel =>
            rw [List.flatMap_cons, pktFramesLoop_cons hframe,
              ih hframes fuel (by simpa using hfuel)]
  refine hloop _ ?_
  clear hloop
  induction frames with
  | nil => exact Nat.zero_le _
  | cons frame frames ih =>
      obtain ⟨hframe, hframes⟩ := List.forall_mem_cons.1 h
      have hheader := hframe.isHeader.length
      have hrest := ih hframes
      rw [List.flatMap_cons, List.length_append, List.length_cons, Frame.bytes, List.length_append]
      omega

/-! ## The body -/

/-- The frames of an advertisement. -/
def advertisedFrames (m : Manifest) (headOid : Oid) : List Frame :=
  [.line serviceLine, .control 0, .line (headLine m.head headOid)] ++
    m.refs.entries.map (fun e => .line (refLine e.1 e.2)) ++ [.control 0]

/-- What eligibility is for. -/
structure Eligible (m : Manifest) (headOid : Oid) : Prop where
  head : m.refs.get m.head = some headOid
  mem : (m.head, headOid) ∈ m.refs.entries
  names : ∀ e ∈ m.refs.entries, isSafeRefname e.1 = true
  short : ∀ e ∈ m.refs.entries, (utf8 e.1).length ≤ maxFastPathRefnameLen
  oids : ∀ e ∈ m.refs.entries, isHexOid e.2 = true

theorem RefMap.mem_of_get {m : RefMap} {name : RefName} {oid : Oid} (h : m.get name = some oid) :
    (name, oid) ∈ m.entries := by
  obtain ⟨e, he, rfl⟩ := Option.map_eq_some_iff.1 h
  have hfound := List.find?_some he
  have hname : e.1 = name := of_decide_eq_true hfound
  subst hname
  exact List.mem_of_find?_eq_some he

theorem eligible_of_fastPath {m : Manifest} (h : fastPathEligible m = true) :
    ∃ headOid, Eligible m headOid := by
  unfold fastPathEligible at h
  split at h
  · cases h
  · split at h
    · cases h
    · next hhead =>
        have hsome : (m.refs.get m.head).isSome = true := by
          rw [Bool.not_eq_true', ← Bool.not_eq_true, not_not] at hhead
          exact hhead
        obtain ⟨headOid, hoid⟩ := Option.isSome_iff_exists.1 hsome
        have hall : ∀ e ∈ m.refs.entries, isSafeRefname e.1 = true ∧
            (utf8 e.1).length ≤ maxFastPathRefnameLen ∧ isHexOid e.2 = true := by
          intro e he
          have hentry := List.all_eq_true.1 h e he
          rw [Bool.and_eq_true, Bool.and_eq_true, decide_eq_true_eq] at hentry
          exact ⟨hentry.1.1, hentry.1.2, hentry.2⟩
        exact ⟨headOid, hoid, RefMap.mem_of_get hoid, fun e he => (hall e he).1,
          fun e he => (hall e he).2.1, fun e he => (hall e he).2.2⟩

def fixedCapabilities : List (List Char) :=
  ["multi_ack".toList, "thin-pack".toList, "side-band".toList, "side-band-64k".toList,
    "ofs-delta".toList, "shallow".toList, "deepen-since".toList, "deepen-not".toList,
    "deepen-relative".toList, "no-progress".toList, "include-tag".toList,
    "multi_ack_detailed".toList, "no-done".toList]

/-- The part of the capabilities that is always the same: its words, that it is
ASCII, and how long it is. -/
theorem fixedText_spec :
    let text := ("multi_ack thin-pack side-band side-band-64k ofs-delta shallow " ++
      "deepen-since deepen-not deepen-relative no-progress include-tag " ++
        "multi_ack_detailed no-done symref=HEAD:").toList
    text = [' '].intercalate fixedCapabilities ++ [' '] ++ "symref=HEAD:".toList ∧
      text.all isAscii = true ∧ (utf8 text).length ≤ 200 := by
  -- a literal is the list of its characters; left to `decide`, it would be decoded from UTF-8
  have hfirst : "multi_ack thin-pack side-band side-band-64k ofs-delta shallow ".toList = _ :=
    String.toList_ofList
  have hsecond : "deepen-since deepen-not deepen-relative no-progress include-tag ".toList = _ :=
    String.toList_ofList
  have hthird : "multi_ack_detailed no-done symref=HEAD:".toList = _ := String.toList_ofList
  rw [String.toList_append, String.toList_append, hfirst, hsecond, hthird]
  refine ⟨?_, ?_, ?_⟩
  · decide +kernel
  · decide +kernel
  · decide +kernel

namespace Eligible

variable {m : Manifest} {headOid : Oid}

theorem length_oid (h : Eligible m headOid) {e : RefName × Oid} (he : e ∈ m.refs.entries) :
    (utf8 e.2).length ≤ 64 := by
  rw [length_utf8_ascii (oid_ascii (h.oids e he))]
  exact isHexOid_length (h.oids e he)

theorem refLine_fits (h : Eligible m headOid) {e : RefName × Oid} (he : e ∈ m.refs.entries) :
    (refLine e.1 e.2).length + 4 ≤ largePacketMax := by
  have hoid := h.length_oid he
  have hname : (utf8 e.1).length ≤ 4096 := h.short e he
  have hlength : (refLine e.1 e.2).length = (utf8 e.2).length + (utf8 e.1).length + 2 := by
    unfold refLine
    simp only [List.length_append, List.length_cons, List.length_nil]
    omega
  have hmax : largePacketMax = 65520 := rfl
  omega

/-- The text of the capabilities without the name of the branch is short. -/
theorem length_capabilities (head : RefName) (headOid : Oid) :
    (utf8 (capabilities head (objectFormat headOid))).length ≤ (utf8 head).length + 1000 := by
  have hformat : (utf8 (objectFormat headOid)).length ≤ 6 := by
    unfold objectFormat
    split
    · decide
    · decide
  unfold capabilities
  simp only [length_utf8_append]
  have hfixed := fixedText_spec.2.2
  have hword : (utf8 " object-format=".toList).length = 15 := by decide
  have hagent : (utf8 " agent=buzz-git".toList).length = 15 := by decide
  omega

theorem headLine_fits (h : Eligible m headOid) :
    (headLine m.head headOid).length + 4 ≤ largePacketMax := by
  have hoid : (utf8 headOid).length ≤ 64 := h.length_oid h.mem
  have hname : (utf8 m.head).length ≤ 4096 := h.short _ h.mem
  have hcaps := length_capabilities m.head headOid
  have hmark : (utf8 " HEAD\x00".toList).length = 6 := by decide
  have hmax : largePacketMax = 65520 := rfl
  unfold headLine
  simp only [List.length_append, List.length_cons, List.length_nil]
  omega

theorem frames_fit (h : Eligible m headOid) :
    ∀ frame ∈ advertisedFrames m headOid, frame.Fits := by
  intro frame hframe
  unfold advertisedFrames at hframe
  simp only [List.mem_append, List.mem_cons, List.not_mem_nil, or_false, List.mem_map] at hframe
  rcases hframe with ((rfl | rfl | rfl) | ⟨e, he, rfl⟩) | rfl
  · show serviceLine.length + 4 ≤ largePacketMax
    decide
  · exact (by decide : 0 < 4)
  · exact h.headLine_fits
  · exact h.refLine_fits he
  · exact (by decide : 0 < 4)

end Eligible

/-- A line that fits is appended as a frame. -/
theorem pktLine_eq {payload : List UInt8} (h : payload.length + 4 ≤ largePacketMax)
    (out : List UInt8) : pktLine out payload = out ++ (Frame.line payload).bytes := by
  have hmax : ¬ pktLineMaxPayload < payload.length := by
    have hle : payload.length + 4 ≤ 65520 := h
    unfold pktLineMaxPayload
    omega
  unfold pktLine
  rw [if_neg hmax, List.append_assoc]
  rfl

theorem foldl_pktLine {entries : List (RefName × Oid)}
    (h : ∀ e ∈ entries, (refLine e.1 e.2).length + 4 ≤ largePacketMax) (out : List UInt8) :
    entries.foldl (fun out e => pktLine out (refLine e.1 e.2)) out =
      out ++ (entries.map fun e => Frame.line (refLine e.1 e.2)).flatMap Frame.bytes := by
  induction entries generalizing out with
  | nil => exact (List.append_nil out).symm
  | cons e entries ih =>
      obtain ⟨he, hentries⟩ := List.forall_mem_cons.1 h
      rw [List.foldl_cons, ih hentries, pktLine_eq he, List.map_cons, List.flatMap_cons,
        List.append_assoc]

theorem flushPkt_eq : flushPkt = (Frame.control 0).bytes := by decide

/-- The body is these frames, one after the other. -/
theorem Eligible.build_eq {m : Manifest} {headOid : Oid} (h : Eligible m headOid) :
    buildUploadPackAdvertisement m =
      some ((advertisedFrames m headOid).flatMap Frame.bytes) := by
  have hservice : serviceLine.length + 4 ≤ largePacketMax := by decide
  unfold buildUploadPackAdvertisement advertisedFrames
  rw [h.head]
  dsimp only
  rw [foldl_pktLine fun e he => h.refLine_fits he, pktLine_eq h.headLine_fits,
    pktLine_eq hservice, flushPkt_eq]
  simp only [List.flatMap_append, List.flatMap_cons, List.flatMap_nil, List.append_assoc,
    List.nil_append, List.append_nil]

/-! ## Reading it back -/

def capabilityWords (head : RefName) (format : List Char) : List (List Char) :=
  fixedCapabilities ++
    ["symref=HEAD:".toList ++ head, "object-format=".toList ++ format, "agent=buzz-git".toList]

theorem intercalate_append_cons {α : Type} (sep b : List α) {l : List (List α)} (hl : l ≠ [])
    (l' : List (List α)) :
    sep.intercalate (l ++ b :: l') = sep.intercalate l ++ sep ++ sep.intercalate (b :: l') := by
  induction l with
  | nil => exact absurd rfl hl
  | cons a l ih =>
      cases l with
      | nil => simp [List.intercalate]
      | cons c l =>
          have hrest := ih nofun
          simp only [List.intercalate, List.cons_append, List.intersperse, List.flatten_cons,
            List.append_assoc] at hrest ⊢
          rw [hrest]

/-- What is offered is a list of words with blanks between them. -/
theorem capabilities_eq (head : RefName) (format : List Char) :
    capabilities head format = [' '].intercalate (capabilityWords head format) := by
  unfold capabilities capabilityWords
  rw [intercalate_append_cons _ _ (by decide), fixedText_spec.1]
  simp only [List.append_assoc]
  rfl

variable {head : RefName}

theorem capabilities_ascii (h : isSafeRefname head = true) (headOid : Oid) :
    (capabilities head (objectFormat headOid)).all isAscii = true := by
  have hformat : (objectFormat headOid).all isAscii = true := by
    unfold objectFormat
    split
    · decide
    · decide
  unfold capabilities
  rw [List.all_append, List.all_append, List.all_append, List.all_append, fixedText_spec.2.1,
    refname_ascii h, hformat]
  decide

theorem splitOn_capabilities (h : isSafeRefname head = true) (headOid : Oid) :
    (capabilities head (objectFormat headOid)).splitOn ' ' =
      capabilityWords head (objectFormat headOid) := by
  rw [capabilities_eq]
  refine List.splitOn_intercalate ' ' (fun word hword => ?_) (by simp [capabilityWords])
  unfold capabilityWords at hword
  rcases List.mem_append.1 hword with hword | hword
  · have hfixed : fixedCapabilities.all (fun word => decide (' ' ∉ word)) = true := by decide
    exact of_decide_eq_true (List.all_eq_true.1 hfixed word hword)
  · simp only [List.mem_cons, List.not_mem_nil, or_false] at hword
    rcases hword with rfl | rfl | rfl
    · rw [List.mem_append, not_or]
      exact ⟨by decide, blank_notMem_refname h⟩
    · unfold objectFormat
      split
      · decide
      · decide
    · decide

theorem readHead_headLine {headOid : Oid} (hhead : isSafeRefname head = true)
    (hoid : isHexOid headOid = true) :
    readHead (headLine head headOid) = some head := by
  have hline : headLine head headOid = utf8 ((headOid ++ " HEAD".toList) ++
      ('\x00' :: (capabilities head (objectFormat headOid) ++ ['\n']))) := by
    have hmark : " HEAD\x00".toList = " HEAD".toList ++ ['\x00'] := rfl
    have hend : utf8 ['\n'] = [10] := rfl
    rw [List.append_cons, ← List.append_assoc, List.append_assoc headOid, ← hmark,
      utf8_append, utf8_append, utf8_append, hend]
    rfl
  have hascii : ((headOid ++ " HEAD".toList) ++
      ('\x00' :: (capabilities head (objectFormat headOid) ++ ['\n']))).all isAscii = true := by
    rw [List.all_append, List.all_append, List.all_cons, List.all_append, oid_ascii hoid,
      capabilities_ascii hhead]
    decide
  have hnul : ∀ c ∈ headOid ++ " HEAD".toList, decide (c ≠ '\x00') = true := by
    intro c hc
    refine decide_eq_true fun heq => ?_
    subst heq
    rcases List.mem_append.1 hc with hc | hc
    · exact notMem_oid hoid (by decide) hc
    · revert hc
      decide
  have hfixed : fixedCapabilities.findSome?
      (fun word => ("symref=HEAD:".toList).isPrefixOf? word) = none := by decide
  unfold readHead
  rw [hline, asciiText_utf8 hascii]
  dsimp only
  rw [List.dropWhile_append_of_pos hnul, List.dropWhile_cons_of_neg (by decide), List.tail_cons,
    List.dropLast_concat, splitOn_capabilities hhead, capabilityWords, List.findSome?_append,
    hfixed, Option.none_or, List.findSome?_cons, List.isPrefixOf?_eq_some_iff_append_eq.2 rfl]

theorem readRef_refLine {refname : RefName} {oid : Oid} (hname : isSafeRefname refname = true)
    (hoid : isHexOid oid = true) : readRef (refLine refname oid) = (refname, oid) := by
  have hline : refLine refname oid = utf8 (oid ++ ' ' :: refname ++ ['\n']) := by
    unfold refLine
    simp only [utf8_append, List.append_assoc]
    rfl
  have hascii : (oid ++ ' ' :: refname ++ ['\n']).all isAscii = true := by
    simp only [List.all_append, List.all_cons, Bool.and_eq_true, oid_ascii hoid,
      refname_ascii hname]
    decide
  have hblank : ∀ c ∈ oid, decide (c ≠ ' ') = true := by
    intro c hc
    refine decide_eq_true fun heq => ?_
    subst heq
    exact notMem_oid hoid (by decide) hc
  unfold readRef
  rw [hline, asciiText_utf8 hascii]
  dsimp only
  rw [List.dropLast_concat, List.dropWhile_append_of_pos hblank,
    List.dropWhile_cons_of_neg (by decide), List.takeWhile_append_of_pos hblank,
    List.takeWhile_cons_of_neg (by decide), List.append_nil, List.tail_cons]

/-- The lines among the frames. -/
theorem payloads_advertisedFrames (m : Manifest) (headOid : Oid) :
    (advertisedFrames m headOid).filterMap Frame.payload? =
      serviceLine :: headLine m.head headOid :: m.refs.entries.map fun e => refLine e.1 e.2 := by
  unfold advertisedFrames
  rw [List.filterMap_append, List.filterMap_append, List.filterMap_map]
  show _ ++ List.filterMap (some ∘ fun e : RefName × Oid => refLine e.1 e.2) m.refs.entries ++ _ = _
  rw [List.filterMap_eq_map]
  exact List.append_nil _

theorem readAdvertisement_eq {body first : List UInt8} {rest : List Frame}
    (h : pktFrames body = (.line serviceLine :: .control 0 :: .line first :: rest, []))
    (hlast : rest.getLast? = some (.control 0)) :
    readAdvertisement body =
      (readHead first).map fun head => (head, (rest.filterMap Frame.payload?).map readRef) := by
  unfold readAdvertisement
  rw [h]
  exact if_pos ⟨rfl, hlast⟩

theorem Eligible.readBack {m : Manifest} {headOid : Oid} (h : Eligible m headOid) :
    readAdvertisement ((advertisedFrames m headOid).flatMap Frame.bytes) =
      some (m.head, m.refs.entries) := by
  have hrefs : (m.refs.entries.map fun e => refLine e.1 e.2).map readRef = m.refs.entries := by
    rw [List.map_map]
    conv_rhs => rw [← List.map_id m.refs.entries]
    refine List.map_congr_left fun e he => ?_
    exact readRef_refLine (h.names e he) (h.oids e he)
  have hpayloads := payloads_advertisedFrames m headOid
  have hframes : advertisedFrames m headOid = .line serviceLine :: .control 0 ::
      .line (headLine m.head headOid) ::
        (m.refs.entries.map (fun e => Frame.line (refLine e.1 e.2)) ++ [.control 0]) := rfl
  have hread := pktFrames_flatMap h.frames_fit
  rw [hframes] at hpayloads hread ⊢
  rw [readAdvertisement_eq hread List.getLast?_concat,
    readHead_headLine (h.names _ h.mem) (h.oids _ h.mem)]
  have hlines := (List.cons.inj (List.cons.inj hpayloads).2).2
  rw [hlines, hrefs]
  rfl

/-! ## Faithfulness -/

/-- The body of an advertisement says the head and the refs of the manifest, and
nothing else. -/
structure AdvertisesExactly (m : Manifest) (headOid : Oid) (body : List UInt8) : Prop where
  /-- It is a header and a flush, HEAD, a line for each ref and a flush, with
  nothing left over. -/
  frames : pktFrames body = (advertisedFrames m headOid, [])
  /-- What `PktLineIter` gives. -/
  lines : pktLines body =
    serviceLine :: headLine m.head headOid :: m.refs.entries.map fun e => refLine e.1 e.2
  written : body = (advertisedFrames m headOid).flatMap Frame.bytes
  /-- Four hex digits that are the length. -/
  lengths : ∀ frame ∈ advertisedFrames m headOid, IsHeader (utf8 (hexLen frame.len)) frame.len
  order : (m.refs.keys.map utf8).Pairwise (· < ·)
  readBack : readAdvertisement body = some (m.head, m.refs.entries)

theorem fast_path_advertises_exactly (m : Manifest) (h : fastPathEligible m = true) :
    ∃ headOid body, m.refs.get m.head = some headOid ∧
      buildUploadPackAdvertisement m = some body ∧ AdvertisesExactly m headOid body := by
  obtain ⟨headOid, heligible⟩ := eligible_of_fastPath h
  have hframes := pktFrames_flatMap heligible.frames_fit
  refine ⟨headOid, _, heligible.head, heligible.build_eq, hframes, ?_, rfl, ?_, ?_,
    heligible.readBack⟩
  · rw [pktLines_eq_frames, hframes]
    exact payloads_advertisedFrames m headOid
  · exact fun frame hframe => (heligible.frames_fit frame hframe).isHeader
  · rw [RefMap.keys, List.map_map, List.pairwise_map]
    refine (List.pairwise_iff_forall_sublist.2 fun {a b} hab => ?_)
    have ha : a ∈ m.refs.entries := hab.subset List.mem_cons_self
    have hb : b ∈ m.refs.entries := hab.subset (List.mem_cons_of_mem a List.mem_cons_self)
    refine utf8_lt (refname_ascii (heligible.names a ha)) (refname_ascii (heligible.names b hb)) ?_
    exact List.pairwise_iff_forall_sublist.1 m.refs.sorted hab

/-- Two branches and HEAD. -/
def twoBranches : Manifest where
  version := manifestVersion
  head := mainRef
  refs := (RefMap.empty.insert mainRef (List.replicate 40 'a')).insert devRef
    (List.replicate 40 'b')
  packs := []
  parent := none

theorem fast_path_advertises_exactly_two :
    fastPathEligible twoBranches = true ∧
      ∃ headOid body, twoBranches.refs.get twoBranches.head = some headOid ∧
        buildUploadPackAdvertisement twoBranches = some body ∧
          AdvertisesExactly twoBranches headOid body := by
  have h : fastPathEligible twoBranches = true := by decide +kernel
  exact ⟨h, fast_path_advertises_exactly twoBranches h⟩

end Buzz.Git
