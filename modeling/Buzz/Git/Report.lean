import Buzz.Audit.Hash

/-!
# The report of `git receive-pack`

`receive_pack_report_rejected` of `buzz-relay/src/api/git/transport.rs`, and
what the client reads in the same bytes. The report is a stream of pkt-lines,
each with its length in four hex digits in front. With a side band the lines are
in the payloads of channel 1, which are pkt-lines themselves.
-/

namespace Buzz.Git

def hexByte (b : UInt8) : Option Nat := hexValue (Char.ofNat b.toNat)

/-- `usize::from_str_radix(.., 16)` on four bytes. A sign may come first. -/
def pktLength : List UInt8 → Option Nat
  | [a, b, c, d] =>
      match (if a = 43 then some 0 else hexByte a), hexByte b, hexByte c, hexByte d with
      | some a, some b, some c, some d => some (((a * 16 + b) * 16 + c) * 16 + d)
      | _, _, _, _ => none
  | _ => none

/-- The payloads up to the first frame that is malformed or cut off; every round
takes at least four bytes. -/
def pktLinesLoop : Nat → List UInt8 → List (List UInt8)
  | 0, _ => []
  | fuel + 1, buf =>
      if buf.length < 4 then []
      else
        match pktLength (buf.take 4) with
        | none => []
        | some len =>
            if len < 4 then pktLinesLoop fuel (buf.drop 4)
            else if buf.length < len then []
            else (buf.take len).drop 4 :: pktLinesLoop fuel (buf.drop len)

/-- `PktLineIter`. -/
def pktLines (buf : List UInt8) : List (List UInt8) := pktLinesLoop buf.length buf

def ngPrefix : List UInt8 := [110, 103, 32]

/-- Whether git rejected at least one ref update. -/
def receivePackReportRejected (stdout : List UInt8) : Bool :=
  (pktLines stdout).any fun payload =>
    match payload.head? with
    | some 1 => (pktLines payload.tail).any fun line => decide (ngPrefix <+: line)
    | some 2 => false
    | some 3 => false
    | _ => decide (ngPrefix <+: payload)

/-! ## The client's side -/

/-- The lines a client gets, with the side band it asked for or without. -/
def reportLines (sideBand : Bool) (stdout : List UInt8) : List (List UInt8) :=
  if sideBand then
    pktLines ((pktLines stdout).flatMap fun payload =>
      if payload.head? = some 1 then payload.tail else [])
  else pktLines stdout

/-- The line `ok <ref>`. -/
def okLine (name : List Char) : List UInt8 := Audit.utf8 ("ok ".toList ++ name)

/-- The client is told that the update of this ref went through. -/
def reportsOk (sideBand : Bool) (stdout : List UInt8) (name : List Char) : Bool :=
  (reportLines sideBand stdout).any fun line => line = okLine name || line = okLine name ++ [10]

end Buzz.Git
