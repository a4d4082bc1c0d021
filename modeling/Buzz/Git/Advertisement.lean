import Buzz.Git.Manifest
import Buzz.Git.Report
import Buzz.Lib.PktLine

/-!
# The advertisement of a repository

The fast path of `info/refs` in `buzz-relay/src/api/git/transport.rs`. The body
is built from the published manifest alone, where git would advertise the same:
a manifest with a tag is left to git, since a tag may have to be peeled.
-/

namespace Buzz.Git

open Buzz.Audit (utf8)
open Buzz.Lib (flushPkt hexLen)

/-! ## The relay's side -/

def maxFastPathRefnameLen : Nat := 4096

/-- Whether the manifest can be advertised without git. -/
def fastPathEligible (manifest : Manifest) : Bool :=
  if manifest.refs.keys.any fun r => decide ("refs/tags/".toList <+: r) then false
  else if !manifest.refs.containsKey manifest.head then false
  else
    manifest.refs.entries.all fun e =>
      isSafeRefname e.1 && decide ((utf8 e.1).length ≤ maxFastPathRefnameLen) && isHexOid e.2

def pktLineMaxPayload : Nat := 0xffff - 4

/-- Appends one pkt-line. A payload that is too long is left out. -/
def pktLine (out payload : List UInt8) : List UInt8 :=
  if pktLineMaxPayload < payload.length then out ++ utf8 "0004".toList
  else out ++ utf8 (hexLen (payload.length + 4)) ++ payload

def objectFormat (headOid : Oid) : List Char :=
  if (utf8 headOid).length = 64 then "sha256".toList else "sha1".toList

/-- What the relay offers. -/
def capabilities (head : RefName) (objectFormat : List Char) : List Char :=
  ("multi_ack thin-pack side-band side-band-64k ofs-delta shallow " ++
      "deepen-since deepen-not deepen-relative no-progress include-tag " ++
        "multi_ack_detailed no-done symref=HEAD:").toList ++
    head ++ " object-format=".toList ++ objectFormat ++ " agent=buzz-git".toList

def serviceLine : List UInt8 := utf8 "# service=git-upload-pack\n".toList

/-- The line of HEAD, the only one with capabilities. -/
def headLine (head : RefName) (headOid : Oid) : List UInt8 :=
  utf8 headOid ++ utf8 " HEAD\x00".toList ++
    utf8 (capabilities head (objectFormat headOid)) ++ [10]

def refLine (refname : RefName) (oid : Oid) : List UInt8 :=
  utf8 oid ++ [32] ++ utf8 refname ++ [10]

/-- The body of the response. A head that is no ref would be a panic. -/
def buildUploadPackAdvertisement (manifest : Manifest) : Option (List UInt8) :=
  match manifest.refs.get manifest.head with
  | none => none
  | some headOid =>
      let out := pktLine [] serviceLine ++ flushPkt
      let out := pktLine out (headLine manifest.head headOid)
      let out := manifest.refs.entries.foldl (fun out e => pktLine out (refLine e.1 e.2)) out
      some (out ++ flushPkt)

/-! ## The client's side -/

/-- A flush or another packet without a payload, or a line. -/
inductive Frame where
  | control (len : Nat)
  | line (payload : List UInt8)
deriving DecidableEq

def Frame.payload? : Frame → Option (List UInt8)
  | .control _ => none
  | .line payload => some payload

/-- As `PktLineIter` goes, with the packets it skips and with what is left. -/
def pktFramesLoop : Nat → List UInt8 → List Frame × List UInt8
  | 0, buf => ([], buf)
  | fuel + 1, buf =>
      if buf.length < 4 then ([], buf)
      else
        match pktLength (buf.take 4) with
        | none => ([], buf)
        | some len =>
            if len < 4 then
              let (frames, rest) := pktFramesLoop fuel (buf.drop 4)
              (.control len :: frames, rest)
            else if buf.length < len then ([], buf)
            else
              let (frames, rest) := pktFramesLoop fuel (buf.drop len)
              (.line ((buf.take len).drop 4) :: frames, rest)

def pktFrames (buf : List UInt8) : List Frame × List UInt8 := pktFramesLoop buf.length buf

/-- Bytes that are ASCII, as text. -/
def asciiText (bytes : List UInt8) : List Char := bytes.map fun b => Char.ofNat b.toNat

/-- The branch among the capabilities of the first line. -/
def readHead (payload : List UInt8) : Option RefName :=
  let offer := ((asciiText payload).dropWhile (· ≠ '\x00')).tail.dropLast
  (offer.splitOn ' ').findSome? fun word => ("symref=HEAD:".toList).isPrefixOf? word

/-- A name and an object id, with a blank between them. -/
def readRef (payload : List UInt8) : RefName × Oid :=
  let line := (asciiText payload).dropLast
  ((line.dropWhile (· ≠ ' ')).tail, line.takeWhile (· ≠ ' '))

/-- The head and the refs an advertisement gives. -/
def readAdvertisement (body : List UInt8) : Option (RefName × List (RefName × Oid)) :=
  match pktFrames body with
  | (.line service :: .control 0 :: .line first :: rest, []) =>
      if service = serviceLine ∧ rest.getLast? = some (.control 0) then
        (readHead first).map fun head => (head, (rest.filterMap Frame.payload?).map readRef)
      else none
  | _ => none

end Buzz.Git
