import Buzz.Lib.Machine
import Mathlib.Data.Finset.Basic

/-!
# Information flow over reader sets

`ifc-core`. A label names a universe and the principals in it that may read a value.
Information flows to a destination that adds no readers. A computation keeps one label
that every input is joined into, and a flag for input whose label is not known or does
not belong to the same universe.
-/

namespace Buzz.Ifc

open Buzz.Lib

variable {Universe Principal : Type} [DecidableEq Universe] [DecidableEq Principal]

/-- The principals allowed to learn a value within one universe. -/
inductive ReaderSet (Principal : Type) where
  | everyone
  | only (readers : Finset Principal)
deriving DecidableEq

namespace ReaderSet

def canFlowTo : ReaderSet Principal → ReaderSet Principal → Bool
  | everyone, _ => true
  | only _, everyone => false
  | only source, only destination => destination ⊆ source

def join : ReaderSet Principal → ReaderSet Principal → ReaderSet Principal
  | everyone, value => value
  | value, everyone => value
  | only left, only right => only (left ∩ right)

def meet : ReaderSet Principal → ReaderSet Principal → ReaderSet Principal
  | everyone, _ => everyone
  | _, everyone => everyone
  | only left, only right => only (left ∪ right)

end ReaderSet

inductive LabelError where
  | emptyReaderSet
  | crossUniverse
deriving DecidableEq

structure ConfidentialityLabel (Universe Principal : Type) where
  universeId : Universe
  readers : ReaderSet Principal
deriving DecidableEq

namespace ConfidentialityLabel

def canFlowTo (label destination : ConfidentialityLabel Universe Principal) : Bool :=
  label.universeId = destination.universeId && label.readers.canFlowTo destination.readers

def join (label other : ConfidentialityLabel Universe Principal) :
    Except LabelError (ConfidentialityLabel Universe Principal) :=
  if label.universeId ≠ other.universeId then .error .crossUniverse
  else .ok ⟨label.universeId, label.readers.join other.readers⟩

end ConfidentialityLabel

inductive EgressError where
  | unresolvedInput
  | destinationUniverseMismatch
  | destinationWidensReaders
deriving DecidableEq

structure FlowState (Universe Principal : Type) where
  accumulated : Option (ConfidentialityLabel Universe Principal) := none
  unresolvedInput : Bool := false

namespace FlowState

def observe (s : FlowState Universe Principal) (label : ConfidentialityLabel Universe Principal) :
    FlowState Universe Principal :=
  match s.accumulated with
  | none => { s with accumulated := some label }
  | some existing =>
      match existing.join label with
      | .ok combined => { s with accumulated := some combined }
      | .error _ => { s with unresolvedInput := true }

def markUnknown (s : FlowState Universe Principal) : FlowState Universe Principal :=
  { s with unresolvedInput := true }

def checkEgress (s : FlowState Universe Principal)
    (destination : ConfidentialityLabel Universe Principal) : Except EgressError Unit :=
  if s.unresolvedInput then .error .unresolvedInput
  else
    match s.accumulated with
    | none => .ok ()
    | some accumulated =>
        if accumulated.universeId ≠ destination.universeId then
          .error .destinationUniverseMismatch
        else if !accumulated.readers.canFlowTo destination.readers then
          .error .destinationWidensReaders
        else .ok ()

end FlowState

inductive FlowCall (Universe Principal : Type) where
  | observe (label : ConfidentialityLabel Universe Principal)
  | markUnknown

def FlowState.call (s : FlowState Universe Principal) :
    FlowCall Universe Principal → FlowState Universe Principal
  | .observe label => s.observe label
  | .markUnknown => s.markUnknown

def flowMachine (Universe Principal : Type) [DecidableEq Universe] [DecidableEq Principal] :
    Machine (FlowState Universe Principal) (FlowCall Universe Principal) where
  init := {}
  step := FlowState.call

end Buzz.Ifc
