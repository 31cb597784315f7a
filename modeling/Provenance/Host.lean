import Provenance.Stage
import Provenance.Version

/-!
# Hosts

A host is the program that runs the transformation. Its version tells whether it reads locations
from the syntax tree or from a map, and whether it calls a transformer with one request or with its
parts. From the first major version on every capability is there.
-/

namespace Provenance

/-- Where a host reads locations: in the tree, or in a map of its own. -/
inductive IntegrationMode where
  | treeLocations
  | standaloneMap
deriving DecidableEq, Repr

/-- How a host calls a transformer. -/
inductive CallConvention where
  | positional
  | packed
deriving DecidableEq, Repr

structure Host where
  version : Version
deriving DecidableEq, Repr

namespace Host

/-- The minor version, before the first major one, from which trees carry locations. -/
def treeLocationsSince : Nat := 52

/-- The minor version, before the first major one, from which calls are packed. -/
def packedCallsSince : Nat := 46

def hasSince (h : Host) (minor : Nat) : Bool := 0 < h.version.major || minor ≤ h.version.minor

def mode (h : Host) : IntegrationMode :=
  if h.hasSince treeLocationsSince then .treeLocations else .standaloneMap

def calls (h : Host) : CallConvention :=
  if h.hasSince packedCallsSince then .packed else .positional

def parse (version : String) : Except VersionError Host := (Version.parse version).map Host.mk

/-- Of the two entries of a transformer, the one that the host calls. -/
def select (h : Host) (packed : Transformer) (positional : PositionalTransformer) : Transformer :=
  match h.calls with
  | .packed => packed
  | .positional => positional.toTransformer

end Host

end Provenance
