import Pyleans.Cluster.DirectoryMessages
import Pyleans.Cluster.HashRing

namespace Pyleans

open Library

section Arcs

variable [StableHash]

def oldRingOwnerOfArc (oldRing : ConsistentHashRing) (arc : Arc) : Option SiloAddress :=
  oldRing.ownerOf arc.end_

def newArcAt (oldRing : Option ConsistentHashRing) (newPositions : List RingPosition)
    (localSilo : SiloAddress) (node : RingPosition) (i : ℕ) : Option Arc :=
  if node.silo ≠ localSilo then none
  else
    (newPositions[cyclicPrev newPositions.length i]?).bind fun prev ↦
      let arc : Arc := ⟨prev.position, node.position⟩
      match oldRing with
      | none => some arc
      | some oldRing => if oldRingOwnerOfArc oldRing arc ≠ some localSilo then some arc else none

def computeNewArcs (oldRing : Option ConsistentHashRing) (newRing : ConsistentHashRing)
    (localSilo : SiloAddress) : List Arc :=
  let newPositions := newRing.positions
  newPositions.zipIdx.filterMap fun p ↦ newArcAt oldRing newPositions localSilo p.1 p.2

end Arcs

abbrev Loser := SiloAddress × GrainId × ℤ

def loserOf (entry : DirectoryEntry) : Loser := (entry.silo, entry.grainId, entry.activationEpoch)

def mergeCandidate (acc : EntryTable × List Loser) (entry : DirectoryEntry) :
    EntryTable × List Loser :=
  match acc.1.get entry.grainId with
  | none => (acc.1.put entry, acc.2)
  | some current =>
    if entry.activationEpoch < current.activationEpoch then
      (acc.1.put entry, acc.2 ++ [loserOf current])
    else if entry.activationEpoch > current.activationEpoch then
      if entry.silo ≠ current.silo then (acc.1, acc.2 ++ [loserOf entry]) else acc
    else if entry.silo ≠ current.silo then
      if entry.silo.siloId < current.silo.siloId then (acc.1.put entry, acc.2 ++ [loserOf current])
      else (acc.1, acc.2 ++ [loserOf entry])
    else acc

def mergeRebuildCandidates (candidates : List DirectoryEntry) (existing : EntryTable) :
    EntryTable × List Loser :=
  candidates.foldl mergeCandidate (existing, [])

structure RebuildTask where
  arcs : List Arc
  peers : List SiloAddress
  existingEntries : EntryTable

/-- The responses of the peers that answered, in the order of the peers. A
query that failed counts as no entries. -/
def collectCandidates (peers : List SiloAddress)
    (responses : SiloAddress → Option (List DirectoryEntry)) :
    List DirectoryEntry :=
  peers.flatMap fun peer ↦ (responses peer).getD []

/-- What a finished rebuild installs and whom it deactivates; `none` when there
was nothing to do. -/
def RebuildTask.run (task : RebuildTask) (responses : SiloAddress → Option (List DirectoryEntry)) :
    Option (EntryTable × List Loser) :=
  if task.arcs.isEmpty ∨ task.peers.isEmpty then none
  else some (mergeRebuildCandidates (collectCandidates task.peers responses) task.existingEntries)

end Pyleans
