import Mathlib
import Pyleans.Identity
import Pyleans.Library.Table

namespace Pyleans

open Library

structure DirectoryEntry where
  grainId : GrainId
  silo : SiloAddress
  activationEpoch : ℤ
deriving DecidableEq, Repr

/-- A `dict[GrainId, DirectoryEntry]`. The code files every entry under its own
grain id, so the key is read off the entry. -/
abbrev EntryTable := Table DirectoryEntry.grainId

/-- An arc of the hash ring, open at its start and closed at its end; it wraps
when it starts after its end. -/
structure Arc where
  start : ℤ
  end_ : ℤ
deriving DecidableEq, Repr

def Arc.contains (arc : Arc) (hashPosition : ℤ) : Prop :=
  if arc.start ≤ arc.end_ then arc.start < hashPosition ∧ hashPosition ≤ arc.end_
  else hashPosition > arc.start ∨ hashPosition ≤ arc.end_

instance (arc : Arc) (h : ℤ) : Decidable (arc.contains h) := by unfold Arc.contains; infer_instance

def InArcs (arcs : List Arc) (hashPosition : ℤ) : Prop := ∃ arc ∈ arcs, arc.contains hashPosition

instance (arcs : List Arc) (h : ℤ) : Decidable (InArcs arcs h) := by unfold InArcs; infer_instance

theorem inArcs_append {arcs others : List Arc} {h : ℤ} :
    InArcs (arcs ++ others) h ↔ InArcs arcs h ∨ InArcs others h := by
  simp only [InArcs, List.mem_append, or_and_right, exists_or]

end Pyleans
