import Mathlib
import Pyleans.Identity
import Pyleans.Library.Sorted

namespace Pyleans

open Library

/-- Decides which silo hosts a new activation. `none` stands for
`NoSilosAvailableError`, raised only on an empty list, and the answer is one
of the silos offered. -/
structure PlacementStrategy where
  className : String
  pickSilo : GrainId → Option SiloAddress → List SiloAddress → Option SiloAddress
  pick_isSome (g : GrainId) (caller : Option SiloAddress) (active : List SiloAddress) :
    active ≠ [] → (pickSilo g caller active).isSome
  pick_mem (g : GrainId) (caller : Option SiloAddress) (active : List SiloAddress)
    (s : SiloAddress) :
    pickSilo g caller active = some s → s ∈ active

/-- The index `random.Random(seed).choice` picks in a list of length `n`,
before reduction to the length. -/
class SeededRandom where
  choiceIndex : ℤ → ℕ → ℕ

abbrev sampleRandom : SeededRandom where
  choiceIndex _ _ := 0

variable [StableHash] [SeededRandom]

def firstAttemptPick (g : GrainId) (active : List SiloAddress) : Option SiloAddress :=
  let sortedSilos := sortedBy SiloAddress.siloId active
  sortedSilos[SeededRandom.choiceIndex (hashGrainId g) sortedSilos.length % sortedSilos.length]?

theorem firstAttemptPick_isSome (g : GrainId) {active : List SiloAddress} (h : active ≠ []) :
    (firstAttemptPick g active).isSome := by
  have hpos := List.length_pos_iff.mpr (sortedBy_ne_nil SiloAddress.siloId h)
  simp only [firstAttemptPick, List.getElem?_eq_getElem (Nat.mod_lt _ hpos), Option.isSome_some]

theorem firstAttemptPick_mem {g : GrainId} {active : List SiloAddress} {s : SiloAddress}
    (h : firstAttemptPick g active = some s) : s ∈ active :=
  (mem_sortedBy SiloAddress.siloId).mp (List.mem_of_getElem? h)

def randomPlacement : PlacementStrategy where
  className := "RandomPlacement"
  pickSilo g _ active := firstAttemptPick g active
  pick_isSome g _ _ h := firstAttemptPick_isSome g h
  pick_mem _ _ _ _ h := firstAttemptPick_mem h

def preferLocalPick (g : GrainId) (caller : Option SiloAddress) (active : List SiloAddress) :
    Option SiloAddress :=
  match caller with
  | some c => if c ∈ active then some c else firstAttemptPick g active
  | none => firstAttemptPick g active

def preferLocalPlacement : PlacementStrategy where
  className := "PreferLocalPlacement"
  pickSilo := preferLocalPick
  pick_isSome g caller active h := by
    unfold preferLocalPick
    split
    · split_ifs
      · rfl
      · exact firstAttemptPick_isSome g h
    · exact firstAttemptPick_isSome g h
  pick_mem g caller active s h := by
    unfold preferLocalPick at h
    split at h
    · split_ifs at h with hc
      · exact Option.some.inj h ▸ hc
      · exact firstAttemptPick_mem h
    · exact firstAttemptPick_mem h

end Pyleans
