import Pyleans.Server.Cluster
import Pyleans.Server.ServingSteps

namespace Pyleans.StaleRouting

open Library ServingRuntime

variable {Value : Type} {codec : CallCodec Value} {classes : String → Option GrainTraits}
  {s s' : ServingRuntime Value} {call : ServedCall Value} {task n : ℕ}
    {base : List (ServedCall Value)}

/-- The owner of the grain names this silo as its host. -/
def Placed [StableHash] (s : ServingRuntime Value) (g : GrainId) : Prop :=
  ∃ o ∈ (s.directories s.localSilo).ring.ownerOf (hashGrainId g),
    (s.directories o).NamesSilo g s.localSilo

instance decidablePlaced [StableHash] (s : ServingRuntime Value) (g : GrainId) :
    Decidable (Placed s g) :=
  inferInstanceAs (Decidable (∃ o ∈ (s.directories s.localSilo).ring.ownerOf (hashGrainId g),
    (s.directories o).NamesSilo g s.localSilo))

/-- The grain that a peer's call is due to activate or to run is placed here. -/
def PlacedWhenDue [StableHash] (classes : String → Option GrainTraits) (codec : CallCodec Value)
    (s : ServingRuntime Value) (e : ServingEvent Value) : Prop :=
  ∀ g ∈ due classes codec s e, Placed s g

def getMessage (correlationId : ℕ) : TransportMessage :=
  ⟨.request, correlationId, GRAIN_CALL_HEADER, .empty⟩

def answered : ServedPhase Unit → Option Bool
  | .replied ⟨_, .success _⟩ => some true
  | .replied ⟨_, .failure ..⟩ => some false
  | _ => none

instance decidablePlacedWhenDue [StableHash] (s : ServingRuntime Value) (e : ServingEvent Value) :
    Decidable (PlacedWhenDue classes codec s e) :=
  inferInstanceAs (Decidable (∀ g ∈ due classes codec s e, Placed s g))

def staleCall : List (ServingEvent Unit) :=
  [.deliver 1 (getMessage 1) (.ok ()), .loaded 0 (.ok ()), .take 0, .finish 0 (.ok ()), .resume 0,
    .take 0, .finish 0 (.ok ()), .resume 0]

end Pyleans.StaleRouting
