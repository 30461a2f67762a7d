import Pyleans.Cluster.DirectoryMessages
import Pyleans.Cluster.Placement

namespace Pyleans

/-- The port `IGrainDirectory`. A call that raises may have changed the directory. -/
structure IGrainDirectory (D Error : Type) where
  register : D → GrainId → SiloAddress → Except Error DirectoryEntry × D
  lookup : D → GrainId → Except Error (Option DirectoryEntry) × D
  unregister : D → GrainId → SiloAddress → Except Error Unit × D
  resolveOrActivate : D → GrainId → PlacementStrategy → Option SiloAddress →
    Except Error DirectoryEntry × D

inductive DirectoryCall
  | register (g : GrainId) (silo : SiloAddress)
  | lookup (g : GrainId)
  | unregister (g : GrainId) (silo : SiloAddress)
  | resolveOrActivate (g : GrainId) (placement : PlacementStrategy) (caller : Option SiloAddress)

inductive DirectoryAnswer
  | entry (e : DirectoryEntry)
  | found (e : Option DirectoryEntry)
  | done
deriving DecidableEq

namespace IGrainDirectory

variable {D Error : Type} (p : IGrainDirectory D Error)

def call (d : D) : DirectoryCall → Except Error DirectoryAnswer × D
  | .register g silo => (p.register d g silo).map (Except.map .entry) id
  | .lookup g => (p.lookup d g).map (Except.map .found) id
  | .unregister g silo => (p.unregister d g silo).map (Except.map fun _ ↦ .done) id
  | .resolveOrActivate g placement caller =>
    (p.resolveOrActivate d g placement caller).map (Except.map .entry) id

def run : D → List DirectoryCall → List (Except Error DirectoryAnswer) × D
  | d, [] => ([], d)
  | d, c :: calls => ((p.call d c).1 :: (run (p.call d c).2 calls).1, (run (p.call d c).2 calls).2)

/-- What a caller of the port relies on: `entry` is what a lookup finds, a grain that
has an entry keeps it on `register` and `resolve_or_activate`, and a call
concerns its own grain only. -/
structure Contract (entry : D → GrainId → Option DirectoryEntry) : Prop where
  lookup : ∀ d g, p.lookup d g = (.ok (entry d g), d)
  register : ∀ d g silo e, entry d g = some e → p.register d g silo = (.ok e, d)
  registered : ∀ d g silo e, (p.register d g silo).1 = .ok e →
    entry (p.register d g silo).2 g = some e
  register_frame : ∀ d g silo, ∀ k ≠ g, entry (p.register d g silo).2 k = entry d k
  resolve : ∀ d g placement caller e, entry d g = some e →
    p.resolveOrActivate d g placement caller = (.ok e, d)
  resolved : ∀ d g placement caller e, (p.resolveOrActivate d g placement caller).1 = .ok e →
    entry (p.resolveOrActivate d g placement caller).2 g = some e
  resolve_frame : ∀ d g placement caller, ∀ k ≠ g,
    entry (p.resolveOrActivate d g placement caller).2 k = entry d k
  unregister_frame : ∀ d g silo, ∀ k ≠ g, entry (p.unregister d g silo).2 k = entry d k

end IGrainDirectory

end Pyleans
