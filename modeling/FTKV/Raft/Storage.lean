import FTKV.Raft.Types

/-!
# Storage and randomness used by a Raft node

A Raft node reaches its environment through two interfaces: the virtual class
`RaftStorage` and the random engine that draws election timeouts.  Both are
interfaces here as well, and the node is generic in them.

## Storage that fails

A call to `save` may throw.  What the node relies on is stated by
`LawfulRaftStorage`: a save that returns is what the next load reads, and a
save that throws leaves the last saved state in place.
-/

namespace FTKV
namespace Raft

/-- What a storage implementation throws: its own errors, or a `RaftError`. -/
inductive StorageFault where
  | storageError (message : String)
  | raftError (message : String)
deriving DecidableEq, Repr

class RaftStorage (storage : Type) where
  load : storage -> Except StorageFault PersistentState
  save : PersistentState -> storage -> Except StorageFault Unit × storage

class LawfulRaftStorage (storage : Type) [RaftStorage storage] : Prop where
  load_of_save_ok : forall (state : PersistentState) (s s' : storage) (u : Unit),
    RaftStorage.save state s = (.ok u, s') -> RaftStorage.load s' = .ok state
  load_of_save_error : forall (state : PersistentState) (s s' : storage)
    (cause : StorageFault), RaftStorage.save state s = (.error cause, s') ->
      RaftStorage.load s' = RaftStorage.load s

/-!
# The in-memory storage
-/

structure InMemoryRaftStorage where
  state : PersistentState := {}
deriving DecidableEq, Repr

instance : RaftStorage InMemoryRaftStorage where
  load storage := .ok storage.state
  save state _ := (.ok (), { state := state })

instance : LawfulRaftStorage InMemoryRaftStorage where
  load_of_save_ok := by
    intro state s s' u hsave
    cases hsave
    rfl
  load_of_save_error := by
    intro state s s' cause hsave
    cases hsave

/-!
# Random election timeouts

The engine is `std::mt19937_64` and the draw is a
`std::uniform_int_distribution`, whose algorithm the language leaves to the
implementation.
-/

class RandomEngine (random : Type) where
  seed : UInt64 -> random
  uniformInt : Int -> Int -> random -> Int × random

class LawfulRandomEngine (random : Type) [RandomEngine random] : Prop where
  minimum_le_uniformInt : forall (minimum maximum : Int) (r : random),
    minimum <= maximum -> minimum <= (RandomEngine.uniformInt minimum maximum r).1
  uniformInt_le_maximum : forall (minimum maximum : Int) (r : random),
    minimum <= maximum -> (RandomEngine.uniformInt minimum maximum r).1 <= maximum

/-- An engine that always draws the least value. -/
structure LeastEngine where
deriving DecidableEq, Repr

instance : RandomEngine LeastEngine where
  seed _ := {}
  uniformInt minimum _ engine := (minimum, engine)

instance : LawfulRandomEngine LeastEngine where
  minimum_le_uniformInt _ _ _ _ := le_refl _
  uniformInt_le_maximum _ _ _ hle := hle

end Raft
end FTKV
