import PipelineWaves.Run.Engine

/-!
# Arrivals

All dispatched steps of a wave are handed over together, and each asks for its permit when
it is first attended to. Permits go to those who ask in the order in which they ask. That
is the order of declaration where one worker attends to everything. Where several do, it
may be any other.
-/

set_option autoImplicit false

namespace PipelineWaves

/-- In which order the dispatched steps of a wave ask for their permits; each asks once. -/
structure Arrival where
  order : List Dispatch → List Dispatch
  perm : ∀ dispatches, (order dispatches).Perm dispatches

namespace Arrival

/-- Steps shared among workers. Whoever gets the first step takes a share of the others
along. They wait until the first one is started, while the rest is attended to. -/
def shared (workers : Nat) : Arrival where
  order
    | [] => []
    | first :: rest =>
        let share := (rest.length + 1) / workers
        first :: (rest.drop share ++ rest.take share)
  perm
    | [] => .refl []
    | first :: rest => by
        have whole := List.take_append_drop ((rest.length + 1) / workers) rest
        exact .cons first (List.perm_append_comm.trans (.of_eq whole))

end Arrival

def Surroundings.arriving {State : Type} (surroundings : Surroundings State)
    (arrival : Arrival) : Surroundings State :=
  { surroundings with
    perform := fun dispatches state => surroundings.perform (arrival.order dispatches) state }

end PipelineWaves
