import Mathlib.Data.List.GetD
import Verl.Lib.Python

/-!
# The topology of the NIXL chain

`build_process_group` collects the metadata of all workers, those of the actor
group first, and gives every worker its neighbours.  `build_topology` finds them
with slices that count from the end of the list.  For one rollout worker the
slice that should be empty, `metadata[-rollout_world_size + 1 :]`, is the whole
list, and the manager refuses the topology.
-/

namespace Py

variable {α : Type*}

/-- A bound of a slice.  It counts from the end if it is negative. -/
def bound (length : Nat) (i : Int) : Nat :=
  if i < 0 then (i + length).toNat else min i.toNat length

/-- `xs[start:stop]`. -/
def slice (xs : List α) (start stop : Int) : List α :=
  (xs.take (bound xs.length stop)).drop (bound xs.length start)

/-- `xs[start:]`. -/
def sliceFrom (xs : List α) (start : Int) : List α := xs.drop (bound xs.length start)

/-- `xs[i]`, where `i` counts from the end if it is negative. -/
def getItemInt (xs : List α) (i : Int) : Except Error α :=
  if 0 ≤ i then getItem xs i.toNat
  else if i.natAbs ≤ xs.length then getItem xs (xs.length - i.natAbs)
  else .error .index

theorem bound_neg {length k : Nat} (hk : 0 < k) : bound length (-(k : Int)) = length - k := by
  rw [bound, if_pos (by omega)]
  omega

theorem bound_nonneg (length k : Nat) : bound length (k : Int) = min k length := by
  rw [bound, if_neg (by omega)]
  rfl

end Py

namespace Verl

/-! ## Building the topology -/

/-- `NixlAgentMetadata`.  The name of the agent tells one from another. -/
structure NixlAgentMetadata where
  agentName : String
deriving DecidableEq

/-- The keyword arguments of `init_process_group`, one entry for each worker. -/
structure NixlKwargs where
  rank : List Int
  worldSize : List Int
  prevAgentMetadata : List (Option NixlAgentMetadata)
  nextAgentMetadata : List (Option NixlAgentMetadata)
deriving DecidableEq

/-- `NIXLCheckpointEngine.build_topology`. -/
def buildTopology (actorWgWorldSize rolloutWorldSize : Nat) (metadata : List NixlAgentMetadata) :
    Except Py.Error (NixlKwargs × NixlKwargs) := do
  let next ← Py.getItemInt metadata (-(rolloutWorldSize : Int))
  let first ← Py.getItem metadata 0
  return (
    { rank := [0] ++ List.replicate (actorWgWorldSize - 1) (-1)
      worldSize := List.replicate actorWgWorldSize (rolloutWorldSize + 1)
      prevAgentMetadata := List.replicate actorWgWorldSize none
      nextAgentMetadata := [some next] ++ List.replicate (actorWgWorldSize - 1) none },
    { rank := (List.range rolloutWorldSize).map fun i : Nat => (i : Int) + 1
      worldSize := List.replicate rolloutWorldSize (rolloutWorldSize + 1)
      prevAgentMetadata := [some first] ++
        (Py.slice metadata (-(rolloutWorldSize : Int)) (-1)).map some
      nextAgentMetadata :=
        (Py.sliceFrom metadata (-(rolloutWorldSize : Int) + 1)).map some ++ [none] })

/-! ## Joining the group -/

/-- What `init_process_group` sets on the engine. -/
structure NixlGroup where
  rank : Int
  worldSize : Int
  prevAgent : Option NixlAgentMetadata
  nextAgent : Option NixlAgentMetadata
deriving DecidableEq

/-- `NIXLCheckpointEngine.init_process_group`. -/
def initProcessGroup (rank worldSize : Int) (prev next : Option NixlAgentMetadata) :
    Except Py.Error NixlGroup := do
  if rank < 0 then
    Py.check (prev = none ∧ next = none) "should not have prev_agent_metadata or next_agent_metadata"
  else if rank = 0 then
    Py.check (prev = none ∧ next ≠ none) "should have next_agent_metadata"
  else if rank < worldSize - 1 then
    Py.check (prev ≠ none ∧ next ≠ none) "should have prev_agent_metadata and next_agent_metadata"
  else if rank = worldSize - 1 then
    Py.check (prev ≠ none ∧ next = none)
      "should have prev_agent_metadata and not next_agent_metadata"
  return ⟨rank, worldSize, prev, next⟩

/-- `assert len(v) == worker_group.world_size`, for every argument. -/
def NixlKwargs.check (kwargs : NixlKwargs) (worldSize : Nat) : Except Py.Error Unit := do
  Py.check (kwargs.rank.length = worldSize) "rank must have length of the world size"
  Py.check (kwargs.worldSize.length = worldSize) "world_size must have length of the world size"
  Py.check (kwargs.prevAgentMetadata.length = worldSize)
    "prev_agent_metadata must have length of the world size"
  Py.check (kwargs.nextAgentMetadata.length = worldSize)
    "next_agent_metadata must have length of the world size"

/-- Every worker joins with its own arguments. -/
def NixlKwargs.join (kwargs : NixlKwargs) : Except Py.Error (List NixlGroup) :=
  ((kwargs.rank.zip kwargs.worldSize).zip
      (kwargs.prevAgentMetadata.zip kwargs.nextAgentMetadata)).mapM fun p =>
    initProcessGroup p.1.1 p.1.2 p.2.1 p.2.2

/-- `CheckpointEngineManager.build_process_group`, once the workers are prepared. -/
def buildProcessGroup (actorWgWorldSize rolloutWorldSize : Nat)
    (metadata : List NixlAgentMetadata) :
    Except Py.Error (List NixlGroup × List NixlGroup) := do
  let (actorWgKwargs, rolloutKwargs) ← buildTopology actorWgWorldSize rolloutWorldSize metadata
  actorWgKwargs.check actorWgWorldSize
  rolloutKwargs.check rolloutWorldSize
  let actors ← actorWgKwargs.join
  let rollouts ← rolloutKwargs.join
  return (actors, rollouts)

/-! ## The chain -/

/-- The agents by rank: rank 0 is the first actor worker, the others are the
rollout workers. -/
def agentsByRank (actorWgWorldSize : Nat) (metadata : List NixlAgentMetadata) :
    List NixlAgentMetadata :=
  metadata.take 1 ++ metadata.drop actorWgWorldSize

section Topology

variable {actors rollouts : Nat} {metadata : List NixlAgentMetadata}

/-- Behind the first agent come the rollout workers. -/
theorem agentsByRank_succ (hactors : 0 < actors) (hlength : metadata.length = actors + rollouts)
    (i : Nat) : (agentsByRank actors metadata)[i + 1]? = metadata[actors + i]? := by
  have htake : (metadata.take 1).length = 1 := by
    rw [List.length_take]
    omega
  rw [agentsByRank, List.getElem?_append_right (by omega), htake, List.getElem?_drop]
  rfl

theorem agentsByRank_zero (hactors : 0 < actors) (hlength : metadata.length = actors + rollouts) :
    (agentsByRank actors metadata)[0]? = metadata[0]? := by
  rw [agentsByRank, List.getElem?_append_left (by rw [List.length_take]; omega),
    List.getElem?_take_of_lt Nat.one_pos]

theorem length_agentsByRank (hactors : 0 < actors)
    (hlength : metadata.length = actors + rollouts) :
    (agentsByRank actors metadata).length = rollouts + 1 := by
  rw [agentsByRank, List.length_append, List.length_take, List.length_drop]
  omega

/-- The metadata before each rollout worker. -/
theorem prev_eq (hactors : 0 < actors) (hrollouts : 0 < rollouts)
    (hlength : metadata.length = actors + rollouts) {first : NixlAgentMetadata}
    (hfirst : metadata[0]? = some first) :
    [some first] ++ (Py.slice metadata (-(rollouts : Int)) (-1)).map some =
      (List.range rollouts).map fun i => (agentsByRank actors metadata)[i]? := by
  have hstart : Py.bound metadata.length (-(rollouts : Int)) = actors := by
    rw [Py.bound_neg hrollouts]
    omega
  have hstop : Py.bound metadata.length (-1) = actors + rollouts - 1 := by
    rw [show (-1 : Int) = -((1 : Nat) : Int) from rfl, Py.bound_neg Nat.one_pos, hlength]
  rw [Py.slice, hstart, hstop]
  refine List.ext_getElem? fun i => ?_
  cases i with
  | zero =>
      rw [List.getElem?_map, List.getElem?_range hrollouts, Option.map_some,
        agentsByRank_zero hactors hlength, hfirst]
      rfl
  | succ i =>
      rw [List.singleton_append, List.getElem?_cons_succ, List.getElem?_map, List.getElem?_drop,
        List.getElem?_map]
      by_cases hi : i + 1 < rollouts
      · rw [List.getElem?_range hi, Option.map_some, agentsByRank_succ hactors hlength,
          List.getElem?_take_of_lt (by omega), List.getElem?_eq_getElem (by omega)]
        rfl
      · rw [List.getElem?_eq_none (by rw [List.length_take]; omega),
          List.getElem?_eq_none (by rw [List.length_range]; omega)]
        rfl

/-- The metadata behind each rollout worker, if there is more than one. -/
theorem next_eq (hactors : 0 < actors) (hrollouts : 1 < rollouts)
    (hlength : metadata.length = actors + rollouts) :
    (Py.sliceFrom metadata (-(rollouts : Int) + 1)).map some ++ [none] =
      (List.range rollouts).map fun i => (agentsByRank actors metadata)[i + 2]? := by
  have hstart : Py.bound metadata.length (-(rollouts : Int) + 1) = actors + 1 := by
    rw [show -(rollouts : Int) + 1 = -((rollouts - 1 : Nat) : Int) by omega,
      Py.bound_neg (by omega)]
    omega
  rw [Py.sliceFrom, hstart]
  refine List.ext_getElem? fun i => ?_
  rw [List.getElem?_map]
  by_cases hi : i + 1 < rollouts
  · rw [List.getElem?_append_left (by rw [List.length_map, List.length_drop]; omega),
      List.getElem?_map, List.getElem?_drop, List.getElem?_range (by omega), Option.map_some,
      agentsByRank_succ hactors hlength, List.getElem?_eq_getElem (by omega),
      List.getElem?_eq_getElem (by omega)]
    simp only [Option.map_some, Nat.add_assoc, Nat.add_comm 1 i]
  · have hlast : ((metadata.drop (actors + 1)).map some).length = rollouts - 1 := by
      rw [List.length_map, List.length_drop]
      omega
    rw [List.getElem?_append_right (by omega), hlast]
    by_cases hi' : i < rollouts
    · rw [List.getElem?_range hi', Option.map_some, agentsByRank_succ hactors hlength,
        List.getElem?_eq_none (show metadata.length ≤ actors + (i + 1) by omega),
        show i - (rollouts - 1) = 0 by omega]
      rfl
    · rw [List.getElem?_eq_none (show [none].length ≤ i - (rollouts - 1) by
          rw [List.length_singleton]; omega),
        List.getElem?_eq_none (by rw [List.length_range]; omega)]
      rfl

/-- The groups of the actor workers.  The first one leads the chain, the others are
not part of it. -/
def actorGroups (actors rollouts : Nat) (metadata : List NixlAgentMetadata) : List NixlGroup :=
  ⟨0, rollouts + 1, none, (agentsByRank actors metadata)[1]?⟩ ::
    List.replicate (actors - 1) ⟨-1, rollouts + 1, none, none⟩

/-- The groups of the rollout workers: each stands between the agent of the rank before
it and that of the rank behind it. -/
def rolloutGroups (actors rollouts : Nat) (metadata : List NixlAgentMetadata) : List NixlGroup :=
  (List.range rollouts).map fun i : Nat =>
    ⟨(i : Int) + 1, rollouts + 1, (agentsByRank actors metadata)[i]?,
      (agentsByRank actors metadata)[i + 2]?⟩

theorem initProcessGroup_outside (worldSize : Int) :
    initProcessGroup (-1) worldSize none none = .ok ⟨-1, worldSize, none, none⟩ := rfl

theorem initProcessGroup_first (worldSize : Int) (next : NixlAgentMetadata) :
    initProcessGroup 0 worldSize none (some next) = .ok ⟨0, worldSize, none, some next⟩ := rfl

theorem NixlKwargs.check_eq_ok {kwargs : NixlKwargs} {worldSize : Nat}
    (hrank : kwargs.rank.length = worldSize) (hworld : kwargs.worldSize.length = worldSize)
    (hprev : kwargs.prevAgentMetadata.length = worldSize)
    (hnext : kwargs.nextAgentMetadata.length = worldSize) : kwargs.check worldSize = .ok () := by
  simp [NixlKwargs.check, Py.check, hrank, hworld, hprev, hnext]

theorem NixlKwargs.check_eq_error {kwargs : NixlKwargs} {worldSize : Nat}
    (hrank : kwargs.rank.length = worldSize) (hworld : kwargs.worldSize.length = worldSize)
    (hprev : kwargs.prevAgentMetadata.length = worldSize)
    (hnext : kwargs.nextAgentMetadata.length ≠ worldSize) :
    kwargs.check worldSize =
      .error (.assertion "next_agent_metadata must have length of the world size") := by
  simp [NixlKwargs.check, Py.check, hrank, hworld, hprev, hnext]

/-- The actor workers accept the arguments that they are given. -/
theorem join_actors {first : NixlAgentMetadata} (n : Nat) :
    NixlKwargs.join
      ⟨[0] ++ List.replicate n (-1), List.replicate (n + 1) ((rollouts : Int) + 1),
        List.replicate (n + 1) none, [some first] ++ List.replicate n none⟩ =
      .ok (⟨0, rollouts + 1, none, some first⟩ ::
        List.replicate n ⟨-1, rollouts + 1, none, none⟩) := by
  have hrest : (List.replicate n (((-1 : Int), (rollouts : Int) + 1),
      ((none : Option NixlAgentMetadata), (none : Option NixlAgentMetadata)))).mapM (fun p =>
        initProcessGroup p.1.1 p.1.2 p.2.1 p.2.2) =
      .ok (List.replicate n ⟨-1, rollouts + 1, none, none⟩) := by
    induction n with
    | zero => rfl
    | succ n ih =>
        rw [List.replicate_succ, List.mapM_cons, ih, initProcessGroup_outside]
        rfl
  simp only [NixlKwargs.join, List.replicate_succ, List.singleton_append, List.zip_cons_cons,
    List.zip_replicate', List.mapM_cons, initProcessGroup_first, hrest]
  rfl

/-- The rollout workers accept the arguments of a chain. -/
theorem join_rollouts (hactors : 0 < actors)
    (hlength : metadata.length = actors + rollouts) :
    NixlKwargs.join
      ⟨(List.range rollouts).map fun i : Nat => (i : Int) + 1,
        List.replicate rollouts ((rollouts : Int) + 1),
        (List.range rollouts).map fun i => (agentsByRank actors metadata)[i]?,
        (List.range rollouts).map fun i => (agentsByRank actors metadata)[i + 2]?⟩ =
      .ok (rolloutGroups actors rollouts metadata) := by
  have hworld : List.replicate rollouts ((rollouts : Int) + 1) =
      (List.range rollouts).map fun _ => (rollouts : Int) + 1 := by
    rw [List.map_const', List.length_range]
  rw [NixlKwargs.join, hworld, List.zip_map', List.zip_map', List.zip_map', rolloutGroups]
  refine Py.mapM_map_eq_ok fun i hi => ?_
  have hlast := length_agentsByRank hactors hlength
  have hi := List.mem_range.mp hi
  obtain ⟨prev, hprev⟩ : ∃ prev, (agentsByRank actors metadata)[i]? = some prev :=
    ⟨_, List.getElem?_eq_getElem (by omega)⟩
  have hpos : ¬ ((i : Int) + 1 < 0) := by omega
  have hne : ¬ ((i : Int) + 1 = 0) := by omega
  by_cases hmid : i + 1 < rollouts
  · obtain ⟨next, hnext⟩ : ∃ next, (agentsByRank actors metadata)[i + 2]? = some next :=
      ⟨_, List.getElem?_eq_getElem (by omega)⟩
    have hbefore : (i : Int) + 1 < rollouts + 1 - 1 := by omega
    simp only [initProcessGroup, if_neg hpos, if_neg hne, if_pos hbefore, hprev, hnext]
    rfl
  · have hnext : (agentsByRank actors metadata)[i + 2]? = none :=
      List.getElem?_eq_none (by omega)
    have hbefore : ¬ ((i : Int) + 1 < rollouts + 1 - 1) := by omega
    have hend : (i : Int) + 1 = rollouts + 1 - 1 := by omega
    simp only [initProcessGroup, if_neg hpos, if_neg hne, if_neg hbefore, if_pos hend, hprev,
      hnext]
    rfl

/-- The first element of `metadata`, and the first of the rollout workers. -/
theorem getItem_metadata (hactors : 0 < actors) (hrollouts : 0 < rollouts)
    (hlength : metadata.length = actors + rollouts) :
    ∃ first next, metadata[0]? = some first ∧ Py.getItem metadata 0 = .ok first ∧
      (agentsByRank actors metadata)[1]? = some next ∧
      Py.getItemInt metadata (-(rollouts : Int)) = .ok next := by
  obtain ⟨first, hfirst⟩ : ∃ first, metadata[0]? = some first :=
    ⟨_, List.getElem?_eq_getElem (by omega)⟩
  obtain ⟨next, hnext⟩ : ∃ next, metadata[actors]? = some next :=
    ⟨_, List.getElem?_eq_getElem (by omega)⟩
  refine ⟨first, next, hfirst, by rw [Py.getItem, hfirst], ?_, ?_⟩
  · rw [agentsByRank_succ hactors hlength, Nat.add_zero, hnext]
  · rw [Py.getItemInt, if_neg (by omega), if_pos (by omega), Py.getItem,
      show metadata.length - (-(rollouts : Int)).natAbs = actors by omega, hnext]

/-- For one rollout worker the slice of the agents behind it is the whole list. -/
theorem sliceFrom_one : Py.sliceFrom metadata (-((1 : Nat) : Int) + 1) = metadata := by
  rw [Py.sliceFrom, show -((1 : Nat) : Int) + 1 = ((0 : Nat) : Int) from rfl, Py.bound_nonneg,
    Nat.zero_min]
  rfl

/-- `build_process_group` forms the chain exactly if there is not one rollout worker
alone.  That worker would be the end of the chain, and the manager refuses the list of
the agents behind it. -/
theorem nixl_topology (actors rollouts : Nat) (metadata : List NixlAgentMetadata)
    (hactors : 0 < actors) (hrollouts : 0 < rollouts)
    (hlength : metadata.length = actors + rollouts) :
    buildProcessGroup actors rollouts metadata =
      if rollouts = 1 then
        .error (.assertion "next_agent_metadata must have length of the world size")
      else .ok (actorGroups actors rollouts metadata, rolloutGroups actors rollouts metadata) := by
  obtain ⟨first, next, hfirst, hitem, hnext, hitemNext⟩ :=
    getItem_metadata hactors hrollouts hlength
  obtain ⟨n, rfl⟩ : ∃ n, actors = n + 1 := ⟨actors - 1, by omega⟩
  have hrange : ((List.range rollouts).map fun i : Nat => (i : Int) + 1).length = rollouts := by
    simp
  simp only [buildProcessGroup, buildTopology, hitem, hitemNext, Py.ok_bind, Py.pure_eq_ok,
    prev_eq hactors hrollouts hlength hfirst, Nat.add_sub_cancel]
  rw [NixlKwargs.check_eq_ok (by simp) (by simp) (by simp) (by simp), Py.ok_bind]
  by_cases hone : rollouts = 1
  · subst hone
    -- all the agents and `None` stand in the place of one neighbour
    have hlong : ((Py.sliceFrom metadata (-((1 : Nat) : Int) + 1)).map some ++ [none]).length ≠
        1 := by
      rw [sliceFrom_one, List.length_append, List.length_map, List.length_singleton]
      omega
    rw [NixlKwargs.check_eq_error hrange (by simp) (by simp) hlong, if_pos rfl]
    rfl
  · have hmany : 1 < rollouts := by omega
    rw [next_eq hactors hmany hlength,
      NixlKwargs.check_eq_ok hrange (by simp) (by simp) (by simp), Py.ok_bind, join_actors,
      Py.ok_bind, join_rollouts hactors hlength, Py.ok_bind, if_neg hone, actorGroups, hnext,
      Nat.add_sub_cancel]

/-- Two actor workers and three rollout workers. -/
theorem nixl_topology_two_three :
    buildProcessGroup 2 3 [⟨"a0"⟩, ⟨"a1"⟩, ⟨"r0"⟩, ⟨"r1"⟩, ⟨"r2"⟩] = .ok
      ([⟨0, 4, none, some ⟨"r0"⟩⟩, ⟨-1, 4, none, none⟩],
        [⟨1, 4, some ⟨"a0"⟩, some ⟨"r1"⟩⟩, ⟨2, 4, some ⟨"r0"⟩, some ⟨"r2"⟩⟩,
          ⟨3, 4, some ⟨"r1"⟩, none⟩]) :=
  nixl_topology 2 3 [⟨"a0"⟩, ⟨"a1"⟩, ⟨"r0"⟩, ⟨"r1"⟩, ⟨"r2"⟩] (by decide) (by decide) rfl

end Topology

end Verl
