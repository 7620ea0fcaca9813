import Verl.LLMServer.InflightCounts

/-!
# Hybrid replicas

`FullyAsyncLLMServerManager` has standalone replicas, which always serve, and hybrid
replicas, which are added to the load balancer and removed from it.  It keeps seven
collections, and the balancer keeps its own.  What is alive determines all of them
(`ServerManager.Tracks`).

A call that reaches the balancer changes the balancer first and the collections one
replica after the other, up to the first exception, which is swallowed.
-/

namespace Verl.LLMServer

open Py (Dict)

/-! ## The source functions -/

/-- `RolloutReplica`.  No two replicas have one rank, so two of them are the same object
when their ranks are equal. -/
structure RolloutReplica (H : Type) where
  replicaRank : Nat
  serverAddress : String
  serverHandle : H

/-- The collections of `FullyAsyncLLMServerManager`. -/
structure ServerManager (H : Type) where
  hybridReplicas : Dict String (RolloutReplica H)
  aliveReplicas : Dict String (RolloutReplica H)
  aliveAddresses : Dict String String
  rolloutReplicas : List (RolloutReplica H)
  serverHandles : List H
  serverAddresses : List String

variable {H C : Type}

/-- The address and the handle of a server. -/
def RolloutReplica.server (replica : RolloutReplica H) : String × H :=
  (replica.serverAddress, replica.serverHandle)

/-- The replicas of these servers, with ranks from `startRank` on. -/
def replicasFrom (startRank : Nat) (servers : List (String × H)) : List (RolloutReplica H) :=
  (servers.zipIdx startRank).map fun e => ⟨e.2, e.1.1, e.1.2⟩

/-- `resource_id`. -/
def resourceId (i : Nat) : String := s!"hybrid_{i}"

/-- `_initialize_llm_servers`: the hybrid replicas sleep. -/
def initializeLlmServers (hybridServers standaloneServers : List (String × H)) : ServerManager H :=
  let hybrid := replicasFrom 0 hybridServers
  let standalone := replicasFrom hybrid.length standaloneServers
  { hybridReplicas := Dict.empty.update (hybrid.zipIdx.map fun e => (resourceId e.2, e.1))
    aliveReplicas := Dict.empty
    aliveAddresses := Dict.empty
    rolloutReplicas := standalone
    serverHandles := standalone.map RolloutReplica.serverHandle
    serverAddresses := standalone.map RolloutReplica.serverAddress }

namespace ServerManager

/-- The loop of `add_replicas` over the ids: `servers_to_add` and `valid_resource_ids`. -/
def collectToAdd (m : ServerManager H) :
    List String → Dict String H × List String → Dict String H × List String
  | [], acc => acc
  | rid :: rids, (serversToAdd, validResourceIds) =>
      if rid ∈ m.aliveReplicas.keys then m.collectToAdd rids (serversToAdd, validResourceIds)
      else
        match m.hybridReplicas.get? rid with
        | none => m.collectToAdd rids (serversToAdd, validResourceIds)
        | some replica =>
            m.collectToAdd rids (serversToAdd.set replica.serverAddress replica.serverHandle,
              validResourceIds ++ [rid])

/-- The loop of `remove_replicas` over the ids: `server_ids_to_remove` and
`valid_resource_ids`. -/
def collectToRemove (m : ServerManager H) : List String →
    Except Py.Error (List String × List String)
  | [] => .ok ([], [])
  | rid :: rids =>
      if rid ∈ m.aliveReplicas.keys then
        match m.aliveAddresses.get? rid with
        | none => .error .key
        | some serverAddress => do
            let (serverIdsToRemove, validResourceIds) ← m.collectToRemove rids
            return (serverAddress :: serverIdsToRemove, rid :: validResourceIds)
      else m.collectToRemove rids

/-- `self.server_handles.append(..)` and `self.server_addresses.append(..)`. -/
def appendServer (m : ServerManager H) (replica : RolloutReplica H) : ServerManager H :=
  if replica.serverAddress ∈ m.serverAddresses then m
  else
    { m with
      serverHandles := m.serverHandles ++ [replica.serverHandle]
      serverAddresses := m.serverAddresses ++ [replica.serverAddress] }

/-- `self.rollout_replicas.append(replica)`. -/
def appendReplica (m : ServerManager H) (replica : RolloutReplica H) : ServerManager H :=
  if ∃ other ∈ m.rolloutReplicas, other.replicaRank = replica.replicaRank then m
  else { m with rolloutReplicas := m.rolloutReplicas ++ [replica] }

/-- `add_replicas`: one id after the balancer has its server.  A function that raises also
gives the state that it leaves. -/
def trackAdded (m : ServerManager H) (rid : String) : Except Py.Error Unit × ServerManager H :=
  match m.hybridReplicas.get? rid with
  | none => (.error .key, m)
  | some replica =>
      let m := (m.appendServer replica).appendReplica replica
      (.ok (),
        { m with
          aliveReplicas := m.aliveReplicas.set rid replica
          aliveAddresses := m.aliveAddresses.set rid replica.serverAddress })

/-- `self.server_addresses.pop(idx)` and `self.server_handles.pop(idx)`. -/
def popServer (m : ServerManager H) (serverAddress : String) :
    Except Py.Error Unit × ServerManager H :=
  if serverAddress ∈ m.serverAddresses then
    let idx := m.serverAddresses.idxOf serverAddress
    let m := { m with serverAddresses := m.serverAddresses.eraseIdx idx }
    if idx < m.serverHandles.length then
      (.ok (), { m with serverHandles := m.serverHandles.eraseIdx idx })
    else (.error .index, m)
  else (.ok (), m)

/-- `remove_replicas`: one id after the balancer has lost its server. -/
def trackRemoved (m : ServerManager H) (rid : String) : Except Py.Error Unit × ServerManager H :=
  match m.aliveAddresses.get? rid, m.aliveReplicas.get? rid with
  | some serverAddress, some replica =>
      match m.popServer serverAddress with
      | (.error e, m) => (.error e, m)
      | (.ok _, m) =>
          (.ok (),
            { m with
              rolloutReplicas :=
                m.rolloutReplicas.eraseP fun other => other.replicaRank = replica.replicaRank
              aliveReplicas := m.aliveReplicas.pop rid
              aliveAddresses := m.aliveAddresses.pop rid })
  | _, _ => (.error .key, m)

/-- The ids one after the other, up to the first exception. -/
def trackAll (track : ServerManager H → String → Except Py.Error Unit × ServerManager H) :
    List String → ServerManager H → Except Py.Error Unit × ServerManager H
  | [], m => (.ok (), m)
  | rid :: rids, m =>
      match track m rid with
      | (.error e, m) => (.error e, m)
      | (.ok _, m) => trackAll track rids m

/-- `get_active_server_count`. -/
def getActiveServerCount (m : ServerManager H) : Nat :=
  m.rolloutReplicas.length + m.aliveReplicas.keys.length

end ServerManager

/-- The manager and the balancer. -/
structure HybridServing (H C : Type) where
  manager : ServerManager H
  balancer : LoadBalancer H C

/-- `create`. -/
def create (hybridServers standaloneServers : List (String × H)) (empty : C)
    (fullDeterminism : Bool) : Except Py.Error (HybridServing H C) := do
  let manager := initializeLlmServers hybridServers standaloneServers
  let balancer ← init
    (Dict.empty.update (manager.serverAddresses.zip manager.serverHandles)) empty fullDeterminism
  return ⟨manager, balancer⟩

namespace HybridServing

/-- The end of a call that reached the balancer: an exception is swallowed. -/
def swallow (validResourceIds : List String) (balancer : LoadBalancer H C) :
    Except Py.Error Unit × ServerManager H → Except Py.Error Nat × HybridServing H C
  | (.ok _, m) => (.ok validResourceIds.length, ⟨m, balancer⟩)
  | (.error _, m) => (.ok 0, ⟨m, balancer⟩)

/-- `add_replicas`; `balancerOk` says whether the call of the balancer succeeds. -/
def addReplicas (s : HybridServing H C) (resourceIds : List String) (balancerOk : Bool) :
    Except Py.Error Nat × HybridServing H C :=
  let (serversToAdd, validResourceIds) := s.manager.collectToAdd resourceIds (Dict.empty, [])
  if serversToAdd.entries.isEmpty then (.ok 0, s)
  else if balancerOk then
    swallow validResourceIds (s.balancer.addServers serversToAdd)
      (ServerManager.trackAll ServerManager.trackAdded validResourceIds s.manager)
  else (.ok 0, s)

/-- `remove_replicas`. -/
def removeReplicas (s : HybridServing H C) (resourceIds : List String) (balancerOk : Bool) :
    Except Py.Error Nat × HybridServing H C :=
  match s.manager.collectToRemove resourceIds with
  | .error e => (.error e, s)
  | .ok (serverIdsToRemove, validResourceIds) =>
      if serverIdsToRemove.isEmpty then (.ok 0, s)
      else if balancerOk then
        swallow validResourceIds (s.balancer.removeServers serverIdsToRemove)
          (ServerManager.trackAll ServerManager.trackRemoved validResourceIds s.manager)
      else (.ok 0, s)

end HybridServing

/-- A call of the manager. -/
inductive Call where
  | addReplicas (resourceIds : List String) (balancerOk : Bool)
  | removeReplicas (resourceIds : List String) (balancerOk : Bool)

/-- What a call returns, and the state after it. -/
def HybridServing.call (s : HybridServing H C) : Call → Except Py.Error Nat × HybridServing H C
  | .addReplicas resourceIds balancerOk => s.addReplicas resourceIds balancerOk
  | .removeReplicas resourceIds balancerOk => s.removeReplicas resourceIds balancerOk

/-- The calls one after the other. -/
def HybridServing.nextCall (s : HybridServing H C) (c : Call) : Option (HybridServing H C) :=
  some (s.call c).2

/-! ## What the collections say -/

namespace ServerManager

/-- The hybrid replicas that are active. -/
def alive (m : ServerManager H) : List (RolloutReplica H) := m.aliveReplicas.entries.map Prod.snd

/-- The number of replicas that a call has added or removed. -/
def changed (before after : ServerManager H) : Nat :=
  (before.hybridReplicas.keys.filter fun rid =>
    decide (rid ∈ before.aliveReplicas.keys) != decide (rid ∈ after.aliveReplicas.keys)).length

/-- What the alive replicas determine. -/
structure Tracks (standalone : List (RolloutReplica H)) (hybrid : Dict String (RolloutReplica H))
    (m : ServerManager H) : Prop where
  hybridReplicas : m.hybridReplicas = hybrid
  registered : ∀ e ∈ m.aliveReplicas.entries, e ∈ hybrid.entries
  aliveAddresses : m.aliveAddresses = m.aliveReplicas.mapValues RolloutReplica.serverAddress
  rolloutReplicas : m.rolloutReplicas = standalone ++ m.alive
  serverHandles : m.serverHandles = (standalone ++ m.alive).map RolloutReplica.serverHandle
  serverAddresses : m.serverAddresses = (standalone ++ m.alive).map RolloutReplica.serverAddress

end ServerManager

/-- No two replicas have one value. -/
def Distinguishes {β : Type} (f : RolloutReplica H → β) (standalone : List (RolloutReplica H))
    (hybrid : Dict String (RolloutReplica H)) : Prop :=
  ((standalone ++ hybrid.entries.map Prod.snd).map f).Nodup

/-- Registered replicas of different ids are different from each other and from the
standalone ones. -/
theorem Distinguishes.nodup {β : Type} {f : RolloutReplica H → β}
    {standalone : List (RolloutReplica H)} {hybrid : Dict String (RolloutReplica H)}
    (h : Distinguishes f standalone hybrid) {entries : List (String × RolloutReplica H)}
    (hregistered : ∀ e ∈ entries, e ∈ hybrid.entries) (hkeys : (entries.map Prod.fst).Nodup) :
    ((standalone ++ entries.map Prod.snd).map f).Nodup := by
  rw [Distinguishes, List.map_append, List.map_map] at h
  obtain ⟨hstandalone, hhybrid, hdisjoint⟩ := List.nodup_append.mp h
  rw [List.map_append, List.map_map]
  refine List.nodup_append.mpr ⟨hstandalone, ?_, fun a ha b hb => ?_⟩
  · refine List.Nodup.map_on (fun e he e' he' heq => ?_) (List.Nodup.of_map _ hkeys)
    exact List.inj_on_of_nodup_map hhybrid (hregistered e he) (hregistered e' he') heq
  · obtain ⟨e, he, rfl⟩ := List.mem_map.mp hb
    exact hdisjoint a ha _ (List.mem_map_of_mem (hregistered e he))

/-! ## Adding -/

namespace ServerManager

variable {standalone : List (RolloutReplica H)} {hybrid : Dict String (RolloutReplica H)}
  {m : ServerManager H}

/-- The replicas that are added. -/
def toAdd (m : ServerManager H) (rids : List String) : List (String × RolloutReplica H) :=
  rids.filterMap fun rid =>
    if rid ∈ m.aliveReplicas.keys then none
    else (m.hybridReplicas.get? rid).map fun replica => (rid, replica)

theorem collectToAdd_eq (rids : List String) (serversToAdd : Dict String H)
    (validResourceIds : List String) :
    m.collectToAdd rids (serversToAdd, validResourceIds) =
      (serversToAdd.update ((m.toAdd rids).map fun e => e.2.server),
        validResourceIds ++ (m.toAdd rids).map Prod.fst) := by
  induction rids generalizing serversToAdd validResourceIds with
  | nil =>
      rw [collectToAdd, toAdd, List.filterMap_nil, List.map_nil, List.map_nil, List.append_nil]
      rfl
  | cons rid rids ih =>
      rw [toAdd] at ih
      rw [collectToAdd, toAdd, List.filterMap_cons]
      split
      · exact ih _ _
      · cases m.hybridReplicas.get? rid with
        | none => exact ih _ _
        | some replica =>
            rw [Option.map_some, List.map_cons, List.map_cons]
            refine (ih _ _).trans ?_
            rw [List.append_assoc]
            rfl

/-- The ids that are added. -/
theorem map_fst_toAdd (rids : List String) :
    (m.toAdd rids).map Prod.fst =
      rids.filter fun rid => rid ∉ m.aliveReplicas.keys ∧ rid ∈ m.hybridReplicas.keys := by
  rw [toAdd, List.map_filterMap, ← List.filterMap_eq_filter]
  refine List.filterMap_congr fun rid _ => ?_
  rw [Option.guard]
  by_cases halive : rid ∈ m.aliveReplicas.keys
  · rw [if_pos halive, if_neg fun h => (of_decide_eq_true h).1 halive]
    rfl
  · rw [if_neg halive]
    cases hget : m.hybridReplicas.get? rid with
    | none =>
        have hnot := Dict.get?_eq_none_iff.mp hget
        rw [if_neg fun h => hnot (of_decide_eq_true h).2]
        rfl
    | some replica =>
        have hmem := Dict.mem_keys_of_get?_eq_some hget
        rw [if_pos (decide_eq_true ⟨halive, hmem⟩)]
        rfl

theorem mem_hybrid_of_mem_toAdd {rids : List String} {e : String × RolloutReplica H}
    (h : e ∈ m.toAdd rids) : e ∈ m.hybridReplicas.entries ∧ e.1 ∉ m.aliveReplicas.keys := by
  obtain ⟨rid, -, hrid⟩ := List.mem_filterMap.mp h
  split at hrid
  · cases hrid
  next halive =>
    obtain ⟨replica, hget, rfl⟩ := Option.map_eq_some_iff.mp hrid
    exact ⟨Dict.mem_entries_iff.mpr hget, halive⟩

/-- A sleeping replica is appended everywhere. -/
theorem trackAdded_spec (hm : m.Tracks standalone hybrid)
    (haddress : Distinguishes RolloutReplica.serverAddress standalone hybrid)
    (hrank : Distinguishes RolloutReplica.replicaRank standalone hybrid)
    {e : String × RolloutReplica H} (hregistered : e ∈ hybrid.entries)
    (hsleeping : e.1 ∉ m.aliveReplicas.keys) :
    ∃ m', m.trackAdded e.1 = (.ok (), m') ∧ m'.Tracks standalone hybrid ∧
      m'.aliveReplicas.entries = m.aliveReplicas.entries ++ [e] := by
  have hget : m.hybridReplicas.get? e.1 = some e.2 := by
    rw [hm.hybridReplicas]
    exact Dict.mem_entries_iff.mp hregistered
  have hentries : (m.aliveReplicas.set e.1 e.2).entries = m.aliveReplicas.entries ++ [e] :=
    Dict.entries_set_of_not_mem hsleeping e.2
  have hall : ∀ e' ∈ m.aliveReplicas.entries ++ [e], e' ∈ hybrid.entries := by
    intro e' he'
    rcases List.mem_append.mp he' with he' | he'
    · exact hm.registered e' he'
    · exact List.mem_singleton.mp he' ▸ hregistered
  have hkeys : ((m.aliveReplicas.entries ++ [e]).map Prod.fst).Nodup :=
    hentries ▸ (m.aliveReplicas.set e.1 e.2).nodup
  have hfresh {β : Type} {f : RolloutReplica H → β} (hf : Distinguishes f standalone hybrid) :
      f e.2 ∉ (standalone ++ m.alive).map f := by
    have hnodup := hf.nodup hall hkeys
    rw [@List.map_append _ _ Prod.snd, ← List.append_assoc, List.map_append] at hnodup
    intro hmem
    exact (List.nodup_append.mp hnodup).2.2 _ hmem _ List.mem_cons_self rfl
  have hserver : m.appendServer e.2 = { m with
      serverHandles := m.serverHandles ++ [e.2.serverHandle]
      serverAddresses := m.serverAddresses ++ [e.2.serverAddress] } := by
    rw [appendServer, if_neg]
    rw [hm.serverAddresses]
    exact hfresh haddress
  have hreplica : (m.appendServer e.2).appendReplica e.2 = { m with
      serverHandles := m.serverHandles ++ [e.2.serverHandle]
      serverAddresses := m.serverAddresses ++ [e.2.serverAddress]
      rolloutReplicas := m.rolloutReplicas ++ [e.2] } := by
    rw [hserver, appendReplica, if_neg]
    rintro ⟨other, hother, heq⟩
    refine hfresh hrank (List.mem_map.mpr ⟨other, ?_, heq⟩)
    rw [← hm.rolloutReplicas]
    exact hother
  refine ⟨{ m with
      serverHandles := m.serverHandles ++ [e.2.serverHandle]
      serverAddresses := m.serverAddresses ++ [e.2.serverAddress]
      rolloutReplicas := m.rolloutReplicas ++ [e.2]
      aliveReplicas := m.aliveReplicas.set e.1 e.2
      aliveAddresses := m.aliveAddresses.set e.1 e.2.serverAddress }, ?_, ?_, hentries⟩
  · rw [trackAdded, hget]
    simp only [hreplica]
  · have halive : (m.aliveReplicas.set e.1 e.2).entries.map Prod.snd = m.alive ++ [e.2] := by
      rw [hentries, List.map_append]
      rfl
    refine ⟨hm.hybridReplicas, ?_, ?_, ?_, ?_, ?_⟩
    · intro e' he'
      rw [hentries] at he'
      exact hall e' he'
    · rw [hm.aliveAddresses, Dict.mapValues_set]
    · rw [alive, halive, hm.rolloutReplicas, List.append_assoc]
    · rw [alive, halive, hm.serverHandles, ← List.append_assoc]
      exact (@List.map_append _ _ RolloutReplica.serverHandle (standalone ++ m.alive) [e.2]).symm
    · rw [alive, halive, hm.serverAddresses, ← List.append_assoc]
      exact (@List.map_append _ _ RolloutReplica.serverAddress (standalone ++ m.alive) [e.2]).symm

theorem trackAll_trackAdded (hm : m.Tracks standalone hybrid)
    (haddress : Distinguishes RolloutReplica.serverAddress standalone hybrid)
    (hrank : Distinguishes RolloutReplica.replicaRank standalone hybrid)
    {entries : List (String × RolloutReplica H)}
    (hregistered : ∀ e ∈ entries, e ∈ hybrid.entries ∧ e.1 ∉ m.aliveReplicas.keys)
    (hnodup : (entries.map Prod.fst).Nodup) :
    ∃ m', trackAll trackAdded (entries.map Prod.fst) m = (.ok (), m') ∧
      m'.Tracks standalone hybrid ∧
      m'.aliveReplicas.entries = m.aliveReplicas.entries ++ entries := by
  induction entries generalizing m with
  | nil => exact ⟨m, rfl, hm, (List.append_nil _).symm⟩
  | cons e entries ih =>
      rw [List.map_cons, List.nodup_cons] at hnodup
      obtain ⟨hmem, hsleeping⟩ := hregistered e List.mem_cons_self
      obtain ⟨m₁, htrack, hm₁, halive⟩ := trackAdded_spec hm haddress hrank hmem hsleeping
      have hkeys : m₁.aliveReplicas.keys = m.aliveReplicas.keys ++ [e.1] := by
        rw [Dict.keys, halive, List.map_append]
        rfl
      obtain ⟨m', hall, hm', hentries⟩ := ih hm₁ (fun e' he' => by
        obtain ⟨hmem', hsleeping'⟩ := hregistered e' (List.mem_cons_of_mem e he')
        refine ⟨hmem', fun hin => ?_⟩
        rw [hkeys, List.mem_append, List.mem_singleton] at hin
        rcases hin with hin | hin
        · exact hsleeping' hin
        · exact hnodup.1 (hin ▸ List.mem_map_of_mem he')) hnodup.2
      refine ⟨m', ?_, hm', ?_⟩
      · rw [List.map_cons, trackAll, htrack]
        exact hall
      · rw [hentries, halive, List.append_assoc]
        rfl

/-- Also with repeated ids no exception is raised, and the ids are alive afterwards. -/
theorem trackAll_trackAdded_keys {rids : List String}
    (hregistered : ∀ rid ∈ rids, rid ∈ m.hybridReplicas.keys) :
    ∃ m', trackAll trackAdded rids m = (.ok (), m') ∧
      ∀ rid, rid ∈ m'.aliveReplicas.keys ↔ rid ∈ m.aliveReplicas.keys ∨ rid ∈ rids := by
  induction rids generalizing m with
  | nil => exact ⟨m, rfl, fun rid => by rw [or_iff_left List.not_mem_nil]⟩
  | cons rid rids ih =>
      obtain ⟨replica, hget⟩ := Dict.exists_get?_of_mem_keys (hregistered rid List.mem_cons_self)
      obtain ⟨m₁, htrack, hhybrid, halive⟩ : ∃ m₁, m.trackAdded rid = (.ok (), m₁) ∧
          m₁.hybridReplicas = m.hybridReplicas ∧
          m₁.aliveReplicas = m.aliveReplicas.set rid replica := by
        have hserver : (m.appendServer replica).hybridReplicas = m.hybridReplicas ∧
            (m.appendServer replica).aliveReplicas = m.aliveReplicas := by
          rw [appendServer]
          split
          · exact ⟨rfl, rfl⟩
          · exact ⟨rfl, rfl⟩
        rw [trackAdded, hget]
        refine ⟨_, rfl, ?_, ?_⟩
        · rw [appendReplica]
          split
          · exact hserver.1
          · exact hserver.1
        · rw [appendReplica]
          split
          · exact congrArg (fun d => Dict.set d rid replica) hserver.2
          · exact congrArg (fun d => Dict.set d rid replica) hserver.2
      obtain ⟨m', hall, hkeys⟩ := ih fun rid' hrid' => by
        rw [hhybrid]
        exact hregistered rid' (List.mem_cons_of_mem rid hrid')
      refine ⟨m', ?_, fun rid' => ?_⟩
      · rw [trackAll, htrack]
        exact hall
      · rw [hkeys, halive, Dict.mem_keys_set, List.mem_cons, @or_comm (rid' = rid), or_assoc]

/-! ## Removing -/

/-- The replicas that are removed. -/
def toRemove (m : ServerManager H) (rids : List String) : List (String × RolloutReplica H) :=
  rids.filterMap fun rid => (m.aliveReplicas.get? rid).map fun replica => (rid, replica)

theorem map_fst_toRemove (rids : List String) :
    (m.toRemove rids).map Prod.fst = rids.filter (· ∈ m.aliveReplicas.keys) := by
  rw [toRemove, List.map_filterMap, ← List.filterMap_eq_filter]
  refine List.filterMap_congr fun rid _ => ?_
  rw [Option.guard]
  cases hget : m.aliveReplicas.get? rid with
  | none =>
      have hnot := Dict.get?_eq_none_iff.mp hget
      rw [if_neg fun h => hnot (of_decide_eq_true h)]
      rfl
  | some replica =>
      have hmem := Dict.mem_keys_of_get?_eq_some hget
      rw [if_pos (decide_eq_true hmem)]
      rfl

theorem mem_alive_of_mem_toRemove {rids : List String} {e : String × RolloutReplica H}
    (h : e ∈ m.toRemove rids) : e ∈ m.aliveReplicas.entries := by
  obtain ⟨rid, -, hrid⟩ := List.mem_filterMap.mp h
  obtain ⟨replica, hget, rfl⟩ := Option.map_eq_some_iff.mp hrid
  exact Dict.mem_entries_iff.mpr hget

theorem collectToRemove_eq (hm : m.Tracks standalone hybrid) (rids : List String) :
    m.collectToRemove rids = .ok ((m.toRemove rids).map fun e => e.2.serverAddress,
      (m.toRemove rids).map Prod.fst) := by
  induction rids with
  | nil => rfl
  | cons rid rids ih =>
      rw [toRemove] at ih
      rw [collectToRemove, toRemove, List.filterMap_cons]
      cases hget : m.aliveReplicas.get? rid with
      | none =>
          rw [if_neg (Dict.get?_eq_none_iff.mp hget)]
          exact ih
      | some replica =>
          rw [if_pos (Dict.mem_keys_of_get?_eq_some hget), hm.aliveAddresses, Dict.get?_mapValues,
            hget, ih]
          rfl

/-- An active replica is taken out everywhere. -/
theorem trackRemoved_spec (hm : m.Tracks standalone hybrid)
    (haddress : Distinguishes RolloutReplica.serverAddress standalone hybrid)
    (hrank : Distinguishes RolloutReplica.replicaRank standalone hybrid)
    {e : String × RolloutReplica H} (halive : e ∈ m.aliveReplicas.entries) :
    ∃ m', m.trackRemoved e.1 = (.ok (), m') ∧ m'.Tracks standalone hybrid ∧
      m'.aliveReplicas.entries = m.aliveReplicas.entries.filter fun e' => e'.1 ≠ e.1 := by
  obtain ⟨before, after, hsplit⟩ := List.append_of_mem halive
  have hget : m.aliveReplicas.get? e.1 = some e.2 := Dict.mem_entries_iff.mp halive
  have haddressOf : m.aliveAddresses.get? e.1 = some e.2.serverAddress := by
    rw [hm.aliveAddresses, Dict.get?_mapValues, hget]
    rfl
  -- the list of all replicas, around the one that is removed
  have hmap {β : Type} (f : RolloutReplica H → β) : (standalone ++ m.alive).map f =
      (standalone ++ before.map Prod.snd).map f ++ f e.2 :: (after.map Prod.snd).map f := by
    simp only [alive, hsplit, List.map_append, List.map_cons, List.append_assoc]
  have hfresh {β : Type} {f : RolloutReplica H → β} (hf : Distinguishes f standalone hybrid) :
      f e.2 ∉ (standalone ++ before.map Prod.snd).map f := by
    have hnodup := hf.nodup hm.registered m.aliveReplicas.nodup
    intro hmem
    have hall : ((standalone ++ m.alive).map f).Nodup := hnodup
    rw [hmap] at hall
    exact (List.nodup_append.mp hall).2.2 _ hmem _ List.mem_cons_self rfl
  have hpopped : (m.aliveReplicas.pop e.1).entries = before ++ after :=
    Dict.entries_pop_of_append hsplit
  have hidx : m.serverAddresses.idxOf e.2.serverAddress =
      (standalone ++ before.map Prod.snd).length := by
    rw [hm.serverAddresses, hmap, List.idxOf_append_of_notMem (hfresh haddress),
      List.idxOf_cons_self, Nat.add_zero, List.length_map]
  have herase {β : Type} (f : RolloutReplica H → β) :
      ((standalone ++ m.alive).map f).eraseIdx (m.serverAddresses.idxOf e.2.serverAddress) =
        (standalone ++ (before ++ after).map Prod.snd).map f := by
    have hlength : ((standalone ++ before.map Prod.snd).map f).length =
        (standalone ++ before.map Prod.snd).length := List.length_map _
    rw [hidx, hmap, List.eraseIdx_append_of_length_le hlength.le, hlength, Nat.sub_self,
      List.eraseIdx_zero, List.tail_cons]
    simp only [List.map_append, List.append_assoc]
  have hpopServer : m.popServer e.2.serverAddress = (.ok (), { m with
      serverAddresses := (standalone ++ (before ++ after).map Prod.snd).map
        RolloutReplica.serverAddress
      serverHandles := (standalone ++ (before ++ after).map Prod.snd).map
        RolloutReplica.serverHandle }) := by
    have hmem : e.2.serverAddress ∈ m.serverAddresses := by
      rw [hm.serverAddresses, hmap]
      exact List.mem_append_right _ List.mem_cons_self
    have hlt : m.serverAddresses.idxOf e.2.serverAddress < m.serverHandles.length := by
      rw [hidx, hm.serverHandles, hmap]
      simp only [List.length_append, List.length_map, List.length_cons]
      omega
    have haddresses := herase RolloutReplica.serverAddress
    have hhandles := herase RolloutReplica.serverHandle
    rw [← hm.serverAddresses] at haddresses
    rw [← hm.serverHandles] at hhandles
    rw [popServer, if_pos hmem]
    simp only [if_pos hlt, haddresses, hhandles]
  have hreplicas : m.rolloutReplicas.eraseP (fun other => other.replicaRank = e.2.replicaRank) =
      standalone ++ (before ++ after).map Prod.snd := by
    have hall := hmap id
    simp only [List.map_id] at hall
    rw [hm.rolloutReplicas, hall, List.eraseP_append_right, List.eraseP_cons_of_pos]
    · simp only [List.map_append, List.append_assoc]
    · exact decide_eq_true rfl
    · intro other hother heq
      exact hfresh hrank (List.mem_map.mpr ⟨other, hother, of_decide_eq_true heq⟩)
  refine ⟨{ m with
      serverAddresses := (standalone ++ (before ++ after).map Prod.snd).map
        RolloutReplica.serverAddress
      serverHandles := (standalone ++ (before ++ after).map Prod.snd).map
        RolloutReplica.serverHandle
      rolloutReplicas := standalone ++ (before ++ after).map Prod.snd
      aliveReplicas := m.aliveReplicas.pop e.1
      aliveAddresses := m.aliveAddresses.pop e.1 }, ?_, ?_, rfl⟩
  · rw [trackRemoved, haddressOf, hget]
    simp only [hpopServer, hreplicas]
  · refine ⟨hm.hybridReplicas, ?_, ?_, ?_, ?_, ?_⟩
    · exact fun e' he' => hm.registered e' (List.mem_filter.mp he').1
    · rw [hm.aliveAddresses, Dict.mapValues_pop]
    · rw [alive, hpopped]
    · rw [alive, hpopped]
    · rw [alive, hpopped]

theorem trackAll_trackRemoved (hm : m.Tracks standalone hybrid)
    (haddress : Distinguishes RolloutReplica.serverAddress standalone hybrid)
    (hrank : Distinguishes RolloutReplica.replicaRank standalone hybrid) {rids : List String}
    (halive : ∀ rid ∈ rids, rid ∈ m.aliveReplicas.keys) (hnodup : rids.Nodup) :
    ∃ m', trackAll trackRemoved rids m = (.ok (), m') ∧ m'.Tracks standalone hybrid ∧
      m'.aliveReplicas.entries = m.aliveReplicas.entries.filter fun e => e.1 ∉ rids := by
  induction rids generalizing m with
  | nil =>
      refine ⟨m, rfl, hm, ?_⟩
      exact (List.filter_eq_self.mpr fun e _ => decide_eq_true List.not_mem_nil).symm
  | cons rid rids ih =>
      rw [List.nodup_cons] at hnodup
      obtain ⟨replica, hget⟩ := Dict.exists_get?_of_mem_keys (halive rid List.mem_cons_self)
      obtain ⟨m₁, htrack, hm₁, hentries⟩ :=
        trackRemoved_spec hm haddress hrank (Dict.mem_entries_iff.mpr hget)
      obtain ⟨m', hall, hm', hentries'⟩ := ih hm₁ (fun rid' hrid' => by
        obtain ⟨e, he, rfl⟩ := List.mem_map.mp (halive rid' (List.mem_cons_of_mem rid hrid'))
        have hne : e.1 ≠ rid := fun heq => hnodup.1 (heq ▸ hrid')
        refine List.mem_map_of_mem ?_
        rw [hentries]
        exact List.mem_filter.mpr ⟨he, decide_eq_true hne⟩) hnodup.2
      refine ⟨m', ?_, hm', ?_⟩
      · rw [trackAll, htrack]
        exact hall
      · rw [hentries', hentries, List.filter_filter]
        refine List.filter_congr fun e _ => ?_
        rw [Bool.and_eq_decide, decide_eq_decide, decide_eq_true_eq, decide_eq_true_eq,
          List.mem_cons, not_or, and_comm]

/-- What the loop does to the alive replicas in any state. -/
theorem trackRemoved_cases (m : ServerManager H) (rid : String) :
    (∃ m', m.trackRemoved rid = (.ok (), m') ∧ rid ∈ m.aliveReplicas.keys ∧
      m'.aliveReplicas = m.aliveReplicas.pop rid) ∨
    ∃ e m', m.trackRemoved rid = (.error e, m') ∧ m'.aliveReplicas = m.aliveReplicas := by
  have hpop (serverAddress : String) :
      (m.popServer serverAddress).2.aliveReplicas = m.aliveReplicas := by
    rw [popServer]
    split
    · simp only
      split
      · rfl
      · rfl
    · rfl
  rw [trackRemoved]
  cases haddressOf : m.aliveAddresses.get? rid with
  | none => exact .inr ⟨_, _, rfl, rfl⟩
  | some serverAddress =>
      cases hget : m.aliveReplicas.get? rid with
      | none => exact .inr ⟨_, _, rfl, rfl⟩
      | some replica =>
          have hserver := hpop serverAddress
          rcases hpopped : m.popServer serverAddress with ⟨result, m₁⟩
          rw [hpopped] at hserver
          cases result with
          | error e =>
              simp only [hpopped]
              exact .inr ⟨_, _, rfl, hserver⟩
          | ok _ =>
              simp only [hpopped]
              refine .inl ⟨_, rfl, Dict.mem_keys_of_get?_eq_some hget, ?_⟩
              exact congrArg (fun d => Dict.pop d rid) hserver

theorem mem_of_mem_trackAll_trackRemoved {rids : List String} {rid : String}
    (h : rid ∈ (trackAll trackRemoved rids m).2.aliveReplicas.keys) :
    rid ∈ m.aliveReplicas.keys := by
  induction rids generalizing m with
  | nil => exact h
  | cons rid' rids ih =>
      rw [trackAll] at h
      obtain ⟨m', htrack, -, halive⟩ | ⟨e, m', htrack, halive⟩ := trackRemoved_cases m rid'
      · rw [htrack] at h
        have hmem := ih h
        rw [halive, Dict.mem_keys_pop] at hmem
        exact hmem.1
      · rw [htrack] at h
        rw [← halive]
        exact h

/-- An id that is met twice is not alive the second time. -/
theorem nodup_of_trackAll_trackRemoved {rids : List String}
    (h : (trackAll trackRemoved rids m).1 = .ok ()) :
    rids.Nodup ∧ ∀ rid ∈ rids, rid ∈ m.aliveReplicas.keys := by
  induction rids generalizing m with
  | nil => exact ⟨List.nodup_nil, fun rid hrid => absurd hrid List.not_mem_nil⟩
  | cons rid rids ih =>
      rw [trackAll] at h
      obtain ⟨m', htrack, hmem, halive⟩ | ⟨e, m', htrack, -⟩ := trackRemoved_cases m rid
      · rw [htrack] at h
        obtain ⟨hnodup, hrest⟩ := ih h
        have hlater : ∀ rid' ∈ rids, rid' ∈ m.aliveReplicas.keys ∧ rid' ≠ rid := by
          intro rid' hrid'
          have hin := hrest rid' hrid'
          rwa [halive, Dict.mem_keys_pop] at hin
        refine ⟨List.nodup_cons.mpr ⟨fun hin => (hlater rid hin).2 rfl, hnodup⟩, ?_⟩
        intro rid' hrid'
        rcases List.mem_cons.mp hrid' with rfl | hrid'
        · exact hmem
        · exact (hlater rid' hrid').1
      · rw [htrack] at h
        cases h

end ServerManager

end Verl.LLMServer
