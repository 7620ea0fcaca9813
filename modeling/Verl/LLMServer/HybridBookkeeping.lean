import Mathlib.Data.List.Dedup
import Verl.LLMServer.HybridReplicas

/-!
# The bookkeeping of hybrid replicas

With an id twice in the list, `remove_replicas` raises at the second one and swallows the
exception, and `add_replicas` counts the replica twice.  Without repeated ids the
collections and the balancer agree after every call.  `get_active_server_count` adds the
alive replicas to `rollout_replicas`, where they are already
(`HybridServing.Tracks.activeServerCount`).
-/

namespace Verl.LLMServer

open Py (Dict)

variable {H C : Type}

/-! ## Calls -/

section Calls

variable {standalone : List (RolloutReplica H)} {hybrid : Dict String (RolloutReplica H)}
  {s : HybridServing H C}

/-- The balancer has the servers of the standalone and the alive replicas. -/
structure HybridServing.Tracks (standalone : List (RolloutReplica H))
    (hybrid : Dict String (RolloutReplica H)) (s : HybridServing H C) : Prop where
  manager : s.manager.Tracks standalone hybrid
  servers : s.balancer.servers.entries =
    (standalone ++ s.manager.alive).map RolloutReplica.server
  sameKeys : s.balancer.SameKeys

/-- What the claims of the manager and the balancer about each other are. -/
structure BookkeepingRight (standalone : List (RolloutReplica H)) (s : HybridServing H C) :
    Prop where
  aliveKeys : ∀ rid, rid ∈ s.manager.aliveReplicas.keys ↔ rid ∈ s.manager.aliveAddresses.keys
  registered : ∀ rid ∈ s.manager.aliveReplicas.keys, rid ∈ s.manager.hybridReplicas.keys
  parallel : s.manager.serverHandles.length = s.manager.serverAddresses.length
  noDuplicates : s.manager.serverAddresses.Nodup
  servers : (s.manager.serverAddresses.zip s.manager.serverHandles).Perm
    ((standalone ++ s.manager.alive).map RolloutReplica.server)
  balancer : s.balancer.servers.entries.Perm
    (s.manager.serverAddresses.zip s.manager.serverHandles)
  inflight : ∀ serverId,
    serverId ∈ s.balancer.inflightRequests.keys ↔ serverId ∈ s.manager.serverAddresses
  replicas : s.manager.rolloutReplicas.Perm (standalone ++ s.manager.alive)
  once : (s.manager.rolloutReplicas.map RolloutReplica.replicaRank).Nodup

theorem HybridServing.Tracks.bookkeepingRight (h : s.Tracks standalone hybrid)
    (haddress : Distinguishes RolloutReplica.serverAddress standalone hybrid)
    (hrank : Distinguishes RolloutReplica.replicaRank standalone hybrid) :
    BookkeepingRight standalone s := by
  have hzip : s.manager.serverAddresses.zip s.manager.serverHandles =
      (standalone ++ s.manager.alive).map RolloutReplica.server := by
    rw [h.manager.serverAddresses, h.manager.serverHandles, List.zip_map']
    rfl
  have hkeys : s.balancer.servers.keys = s.manager.serverAddresses := by
    rw [Dict.keys, h.servers, h.manager.serverAddresses, List.map_map]
    rfl
  have halive := h.manager.registered
  have hnodup := s.manager.aliveReplicas.nodup
  refine ⟨fun rid => ?_, fun rid hrid => ?_, ?_, ?_, .of_eq hzip, ?_, fun serverId => ?_, ?_, ?_⟩
  · rw [h.manager.aliveAddresses, Dict.keys_mapValues]
  · obtain ⟨e, he, rfl⟩ := List.mem_map.mp hrid
    rw [h.manager.hybridReplicas]
    exact List.mem_map_of_mem (halive e he)
  · rw [h.manager.serverHandles, h.manager.serverAddresses, List.length_map, List.length_map]
  · rw [h.manager.serverAddresses]
    exact haddress.nodup halive hnodup
  · rw [hzip]
    exact .of_eq h.servers
  · rw [← hkeys, h.sameKeys]
  · exact .of_eq h.manager.rolloutReplicas
  · rw [h.manager.rolloutReplicas]
    exact hrank.nodup halive hnodup

/-- `get_active_server_count` counts the alive replicas twice. -/
theorem HybridServing.Tracks.activeServerCount (h : s.Tracks standalone hybrid) :
    s.manager.getActiveServerCount =
      s.manager.serverAddresses.length + s.manager.aliveReplicas.keys.length := by
  rw [ServerManager.getActiveServerCount, h.manager.rolloutReplicas, h.manager.serverAddresses,
    List.length_map]

/-- A call on this state does not name a replica twice that it adds or removes. -/
def NoRepeat (s : HybridServing H C) : Call → Prop
  | .addReplicas resourceIds balancerOk =>
      balancerOk = true → (resourceIds.filter fun rid =>
        rid ∉ s.manager.aliveReplicas.keys ∧ rid ∈ s.manager.hybridReplicas.keys).Nodup
  | .removeReplicas resourceIds balancerOk =>
      balancerOk = true → (resourceIds.filter (· ∈ s.manager.aliveReplicas.keys)).Nodup

/-- A call on this state adds no replica. -/
def AddsNothing (s : HybridServing H C) : Call → Prop
  | .addReplicas resourceIds balancerOk =>
      balancerOk = true → ∀ rid ∈ resourceIds,
        rid ∈ s.manager.hybridReplicas.keys → rid ∈ s.manager.aliveReplicas.keys
  | .removeReplicas _ _ => True

/-- The balancer does not succeed in the call. -/
def Call.balancerRaises : Call → Prop
  | .addReplicas _ balancerOk => balancerOk = false
  | .removeReplicas _ balancerOk => balancerOk = false

/-- What a call is promised to do, apart from the count of servers. -/
structure CallRight (standalone : List (RolloutReplica H)) (s : HybridServing H C) (c : Call) :
    Prop where
  state : BookkeepingRight standalone (s.call c).2
  returned : (s.call c).1 = .ok (s.manager.changed (s.call c).2.manager)
  unchanged : c.balancerRaises → (s.call c).2.manager = s.manager

/-- `get_active_server_count` is the number of servers. -/
def ActiveCountRight (s : HybridServing H C) : Prop :=
  s.manager.getActiveServerCount = s.manager.serverAddresses.length

theorem servers_addServers (lb : LoadBalancer H C) (servers : Dict String H) :
    (lb.addServers servers).servers = lb.servers.update servers.entries := by
  rw [LoadBalancer.addServers]
  generalize servers.entries = es
  induction es generalizing lb with
  | nil => rfl
  | cons e es ih => exact ih (lb.addServer e)

theorem servers_removeServers (lb : LoadBalancer H C) (serverIds : List String) :
    (lb.removeServers serverIds).servers = serverIds.foldl Dict.pop lb.servers := by
  rw [LoadBalancer.removeServers]
  induction serverIds generalizing lb with
  | nil => rfl
  | cons serverId serverIds ih => exact ih (lb.removeServer serverId)

/-- The balancer is asked when a replica is to be added. -/
theorem addReplicas_eq (s : HybridServing H C) (resourceIds : List String) (balancerOk : Bool) :
    s.addReplicas resourceIds balancerOk =
      if s.manager.toAdd resourceIds = [] ∨ balancerOk = false then (.ok 0, s)
      else HybridServing.swallow ((s.manager.toAdd resourceIds).map Prod.fst)
        (s.balancer.addServers
          (Dict.empty.update ((s.manager.toAdd resourceIds).map fun e => e.2.server)))
        (ServerManager.trackAll ServerManager.trackAdded
          ((s.manager.toAdd resourceIds).map Prod.fst) s.manager) := by
  rw [HybridServing.addReplicas, ServerManager.collectToAdd_eq]
  simp only [List.nil_append]
  cases hadd : s.manager.toAdd resourceIds with
  | nil => rfl
  | cons e entries =>
      have hne : (Dict.empty.update ((e :: entries).map fun e => e.2.server)).entries ≠ [] := by
        intro hnil
        have hmem : e.2.serverAddress ∈
            (Dict.empty.update ((e :: entries).map fun e => e.2.server)).keys :=
          Dict.mem_keys_update.mpr (.inr List.mem_cons_self)
        rw [Dict.keys, hnil] at hmem
        cases hmem
      rw [if_neg (mt List.isEmpty_iff.mp hne)]
      cases balancerOk with
      | false => rfl
      | true =>
          rw [if_pos rfl, if_neg]
          rintro (h | h)
          · cases h
          · cases h

theorem removeReplicas_eq (h : s.Tracks standalone hybrid) (resourceIds : List String)
    (balancerOk : Bool) :
    s.removeReplicas resourceIds balancerOk =
      if s.manager.toRemove resourceIds = [] ∨ balancerOk = false then (.ok 0, s)
      else HybridServing.swallow ((s.manager.toRemove resourceIds).map Prod.fst)
        (s.balancer.removeServers
          ((s.manager.toRemove resourceIds).map fun e => e.2.serverAddress))
        (ServerManager.trackAll ServerManager.trackRemoved
          ((s.manager.toRemove resourceIds).map Prod.fst) s.manager) := by
  rw [HybridServing.removeReplicas, ServerManager.collectToRemove_eq h.manager]
  cases s.manager.toRemove resourceIds with
  | nil => rfl
  | cons e entries =>
      cases balancerOk with
      | false => rfl
      | true =>
          rw [if_neg]
          · rfl
          · rintro (h | h)
            · cases h
            · cases h

theorem addReplicas_spec (h : s.Tracks standalone hybrid)
    (haddress : Distinguishes RolloutReplica.serverAddress standalone hybrid)
    (hrank : Distinguishes RolloutReplica.replicaRank standalone hybrid)
    {resourceIds : List String} (hnodup : ((s.manager.toAdd resourceIds).map Prod.fst).Nodup) :
    ∃ s', s.addReplicas resourceIds true = (.ok (s.manager.toAdd resourceIds).length, s') ∧
      s'.Tracks standalone hybrid ∧ s'.manager.aliveReplicas.entries =
        s.manager.aliveReplicas.entries ++ s.manager.toAdd resourceIds := by
  rw [addReplicas_eq]
  by_cases hnil : s.manager.toAdd resourceIds = []
  · rw [if_pos (.inl hnil), hnil]
    exact ⟨s, rfl, h, (List.append_nil _).symm⟩
  · have hregistered : ∀ e ∈ s.manager.toAdd resourceIds,
        e ∈ hybrid.entries ∧ e.1 ∉ s.manager.aliveReplicas.keys := by
      intro e he
      rw [← h.manager.hybridReplicas]
      exact ServerManager.mem_hybrid_of_mem_toAdd he
    obtain ⟨m', hall, hm', hentries⟩ :=
      ServerManager.trackAll_trackAdded h.manager haddress hrank hregistered hnodup
    rw [if_neg (not_or.mpr ⟨hnil, Bool.true_eq_false ▸ id⟩), hall]
    refine ⟨⟨m', _⟩, congrArg (fun count => (Except.ok count, _)) (List.length_map _),
      ⟨hm', ?_, h.sameKeys.addServers _⟩, hentries⟩
    -- all addresses, with the new ones at the end
    have haddresses : ((standalone ++ s.manager.alive).map RolloutReplica.serverAddress ++
        (s.manager.toAdd resourceIds).map fun e => e.2.serverAddress).Nodup := by
      have hall := haddress.nodup (hm'.registered) m'.aliveReplicas.nodup
      rw [hentries] at hall
      simp only [List.map_append, ← List.append_assoc, List.map_map] at hall ⊢
      simp only [ServerManager.alive, List.map_map]
      exact hall
    have hnew :
        (Dict.empty.update ((s.manager.toAdd resourceIds).map fun e => e.2.server)).entries =
        (s.manager.toAdd resourceIds).map fun e => e.2.server := by
      refine Dict.entries_update_of_nodup Dict.empty ?_
      rw [List.map_map]
      exact (List.nodup_append.mp haddresses).2.1
    rw [servers_addServers, Dict.entries_update_of_nodup, hnew, h.servers]
    · simp only [ServerManager.alive, hentries, List.map_append, List.map_map, List.append_assoc]
      rfl
    · rw [hnew, Dict.keys, h.servers, List.map_map, List.map_map]
      exact haddresses

theorem removeReplicas_spec (h : s.Tracks standalone hybrid)
    (haddress : Distinguishes RolloutReplica.serverAddress standalone hybrid)
    (hrank : Distinguishes RolloutReplica.replicaRank standalone hybrid)
    {resourceIds : List String} (hnodup : ((s.manager.toRemove resourceIds).map Prod.fst).Nodup) :
    ∃ s', s.removeReplicas resourceIds true = (.ok (s.manager.toRemove resourceIds).length, s') ∧
      s'.Tracks standalone hybrid ∧ s'.manager.aliveReplicas.entries =
        s.manager.aliveReplicas.entries.filter
          fun e => e.1 ∉ (s.manager.toRemove resourceIds).map Prod.fst := by
  rw [removeReplicas_eq h]
  by_cases hnil : s.manager.toRemove resourceIds = []
  · rw [if_pos (.inl hnil), hnil]
    refine ⟨s, rfl, h, ?_⟩
    exact (List.filter_eq_self.mpr fun e _ => decide_eq_true List.not_mem_nil).symm
  · have halive : ∀ rid ∈ (s.manager.toRemove resourceIds).map Prod.fst,
        rid ∈ s.manager.aliveReplicas.keys := by
      intro rid hrid
      obtain ⟨e, he, rfl⟩ := List.mem_map.mp hrid
      exact List.mem_map_of_mem (ServerManager.mem_alive_of_mem_toRemove he)
    obtain ⟨m', hall, hm', hentries⟩ :=
      ServerManager.trackAll_trackRemoved h.manager haddress hrank halive hnodup
    rw [if_neg (not_or.mpr ⟨hnil, Bool.true_eq_false ▸ id⟩), hall]
    refine ⟨⟨m', _⟩, congrArg (fun count => (Except.ok count, _)) (List.length_map _),
      ⟨hm', ?_, h.sameKeys.removeServers _⟩, hentries⟩
    have haddresses := haddress.nodup h.manager.registered s.manager.aliveReplicas.nodup
    rw [List.map_append, List.map_map] at haddresses
    obtain ⟨-, haliveAddresses, hdisjoint⟩ := List.nodup_append.mp haddresses
    have hstandalone : (standalone.map RolloutReplica.server).filter (fun e =>
        e.1 ∉ (s.manager.toRemove resourceIds).map fun e => e.2.serverAddress) =
          standalone.map RolloutReplica.server := by
      refine List.filter_eq_self.mpr fun server hserver => decide_eq_true fun hmem => ?_
      obtain ⟨replica, hreplica, rfl⟩ := List.mem_map.mp hserver
      obtain ⟨e, he, heq⟩ := List.mem_map.mp hmem
      exact hdisjoint _ (List.mem_map_of_mem hreplica) _
        (List.mem_map_of_mem (ServerManager.mem_alive_of_mem_toRemove he)) heq.symm
    -- the address of an active replica is removed when its id is
    have hids : ∀ e ∈ s.manager.aliveReplicas.entries,
        (e.2.serverAddress ∈ (s.manager.toRemove resourceIds).map fun e => e.2.serverAddress) ↔
          e.1 ∈ (s.manager.toRemove resourceIds).map Prod.fst := by
      intro e he
      constructor
      · intro hmem
        obtain ⟨e', he', heq⟩ := List.mem_map.mp hmem
        obtain rfl := List.inj_on_of_nodup_map haliveAddresses
          (ServerManager.mem_alive_of_mem_toRemove he') he heq
        exact List.mem_map_of_mem he'
      · intro hmem
        obtain ⟨e', he', heq⟩ := List.mem_map.mp hmem
        obtain rfl := List.inj_on_of_nodup_map s.manager.aliveReplicas.nodup
          (ServerManager.mem_alive_of_mem_toRemove he') he heq
        exact List.mem_map_of_mem (f := fun e => e.2.serverAddress) he'
    have haliveServers : (s.manager.alive.map RolloutReplica.server).filter (fun e =>
        e.1 ∉ (s.manager.toRemove resourceIds).map fun e => e.2.serverAddress) =
          m'.alive.map RolloutReplica.server := by
      rw [ServerManager.alive, ServerManager.alive, hentries, List.map_map, List.map_map,
        List.filter_map]
      refine congrArg (List.map _) (List.filter_congr fun e he => ?_)
      exact decide_eq_decide.mpr (not_congr (hids e he))
    rw [servers_removeServers, Dict.entries_foldl_pop, h.servers, List.map_append,
      List.filter_append, hstandalone, haliveServers, List.map_append]

/-! ## The number of changes -/

theorem changed_eq {before after : ServerManager H} {rids : List String} (hnodup : rids.Nodup)
    (h : ∀ rid, rid ∈ rids ↔ rid ∈ before.hybridReplicas.keys ∧
      ¬ (rid ∈ before.aliveReplicas.keys ↔ rid ∈ after.aliveReplicas.keys)) :
    before.changed after = rids.length := by
  refine (List.Perm.length_eq ?_)
  refine (List.perm_ext_iff_of_nodup (before.hybridReplicas.nodup.filter _) hnodup).mpr
    fun rid => ?_
  rw [List.mem_filter, h, bne_iff_ne, ne_eq, decide_eq_decide]
  exact Iff.rfl

theorem changed_self (m : ServerManager H) : m.changed m = 0 :=
  changed_eq List.nodup_nil fun _ =>
    iff_of_false List.not_mem_nil fun h => h.2 Iff.rfl

/-! ## One call -/

/-- A call without a repeated id does what is promised. -/
theorem callRight_of_noRepeat (h : s.Tracks standalone hybrid)
    (haddress : Distinguishes RolloutReplica.serverAddress standalone hybrid)
    (hrank : Distinguishes RolloutReplica.replicaRank standalone hybrid) {c : Call}
    (hc : NoRepeat s c) :
    (s.call c).2.Tracks standalone hybrid ∧ CallRight standalone s c := by
  have hright {s' : HybridServing H C} {count : Nat} (hcall : s.call c = (.ok count, s'))
      (hs' : s'.Tracks standalone hybrid) (hcount : s.manager.changed s'.manager = count)
      (hunchanged : c.balancerRaises → s'.manager = s.manager) :
      (s.call c).2.Tracks standalone hybrid ∧ CallRight standalone s c := by
    refine ⟨by rwa [hcall], ?_, ?_, ?_⟩
    · rw [hcall]
      exact hs'.bookkeepingRight haddress hrank
    · rw [hcall, hcount]
    · rw [hcall]
      exact hunchanged
  cases c with
  | addReplicas resourceIds balancerOk =>
      cases balancerOk with
      | false =>
          refine hright ?_ h (changed_self s.manager) fun _ => rfl
          exact (addReplicas_eq s resourceIds false).trans (if_pos (.inr rfl))
      | true =>
          have hnodup : ((s.manager.toAdd resourceIds).map Prod.fst).Nodup := by
            rw [ServerManager.map_fst_toAdd]
            exact hc rfl
          obtain ⟨s', hadd, hs', hentries⟩ := addReplicas_spec h haddress hrank hnodup
          refine hright hadd hs' ?_ fun hraises => by cases hraises
          rw [changed_eq hnodup fun rid => ?_, List.length_map]
          have hkeys : rid ∈ s'.manager.aliveReplicas.keys ↔
              rid ∈ s.manager.aliveReplicas.keys ∨
                rid ∈ (s.manager.toAdd resourceIds).map Prod.fst := by
            rw [Dict.keys, hentries, List.map_append, List.mem_append]
            exact Iff.rfl
          have hnew : rid ∈ (s.manager.toAdd resourceIds).map Prod.fst →
              rid ∉ s.manager.aliveReplicas.keys ∧ rid ∈ s.manager.hybridReplicas.keys := by
            rw [ServerManager.map_fst_toAdd]
            exact fun hmem => of_decide_eq_true (List.mem_filter.mp hmem).2
          rw [hkeys]
          tauto
  | removeReplicas resourceIds balancerOk =>
      cases balancerOk with
      | false =>
          refine hright ?_ h (changed_self s.manager) fun _ => rfl
          exact (removeReplicas_eq h resourceIds false).trans (if_pos (.inr rfl))
      | true =>
          have hnodup : ((s.manager.toRemove resourceIds).map Prod.fst).Nodup := by
            rw [ServerManager.map_fst_toRemove]
            exact hc rfl
          obtain ⟨s', hremove, hs', hentries⟩ := removeReplicas_spec h haddress hrank hnodup
          refine hright hremove hs' ?_ fun hraises => by cases hraises
          rw [changed_eq hnodup fun rid => ?_, List.length_map]
          have hkeys : rid ∈ s'.manager.aliveReplicas.keys ↔
              rid ∈ s.manager.aliveReplicas.keys ∧
                rid ∉ (s.manager.toRemove resourceIds).map Prod.fst := by
            rw [Dict.keys, hentries, List.mem_map]
            constructor
            · rintro ⟨e, he, rfl⟩
              obtain ⟨hmem, hkept⟩ := List.mem_filter.mp he
              exact ⟨List.mem_map_of_mem hmem, of_decide_eq_true hkept⟩
            · rintro ⟨hmem, hkept⟩
              obtain ⟨e, he, rfl⟩ := List.mem_map.mp hmem
              exact ⟨e, List.mem_filter.mpr ⟨he, decide_eq_true hkept⟩, rfl⟩
          have hactive : rid ∈ (s.manager.toRemove resourceIds).map Prod.fst →
              rid ∈ s.manager.aliveReplicas.keys := by
            rw [ServerManager.map_fst_toRemove]
            exact fun hmem => of_decide_eq_true (List.mem_filter.mp hmem).2
          have hregistered : rid ∈ s.manager.aliveReplicas.keys →
              rid ∈ s.manager.hybridReplicas.keys :=
            (h.bookkeepingRight haddress hrank).registered rid
          rw [hkeys]
          tauto

/-- A repeated id is counted twice when it is added, and stops the loop when it is
removed. -/
theorem noRepeat_of_callRight (h : s.Tracks standalone hybrid)
    (haddress : Distinguishes RolloutReplica.serverAddress standalone hybrid)
    (hrank : Distinguishes RolloutReplica.replicaRank standalone hybrid) {c : Call}
    (hc : CallRight standalone s c) : NoRepeat s c := by
  have hreturned := hc.returned
  cases c with
  | addReplicas resourceIds balancerOk =>
      rintro rfl
      rw [← ServerManager.map_fst_toAdd]
      by_contra hrepeat
      have hne : ¬ (s.manager.toAdd resourceIds = [] ∨ true = false) := by
        rintro (hnil | hfalse)
        · rw [hnil] at hrepeat
          exact hrepeat List.nodup_nil
        · cases hfalse
      have hnew : ∀ rid ∈ (s.manager.toAdd resourceIds).map Prod.fst,
          rid ∉ s.manager.aliveReplicas.keys ∧ rid ∈ s.manager.hybridReplicas.keys := by
        rw [ServerManager.map_fst_toAdd]
        exact fun rid hmem => of_decide_eq_true (List.mem_filter.mp hmem).2
      obtain ⟨m', hall, hkeys⟩ :=
        ServerManager.trackAll_trackAdded_keys fun rid hrid => (hnew rid hrid).2
      rw [HybridServing.call, addReplicas_eq, if_neg hne, hall] at hreturned
      have hcount : s.manager.changed m' =
          ((s.manager.toAdd resourceIds).map Prod.fst).dedup.length := by
        refine changed_eq (List.nodup_dedup _) fun rid => ?_
        have hrid := hnew rid
        rw [List.mem_dedup, hkeys]
        tauto
      have hlength : _ = s.manager.changed m' := Except.ok.inj hreturned
      rw [hcount] at hlength
      have hdedup := (List.dedup_sublist _).eq_of_length hlength.symm
      exact hrepeat (hdedup ▸ List.nodup_dedup _)
  | removeReplicas resourceIds balancerOk =>
      rintro rfl
      rw [← ServerManager.map_fst_toRemove]
      by_contra hrepeat
      obtain ⟨e, entries, hcons⟩ : ∃ e entries, s.manager.toRemove resourceIds = e :: entries := by
        refine List.exists_cons_of_ne_nil fun hnil => ?_
        rw [hnil] at hrepeat
        exact hrepeat List.nodup_nil
      have hne : ¬ (s.manager.toRemove resourceIds = [] ∨ true = false) := by
        rw [hcons]
        rintro (hnil | hfalse)
        · cases hnil
        · cases hfalse
      rw [HybridServing.call, removeReplicas_eq h, if_neg hne] at hreturned
      rcases hall : ServerManager.trackAll ServerManager.trackRemoved
        ((s.manager.toRemove resourceIds).map Prod.fst) s.manager with ⟨result, m'⟩
      rw [hall] at hreturned
      cases result with
      | ok _ =>
          have hloop := ServerManager.nodup_of_trackAll_trackRemoved (congrArg Prod.fst hall)
          exact hrepeat hloop.1
      | error error =>
          -- the first replica is removed, and the call returns 0
          have hnone : 0 = s.manager.changed m' := Except.ok.inj hreturned
          have halive : e ∈ s.manager.aliveReplicas.entries :=
            ServerManager.mem_alive_of_mem_toRemove (hcons ▸ List.mem_cons_self)
          have hafter : e.1 ∉ m'.aliveReplicas.keys := by
            obtain ⟨m₁, htrack, -, hentries⟩ :=
              ServerManager.trackRemoved_spec h.manager haddress hrank halive
            rw [hcons, List.map_cons, ServerManager.trackAll, htrack] at hall
            have hrest : (ServerManager.trackAll ServerManager.trackRemoved
                (entries.map Prod.fst) m₁).2 = m' := congrArg Prod.snd hall
            intro hmem
            rw [← hrest] at hmem
            obtain ⟨e', he', heq⟩ :=
              List.mem_map.mp (ServerManager.mem_of_mem_trackAll_trackRemoved hmem)
            rw [hentries] at he'
            exact of_decide_eq_true (List.mem_filter.mp he').2 heq
          have hmem : e.1 ∈ s.manager.hybridReplicas.keys.filter fun rid =>
              decide (rid ∈ s.manager.aliveReplicas.keys) !=
                decide (rid ∈ m'.aliveReplicas.keys) := by
            refine List.mem_filter.mpr ⟨?_, ?_⟩
            · rw [h.manager.hybridReplicas]
              exact List.mem_map_of_mem (h.manager.registered e halive)
            · rw [bne_iff_ne, ne_eq, decide_eq_decide]
              exact fun hiff => hafter (hiff.mp (List.mem_map_of_mem halive))
          have hpos := List.length_pos_of_mem hmem
          rw [ServerManager.changed] at hnone
          omega

/-- With no replica alive, a call that adds nothing changes nothing. -/
theorem call_of_addsNothing (h : s.Tracks standalone hybrid)
    (hnone : s.manager.aliveReplicas.entries = []) {c : Call} (hc : AddsNothing s c) :
    (s.call c).2 = s ∧ NoRepeat s c := by
  have hkeys : s.manager.aliveReplicas.keys = [] := by rw [Dict.keys, hnone, List.map_nil]
  cases c with
  | addReplicas resourceIds balancerOk =>
      have hnothing (hok : balancerOk = true) : resourceIds.filter (fun rid =>
          rid ∉ s.manager.aliveReplicas.keys ∧ rid ∈ s.manager.hybridReplicas.keys) = [] := by
        refine List.filter_eq_nil_iff.mpr fun rid hrid hmem => ?_
        obtain ⟨hsleeping, hregistered⟩ := of_decide_eq_true hmem
        exact hsleeping (hc hok rid hrid hregistered)
      refine ⟨?_, fun hok => (hnothing hok) ▸ List.nodup_nil⟩
      have hcases : s.manager.toAdd resourceIds = [] ∨ balancerOk = false := by
        cases balancerOk with
        | false => exact .inr rfl
        | true =>
            have hfst := hnothing rfl
            rw [← ServerManager.map_fst_toAdd] at hfst
            exact .inl (List.map_eq_nil_iff.mp hfst)
      rw [HybridServing.call, addReplicas_eq, if_pos hcases]
  | removeReplicas resourceIds balancerOk =>
      have hnothing : resourceIds.filter (· ∈ s.manager.aliveReplicas.keys) = [] := by
        refine List.filter_eq_nil_iff.mpr fun rid _ hmem => ?_
        have hactive := of_decide_eq_true hmem
        rw [hkeys] at hactive
        cases hactive
      refine ⟨?_, fun _ => hnothing ▸ List.nodup_nil⟩
      have hnil : s.manager.toRemove resourceIds = [] := by
        rw [← ServerManager.map_fst_toRemove] at hnothing
        exact List.map_eq_nil_iff.mp hnothing
      rw [HybridServing.call, removeReplicas_eq h, if_pos (.inl hnil)]

/-- With no replica alive, a call is right with the count of servers exactly when it adds
nothing. -/
theorem addsNothing_iff (h : s.Tracks standalone hybrid)
    (haddress : Distinguishes RolloutReplica.serverAddress standalone hybrid)
    (hrank : Distinguishes RolloutReplica.replicaRank standalone hybrid)
    (hnone : s.manager.aliveReplicas.entries = []) (c : Call) :
    CallRight standalone s c ∧ ActiveCountRight (s.call c).2 ↔ AddsNothing s c := by
  constructor
  · rintro ⟨hright, hcount⟩
    have hrepeat := noRepeat_of_callRight h haddress hrank hright
    obtain ⟨hs', -⟩ := callRight_of_noRepeat h haddress hrank hrepeat
    rw [ActiveCountRight, hs'.activeServerCount] at hcount
    cases c with
    | addReplicas resourceIds balancerOk =>
        rintro rfl rid hrid hregistered
        by_contra hsleeping
        have hnodup : ((s.manager.toAdd resourceIds).map Prod.fst).Nodup := by
          rw [ServerManager.map_fst_toAdd]
          exact hrepeat rfl
        obtain ⟨s', hadd, -, hentries⟩ := addReplicas_spec h haddress hrank hnodup
        rw [HybridServing.call, hadd] at hcount
        have htwice : s'.manager.serverAddresses.length + s'.manager.aliveReplicas.keys.length =
          s'.manager.serverAddresses.length := hcount
        have hmem : rid ∈ s'.manager.aliveReplicas.keys := by
          rw [Dict.keys, hentries, List.map_append, ServerManager.map_fst_toAdd]
          exact List.mem_append_right _
            (List.mem_filter.mpr ⟨hrid, decide_eq_true ⟨hsleeping, hregistered⟩⟩)
        have hpos := List.length_pos_of_mem hmem
        omega
    | removeReplicas resourceIds balancerOk => trivial
  · intro hadds
    obtain ⟨hcall, hrepeat⟩ := call_of_addsNothing h hnone hadds
    refine ⟨(callRight_of_noRepeat h haddress hrank hrepeat).2, ?_⟩
    rw [hcall, ActiveCountRight, h.activeServerCount, Dict.keys, hnone]
    rfl

end Calls

/-! ## Runs -/

section Runs

variable {hybridServers standaloneServers : List (String × H)} {empty : C} {fullDeterminism : Bool}
  {s : HybridServing H C}

theorem map_serverAddress_replicasFrom (startRank : Nat) (servers : List (String × H)) :
    (replicasFrom startRank servers).map RolloutReplica.serverAddress = servers.map Prod.fst := by
  rw [replicasFrom, List.map_map]
  conv_rhs => rw [← List.zipIdx_map_fst startRank servers]
  rw [List.map_map]
  rfl

theorem map_replicaRank_replicasFrom (startRank : Nat) (servers : List (String × H)) :
    (replicasFrom startRank servers).map RolloutReplica.replicaRank =
      List.range' startRank servers.length := by
  rw [replicasFrom, List.map_map, ← List.zipIdx_map_snd startRank servers]
  rfl

theorem resourceId_inj {i j : Nat} (h : resourceId i = resourceId j) : i = j := by
  have hlist := congrArg String.toList h
  simp only [resourceId, String.toList_append] at hlist
  exact Py.toString_nat_inj (List.append_cancel_left hlist)

/-- The registered replicas, in the order of their ranks. -/
theorem entries_hybridReplicas (hybridServers standaloneServers : List (String × H)) :
    (initializeLlmServers hybridServers standaloneServers).hybridReplicas.entries.map Prod.snd =
      replicasFrom 0 hybridServers := by
  have hentries : (initializeLlmServers hybridServers standaloneServers).hybridReplicas.entries =
      (replicasFrom 0 hybridServers).zipIdx.map fun e => (resourceId e.2, e.1) := by
    refine Dict.entries_update_of_nodup Dict.empty ?_
    have hids : ((replicasFrom 0 hybridServers).zipIdx.map fun e =>
        (resourceId e.2, e.1)).map Prod.fst =
          (List.range' 0 (replicasFrom 0 hybridServers).length).map resourceId := by
      rw [← List.zipIdx_map_snd 0 (replicasFrom 0 hybridServers), List.map_map, List.map_map]
      rfl
    rw [hids]
    exact List.Nodup.map (fun _ _ => resourceId_inj) List.nodup_range'
  rw [hentries, List.map_map]
  exact List.zipIdx_map_fst 0 _

theorem tracks_create
    (hdistinct : ((hybridServers ++ standaloneServers).map Prod.fst).Nodup)
    (h : create hybridServers standaloneServers empty fullDeterminism = .ok s) :
    s.Tracks (replicasFrom hybridServers.length standaloneServers) s.manager.hybridReplicas ∧
      Distinguishes RolloutReplica.serverAddress
        (replicasFrom hybridServers.length standaloneServers) s.manager.hybridReplicas ∧
      Distinguishes RolloutReplica.replicaRank
        (replicasFrom hybridServers.length standaloneServers) s.manager.hybridReplicas ∧
      s.manager.aliveReplicas.entries = [] := by
  obtain ⟨balancer, hbalancer, hs⟩ := Py.bind_eq_ok.mp h
  obtain rfl := Except.ok.inj hs
  have hlength : (replicasFrom 0 hybridServers).length = hybridServers.length := by
    rw [replicasFrom, List.length_map, List.length_zipIdx]
  have hrollout : (initializeLlmServers hybridServers standaloneServers).rolloutReplicas =
      replicasFrom hybridServers.length standaloneServers := by
    rw [← hlength]
    rfl
  have haddress : Distinguishes RolloutReplica.serverAddress
      (replicasFrom hybridServers.length standaloneServers)
      (initializeLlmServers hybridServers standaloneServers).hybridReplicas := by
    rw [Distinguishes, entries_hybridReplicas, List.map_append, map_serverAddress_replicasFrom,
      map_serverAddress_replicasFrom, List.nodup_append_comm, ← List.map_append]
    exact hdistinct
  have hrank : Distinguishes RolloutReplica.replicaRank
      (replicasFrom hybridServers.length standaloneServers)
      (initializeLlmServers hybridServers standaloneServers).hybridReplicas := by
    rw [Distinguishes, entries_hybridReplicas, List.map_append, map_replicaRank_replicasFrom,
      map_replicaRank_replicasFrom]
    refine List.nodup_append.mpr ⟨List.nodup_range', List.nodup_range', fun i hi j hj => ?_⟩
    rw [List.mem_range'_1] at hi hj
    omega
  have hmanager : (initializeLlmServers hybridServers standaloneServers).Tracks
      (replicasFrom hybridServers.length standaloneServers)
      (initializeLlmServers hybridServers standaloneServers).hybridReplicas := by
    refine ⟨rfl, fun e he => absurd he List.not_mem_nil, rfl, ?_, ?_, ?_⟩
    · rw [hrollout]
      exact (List.append_nil _).symm
    · rw [← hrollout]
      exact congrArg _ (List.append_nil _).symm
    · rw [← hrollout]
      exact congrArg _ (List.append_nil _).symm
  have hservers : balancer.servers.entries =
      (replicasFrom hybridServers.length standaloneServers ++ []).map RolloutReplica.server ∧
        balancer.SameKeys := by
    rw [init] at hbalancer
    split at hbalancer
    · cases hbalancer
    · rw [← Except.ok.inj hbalancer]
      have hzip : (initializeLlmServers hybridServers standaloneServers).serverAddresses.zip
          (initializeLlmServers hybridServers standaloneServers).serverHandles =
            (replicasFrom hybridServers.length standaloneServers).map RolloutReplica.server := by
        rw [← hrollout]
        exact List.zip_map'
      refine ⟨?_, (Dict.keys_mapValues _ _).symm⟩
      rw [List.append_nil, hzip]
      refine Dict.entries_update_of_nodup Dict.empty ?_
      have hkeys : ((replicasFrom hybridServers.length standaloneServers).map
          RolloutReplica.server).map Prod.fst = standaloneServers.map Prod.fst := by
        rw [← map_serverAddress_replicasFrom hybridServers.length standaloneServers, List.map_map]
        rfl
      rw [hkeys]
      rw [List.map_append] at hdistinct
      exact (List.nodup_append.mp hdistinct).2.1
  exact ⟨⟨hmanager, hservers.1, hservers.2⟩, haddress, hrank, rfl⟩

/-- For every run of calls on the initialised manager: the bookkeeping is right after every
call exactly when no call repeats an id that it acts on, and `get_active_server_count` is
right too exactly when no hybrid replica is ever added. -/
theorem hybridBookkeeping_iff
    (hdistinct : ((hybridServers ++ standaloneServers).map Prod.fst).Nodup)
    (h : create hybridServers standaloneServers empty fullDeterminism = .ok s)
    (calls : List Call) :
    let standalone := replicasFrom hybridServers.length standaloneServers
    (Run.Meets HybridServing.nextCall (CallRight standalone) s calls ↔
      Run.Meets HybridServing.nextCall NoRepeat s calls) ∧
    (Run.Meets HybridServing.nextCall
        (fun s c => CallRight standalone s c ∧ ActiveCountRight (s.call c).2) s calls ↔
      Run.Meets HybridServing.nextCall AddsNothing s calls) := by
  intro standalone
  obtain ⟨htracks, haddress, hrank, hnone⟩ := tracks_create hdistinct h
  generalize s.manager.hybridReplicas = hybrid at htracks haddress hrank
  have hnext (s : HybridServing H C) (c : Call) : s.nextCall c = some (s.call c).2 := rfl
  constructor
  · clear hnone h
    induction calls generalizing s with
    | nil => exact Iff.rfl
    | cons c calls ih =>
        rw [Run.meets_cons_of_some (hnext s c), Run.meets_cons_of_some (hnext s c)]
        constructor
        · rintro ⟨hright, hlater⟩
          have hrepeat := noRepeat_of_callRight htracks haddress hrank hright
          obtain ⟨hs', -⟩ := callRight_of_noRepeat htracks haddress hrank hrepeat
          exact ⟨hrepeat, (ih hs').mp hlater⟩
        · rintro ⟨hrepeat, hlater⟩
          obtain ⟨hs', hright⟩ := callRight_of_noRepeat htracks haddress hrank hrepeat
          exact ⟨hright, (ih hs').mpr hlater⟩
  · clear h
    induction calls with
    | nil => exact Iff.rfl
    | cons c calls ih =>
        rw [Run.meets_cons_of_some (hnext s c), Run.meets_cons_of_some (hnext s c),
          addsNothing_iff htracks haddress hrank hnone]
        refine and_congr_right fun hadds => ?_
        rw [(call_of_addsNothing htracks hnone hadds).1]
        exact ih

/-- Two hybrid replicas and one standalone replica. -/
theorem hybridBookkeeping_iff_two :
    ∃ s : HybridServing Nat Unit,
      create [("hybrid-a", 0), ("hybrid-b", 1)] [("standalone", 2)] () false = .ok s ∧
      (Run.Meets HybridServing.nextCall (CallRight (replicasFrom 2 [("standalone", 2)])) s
          [.addReplicas ["hybrid_1", "unknown"] true, .removeReplicas ["hybrid_1"] false] ↔
        Run.Meets HybridServing.nextCall NoRepeat s
          [.addReplicas ["hybrid_1", "unknown"] true, .removeReplicas ["hybrid_1"] false]) ∧
      (Run.Meets HybridServing.nextCall
          (fun s c => CallRight (replicasFrom 2 [("standalone", 2)]) s c ∧
            ActiveCountRight (s.call c).2) s
          [.addReplicas ["hybrid_1", "unknown"] true, .removeReplicas ["hybrid_1"] false] ↔
        Run.Meets HybridServing.nextCall AddsNothing s
          [.addReplicas ["hybrid_1", "unknown"] true, .removeReplicas ["hybrid_1"] false]) :=
  ⟨_, rfl, @hybridBookkeeping_iff Nat Unit [("hybrid-a", 0), ("hybrid-b", 1)]
    [("standalone", 2)] () false _ (by decide) rfl _⟩

/-- A replica is removed twice in one call, and the count of servers after an addition. -/
theorem not_hybridBookkeeping_two :
    ∃ s : HybridServing Nat Unit,
      create [("hybrid-a", 0), ("hybrid-b", 1)] [("standalone", 2)] () false = .ok s ∧
      ¬ Run.Meets HybridServing.nextCall (CallRight (replicasFrom 2 [("standalone", 2)])) s
          [.addReplicas ["hybrid_0", "hybrid_1"] true,
            .removeReplicas ["hybrid_0", "hybrid_0", "hybrid_1"] true] ∧
      ¬ Run.Meets HybridServing.nextCall (fun s c => ActiveCountRight (s.call c).2) s
          [.addReplicas ["hybrid_0"] true] := by
  refine ⟨_, rfl, fun h => ?_, fun h => ?_⟩
  · have hremoved := (h.2 _ rfl).1.returned
    have hchanged := Except.ok.inj hremoved
    cases hchanged
  · have hcount : 3 = 2 := h.1
    cases hcount

end Runs

end Verl.LLMServer
