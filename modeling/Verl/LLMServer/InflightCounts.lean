import Mathlib.Data.List.Perm.Basic
import Verl.LLMServer.LoadBalancer

/-!
# What the load balancer guarantees

`acquireServer_cases` is all that an acquire can do.  The other operations are
described by their effect on the keys and on the counts.  From these, one lemma
for each part of the claim says what a step does, and `Run` gives the runs.
-/

namespace Verl.LLMServer

open Py (Dict)

variable {H C : Type} {cache : RoutingCache C} {hash : String → Int}

namespace LoadBalancer

variable {lb : LoadBalancer H C}

/-- The registered handles and the in-flight table have the same keys. -/
def SameKeys (lb : LoadBalancer H C) : Prop := lb.servers.keys = lb.inflightRequests.keys

/-! ## Selecting a server -/

theorem take_eq (lb : LoadBalancer H C) {serverId : String} {handle : H} {count : Nat}
    (hhandle : lb.servers.get? serverId = some handle)
    (hcount : lb.inflightRequests.get? serverId = some count) :
    lb.take serverId = (.ok (serverId, handle),
      { lb with inflightRequests := lb.inflightRequests.set serverId (count + 1) }) := by
  rw [take, hcount, Option.getD_some]
  simp only [hhandle]

/-- A candidate has a minimal count. -/
theorem mem_candidates {serverId : String} (h : serverId ∈ lb.candidates) :
    ∃ count, lb.inflightRequests.get? serverId = some count ∧
      ∀ serverId' count', lb.inflightRequests.get? serverId' = some count' → count ≤ count' := by
  obtain ⟨e, he, rfl⟩ := List.mem_map.mp h
  obtain ⟨he, hmin⟩ := List.mem_filter.mp he
  rw [decide_eq_true_eq] at hmin
  refine ⟨e.2, Dict.mem_entries_iff.mp he, fun serverId' count' hget => ?_⟩
  have hmem : count' ∈ lb.inflightRequests.entries.map Prod.snd :=
    List.mem_map.mpr ⟨(serverId', count'), Dict.mem_entries_iff.mpr hget, rfl⟩
  exact (List.min?_eq_some_iff.mp hmin.symm).2 count' hmem

theorem candidates_ne_nil (h : lb.inflightRequests.entries ≠ []) : lb.candidates ≠ [] := by
  obtain ⟨m, hm⟩ : ∃ m, (lb.inflightRequests.entries.map Prod.snd).min? = some m := by
    cases hmin : (lb.inflightRequests.entries.map Prod.snd).min? with
    | none =>
        rw [List.min?_eq_none_iff, List.map_eq_nil_iff] at hmin
        exact absurd hmin h
    | some m => exact ⟨m, rfl⟩
  obtain ⟨e, he, hsnd⟩ := List.mem_map.mp (List.min?_eq_some_iff.mp hm).1
  refine List.ne_nil_of_mem (List.mem_map_of_mem (f := Prod.fst) (a := e)
    (List.mem_filter.mpr ⟨he, ?_⟩))
  rw [decide_eq_true_eq, hm, hsnd]

variable (hash) in
theorem choose_mem (h : lb.inflightRequests.entries ≠ []) (requestId : String) :
    ∃ serverId ∈ lb.candidates, lb.choose hash requestId = .ok serverId := by
  have hpos : 0 < lb.candidates.length := List.length_pos_iff.mpr (candidates_ne_nil h)
  have hget (i : Nat) (hi : i < lb.candidates.length) :
      ∃ serverId ∈ lb.candidates, Py.getItem lb.candidates i = .ok serverId :=
    ⟨lb.candidates[i], List.getElem_mem hi,
      Py.getItem_of_some (List.getElem?_eq_getElem hi)⟩
  rw [choose]
  split
  · exact hget 0 hpos
  · split
    · refine hget _ ?_
      have hnonneg := Int.emod_nonneg (hash requestId) (Int.natCast_ne_zero.mpr hpos.ne')
      have hlt := Int.emod_lt_of_pos (hash requestId) (Int.natCast_pos.mpr hpos)
      omega
    · exact hget 0 hpos

/-- What selecting a new server does. -/
theorem select_cases (lb : LoadBalancer H C) (hkeys : lb.SameKeys) (requestId : String) :
    (lb.inflightRequests.entries = [] ∧
      lb.select cache hash requestId =
        (.error (.runtime "No available servers in load balancer"), lb)) ∨
    ∃ serverId handle count,
      lb.servers.get? serverId = some handle ∧
      lb.inflightRequests.get? serverId = some count ∧
      (∀ serverId' count', lb.inflightRequests.get? serverId' = some count' → count ≤ count') ∧
      lb.select cache hash requestId =
        (.ok (serverId, handle),
          { lb with
            requestIdToServer := cache.set lb.requestIdToServer requestId serverId
            inflightRequests := lb.inflightRequests.set serverId (count + 1) }) := by
  by_cases hnil : lb.inflightRequests.entries = []
  · exact .inl ⟨hnil, by rw [select, if_pos (List.isEmpty_iff.mpr hnil)]⟩
  · obtain ⟨serverId, hmem, hchoose⟩ := choose_mem hash hnil requestId
    obtain ⟨count, hcount, hmin⟩ := mem_candidates hmem
    obtain ⟨handle, hhandle⟩ : ∃ handle, lb.servers.get? serverId = some handle :=
      Dict.exists_get?_of_mem_keys (hkeys ▸ Dict.mem_keys_of_get?_eq_some hcount)
    refine .inr ⟨serverId, handle, count, hhandle, hcount, hmin, ?_⟩
    rw [select, if_neg (mt List.isEmpty_iff.mp hnil), hchoose]
    exact take_eq
      { lb with requestIdToServer := cache.set lb.requestIdToServer requestId serverId }
      hhandle hcount

/-- The cache in which a new server is selected. -/
inductive Unrouted (cache : RoutingCache C) (c : C) (requestId : String) : C → Prop where
  | absent : Unrouted cache c requestId c
  | stale : Unrouted cache c requestId (cache.delete (cache.touch c requestId) requestId)

variable (cache hash) in
/-- What an acquire does. -/
theorem acquireServer_cases (hkeys : lb.SameKeys) (requestId : String) :
    (∃ serverId handle count,
      cache.get? lb.requestIdToServer requestId = some serverId ∧
      lb.servers.get? serverId = some handle ∧
      lb.inflightRequests.get? serverId = some count ∧
      lb.acquireServer cache hash requestId =
        (.ok (serverId, handle),
          { lb with
            requestIdToServer := cache.touch lb.requestIdToServer requestId
            inflightRequests := lb.inflightRequests.set serverId (count + 1) })) ∨
    (∀ serverId, cache.get? lb.requestIdToServer requestId = some serverId →
      serverId ∉ lb.inflightRequests.keys) ∧
    ∃ c, Unrouted cache lb.requestIdToServer requestId c ∧
      ((lb.inflightRequests.entries = [] ∧
        lb.acquireServer cache hash requestId =
          (.error (.runtime "No available servers in load balancer"),
            { lb with requestIdToServer := c })) ∨
      ∃ serverId handle count,
        lb.servers.get? serverId = some handle ∧
        lb.inflightRequests.get? serverId = some count ∧
        (∀ serverId' count', lb.inflightRequests.get? serverId' = some count' → count ≤ count') ∧
        lb.acquireServer cache hash requestId =
          (.ok (serverId, handle),
            { lb with
              requestIdToServer := cache.set c requestId serverId
              inflightRequests := lb.inflightRequests.set serverId (count + 1) })) := by
  rw [acquireServer]
  cases hget : cache.get? lb.requestIdToServer requestId with
  | none =>
      exact .inr ⟨fun _ h => (nomatch h), _, .absent, select_cases lb hkeys requestId⟩
  | some serverId =>
      dsimp only
      split
      next hmem =>
        obtain ⟨count, hcount⟩ := Dict.exists_get?_of_mem_keys hmem
        obtain ⟨handle, hhandle⟩ : ∃ handle, lb.servers.get? serverId = some handle :=
          Dict.exists_get?_of_mem_keys (hkeys ▸ hmem)
        exact .inl ⟨serverId, handle, count, rfl, hhandle, hcount,
          take_eq { lb with requestIdToServer := cache.touch lb.requestIdToServer requestId }
            hhandle hcount⟩
      next hmem =>
        refine .inr ⟨fun s hs => Option.some.inj hs ▸ hmem, _, .stale, ?_⟩
        exact select_cases
          { lb with
            requestIdToServer :=
              cache.delete (cache.touch lb.requestIdToServer requestId) requestId }
          hkeys requestId

/-! ## Adding and removing -/

theorem SameKeys.set {inflight : Dict String Nat} {servers : Dict String H}
    (h : servers.keys = inflight.keys) (serverId : String) (handle : H) (count : Nat) :
    (servers.set serverId handle).keys = (inflight.set serverId count).keys := by
  rw [Dict.keys_set, Dict.keys_set, h]

theorem SameKeys.addServers (h : lb.SameKeys) (servers : Dict String H) :
    (lb.addServers servers).SameKeys := by
  rw [LoadBalancer.addServers]
  generalize servers.entries = es
  induction es generalizing lb with
  | nil => exact h
  | cons e es ih => exact ih (SameKeys.set h e.1 e.2 0)

theorem SameKeys.removeServers (h : lb.SameKeys) (serverIds : List String) :
    (lb.removeServers serverIds).SameKeys := by
  rw [LoadBalancer.removeServers]
  induction serverIds generalizing lb with
  | nil => exact h
  | cons serverId serverIds ih =>
      refine ih ?_
      show (lb.servers.pop serverId).keys = (lb.inflightRequests.pop serverId).keys
      rw [Dict.keys_pop, Dict.keys_pop, h]

/-- Adding servers resets their counts. -/
theorem get?_addServers (lb : LoadBalancer H C) (servers : Dict String H) (serverId : String) :
    (lb.addServers servers).inflightRequests.get? serverId =
      if serverId ∈ servers.keys then some 0 else lb.inflightRequests.get? serverId := by
  rw [LoadBalancer.addServers, Dict.keys]
  generalize servers.entries = es
  induction es generalizing lb with
  | nil => rw [List.map_nil, if_neg List.not_mem_nil, List.foldl_nil]
  | cons e es ih =>
      rw [List.foldl_cons, ih, List.map_cons]
      by_cases hmem : serverId ∈ es.map Prod.fst
      · rw [if_pos hmem, if_pos (List.mem_cons_of_mem _ hmem)]
      · rw [if_neg hmem, addServer, Dict.get?_set]
        by_cases heq : serverId = e.1
        · rw [if_pos heq, if_pos (heq ▸ List.mem_cons_self)]
        · rw [if_neg heq, if_neg (List.not_mem_cons_of_ne_of_not_mem heq hmem)]

theorem get?_removeServers (lb : LoadBalancer H C) (serverIds : List String) (serverId : String) :
    (lb.removeServers serverIds).inflightRequests.get? serverId =
      if serverId ∈ serverIds then none else lb.inflightRequests.get? serverId := by
  rw [LoadBalancer.removeServers]
  induction serverIds generalizing lb with
  | nil => rw [if_neg List.not_mem_nil, List.foldl_nil]
  | cons s serverIds ih =>
      rw [List.foldl_cons, ih]
      by_cases hmem : serverId ∈ serverIds
      · rw [if_pos hmem, if_pos (List.mem_cons_of_mem _ hmem)]
      · rw [if_neg hmem, removeServer, Dict.get?_pop]
        by_cases heq : serverId = s
        · rw [if_pos heq, if_pos (heq ▸ List.mem_cons_self)]
        · rw [if_neg heq, if_neg (List.not_mem_cons_of_ne_of_not_mem heq hmem)]

theorem addServers_cache (lb : LoadBalancer H C) (servers : Dict String H) :
    (lb.addServers servers).requestIdToServer = lb.requestIdToServer := by
  rw [LoadBalancer.addServers]
  generalize servers.entries = es
  induction es generalizing lb with
  | nil => rfl
  | cons e es ih => exact ih (lb.addServer e)

theorem removeServers_cache (lb : LoadBalancer H C) (serverIds : List String) :
    (lb.removeServers serverIds).requestIdToServer = lb.requestIdToServer := by
  rw [LoadBalancer.removeServers]
  induction serverIds generalizing lb with
  | nil => rfl
  | cons s serverIds ih => exact ih (lb.removeServer s)

/-- What a release does. -/
theorem releaseServer_cases (lb : LoadBalancer H C) (serverId : String) :
    ((lb.inflightRequests.get? serverId = none ∨ lb.inflightRequests.get? serverId = some 0) ∧
      lb.releaseServer serverId = lb) ∨
    ∃ count, lb.inflightRequests.get? serverId = some (count + 1) ∧
      lb.releaseServer serverId =
        { lb with inflightRequests := lb.inflightRequests.set serverId count } := by
  rw [releaseServer]
  cases hget : lb.inflightRequests.get? serverId with
  | none => exact .inl ⟨.inl rfl, rfl⟩
  | some count =>
      cases count with
      | zero => exact .inl ⟨.inr rfl, rfl⟩
      | succ count => exact .inr ⟨count, rfl, rfl⟩

end LoadBalancer

/-! ## Steps -/

/-- The cache `c'` differs from `c` at other keys than `key` by evictions only. -/
def OthersKept (cache : RoutingCache C) (key : String) (c c' : C) : Prop :=
  ∀ key', key' ≠ key → cache.get? c' key' = cache.get? c key' ∨ cache.get? c' key' = none

/-- What an acquire does to the balancer and its clients. -/
theorem next_acquire (hcache : cache.Lawful) {s t : State H C} (hkeys : s.lb.SameKeys)
    {requestId : String} (hnext : next cache hash s (.acquire requestId) = some t) :
    (∃ serverId handle count c,
      s.lb.servers.get? serverId = some handle ∧
      s.lb.inflightRequests.get? serverId = some count ∧
      (s.lb.acquireServer cache hash requestId).1 = .ok (serverId, handle) ∧
      cache.get? c requestId = some serverId ∧
      OthersKept cache requestId s.lb.requestIdToServer c ∧
      t = ⟨{ s.lb with
          requestIdToServer := c
          inflightRequests := s.lb.inflightRequests.set serverId (count + 1) },
        s.requests ++ [⟨serverId, true⟩]⟩) ∨
    ∃ e c, s.lb.inflightRequests.entries = [] ∧
      (s.lb.acquireServer cache hash requestId).1 = .error e ∧
      OthersKept cache requestId s.lb.requestIdToServer c ∧
      t = ⟨{ s.lb with requestIdToServer := c }, s.requests⟩ := by
  have hunrouted {c c' : C} (h : LoadBalancer.Unrouted cache c requestId c') :
      OthersKept cache requestId c c' := by
    intro key' hne
    cases h with
    | absent => exact .inl rfl
    | stale => rw [hcache.get?_delete_of_ne _ _ _ hne, hcache.get?_touch]; exact .inl rfl
  rw [next] at hnext
  obtain ⟨serverId, handle, count, hget, hhandle, hcount, heq⟩ | ⟨_, c, hc, ⟨hnil, heq⟩ |
      ⟨serverId, handle, count, hhandle, hcount, _, heq⟩⟩ :=
    LoadBalancer.acquireServer_cases cache hash hkeys requestId
  · rw [heq, Option.some.injEq] at hnext
    refine .inl ⟨serverId, handle, count, _, hhandle, hcount, by rw [heq], ?_, ?_, hnext.symm⟩
    · rw [hcache.get?_touch]
      exact hget
    · exact fun key' _ => .inl (hcache.get?_touch _ _ _)
  · rw [heq, Option.some.injEq] at hnext
    exact .inr ⟨_, c, hnil, by rw [heq], hunrouted hc, hnext.symm⟩
  · rw [heq, Option.some.injEq] at hnext
    refine .inl ⟨serverId, handle, count, _, hhandle, hcount, by rw [heq],
      hcache.get?_set_self _ _ _, fun key' hne => ?_, hnext.symm⟩
    rcases hcache.get?_set_of_ne c requestId serverId key' hne with hkept | hevicted
    · rw [hkept]
      exact hunrouted hc key' hne
    · exact .inr hevicted

theorem sameKeys_next (hcache : cache.Lawful) {s t : State H C} {a : Action H}
    (h : s.lb.SameKeys) (hnext : next cache hash s a = some t) : t.lb.SameKeys := by
  have hset {serverId : String} {count n : Nat}
      (hcount : s.lb.inflightRequests.get? serverId = some count) :
      s.lb.servers.keys = (s.lb.inflightRequests.set serverId n).keys := by
    rw [Dict.keys_set, if_pos (Dict.mem_keys_of_get?_eq_some hcount)]
    exact h
  cases a with
  | acquire requestId =>
      obtain ⟨serverId, handle, count, c, _, hcount, _, _, _, rfl⟩ | ⟨e, c, _, _, _, rfl⟩ :=
        next_acquire hcache h hnext
      · exact hset hcount
      · exact h
  | release i =>
      rw [next] at hnext
      split at hnext
      · cases hnext
      next r _ =>
        obtain rfl := Option.some.inj hnext
        obtain ⟨_, heq⟩ | ⟨count, hcount, heq⟩ := s.lb.releaseServer_cases r.serverId
        · rw [heq]
          exact h
        · rw [heq]
          exact hset hcount
  | add servers =>
      obtain rfl := Option.some.inj hnext
      exact h.addServers servers
  | remove serverIds =>
      obtain rfl := Option.some.inj hnext
      exact h.removeServers serverIds

/-! ## The counts -/

/-- The requests of the current registration of a server that are in flight. -/
def active (requests : List Request) (serverId : String) : Nat :=
  requests.countP fun r => r.serverId = serverId && r.current

/-- The in-flight count of each registered server is the number of requests that
were acquired from it since it was last added and not yet released. -/
def InflightExact (s : State H C) : Prop :=
  ∀ serverId count, s.lb.inflightRequests.get? serverId = some count →
    count = active s.requests serverId

/-- A release is of the current registration, or leaves the count as it is. -/
def ReleaseOk (s : State H C) : Action H → Prop
  | .release i =>
      ∀ r, s.requests[i]? = some r → r.current = true ∨
        s.lb.inflightRequests.get? r.serverId = none ∨
        s.lb.inflightRequests.get? r.serverId = some 0
  | _ => True

theorem active_concat (requests : List Request) (r : Request) (serverId : String) :
    active (requests ++ [r]) serverId =
      active requests serverId + if r.serverId = serverId && r.current then 1 else 0 := by
  rw [active, List.countP_append, List.countP_singleton, ← active]

theorem active_eraseIdx {requests : List Request} {i : Nat} {r : Request}
    (h : requests[i]? = some r) (serverId : String) :
    active requests serverId = active (requests.eraseIdx i) serverId +
      if r.serverId = serverId && r.current then 1 else 0 := by
  obtain ⟨hi, rfl⟩ := List.getElem?_eq_some_iff.mp h
  have hperm := (List.getElem_cons_eraseIdx_perm hi).countP_eq
    fun r => r.serverId = serverId && r.current
  rw [List.countP_cons] at hperm
  exact hperm.symm

theorem expire_iff (serverIds : List String) (r : Request) (serverId : String) :
    ((expire serverIds r).serverId = serverId && (expire serverIds r).current) = true ↔
      (r.serverId = serverId ∧ r.current = true) ∧ serverId ∉ serverIds := by
  rw [Bool.and_eq_true, decide_eq_true_eq, expire, Bool.and_eq_true, decide_eq_true_eq]
  constructor
  · rintro ⟨rfl, hcurrent, hmem⟩
    exact ⟨⟨rfl, hcurrent⟩, hmem⟩
  · rintro ⟨⟨rfl, hcurrent⟩, hmem⟩
    exact ⟨rfl, hcurrent, hmem⟩

theorem active_expire (requests : List Request) (serverIds : List String) (serverId : String) :
    active (requests.map (expire serverIds)) serverId =
      if serverId ∈ serverIds then 0 else active requests serverId := by
  rw [active, List.countP_map]
  split
  next hmem =>
    rw [List.countP_eq_zero]
    exact fun r _ hr => ((expire_iff serverIds r serverId).mp hr).2 hmem
  next hmem =>
    refine List.countP_congr fun r _ => ((expire_iff serverIds r serverId).trans ?_)
    rw [and_iff_left hmem, Bool.and_eq_true, decide_eq_true_eq]

/-- A step keeps the counts exact if and only if its release is fine. -/
theorem inflightExact_next_iff (hcache : cache.Lawful) {s t : State H C} {a : Action H}
    (hkeys : s.lb.SameKeys) (h : InflightExact s) (hnext : next cache hash s a = some t) :
    InflightExact t ↔ ReleaseOk s a := by
  cases a with
  | acquire requestId =>
      refine iff_of_true ?_ trivial
      obtain ⟨serverId, handle, count, c, _, hcount, _, _, _, rfl⟩ | ⟨e, c, _, _, _, rfl⟩ :=
        next_acquire hcache hkeys hnext
      · intro serverId' count' hget
        rw [Dict.get?_set] at hget
        rw [active_concat]
        split at hget
        next heq =>
          subst heq
          rw [Option.some.injEq] at hget
          rw [decide_eq_true rfl, Bool.and_self, if_pos rfl, ← h _ _ hcount, hget]
        next hne =>
          rw [decide_eq_false (Ne.symm hne), Bool.false_and, if_neg Bool.false_ne_true,
            Nat.add_zero]
          exact h _ _ hget
      · exact h
  | release i =>
      rw [next] at hnext
      split at hnext
      · cases hnext
      next r hr =>
        obtain rfl := Option.some.inj hnext
        obtain ⟨hidle, heq⟩ | ⟨count, hcount, heq⟩ := s.lb.releaseServer_cases r.serverId
        · -- the release leaves the count as it is, and the request was not counted
          refine iff_of_true (fun serverId' count' hget => ?_) fun r' hr' => ?_
          · rw [heq] at hget
            show count' = active (s.requests.eraseIdx i) serverId'
            have hcount' := h _ _ hget
            rw [active_eraseIdx hr] at hcount'
            by_cases hserver : r.serverId = serverId'
            · subst hserver
              rcases hidle with hnone | hzero
              · rw [hnone] at hget
                cases hget
              · rw [hzero, Option.some.injEq] at hget
                omega
            · rwa [decide_eq_false hserver, Bool.false_and, if_neg Bool.false_ne_true,
                Nat.add_zero] at hcount'
          · rw [hr, Option.some.injEq] at hr'
            exact .inr (hr' ▸ hidle)
        · have hcount' := h _ _ hcount
          rw [active_eraseIdx hr, decide_eq_true rfl, Bool.true_and] at hcount'
          constructor
          · intro hexact r' hr'
            rw [hr, Option.some.injEq] at hr'
            subst hr'
            refine .inl ?_
            have hnew : count = active (s.requests.eraseIdx i) r.serverId :=
              hexact r.serverId count (by rw [heq, Dict.get?_set, if_pos rfl])
            by_contra hcurrent
            rw [if_neg hcurrent] at hcount'
            omega
          · intro hok serverId' count'' hget
            have hcurrent : r.current = true := by
              rcases hok r hr with hcurrent | hnone | hzero
              · exact hcurrent
              · rw [hnone] at hcount
                cases hcount
              · rw [hzero, Option.some.injEq] at hcount
                omega
            rw [if_pos hcurrent] at hcount'
            rw [heq, Dict.get?_set] at hget
            split at hget
            next hserver =>
              subst hserver
              show count'' = active (s.requests.eraseIdx i) r.serverId
              rw [Option.some.injEq] at hget
              omega
            next hserver =>
              have hother := h _ _ hget
              rwa [active_eraseIdx hr, decide_eq_false (Ne.symm hserver), Bool.false_and,
                if_neg Bool.false_ne_true, Nat.add_zero] at hother
  | add servers =>
      refine iff_of_true (fun serverId count hget => ?_) trivial
      obtain rfl := Option.some.inj hnext
      rw [LoadBalancer.get?_addServers] at hget
      rw [active_expire]
      split at hget
      next hmem =>
        rw [if_pos hmem]
        exact (Option.some.inj hget).symm
      next hmem =>
        rw [if_neg hmem]
        exact h _ _ hget
  | remove serverIds =>
      refine iff_of_true (fun serverId count hget => ?_) trivial
      obtain rfl := Option.some.inj hnext
      rw [LoadBalancer.get?_removeServers] at hget
      rw [active_expire]
      split at hget
      · cases hget
      next hmem =>
        rw [if_neg hmem]
        exact h _ _ hget

/-! ## Sticky sessions -/

/-- The routing entry of a request whose server stays registered is kept or
evicted. -/
theorem routing_next (hcache : cache.Lawful) {s t : State H C} {a : Action H}
    (hkeys : s.lb.SameKeys) (hnext : next cache hash s a = some t) {requestId serverId : String}
    (hget : cache.get? s.lb.requestIdToServer requestId = some serverId)
    (hmem : serverId ∈ s.lb.inflightRequests.keys) :
    cache.get? t.lb.requestIdToServer requestId = some serverId ∨
      cache.get? t.lb.requestIdToServer requestId = none := by
  cases a with
  | acquire requestId' =>
      by_cases hsame : requestId = requestId'
      · subst hsame
        obtain ⟨serverId', handle, count, hget', _, _, heq⟩ | ⟨hunusable, _⟩ :=
          LoadBalancer.acquireServer_cases cache hash hkeys requestId
        · rw [next] at hnext
          rw [heq, Option.some.injEq] at hnext
          subst hnext
          rw [hcache.get?_touch]
          exact .inl hget
        · exact absurd hmem (hunusable serverId hget)
      · obtain ⟨_, _, _, c, _, _, _, _, hothers, rfl⟩ | ⟨e, c, _, _, hothers, rfl⟩ :=
          next_acquire hcache hkeys hnext
        · rw [← hget]
          exact hothers requestId hsame
        · rw [← hget]
          exact hothers requestId hsame
  | release i =>
      rw [next] at hnext
      split at hnext
      · cases hnext
      next r _ =>
        obtain rfl := Option.some.inj hnext
        refine .inl ?_
        obtain ⟨_, heq⟩ | ⟨count, _, heq⟩ := s.lb.releaseServer_cases r.serverId
        · rw [heq]
          exact hget
        · rw [heq]
          exact hget
  | add servers =>
      obtain rfl := Option.some.inj hnext
      rw [LoadBalancer.addServers_cache]
      exact .inl hget
  | remove serverIds =>
      obtain rfl := Option.some.inj hnext
      rw [LoadBalancer.removeServers_cache]
      exact .inl hget

/-! ## Runs -/

/-- What an acquire in the state `s` returns. -/
structure AcquireOk (cache : RoutingCache C) (hash : String → Int) (s : State H C)
    (requestId : String) : Prop where
  /-- A registered server with its current handle, if there is one. -/
  registered : ∀ serverId handle,
    (s.lb.acquireServer cache hash requestId).1 = .ok (serverId, handle) →
      serverId ∈ s.lb.inflightRequests.keys ∧ s.lb.servers.get? serverId = some handle
  fails : ∀ e, (s.lb.acquireServer cache hash requestId).1 = .error e →
    s.lb.inflightRequests.keys = []
  /-- The server of a usable routing entry. -/
  routed : ∀ serverId, cache.get? s.lb.requestIdToServer requestId = some serverId →
    serverId ∈ s.lb.inflightRequests.keys →
      ∃ handle, (s.lb.acquireServer cache hash requestId).1 = .ok (serverId, handle)
  /-- Without one, a server whose count is minimal. -/
  minimal : (∀ serverId, cache.get? s.lb.requestIdToServer requestId = some serverId →
      serverId ∉ s.lb.inflightRequests.keys) →
    ∀ serverId handle count, (s.lb.acquireServer cache hash requestId).1 = .ok (serverId, handle) →
      s.lb.inflightRequests.get? serverId = some count →
        ∀ serverId' count', s.lb.inflightRequests.get? serverId' = some count' → count ≤ count'

theorem acquireOk {s : State H C} (hkeys : s.lb.SameKeys) (requestId : String) :
    AcquireOk cache hash s requestId := by
  obtain ⟨serverId, handle, count, hget, hhandle, hcount, heq⟩ | ⟨hunusable, c, _, ⟨hnil, heq⟩ |
      ⟨serverId, handle, count, hhandle, hcount, hmin, heq⟩⟩ :=
    LoadBalancer.acquireServer_cases cache hash hkeys requestId
  · have hmem := Dict.mem_keys_of_get?_eq_some hcount
    constructor
    case registered =>
      rintro serverId' handle' hok
      rw [heq] at hok
      cases hok
      exact ⟨hmem, hhandle⟩
    case fails =>
      rintro e herror
      rw [heq] at herror
      cases herror
    case routed =>
      intro serverId' hget' _
      rw [hget, Option.some.injEq] at hget'
      exact ⟨handle, by rw [heq, hget']⟩
    case minimal =>
      intro hunusable
      exact absurd hmem (hunusable serverId hget)
  · constructor
    case registered =>
      rintro serverId' handle' hok
      rw [heq] at hok
      cases hok
    case fails =>
      intro _ _
      rw [Dict.keys, hnil, List.map_nil]
    case routed =>
      intro serverId' hget' hmem'
      exact absurd hmem' (hunusable serverId' hget')
    case minimal =>
      rintro _ serverId' handle' count' hok
      rw [heq] at hok
      cases hok
  · constructor
    case registered =>
      rintro serverId' handle' hok
      rw [heq] at hok
      cases hok
      exact ⟨Dict.mem_keys_of_get?_eq_some hcount, hhandle⟩
    case fails =>
      rintro e herror
      rw [heq] at herror
      cases herror
    case routed =>
      intro serverId' hget' hmem'
      exact absurd hmem' (hunusable serverId' hget')
    case minimal =>
      rintro _ serverId' handle' count' hok hcount'
      rw [heq] at hok
      cases hok
      rw [hcount, Option.some.injEq] at hcount'
      exact hcount' ▸ hmin

/-- The state in which the clients start. -/
def start (lb : LoadBalancer H C) : State H C := ⟨lb, []⟩

/-- The run `as` from `s`: the claim about every moment and every acquire. -/
structure Exact (cache : RoutingCache C) (hash : String → Int) (s : State H C)
    (as : List (Action H)) : Prop where
  keys : ∀ bs u, bs <+: as → Run.exec (next cache hash) s bs = some u → u.lb.SameKeys
  counts : ∀ bs u, bs <+: as → Run.exec (next cache hash) s bs = some u → InflightExact u
  acquires : ∀ bs u requestId, bs ++ [.acquire requestId] <+: as →
    Run.exec (next cache hash) s bs = some u → AcquireOk cache hash u requestId
  /-- From one acquire of a request to the next, while the server stays registered and
  the routing entry is not evicted. -/
  sticky : ∀ bs cs u w requestId serverId handle,
    bs ++ .acquire requestId :: (cs ++ [.acquire requestId]) <+: as →
    Run.exec (next cache hash) s bs = some u →
    (u.lb.acquireServer cache hash requestId).1 = .ok (serverId, handle) →
    Run.exec (next cache hash) u (.acquire requestId :: cs) = some w →
    (∀ ds v, ds <+: cs → Run.exec (next cache hash) u (.acquire requestId :: ds) = some v →
      serverId ∈ v.lb.inflightRequests.keys ∧
        cache.get? v.lb.requestIdToServer requestId ≠ none) →
    ∃ handle', (w.lb.acquireServer cache hash requestId).1 = .ok (serverId, handle')

theorem sameKeys_exec (hcache : cache.Lawful) {s t : State H C} {as : List (Action H)}
    (hkeys : s.lb.SameKeys) (h : Run.exec (next cache hash) s as = some t) : t.lb.SameKeys :=
  Run.exec_invariant (P := fun s => s.lb.SameKeys)
    (fun _ _ _ hs hnext => sameKeys_next hcache hs hnext) hkeys h

/-- A routing entry stays while its server is registered and it is not evicted. -/
theorem routing_exec (hcache : cache.Lawful) {s t : State H C} {cs : List (Action H)}
    (hkeys : s.lb.SameKeys) (h : Run.exec (next cache hash) s cs = some t)
    {requestId serverId : String}
    (hget : cache.get? s.lb.requestIdToServer requestId = some serverId)
    (hkept : ∀ ds v, ds <+: cs → Run.exec (next cache hash) s ds = some v →
      serverId ∈ v.lb.inflightRequests.keys ∧
        cache.get? v.lb.requestIdToServer requestId ≠ none) :
    cache.get? t.lb.requestIdToServer requestId = some serverId := by
  induction cs generalizing s with
  | nil =>
      rw [Run.exec_nil, Option.some.injEq] at h
      exact h ▸ hget
  | cons a cs ih =>
      obtain ⟨u, hu, hrest⟩ := Run.exec_cons_eq_some.mp h
      have hfirst := hkept [] s List.nil_prefix rfl
      have hsecond := hkept [a] u (List.cons_prefix_cons.mpr ⟨rfl, List.nil_prefix⟩)
        (Run.exec_cons_eq_some.mpr ⟨u, hu, rfl⟩)
      refine ih (sameKeys_next hcache hkeys hu) hrest ?_ fun ds v hds hv => ?_
      · exact (routing_next hcache hkeys hu hget hfirst.1).resolve_right hsecond.2
      · exact hkept (a :: ds) v (List.cons_prefix_cons.mpr ⟨rfl, hds⟩)
          (Run.exec_cons_eq_some.mpr ⟨u, hu, hv⟩)

theorem load_balancer_exact_iff (hcache : cache.Lawful) {servers : Dict String H} {empty : C}
    {fullDeterminism : Bool} {lb : LoadBalancer H C}
    (hinit : init servers empty fullDeterminism = .ok lb) {as : List (Action H)} {t : State H C}
    (h : Run.exec (next cache hash) (start lb) as = some t) :
    Exact cache hash (start lb) as ↔ Run.Meets (next cache hash) ReleaseOk (start lb) as := by
  have hlb : lb.SameKeys ∧ InflightExact (start lb) := by
    rw [init] at hinit
    split at hinit
    · cases hinit
    · rw [Except.ok.injEq] at hinit
      subst hinit
      refine ⟨(Dict.keys_mapValues servers _).symm, fun serverId count hget => ?_⟩
      rw [start, Dict.get?_mapValues, Option.map_eq_some_iff] at hget
      obtain ⟨_, _, hzero⟩ := hget
      exact hzero.symm
  -- the keys agree at every moment, so that each step is one of the exact steps
  have hcounts : (∀ bs u, bs <+: as → Run.exec (next cache hash) (start lb) bs = some u →
      u.lb.SameKeys ∧ InflightExact u) ↔
      Run.Meets (next cache hash) ReleaseOk (start lb) as := by
    refine Run.forall_prefix_iff_meets (fun s a u hs hnext => ?_) hlb h
    rw [and_iff_right (sameKeys_next hcache hs.1 hnext)]
    exact inflightExact_next_iff hcache hs.1 hs.2 hnext
  rw [← hcounts]
  constructor
  · intro hexact bs u hbs hu
    exact ⟨hexact.keys bs u hbs hu, hexact.counts bs u hbs hu⟩
  · intro hall
    refine ⟨fun bs u hbs hu => (hall bs u hbs hu).1, fun bs u hbs hu => (hall bs u hbs hu).2,
      fun bs u requestId _ hu => acquireOk (sameKeys_exec hcache hlb.1 hu) requestId, ?_⟩
    intro bs cs u w requestId serverId handle _ hu hok hw hkept
    have hkeys := sameKeys_exec hcache hlb.1 hu
    obtain ⟨v, hv, hrest⟩ := Run.exec_cons_eq_some.mp hw
    have hget : cache.get? v.lb.requestIdToServer requestId = some serverId := by
      obtain ⟨_, _, _, c, _, _, hok', hget, _, rfl⟩ | ⟨e, c, _, herror, _, _⟩ :=
        next_acquire hcache hkeys hv
      · rw [hok, Except.ok.injEq] at hok'
        rw [(Prod.mk.inj hok').1]
        exact hget
      · rw [hok] at herror
        cases herror
    have hkept' : ∀ ds x, ds <+: cs → Run.exec (next cache hash) v ds = some x →
        serverId ∈ x.lb.inflightRequests.keys ∧
          cache.get? x.lb.requestIdToServer requestId ≠ none := fun ds x hds hx =>
      hkept ds x hds (Run.exec_cons_eq_some.mpr ⟨v, hv, hx⟩)
    have hkeys' := sameKeys_next hcache hkeys hv
    have hlast := routing_exec hcache hkeys' hrest hget hkept'
    have hmem := (hkept' cs w (List.prefix_refl cs) hrest).1
    exact (acquireOk (sameKeys_exec hcache hkeys' hrest) requestId).routed serverId hlast hmem

/-! ## A late release -/

/-- A cache that is never full. -/
def unbounded : RoutingCache (String → Option String) where
  get? c key := c key
  touch c _ := c
  set c key value := Function.update c key (some value)
  delete c key := Function.update c key none

theorem unbounded_lawful : unbounded.Lawful where
  get?_touch _ _ _ := rfl
  get?_set_self _ _ _ := Function.update_self ..
  get?_set_of_ne _ _ _ _ hne := .inl (Function.update_of_ne hne _ _)
  get?_delete_of_ne _ _ _ hne := Function.update_of_ne hne _ _

/-- One server, without a handle worth naming. -/
def oneServer : Dict String Unit := ⟨[("s0", ())], by decide⟩

def oneBalancer : LoadBalancer Unit (String → Option String) :=
  ⟨oneServer, oneServer.mapValues fun _ => 0, fun _ => none, false⟩

/-- The request is released before the server is removed. -/
theorem load_balancer_exact_iff_one : ∃ t,
    Run.exec (next unbounded fun _ => 0) (start oneBalancer)
      [.acquire "r0", .release 0, .remove ["s0"], .add oneServer, .acquire "r1"] = some t ∧
    (Exact unbounded (fun _ => 0) (start oneBalancer)
        [.acquire "r0", .release 0, .remove ["s0"], .add oneServer, .acquire "r1"] ↔
      Run.Meets (next unbounded fun _ => 0) ReleaseOk (start oneBalancer)
        [.acquire "r0", .release 0, .remove ["s0"], .add oneServer, .acquire "r1"]) :=
  have hinit : init oneServer (fun _ => none) false = .ok oneBalancer := rfl
  ⟨_, rfl, load_balancer_exact_iff unbounded_lawful hinit rfl⟩

/-- The server is removed and added again while a request runs.  When that request is
released, the count of the new registration is 0 with one request in flight. -/
theorem late_release : ¬ Exact unbounded (fun _ => 0) (start oneBalancer)
    [.acquire "r0", .remove ["s0"], .add oneServer, .acquire "r1", .release 0] := by
  intro hexact
  have hrun : (Run.exec (next unbounded fun _ => 0) (start oneBalancer)
      [.acquire "r0", .remove ["s0"], .add oneServer, .acquire "r1", .release 0]).map
        (fun t => (t.lb.inflightRequests.get? "s0", active t.requests "s0")) =
      some (some 0, 1) := by
    decide
  obtain ⟨t, ht, hvalues⟩ := Option.map_eq_some_iff.mp hrun
  obtain ⟨hget, hactive⟩ := Prod.mk.inj hvalues
  have hcount := hexact.counts _ t (List.prefix_refl _) ht "s0" 0 hget
  rw [hactive] at hcount
  exact absurd hcount (by decide)

end Verl.LLMServer
