import Verl.Lib.Dict
import Verl.Lib.Python
import Verl.Lib.Run

/-!
# The global load balancer

One actor hands out LLM servers to all clients.  A request goes to the server
that it had before, or else to a server with the fewest requests in flight.
Servers are removed and added again while requests are running.

A release names the server only.  When the server was removed and added again
in between, its new count may be lowered by a request of the old registration.
`InflightExact` says that this does not show, and `ReleaseOk` is the exact
condition on the releases.
-/

namespace Verl.LLMServer

open Py (Dict)

/-! ## The routing cache -/

/-- `cachetools.LRUCache`, from request ids to server ids. -/
structure RoutingCache (C : Type) where
  /-- The value of a key that is in the cache. -/
  get? : C → String → Option String
  /-- `cache[key]` also makes the key the most recently used. -/
  touch : C → String → C
  /-- `cache[key] = value` may evict other keys. -/
  set : C → String → String → C
  delete : C → String → C

/-- What the balancer relies on. -/
structure RoutingCache.Lawful {C : Type} (cache : RoutingCache C) : Prop where
  get?_touch : ∀ c key key', cache.get? (cache.touch c key) key' = cache.get? c key'
  get?_set_self : ∀ c key value, cache.get? (cache.set c key value) key = some value
  get?_set_of_ne : ∀ c key value key', key' ≠ key →
    cache.get? (cache.set c key value) key' = cache.get? c key' ∨
      cache.get? (cache.set c key value) key' = none
  get?_delete_of_ne : ∀ c key key', key' ≠ key →
    cache.get? (cache.delete c key) key' = cache.get? c key'

/-! ## The balancer -/

/-- The state of `GlobalRequestLoadBalancer`, with handles of type `H`. -/
structure LoadBalancer (H C : Type) where
  servers : Dict String H
  inflightRequests : Dict String Nat
  requestIdToServer : C
  fullDeterminism : Bool

variable {H C : Type}

/-- `__init__`. -/
def init (servers : Dict String H) (empty : C) (fullDeterminism : Bool) :
    Except Py.Error (LoadBalancer H C) :=
  if servers.entries.isEmpty then .error (.value "servers must be non-empty")
  else
    .ok
      { servers := servers
        inflightRequests := servers.mapValues fun _ => 0
        requestIdToServer := empty
        fullDeterminism := fullDeterminism }

namespace LoadBalancer

variable (cache : RoutingCache C) (hash : String → Int)

/-- `self._inflight_requests[server_id] += 1`, then the id and the handle. -/
def take (lb : LoadBalancer H C) (serverId : String) :
    Except Py.Error (String × H) × LoadBalancer H C :=
  let count := (lb.inflightRequests.get? serverId).getD 0
  let lb := { lb with inflightRequests := lb.inflightRequests.set serverId (count + 1) }
  match lb.servers.get? serverId with
  | some handle => (.ok (serverId, handle), lb)
  | none => (.error .key, lb)

/-- The servers with the fewest requests in flight. -/
def candidates (lb : LoadBalancer H C) : List String :=
  let minCount := (lb.inflightRequests.entries.map Prod.snd).min?
  (lb.inflightRequests.entries.filter fun e => some e.2 = minCount).map Prod.fst

/-- The candidate that is chosen. -/
def choose (lb : LoadBalancer H C) (requestId : String) : Except Py.Error String :=
  let candidates := lb.candidates
  if candidates.length = 1 then Py.getItem candidates 0
  else if lb.fullDeterminism then
    Py.getItem candidates (hash requestId % candidates.length).toNat
  else Py.getItem candidates 0

/-- The second half of `acquire_server`: a new server is selected. -/
def select (lb : LoadBalancer H C) (requestId : String) :
    Except Py.Error (String × H) × LoadBalancer H C :=
  if lb.inflightRequests.entries.isEmpty then
    (.error (.runtime "No available servers in load balancer"), lb)
  else
    match lb.choose hash requestId with
    | .error e => (.error e, lb)
    | .ok serverId =>
        { lb with
          requestIdToServer := cache.set lb.requestIdToServer requestId serverId }.take serverId

def acquireServer (lb : LoadBalancer H C) (requestId : String) :
    Except Py.Error (String × H) × LoadBalancer H C :=
  match cache.get? lb.requestIdToServer requestId with
  | none => lb.select cache hash requestId
  | some serverId =>
      let lb := { lb with requestIdToServer := cache.touch lb.requestIdToServer requestId }
      if serverId ∈ lb.inflightRequests.keys then lb.take serverId
      else
        { lb with
          requestIdToServer := cache.delete lb.requestIdToServer requestId }.select
            cache hash requestId

def releaseServer (lb : LoadBalancer H C) (serverId : String) : LoadBalancer H C :=
  match lb.inflightRequests.get? serverId with
  | none => lb
  | some count =>
      if count > 0 then
        { lb with inflightRequests := lb.inflightRequests.set serverId (count - 1) }
      else lb

def addServer (lb : LoadBalancer H C) (server : String × H) : LoadBalancer H C :=
  { lb with
    inflightRequests := lb.inflightRequests.set server.1 0
    servers := lb.servers.set server.1 server.2 }

def addServers (lb : LoadBalancer H C) (servers : Dict String H) : LoadBalancer H C :=
  servers.entries.foldl addServer lb

def removeServer (lb : LoadBalancer H C) (serverId : String) : LoadBalancer H C :=
  { lb with
    inflightRequests := lb.inflightRequests.pop serverId
    servers := lb.servers.pop serverId }

def removeServers (lb : LoadBalancer H C) (serverIds : List String) : LoadBalancer H C :=
  serverIds.foldl removeServer lb

end LoadBalancer

/-! ## The balancer and its clients -/

/-- A request that was acquired and not yet released. -/
structure Request where
  serverId : String
  /-- The server was not removed or added since. -/
  current : Bool
deriving DecidableEq

structure State (H C : Type) where
  lb : LoadBalancer H C
  requests : List Request

inductive Action (H : Type) where
  | acquire (requestId : String)
  /-- The release of the request at a position of `requests`. -/
  | release (i : Nat)
  | add (servers : Dict String H)
  | remove (serverIds : List String)

/-- The requests of the given servers belong to an old registration now. -/
def expire (serverIds : List String) (r : Request) : Request :=
  { r with current := r.current && r.serverId ∉ serverIds }

def next (cache : RoutingCache C) (hash : String → Int) (s : State H C) :
    Action H → Option (State H C)
  | .acquire requestId =>
      let r := s.lb.acquireServer cache hash requestId
      match r.1 with
      | .ok (serverId, _) => some ⟨r.2, s.requests ++ [⟨serverId, true⟩]⟩
      | .error _ => some ⟨r.2, s.requests⟩
  | .release i =>
      match s.requests[i]? with
      | none => none
      | some r => some ⟨s.lb.releaseServer r.serverId, s.requests.eraseIdx i⟩
  | .add servers => some ⟨s.lb.addServers servers, s.requests.map (expire servers.keys)⟩
  | .remove serverIds =>
      some ⟨s.lb.removeServers serverIds, s.requests.map (expire serverIds)⟩

end Verl.LLMServer
