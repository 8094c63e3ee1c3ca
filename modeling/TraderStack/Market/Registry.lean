import TraderStack.Lib.Machine
import TraderStack.Lib.Quota
import TraderStack.Models

/-!
# The provider registry (market/registry.py)

`ProviderRegistry.call` wraps a fallible call: a cache, a circuit breaker, two quotas
and a store of last good values. A call runs in two pieces, with an `await` between
them: up to the start of the underlying invocation, and from its end. Nothing else
runs during a piece, and anything may between the two, so a run of the registry is a
list of pieces in any order.

What only the health report reads (latency, last success, last error) is left out, and
so are the metrics. A timeout is a failure like any other.
-/

namespace TraderStack

open Lib

/-! ## State -/

/-- `BreakerState` (registry.py:85–88). -/
inductive CircuitState where
  | closed
  | halfOpen
  | opened
deriving DecidableEq, Repr

/-- The fields of `ProviderRegistry` that are set once (registry.py:129–143). -/
structure ProviderRegistry where
  name : String
  failureThreshold : ℕ
  cooldownSeconds : ℚ
  callsPerMinute : Option ℕ
  callsPerDay : Option ℕ
  cacheTtlSeconds : ℚ
  lastGoodTtlSeconds : ℚ

/-- `_CacheEntry` (registry.py:115–117). -/
structure CacheEntry (ν : Type) where
  value : ν
  expiresAt : Time
deriving DecidableEq

/-- The fields that change (registry.py:145–155). -/
structure RegistryState (κ ν : Type) where
  state : CircuitState
  consecutiveFailures : ℕ
  openedAt : Option Time
  minuteCalls : List Time
  day : Option ℤ
  dayCount : ℕ
  cache : Dict κ (CacheEntry ν)
  lastGood : Dict κ (CacheEntry ν)

/-- What a call that is refused raises. -/
inductive RegistryError where
  | circuitOpen
  | callsPerMinute (budget : ℕ)
  | callsPerDay (budget : ℕ)
deriving DecidableEq, Repr

/-- The texts of the errors. -/
def RegistryError.message (name : String) : RegistryError → String
  | .circuitOpen => "provider '" ++ name ++ "' circuit is open"
  | .callsPerMinute budget =>
    "provider '" ++ name ++ "' exceeded " ++ toString budget ++ " calls/minute budget"
  | .callsPerDay budget =>
    "provider '" ++ name ++ "' exceeded " ++ toString budget ++ " calls/day budget"

variable {κ ν : Type}

/-- Before the first call. -/
def RegistryState.fresh : RegistryState κ ν where
  state := .closed
  consecutiveFailures := 0
  openedAt := none
  minuteCalls := []
  day := none
  dayCount := 0
  cache := .empty
  lastGood := .empty

namespace ProviderRegistry

variable (r : ProviderRegistry)

/-! ## Admission -/

/-- `_check_breaker` (registry.py:202–211). -/
def checkBreaker (s : RegistryState κ ν) (now : Time) :
    Except RegistryError (RegistryState κ ν) :=
  match s.state, s.openedAt with
  | .opened, some openedAt =>
    if r.cooldownSeconds ≤ now - openedAt then .ok { s with state := .halfOpen }
    else .error .circuitOpen
  | .opened, none => .error .circuitOpen
  | _, _ => .ok s

/-- The pruning of `_reserve_quota` (registry.py:214–220): it stays when the call is
refused. -/
def rollQuota (s : RegistryState κ ν) (now : Time) : RegistryState κ ν :=
  { s with
    minuteCalls := prune 60 now s.minuteCalls
    day := some (utcDate now)
    dayCount := if s.day = some (utcDate now) then s.dayCount else 0 }

/-- `_reserve_quota` (registry.py:213–234). -/
def reserveQuota (s : RegistryState κ ν) (now : Time) :
    RegistryState κ ν × Option RegistryError :=
  let s := rollQuota s now
  match r.callsPerMinute.filter (· ≤ s.minuteCalls.length) with
  | some budget => (s, some (.callsPerMinute budget))
  | none =>
    match r.callsPerDay.filter (· ≤ s.dayCount) with
    | some budget => (s, some (.callsPerDay budget))
    | none =>
      ({ s with minuteCalls := s.minuteCalls ++ [now], dayCount := s.dayCount + 1 }, none)

/-- Both checks, the breaker first. -/
def checkCall (s : RegistryState κ ν) (now : Time) : RegistryState κ ν × Option RegistryError :=
  match r.checkBreaker s now with
  | .error e => (s, some e)
  | .ok s => r.reserveQuota s now

/-! ## Outcomes -/

/-- Does a failure open the breaker, or open it again? -/
def opens (s : RegistryState κ ν) : Bool :=
  s.state = .halfOpen || decide (r.failureThreshold ≤ s.consecutiveFailures + 1)

/-- `_record_failure` (registry.py:236–250). -/
def recordFailure (s : RegistryState κ ν) (now : Time) : RegistryState κ ν :=
  let s' := { s with consecutiveFailures := s.consecutiveFailures + 1 }
  if r.opens s then { s' with state := .opened, openedAt := some now } else s'

/-- `_record_success` (registry.py:252–261). -/
def recordSuccess (s : RegistryState κ ν) : RegistryState κ ν :=
  { s with consecutiveFailures := 0, state := .closed, openedAt := none }

/-! ## The two stores -/

section

variable [DecidableEq κ]

/-- The lookup of `_cache_get` and `_last_good_get`: an entry that has expired is
deleted. -/
def unexpired (entries : Dict κ (CacheEntry ν)) (key : κ) (now : Time) :
    Option ν × Dict κ (CacheEntry ν) :=
  match entries.get? key with
  | none => (none, entries)
  | some entry =>
    if entry.expiresAt ≤ now then (none, entries.erase key) else (some entry.value, entries)

/-- `_cache_get` (registry.py:271–278), where `call` asks it. -/
def cacheGet (s : RegistryState κ ν) (key : Option κ) (now : Time) :
    Option ν × RegistryState κ ν :=
  match key with
  | none => (none, s)
  | some k =>
    if 0 < r.cacheTtlSeconds then
      let found := unexpired s.cache k now
      (found.1, { s with cache := found.2 })
    else (none, s)

/-- `_last_good_get` (registry.py:285–294). -/
def lastGoodGet (s : RegistryState κ ν) (key : Option κ) (now : Time) :
    Option ν × RegistryState κ ν :=
  match key with
  | none => (none, s)
  | some k =>
    if r.lastGoodTtlSeconds ≤ 0 then (none, s)
    else
      let found := unexpired s.lastGood k now
      (found.1, { s with lastGood := found.2 })

/-- Storing what an invocation returned (registry.py:196–199), under the time its call
was made. -/
def store (s : RegistryState κ ν) (key : Option κ) (value : ν) (started : Time) :
    RegistryState κ ν :=
  match key with
  | none => s
  | some k =>
    { s with
      cache := if 0 < r.cacheTtlSeconds then
          s.cache.set k ⟨value, started + r.cacheTtlSeconds⟩ else s.cache
      lastGood := if r.lastGoodTtlSeconds ≤ 0 then s.lastGood
        else s.lastGood.set k ⟨value, started + r.lastGoodTtlSeconds⟩ }

/-! ## The pieces of a call -/

/-- Where a served value was found. -/
inductive Store where
  | cache
  | lastGood
deriving DecidableEq, Repr

/-- How the first piece of a call ends. -/
inductive Began (ν : Type) where
  | served (store : Store) (value : ν)
  | raised (error : RegistryError)
  | invoked

/-- `call`, up to the start of the invocation (registry.py:167–182). -/
def beginCall (s : RegistryState κ ν) (key : Option κ) (now : Time) :
    RegistryState κ ν × Began ν :=
  match r.cacheGet s key now with
  | (some value, s) => (s, .served .cache value)
  | (none, s) =>
    match r.checkCall s now with
    | (s, none) => (s, .invoked)
    | (s, some error) =>
      match r.lastGoodGet s key now with
      | (some value, s) => (s, .served .lastGood value)
      | (none, s) => (s, .raised error)

/-- How an invocation ends. A cancelled call records nothing. -/
inductive Outcome (ν : Type) where
  | returned (value : ν)
  | failed
  | cancelled

/-- `call`, from the end of an invocation that was started for a call at `started`
(registry.py:184–200): a value found in place of a failure, if there is one. -/
def endCall (s : RegistryState κ ν) (key : Option κ) (started now : Time) :
    Outcome ν → RegistryState κ ν × Option ν
  | .returned value => (r.store (recordSuccess s) key value started, none)
  | .failed =>
    let found := r.lastGoodGet (r.recordFailure s now) key started
    (found.2, found.1)
  | .cancelled => (s, none)

end

end ProviderRegistry

/-! ## Runs -/

/-- An invocation of the wrapped call, for a call made at a time. -/
structure Invocation (κ : Type) where
  key : Option κ
  started : Time
deriving DecidableEq

/-- What an invocation returned. -/
structure Answer (κ ν : Type) where
  invocation : Invocation κ
  value : ν

/-- A value served to a call from a store. -/
structure Served (κ ν : Type) where
  store : ProviderRegistry.Store
  key : Option κ
  calledAt : Time
  value : ν

/-- The registry with its calls in flight, the last reading of the clock, and what
happened so far. -/
structure RegistryWorld (κ ν : Type) where
  registry : RegistryState κ ν
  inFlight : List (Invocation κ)
  now : Time
  invocations : List (Invocation κ)
  answers : List (Answer κ ν)
  served : List (Served κ ν)
  raised : List RegistryError
  /-- When a failure opened the breaker, or opened it again. -/
  openings : List Time

/-- One piece of a call: a new call, or the end of the invocation of one in flight. -/
inductive RegistryEvent (κ ν : Type) where
  | call (now : Time) (key : Option κ)
  | resume (now : Time) (place : ℕ) (outcome : ProviderRegistry.Outcome ν)

/-- What the clock shows during a piece. -/
def RegistryEvent.now : RegistryEvent κ ν → Time
  | .call now _ => now
  | .resume now _ _ => now

namespace RegistryWorld

/-- A new registry. -/
def fresh (now : Time) : RegistryWorld κ ν := ⟨.fresh, [], now, [], [], [], [], []⟩

/-- What the end of an invocation adds to the answers. -/
def answersOf (i : Invocation κ) : ProviderRegistry.Outcome ν → List (Answer κ ν)
  | .returned value => [⟨i, value⟩]
  | _ => []

/-- And to the openings. -/
def openingsOf (r : ProviderRegistry) (s : RegistryState κ ν) (now : Time) :
    ProviderRegistry.Outcome ν → List Time
  | .failed => if r.opens s then [now] else []
  | _ => []

section

variable [DecidableEq κ]

/-- A new call. -/
def call (r : ProviderRegistry) (w : RegistryWorld κ ν) (now : Time) (key : Option κ) :
    RegistryWorld κ ν :=
  let w := { w with now := now }
  match r.beginCall w.registry key now with
  | (s, .served store value) =>
    { w with registry := s, served := w.served ++ [⟨store, key, now, value⟩] }
  | (s, .raised error) => { w with registry := s, raised := w.raised ++ [error] }
  | (s, .invoked) =>
    { w with
      registry := s
      inFlight := w.inFlight ++ [⟨key, now⟩]
      invocations := w.invocations ++ [⟨key, now⟩] }

/-- The end of an invocation. -/
def resume (r : ProviderRegistry) (w : RegistryWorld κ ν) (now : Time) (place : ℕ)
    (outcome : ProviderRegistry.Outcome ν) : RegistryWorld κ ν :=
  match w.inFlight[place]? with
  | none => { w with now := now }
  | some i =>
    let ended := r.endCall w.registry i.key i.started now outcome
    { w with
      registry := ended.1
      inFlight := w.inFlight.eraseIdx place
      now := now
      answers := w.answers ++ answersOf i outcome
      served := w.served ++ ended.2.toList.map fun value => ⟨.lastGood, i.key, i.started, value⟩
      openings := w.openings ++ openingsOf r w.registry now outcome }

/-- One piece. -/
def step (r : ProviderRegistry) (w : RegistryWorld κ ν) : RegistryEvent κ ν → RegistryWorld κ ν
  | .call now key => w.call r now key
  | .resume now place outcome => w.resume r now place outcome

end

/-- The clock does not go back. -/
def Ticks (w : RegistryWorld κ ν) (e : RegistryEvent κ ν) : Prop := w.now ≤ e.now

instance (w : RegistryWorld κ ν) (e : RegistryEvent κ ν) : Decidable (Ticks w e) :=
  inferInstanceAs (Decidable (w.now ≤ e.now))

end RegistryWorld

end TraderStack
