import TraderStack.Market.Registry

/-!
# Quotas, the breaker and freshness of the provider registry (market/registry.py)

Calls interleave at their `await`. Whatever the order, the times the limiter still
keeps are the recent ones of all invocations, its counter is that of the current day,
and every entry of a store was returned by an invocation for its key, and expires that
long after the call it was made for.

- `provider_quota_and_freshness`: what holds along every run.
-/

namespace TraderStack

open Lib

variable {κ ν : Type} {r : ProviderRegistry} {s s' : RegistryState κ ν} {now : Time}

/-! ## The limiter -/

/-- The limiter knows the invocations that count, and they are within the quotas. -/
structure Quotas (r : ProviderRegistry) (now : Time) (times : List Time) (s : RegistryState κ ν) :
    Prop where
  recent : Recent 60 now times s.minuteCalls
  tally : Tally utcDate times s.day s.dayCount
  today : ∀ d, s.day = some d → d ≤ utcDate now
  perMinute : ∀ n, r.callsPerMinute = some n → WithinWindow 60 n times
  perDay : ∀ n, r.callsPerDay = some n → WithinPeriod utcDate n times

theorem utcDate_mono {t t' : Time} (h : t ≤ t') : utcDate t ≤ utcDate t' :=
  Int.floor_mono (div_le_div_of_nonneg_right h (by norm_num))

variable {times : List Time}

/-- Nothing else of the state matters to it. -/
theorem Quotas.congr (h : Quotas r now times s) (hcalls : s'.minuteCalls = s.minuteCalls)
    (hday : s'.day = s.day) (hcount : s'.dayCount = s.dayCount) : Quotas r now times s' :=
  ⟨by rw [hcalls]; exact h.recent, by rw [hday, hcount]; exact h.tally,
    by rw [hday]; exact h.today, h.perMinute, h.perDay⟩

/-- Nor does the passing of time. -/
theorem Quotas.later {now' : Time} (h : Quotas r now times s) (hle : now ≤ now') :
    Quotas r now' times s :=
  ⟨h.recent.later hle, h.tally, fun d hd => (h.today d hd).trans (utcDate_mono hle), h.perMinute,
    h.perDay⟩

namespace ProviderRegistry

theorem quotas_rollQuota (h : Quotas r now times s) : Quotas r now times (rollQuota s now) where
  recent := h.recent.prune
  tally := h.tally.roll h.today
  today := by
    rintro d ⟨⟩
    exact le_refl _
  perMinute := h.perMinute
  perDay := h.perDay

theorem not_le_of_filter {n : Option ℕ} {k : ℕ} (h : n.filter (· ≤ k) = none) :
    ∀ m, n = some m → k < m := by
  rintro m rfl
  simpa using h

/-- **A reservation** that is refused changes nothing that counts, and one that is not
adds an invocation that still fits. -/
theorem quotas_reserveQuota (h : Quotas r now times s) {refused : Option RegistryError}
    (hreserve : r.reserveQuota s now = (s', refused)) :
    (∀ e, refused = some e → Quotas r now times s') ∧
      (refused = none → Quotas r now (times ++ [now]) s') := by
  have hroll := quotas_rollQuota h
  unfold reserveQuota at hreserve
  dsimp only at hreserve
  split at hreserve
  · cases hreserve
    exact ⟨fun _ _ => hroll, nofun⟩
  · rename_i hminute
    split at hreserve
    · cases hreserve
      exact ⟨fun _ _ => hroll, nofun⟩
    · rename_i hday
      cases hreserve
      refine ⟨nofun, fun _ => ⟨hroll.recent.push, hroll.tally.push, hroll.today, ?_, ?_⟩⟩
      · intro n hn
        exact (hroll.perMinute n hn).push hroll.recent (not_le_of_filter hminute n hn)
      · intro n hn
        exact (hroll.perDay n hn).push hroll.tally (not_le_of_filter hday n hn)

/-! ## The breaker -/

/-- Past the breaker: it was not open, or has been for the cool-down. -/
theorem checkBreaker_ok (h : r.checkBreaker s now = .ok s') :
    (s.state ≠ .opened ∧ s' = s) ∨
      ∃ t, s.openedAt = some t ∧ r.cooldownSeconds ≤ now - t ∧
        s' = { s with state := .halfOpen } := by
  unfold checkBreaker at h
  split at h
  · rename_i openedAt _ hopened
    split at h
    · rename_i helapsed
      cases h
      exact .inr ⟨openedAt, hopened, helapsed, rfl⟩
    · cases h
  · cases h
  · rename_i hnot hnever
    cases h
    refine .inl ⟨fun hopened => ?_, rfl⟩
    cases hat : s.openedAt with
    | none => exact hnever hopened hat
    | some t => exact hnot t hopened hat

/-- **Both checks.** -/
structure Checked (r : ProviderRegistry) (now : Time) (times : List Time)
    (s s' : RegistryState κ ν) (refused : Option RegistryError) : Prop where
  quotas : Quotas r now (if refused = none then times ++ [now] else times) s'
  cache : s'.cache = s.cache
  lastGood : s'.lastGood = s.lastGood
  opened : s'.state = .opened → s.state = .opened ∧ s'.openedAt = s.openedAt
  elapsed : refused = none → s.state = .opened →
    ∃ t, s.openedAt = some t ∧ r.cooldownSeconds ≤ now - t

theorem reserveQuota_frame {refused : Option RegistryError}
    (h : r.reserveQuota s now = (s', refused)) :
    s'.cache = s.cache ∧ s'.lastGood = s.lastGood ∧ s'.state = s.state ∧
      s'.openedAt = s.openedAt := by
  unfold reserveQuota at h
  dsimp only at h
  split at h
  · cases h
    exact ⟨rfl, rfl, rfl, rfl⟩
  · split at h
    · cases h
      exact ⟨rfl, rfl, rfl, rfl⟩
    · cases h
      exact ⟨rfl, rfl, rfl, rfl⟩

theorem checked_checkCall (h : Quotas r now times s) {refused : Option RegistryError}
    (hcheck : r.checkCall s now = (s', refused)) : Checked r now times s s' refused := by
  unfold checkCall at hcheck
  split at hcheck
  · cases hcheck
    exact ⟨h, rfl, rfl, fun hopened => ⟨hopened, rfl⟩, nofun⟩
  · rename_i s₁ hbreaker
    have hsame : Quotas r now times s₁ ∧ s₁.cache = s.cache ∧ s₁.lastGood = s.lastGood := by
      rcases checkBreaker_ok hbreaker with ⟨-, rfl⟩ | ⟨t, -, -, rfl⟩
      · exact ⟨h, rfl, rfl⟩
      · exact ⟨h.congr rfl rfl rfl, rfl, rfl⟩
    obtain ⟨hrefused, hadded⟩ := quotas_reserveQuota hsame.1 hcheck
    obtain ⟨hcache, hgood, hstate, hat⟩ := reserveQuota_frame hcheck
    refine ⟨?_, hcache.trans hsame.2.1, hgood.trans hsame.2.2, fun hopened => ?_,
      fun _ hopened => ?_⟩
    · cases refused with
      | none => exact hadded rfl
      | some e => exact hrefused e rfl
    · rcases checkBreaker_ok hbreaker with ⟨hnot, rfl⟩ | ⟨t, -, -, rfl⟩
      · exact ⟨hstate ▸ hopened, hat⟩
      · rw [hstate] at hopened
        cases hopened
    · rcases checkBreaker_ok hbreaker with ⟨hnot, rfl⟩ | ⟨t, ht, helapsed, rfl⟩
      · exact absurd hopened hnot
      · exact ⟨t, ht, helapsed⟩

/-! ## The stores -/

/-- The entry was returned by an invocation for its key, and expires that long after the
call it was made for. -/
def From (answers : List (Answer κ ν)) (ttl : ℚ) (k : κ) (e : CacheEntry ν) : Prop :=
  ∃ a ∈ answers, a.invocation.key = some k ∧ a.value = e.value ∧
    e.expiresAt = a.invocation.started + ttl

/-- How long a store keeps a value. -/
def ttl (r : ProviderRegistry) : Store → ℚ
  | .cache => r.cacheTtlSeconds
  | .lastGood => r.lastGoodTtlSeconds

/-- The value was returned by an invocation for the key that began less than the ttl
before the call it is served to. -/
def FreshValue (r : ProviderRegistry) (answers : List (Answer κ ν)) (store : Store)
    (key : Option κ) (calledAt : Time) (value : ν) : Prop :=
  ∃ k, key = some k ∧ ∃ a ∈ answers, a.invocation.key = some k ∧ a.value = value ∧
    calledAt - a.invocation.started < r.ttl store

theorem From.mono {answers answers' : List (Answer κ ν)} (hsub : ∀ a ∈ answers, a ∈ answers')
    {ttl : ℚ} {k : κ} {e : CacheEntry ν} (h : From answers ttl k e) : From answers' ttl k e := by
  obtain ⟨a, ha, hrest⟩ := h
  exact ⟨a, hsub a ha, hrest⟩

theorem FreshValue.mono {answers answers' : List (Answer κ ν)}
    (hsub : ∀ a ∈ answers, a ∈ answers') {store : Store} {key : Option κ} {calledAt : Time}
    {value : ν} (h : FreshValue r answers store key calledAt value) :
    FreshValue r answers' store key calledAt value := by
  obtain ⟨k, hk, a, ha, hrest⟩ := h
  exact ⟨k, hk, a, hsub a ha, hrest⟩

variable [DecidableEq κ] {answers : List (Answer κ ν)}

/-- Both stores hold what invocations returned. -/
structure Stores (r : ProviderRegistry) (answers : List (Answer κ ν)) (s : RegistryState κ ν) :
    Prop where
  cache : ∀ k e, s.cache.get? k = some e → From answers (r.ttl .cache) k e
  lastGood : ∀ k e, s.lastGood.get? k = some e → From answers (r.ttl .lastGood) k e

theorem Stores.congr (h : Stores r answers s) (hcache : s'.cache = s.cache)
    (hgood : s'.lastGood = s.lastGood) : Stores r answers s' :=
  ⟨by rw [hcache]; exact h.cache, by rw [hgood]; exact h.lastGood⟩

/-- What a lookup leaves was there, and what it finds has not expired. -/
theorem unexpired_spec {entries : Dict κ (CacheEntry ν)} {k : κ} :
    (∀ j e, (unexpired entries k now).2.get? j = some e → entries.get? j = some e) ∧
      ∀ v, (unexpired entries k now).1 = some v →
        ∃ e, entries.get? k = some e ∧ e.value = v ∧ now < e.expiresAt := by
  unfold unexpired
  split
  · exact ⟨fun _ _ h => h, nofun⟩
  · rename_i e he
    split
    · exact ⟨fun _ _ h => Dict.get?_of_erase h, nofun⟩
    · rename_i hlater
      exact ⟨fun _ _ h => h, fun v hv => ⟨e, he, Option.some.inj hv, not_le.mp hlater⟩⟩

/-- What is found of a store is fresh. -/
theorem freshValue_of_unexpired {entries : Dict κ (CacheEntry ν)} {store : Store} {k : κ} {v : ν}
    (h : ∀ k e, entries.get? k = some e → From answers (r.ttl store) k e)
    (hfound : (unexpired entries k now).1 = some v) :
    FreshValue r answers store (some k) now v := by
  obtain ⟨e, he, hvalue, hlater⟩ := unexpired_spec.2 v hfound
  obtain ⟨a, ha, hkey, hav, hexpires⟩ := h k e he
  refine ⟨k, rfl, a, ha, hkey, hav.trans hvalue, ?_⟩
  rw [hexpires] at hlater
  linarith

/-- A lookup of either store. -/
structure LooksUp (r : ProviderRegistry) (answers : List (Answer κ ν)) (store : Store)
    (key : Option κ) (now : Time) (s : RegistryState κ ν) (found : Option ν)
    (s' : RegistryState κ ν) : Prop where
  stores : Stores r answers s'
  fresh : ∀ v, found = some v → FreshValue r answers store key now v
  state : s'.state = s.state
  openedAt : s'.openedAt = s.openedAt
  quotas : ∀ {t times}, Quotas r t times s → Quotas r t times s'

theorem looksUp_none (h : Stores r answers s) (store : Store) (key : Option κ) (now : Time) :
    LooksUp r answers store key now s none s := ⟨h, nofun, rfl, rfl, fun h => h⟩

theorem looksUp_cacheGet (h : Stores r answers s) (key : Option κ) (now : Time) :
    LooksUp r answers .cache key now s (r.cacheGet s key now).1 (r.cacheGet s key now).2 := by
  unfold cacheGet
  cases key with
  | none => exact looksUp_none h .cache none now
  | some k =>
    dsimp only
    split
    · exact ⟨⟨fun j e he => h.cache j e (unexpired_spec.1 j e he), h.lastGood⟩,
        fun v hv => freshValue_of_unexpired h.cache hv, rfl, rfl, fun hq => hq.congr rfl rfl rfl⟩
    · exact looksUp_none h .cache (some k) now

theorem looksUp_lastGoodGet (h : Stores r answers s) (key : Option κ) (now : Time) :
    LooksUp r answers .lastGood key now s (r.lastGoodGet s key now).1
      (r.lastGoodGet s key now).2 := by
  unfold lastGoodGet
  cases key with
  | none => exact looksUp_none h .lastGood none now
  | some k =>
    dsimp only
    split
    · exact looksUp_none h .lastGood (some k) now
    · exact ⟨⟨h.cache, fun j e he => h.lastGood j e (unexpired_spec.1 j e he)⟩,
        fun v hv => freshValue_of_unexpired h.lastGood hv, rfl, rfl, fun hq => hq.congr rfl rfl rfl⟩

/-- Storing an answer under the time of its call. -/
theorem stores_store (h : Stores r answers s) {i : Invocation κ} {value : ν}
    (hanswer : ⟨i, value⟩ ∈ answers) : Stores r answers (r.store s i.key value i.started) := by
  unfold store
  cases hkey : i.key with
  | none => exact h
  | some k =>
    have hput : ∀ (entries : Dict κ (CacheEntry ν)) (keep : ℚ),
        (∀ j e, entries.get? j = some e → From answers keep j e) →
        ∀ j e, (entries.set k ⟨value, i.started + keep⟩).get? j = some e →
          From answers keep j e := by
      intro entries keep hentries j e he
      by_cases hjk : j = k
      · rw [hjk, Dict.get?_set_self] at he
        obtain rfl := Option.some.inj he
        exact ⟨_, hanswer, by rw [hkey, hjk], rfl, rfl⟩
      · rw [Dict.get?_set_of_ne _ hjk] at he
        exact hentries j e he
    constructor
    · dsimp only
      split
      · exact hput _ _ h.cache
      · exact h.cache
    · dsimp only
      split
      · exact h.lastGood
      · exact hput _ _ h.lastGood

theorem Stores.mono {answers' : List (Answer κ ν)} (hsub : ∀ a ∈ answers, a ∈ answers')
    (h : Stores r answers s) : Stores r answers' s :=
  ⟨fun k e he => (h.cache k e he).mono hsub, fun k e he => (h.lastGood k e he).mono hsub⟩

/-- Storing touches the two stores only. -/
theorem store_frame (s : RegistryState κ ν) (key : Option κ) (value : ν) (started : Time) :
    (r.store s key value started).minuteCalls = s.minuteCalls ∧
      (r.store s key value started).day = s.day ∧
      (r.store s key value started).dayCount = s.dayCount ∧
      (r.store s key value started).state = s.state := by
  unfold store
  cases key with
  | none => exact ⟨rfl, rfl, rfl, rfl⟩
  | some k => exact ⟨rfl, rfl, rfl, rfl⟩

/-! ## The two pieces of a call -/

/-- How the first piece of a call ends, and what it keeps. -/
structure Begins (r : ProviderRegistry) (answers : List (Answer κ ν)) (times : List Time)
    (key : Option κ) (now : Time) (s s' : RegistryState κ ν) (began : Began ν) : Prop where
  stores : Stores r answers s'
  opened : s'.state = .opened → s.state = .opened ∧ s'.openedAt = s.openedAt
  served : ∀ store v, began = .served store v → FreshValue r answers store key now v
  held : began ≠ .invoked → Quotas r now times s'
  invoked : began = .invoked → Quotas r now (times ++ [now]) s' ∧
    (s.state = .opened → ∃ t, s.openedAt = some t ∧ r.cooldownSeconds ≤ now - t)

theorem begins_beginCall (hquotas : Quotas r now times s) (hstores : Stores r answers s)
    {key : Option κ} {began : Began ν} (h : r.beginCall s key now = (s', began)) :
    Begins r answers times key now s s' began := by
  have hcache := looksUp_cacheGet hstores key now
  unfold beginCall at h
  split at h
  · rename_i v s₁ hget
    rw [hget] at hcache
    cases h
    refine ⟨hcache.stores, fun ho => ⟨hcache.state ▸ ho, hcache.openedAt⟩, ?_,
      fun _ => hcache.quotas hquotas, nofun⟩
    rintro store v' ⟨⟩
    exact hcache.fresh v rfl
  · rename_i s₁ hget
    rw [hget] at hcache
    split at h
    · rename_i s₂ hcheck
      have hchecked := checked_checkCall (hcache.quotas hquotas) hcheck
      cases h
      refine ⟨hcache.stores.congr hchecked.cache hchecked.lastGood, fun ho => ?_, nofun,
        fun hne => absurd rfl hne, fun _ => ⟨hchecked.quotas, fun ho => ?_⟩⟩
      · obtain ⟨hstate, hat⟩ := hchecked.opened ho
        exact ⟨hcache.state ▸ hstate, hat.trans hcache.openedAt⟩
      · obtain ⟨t, ht, helapsed⟩ := hchecked.elapsed rfl (hcache.state.trans ho)
        exact ⟨t, hcache.openedAt ▸ ht, helapsed⟩
    · -- a refused call may still find the last good value
      rename_i s₂ error hcheck
      have hchecked := checked_checkCall (hcache.quotas hquotas) hcheck
      have hgood := looksUp_lastGoodGet
        (hcache.stores.congr hchecked.cache hchecked.lastGood) key now
      have hopened : ∀ s₃ : RegistryState κ ν, s₃.state = s₂.state → s₃.openedAt = s₂.openedAt →
          s₃.state = .opened → s.state = .opened ∧ s₃.openedAt = s.openedAt := by
        intro s₃ hstate hat ho
        obtain ⟨hstate₁, hat₁⟩ := hchecked.opened (hstate ▸ ho)
        exact ⟨hcache.state ▸ hstate₁, hat.trans (hat₁.trans hcache.openedAt)⟩
      split at h
      · rename_i v s₃ hfound
        rw [hfound] at hgood
        cases h
        refine ⟨hgood.stores, hopened _ hgood.state hgood.openedAt, ?_,
          fun _ => hgood.quotas hchecked.quotas, nofun⟩
        rintro store v' ⟨⟩
        exact hgood.fresh v rfl
      · rename_i s₃ hfound
        rw [hfound] at hgood
        cases h
        exact ⟨hgood.stores, hopened _ hgood.state hgood.openedAt, nofun,
          fun _ => hgood.quotas hchecked.quotas, nofun⟩

end ProviderRegistry

/-! ## Runs -/

namespace RegistryWorld

variable [DecidableEq κ] {w : RegistryWorld κ ν}

open ProviderRegistry

/-- What holds in every state of a run. -/
structure Sound (r : ProviderRegistry) (w : RegistryWorld κ ν) : Prop where
  quotas : Quotas r w.now (w.invocations.map Invocation.started) w.registry
  stores : Stores r w.answers w.registry
  flying : ∀ i ∈ w.inFlight, i ∈ w.invocations
  answered : ∀ a ∈ w.answers, a.invocation ∈ w.invocations
  fresh : ∀ x ∈ w.served, FreshValue r w.answers x.store x.key x.calledAt x.value
  opened : w.registry.state = .opened →
    ∃ t, w.registry.openedAt = some t ∧ w.openings.getLast? = some t

theorem sound_fresh (r : ProviderRegistry) (now : Time) :
    Sound r (fresh now : RegistryWorld κ ν) where
  quotas := ⟨.nil, .start, nofun, fun _ _ => .nil, fun _ _ => .nil⟩
  stores := ⟨nofun, nofun⟩
  flying := fun _ h => absurd h List.not_mem_nil
  answered := fun _ h => absurd h List.not_mem_nil
  fresh := fun _ h => absurd h List.not_mem_nil
  opened := nofun

/-- **A new call** keeps it. -/
theorem Sound.call (h : Sound r w) (hle : w.now ≤ now) (key : Option κ) :
    Sound r (w.call r now key) := by
  have hquotas := h.quotas.later hle
  unfold RegistryWorld.call
  dsimp only
  split
  · rename_i s store v hbegan
    have hb := begins_beginCall hquotas h.stores hbegan
    refine ⟨hb.held nofun, hb.stores, h.flying, h.answered, fun x hx => ?_, fun ho => ?_⟩
    · rcases List.mem_append.mp hx with hold | hnew
      · exact h.fresh x hold
      · rw [List.mem_singleton.mp hnew]
        exact hb.served store v rfl
    · obtain ⟨hstate, hat⟩ := hb.opened ho
      exact hat ▸ h.opened hstate
  · rename_i s error hbegan
    have hb := begins_beginCall hquotas h.stores hbegan
    refine ⟨hb.held nofun, hb.stores, h.flying, h.answered, h.fresh, fun ho => ?_⟩
    obtain ⟨hstate, hat⟩ := hb.opened ho
    exact hat ▸ h.opened hstate
  · rename_i s hbegan
    have hb := begins_beginCall hquotas h.stores hbegan
    refine ⟨?_, hb.stores, fun i hi => ?_, fun a ha => List.mem_append_left _ (h.answered a ha),
      h.fresh, fun ho => ?_⟩
    · rw [List.map_append]
      exact (hb.invoked rfl).1
    · rcases List.mem_append.mp hi with hold | hnew
      · exact List.mem_append_left _ (h.flying i hold)
      · exact List.mem_append_right _ hnew
    · obtain ⟨hstate, hat⟩ := hb.opened ho
      exact hat ▸ h.opened hstate

/-- **The end of an invocation** keeps it. -/
theorem Sound.resume (h : Sound r w) (hle : w.now ≤ now) (place : ℕ)
    (outcome : Outcome ν) : Sound r (w.resume r now place outcome) := by
  have hquotas := h.quotas.later hle
  unfold RegistryWorld.resume
  split
  · exact ⟨hquotas, h.stores, h.flying, h.answered, h.fresh, h.opened⟩
  · rename_i i hi
    have hflying : ∀ j ∈ w.inFlight.eraseIdx place, j ∈ w.invocations :=
      fun j hj => h.flying j (List.mem_of_mem_eraseIdx hj)
    cases outcome with
    | returned value =>
      have hgrown : ∀ a ∈ w.answers, a ∈ w.answers ++ [⟨i, value⟩] :=
        fun a ha => List.mem_append_left _ ha
      have hstored : Stores r (w.answers ++ [⟨i, value⟩]) (recordSuccess w.registry) :=
        (h.stores.mono hgrown).congr rfl rfl
      obtain ⟨hcalls, hday, hcount, hstate⟩ :=
        store_frame (r := r) (recordSuccess w.registry) i.key value i.started
      refine ⟨hquotas.congr hcalls hday hcount,
        stores_store hstored (List.mem_append_right _ (List.mem_singleton_self _)), hflying,
        fun a ha => ?_, fun x hx => ?_, fun ho => ?_⟩
      · rcases List.mem_append.mp ha with hold | hnew
        · exact h.answered a hold
        · rw [List.mem_singleton.mp hnew]
          exact h.flying i (List.mem_of_getElem? hi)
      · exact (h.fresh x (List.append_nil w.served ▸ hx)).mono hgrown
      · exact absurd (hstate.symm.trans ho) CircuitState.noConfusion
    | failed =>
      -- the failure is recorded before the store is asked
      have hrecorded : Stores r w.answers (r.recordFailure w.registry now) ∧
          Quotas r now (w.invocations.map Invocation.started) (r.recordFailure w.registry now) := by
        unfold recordFailure
        dsimp only
        split
        · exact ⟨h.stores.congr rfl rfl, hquotas.congr rfl rfl rfl⟩
        · exact ⟨h.stores.congr rfl rfl, hquotas.congr rfl rfl rfl⟩
      have hgood := looksUp_lastGoodGet hrecorded.1 i.key i.started
      have hanswers : ∀ a ∈ w.answers, a ∈ w.answers ++ answersOf i (.failed : Outcome ν) :=
        fun a ha => List.mem_append_left _ ha
      refine ⟨hgood.quotas hrecorded.2, hgood.stores.mono hanswers, hflying,
        fun a ha => h.answered a (List.append_nil w.answers ▸ ha), fun x hx => ?_, fun ho => ?_⟩
      · rcases List.mem_append.mp hx with hold | hnew
        · exact (h.fresh x hold).mono hanswers
        · obtain ⟨value, hvalue, rfl⟩ := List.mem_map.mp hnew
          exact (hgood.fresh value (Option.mem_toList.mp hvalue)).mono hanswers
      · have hbefore : (r.recordFailure w.registry now).state = .opened := hgood.state.symm.trans ho
        have hat := hgood.openedAt
        show ∃ t, (r.lastGoodGet (r.recordFailure w.registry now) i.key i.started).2.openedAt
            = some t ∧
          (w.openings ++ if r.opens w.registry then [now] else []).getLast? = some t
        rw [hat]
        unfold recordFailure at hbefore ⊢
        dsimp only at hbefore ⊢
        by_cases hopens : r.opens w.registry = true
        · rw [if_pos hopens, if_pos hopens]
          exact ⟨now, rfl, List.getLast?_concat⟩
        · rw [if_neg hopens] at hbefore
          rw [if_neg hopens, if_neg hopens, List.append_nil]
          exact h.opened hbefore
    | cancelled =>
      refine ⟨hquotas, h.stores.mono fun a ha => List.mem_append_left _ ha, hflying,
        fun a ha => h.answered a (List.append_nil w.answers ▸ ha), fun x hx => ?_, fun ho => ?_⟩
      · exact (h.fresh x (List.append_nil w.served ▸ hx)).mono fun a ha => List.mem_append_left _ ha
      · show ∃ t, _ ∧ (w.openings ++ []).getLast? = some t
        rw [List.append_nil]
        exact h.opened ho

/-- **One piece** keeps it. -/
theorem Sound.step (h : Sound r w) {e : RegistryEvent κ ν} (hticks : Ticks w e) :
    Sound r (w.step r e) := by
  cases e with
  | call now key => exact h.call hticks key
  | resume now place outcome => exact h.resume hticks place outcome

/-- Nothing is invoked while the breaker is open and its cool-down runs. -/
def RestsWhileOpen (r : ProviderRegistry) (w : RegistryWorld κ ν) (e : RegistryEvent κ ν) : Prop :=
  w.registry.state = .opened → ∃ t, w.openings.getLast? = some t ∧
    (e.now - t < r.cooldownSeconds → (w.step r e).invocations = w.invocations)

theorem Sound.restsWhileOpen (h : Sound r w) {e : RegistryEvent κ ν} (hticks : Ticks w e) :
    RestsWhileOpen r w e := by
  intro hopened
  obtain ⟨t, hat, hlast⟩ := h.opened hopened
  refine ⟨t, hlast, fun hcooling => ?_⟩
  cases e with
  | call now key =>
    show (w.call r now key).invocations = w.invocations
    unfold RegistryWorld.call
    dsimp only
    split
    · rfl
    · rfl
    · rename_i s hbegan
      have hb := begins_beginCall (h.quotas.later hticks) h.stores hbegan
      obtain ⟨t', hat', helapsed⟩ := (hb.invoked rfl).2 hopened
      obtain rfl := Option.some.inj (hat.symm.trans hat')
      exact absurd hcooling (not_lt.mpr helapsed)
  | resume now place outcome =>
    show (w.resume r now place outcome).invocations = w.invocations
    unfold RegistryWorld.resume
    split
    · rfl
    · rfl

end RegistryWorld

open RegistryWorld

/-- **Quota and freshness of a provider.** Whatever the order of the pieces of
concurrent calls, on a clock that does not go back: no 60 seconds and no UTC day see
more invocations than their budget; none begins while the breaker is open and its
cool-down runs; and what a store serves was returned by an invocation for the same key
that began less than the ttl before the call. -/
theorem provider_quota_and_freshness [DecidableEq κ] (r : ProviderRegistry) (begins : Time)
    (es : List (RegistryEvent κ ν)) (hclock : Along (step r) Ticks (fresh begins) es) :
    (∀ n, r.callsPerMinute = some n →
      WithinWindow 60 n ((run (step r) (fresh begins) es).invocations.map Invocation.started)) ∧
    (∀ n, r.callsPerDay = some n → WithinPeriod utcDate n
      ((run (step r) (fresh begins) es).invocations.map Invocation.started)) ∧
    Along (step r) (RestsWhileOpen r) (fresh begins) es ∧
    ∀ x ∈ (run (step r) (fresh begins) es).served, ∃ k, x.key = some k ∧
      ∃ a ∈ (run (step r) (fresh begins) es).answers,
        a.invocation ∈ (run (step r) (fresh begins) es).invocations ∧
        a.invocation.key = some k ∧ a.value = x.value ∧
        x.calledAt - a.invocation.started < r.ttl x.store := by
  have hsound : Sound r (run (step r) (fresh begins) es) :=
    run_invariant_along (fun _ _ hticks h => h.step hticks) _ es hclock (sound_fresh r begins)
  refine ⟨hsound.quotas.perMinute, hsound.quotas.perDay, ?_, fun x hx => ?_⟩
  · exact along_mono (fun _ _ hticks h => h.step hticks)
      (fun _ _ hticks h => h.restsWhileOpen hticks) _ es hclock (sound_fresh r begins)
  · obtain ⟨k, hk, a, ha, hkey, hvalue, hage⟩ := hsound.fresh x hx
    exact ⟨k, hk, a, ha, hsound.answered a ha, hkey, hvalue, hage⟩

/-! ### A provider that fails for a while -/

namespace Throttled

/-- One failure opens the breaker for thirty seconds. -/
def registry : ProviderRegistry where
  name := "coingecko"
  failureThreshold := 1
  cooldownSeconds := 30
  callsPerMinute := some 2
  callsPerDay := some 3
  cacheTtlSeconds := 10
  lastGoodTtlSeconds := 100

/-- A price, twice from the cache's time to live on; the second call fails. -/
def events : List (RegistryEvent String ℕ) :=
  [.call 0 (some "BTC"), .resume 1 0 (.returned 100), .call 5 (some "BTC"),
    .call 20 (some "BTC"), .resume 21 0 .failed, .call 40 (some "BTC"), .call 70 (some "BTC")]

end Throttled

theorem provider_quota_and_freshness_throttled :
    ((run (step Throttled.registry) (fresh 0) Throttled.events).served.map Served.value
      = [100, 100, 100]) ∧
    WithinWindow 60 2 ((run (step Throttled.registry) (fresh 0)
      Throttled.events).invocations.map Invocation.started) ∧
    Along (step Throttled.registry) (RestsWhileOpen Throttled.registry) (fresh 0)
      Throttled.events := by
  have hclock : Along (step Throttled.registry) Ticks (fresh 0) Throttled.events := by
    decide +kernel
  have hquota := provider_quota_and_freshness Throttled.registry 0 Throttled.events hclock
  exact ⟨by decide +kernel, hquota.1 2 rfl, hquota.2.2.1⟩

end TraderStack
