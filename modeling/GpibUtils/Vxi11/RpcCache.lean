import GpibUtils.Runs
import GpibUtils.SharedPool
import GpibUtils.Vxi11.Rpc

/-!
# The RPC connection cache

`rpccache.c` as a pool of connections. The two create functions differ in their keys alone;
connections come from the RPC library, so an attempt to open one is given with the client it
returns, if any, and the allocation of a cache entry with its success. The use counts of the
source are `int`; the ones here have no upper bound.

`clnttcp_create` overwrites a zero port in the caller's address by the port it asked the
portmapper for, and the cache stores the address as it is afterwards. So a connection asked
for under port zero is cached under another key than it was asked for, and the cache refines
plain ownership in every run in which that does not happen (`rpcCache_refines`).
-/

namespace GpibUtils.Vxi11

open SharedPool

/-- `MAXHOSTNAMELEN` -/
def maxHostnameLen : Nat := 64

/-- What a connection is asked for by, and cached under. -/
inductive CacheKey where
  /-- `CLNT_CREATE` -/
  | create (host proto : List Char) (prog vers : Nat)
  /-- `CLNTTCP_CREATE` -/
  | tcp (addr : UInt32) (port : UInt16) (sock : Int) (sendsz recvsz : UInt32) (prog vers : Nat)
  deriving DecidableEq

/-- The cache, with the clients that callers hold and the connections opened and destroyed. -/
abbrev RpcCache := Holdings CacheKey Client

/-- `strncpy` into a field of `MAXHOSTNAMELEN` bytes whose last byte is then cleared. -/
def fieldCopy (s : List Char) : List Char := s.take (maxHostnameLen - 1)

/-- An attempt to open a connection with `clnt_create`, and to allocate an entry for it. -/
structure Attempt where
  clnt : Option Client
  allocated : Bool
  deriving DecidableEq

/-- An attempt to open a connection with `clnttcp_create`: when it is given port zero, it stores
the port of the remote program in the address. -/
structure TcpAttempt extends Attempt where
  resolved : UInt16
  deriving DecidableEq

/-- `clnt_create_cached` -/
def clntCreateCached (cache : RpcCache) (host : List Char) (prog vers : Nat) (proto : List Char)
    (attempt : Attempt) : RpcCache × Option Client :=
  cache.acquire (.create host proto prog vers)
    (.create (fieldCopy host) (fieldCopy proto) prog vers) attempt.clnt attempt.allocated

/-- `clnttcp_create_cached`; the entry takes the socket the caller passed, saved in `savesock`,
but the port from the address as `clnttcp_create` leaves it. -/
def clnttcpCreateCached (cache : RpcCache) (addr : UInt32) (port : UInt16) (prog vers : Nat)
    (sock : Int) (sendsz recvsz : UInt32) (attempt : TcpAttempt) : RpcCache × Option Client :=
  cache.acquire (.tcp addr port sock sendsz recvsz prog vers)
    (.tcp addr (if port = 0 then attempt.resolved else port) sock sendsz recvsz prog vers)
    attempt.clnt attempt.allocated

/-- `clnt_destroy_cached` -/
def clntDestroyCached (cache : RpcCache) (clnt : Client) : RpcCache := cache.release clnt

/-! ## Runs -/

/-- A call of the cache. -/
inductive CacheCall where
  | create (host : List Char) (prog vers : Nat) (proto : List Char) (attempt : Attempt)
  | createTcp (addr : UInt32) (port : UInt16) (prog vers : Nat) (sock : Int)
      (sendsz recvsz : UInt32) (attempt : TcpAttempt)
  | destroy (clnt : Client)

/-- The cache after a call, and the client returned. -/
def CacheCall.apply (cache : RpcCache) : CacheCall → RpcCache × Option Client
  | .create host prog vers proto attempt => clntCreateCached cache host prog vers proto attempt
  | .createTcp addr port prog vers sock sendsz recvsz attempt =>
    clnttcpCreateCached cache addr port prog vers sock sendsz recvsz attempt
  | .destroy clnt => (clntDestroyCached cache clnt, none)

/-- The cache after a call. -/
def cacheStep (cache : RpcCache) (call : CacheCall) : RpcCache := (call.apply cache).1

/-- The key a call asks for a connection by. -/
def CacheCall.key : CacheCall → Option CacheKey
  | .create host prog vers proto _ => some (.create host proto prog vers)
  | .createTcp addr port prog vers sock sendsz recvsz _ =>
    some (.tcp addr port sock sendsz recvsz prog vers)
  | .destroy _ => none

/-- What callers and the RPC library promise: names are short, a client that is opened is none
of the open ones, and a client given back is handed out. -/
def CachePromise (cache : RpcCache) : CacheCall → Prop
  | .create host _ _ proto attempt =>
    host.length < maxHostnameLen ∧ proto.length < maxHostnameLen ∧
      ∀ clnt ∈ attempt.clnt, ¬Open cache.log clnt
  | .createTcp _ _ _ _ _ _ _ attempt => ∀ clnt ∈ attempt.clnt, ¬Open cache.log clnt
  | .destroy clnt => clnt ∈ cache.held

instance (cache : RpcCache) : (call : CacheCall) → Decidable (CachePromise cache call)
  | .create _ _ _ _ _ => inferInstanceAs (Decidable (_ ∧ _ ∧ _))
  | .createTcp _ _ _ _ _ _ _ attempt =>
    inferInstanceAs (Decidable (∀ clnt ∈ attempt.clnt, ¬Open cache.log clnt))
  | .destroy clnt => inferInstanceAs (Decidable (clnt ∈ cache.held))

/-- No connection that was asked for under port zero is cached under another port. -/
def CacheCall.KeepsKey : CacheCall → Prop
  | .createTcp _ port _ _ _ _ _ attempt =>
    port = 0 → attempt.clnt = none ∨ attempt.allocated = false ∨ attempt.resolved = 0
  | _ => True

/-- What holds of the cache between calls. -/
structure CacheSound (cache : RpcCache) : Prop where
  /-- No two entries share a key. -/
  keys : (cache.entries.map Entry.key).Nodup
  /-- No two entries share a client. -/
  clients : (cache.entries.map Entry.item).Nodup
  /-- A use count is the number of hand-outs, and there is one at least. -/
  uses : ∀ e ∈ cache.entries, e.uses = cache.held.count e.item ∧ 1 ≤ e.uses
  /-- A client is destroyed at most once for each time it is opened. -/
  once : ∀ clnt, destroys cache.log clnt ≤ opens cache.log clnt ∧
    opens cache.log clnt ≤ destroys cache.log clnt + 1
  /-- When everything has been given back, the cache is empty, and every connection that was
  opened has been destroyed. -/
  drained : cache.held = 0 →
    cache.entries = [] ∧ ∀ clnt, opens cache.log clnt = destroys cache.log clnt

/-- What one call does. -/
structure CallSound (cache : RpcCache) (call : CacheCall) : Prop where
  /-- A connection that is cached is handed out again, and none is opened. -/
  cached : ∀ key ∈ call.key, ∀ e ∈ cache.entries, e.key = key →
    (call.apply cache).2 = some e.item ∧ (cacheStep cache call).log = cache.log
  /-- A connection handed out was opened for the key it was asked for by. -/
  opened : ∀ key ∈ call.key, ∀ clnt ∈ (call.apply cache).2,
    openedFor (cacheStep cache call).log clnt = some key
  /-- A create destroys no connection. -/
  keeps : ∀ key ∈ call.key, ∀ clnt, destroys (cacheStep cache call).log clnt =
    destroys cache.log clnt
  /-- A client is destroyed exactly when its last hand-out is given back. -/
  destroyed : ∀ clnt, call = .destroy clnt → (cacheStep cache call).log =
    if cache.held.count clnt = 1 then cache.log ++ [.destroyed clnt] else cache.log

/-- The invariant of the cache while connections are cached under the keys they were asked for
by. -/
structure CacheInvariant (cache : RpcCache) : Prop where
  counted : Counted cache
  keyed : Keyed cache

/-- A short name is stored whole. -/
theorem fieldCopy_short {s : List Char} (short : s.length < maxHostnameLen) : fieldCopy s = s :=
  List.take_of_length_le (by unfold maxHostnameLen at *; omega)

/-- A call that keeps its key asks the pool with that key alone. -/
theorem clnttcpCreateCached_keepsKey {cache : RpcCache} {addr : UInt32} {port : UInt16}
    {prog vers : Nat} {sock : Int} {sendsz recvsz : UInt32} {attempt : TcpAttempt}
    (keeps : (CacheCall.createTcp addr port prog vers sock sendsz recvsz attempt).KeepsKey) :
    clnttcpCreateCached cache addr port prog vers sock sendsz recvsz attempt =
      cache.acquire (.tcp addr port sock sendsz recvsz prog vers)
        (.tcp addr port sock sendsz recvsz prog vers) attempt.clnt attempt.allocated := by
  unfold clnttcpCreateCached
  by_cases zero : port = 0
  · rw [if_pos zero]
    rcases keeps zero with nothing | nothing | same
    · exact acquire_unpooled (.inl nothing)
    · exact acquire_unpooled (.inr nothing)
    · rw [same, zero]
  · rw [if_neg zero]

/-- A promised call that keeps its key keeps the invariant. -/
theorem CacheInvariant.step {cache : RpcCache} (inv : CacheInvariant cache) {call : CacheCall}
    (promise : CachePromise cache call) (keeps : call.KeepsKey) :
    CacheInvariant (cacheStep cache call) := by
  cases call with
  | create host prog vers proto attempt =>
    obtain ⟨shortHost, shortProto, isFresh⟩ := promise
    simp only [cacheStep, CacheCall.apply, clntCreateCached, fieldCopy_short shortHost,
      fieldCopy_short shortProto]
    exact ⟨inv.counted.acquire _ _ _ isFresh, inv.keyed.acquire inv.counted _ _ isFresh⟩
  | createTcp addr port prog vers sock sendsz recvsz attempt =>
    simp only [cacheStep, CacheCall.apply, clnttcpCreateCached_keepsKey keeps]
    exact ⟨inv.counted.acquire _ _ _ promise, inv.keyed.acquire inv.counted _ _ promise⟩
  | destroy clnt => exact ⟨inv.counted.release promise, inv.keyed.release clnt⟩

/-- The invariant is sound. -/
theorem CacheInvariant.sound {cache : RpcCache} (inv : CacheInvariant cache) :
    CacheSound cache where
  keys := inv.keyed.keys
  clients := inv.counted.items
  uses := inv.counted.uses
  once clnt := by
    have balance := inv.counted.balance clnt
    split at balance <;> omega
  drained := inv.counted.drained

/-- Under the invariant a call does what it should. -/
theorem CacheInvariant.callSound {cache : RpcCache} (inv : CacheInvariant cache)
    {call : CacheCall} (promise : CachePromise cache call) : CallSound cache call := by
  cases call with
  | create host prog vers proto attempt =>
    constructor
    · rintro key ⟨⟩ e member same
      exact acquire_pooled inv.keyed.keys member same
    · rintro key ⟨⟩ clnt got
      exact inv.keyed.acquired got
    · rintro key - clnt
      exact acquire_destroys _ _ _ _ _ _
    · rintro clnt ⟨⟩
  | createTcp addr port prog vers sock sendsz recvsz attempt =>
    constructor
    · rintro key ⟨⟩ e member same
      exact acquire_pooled inv.keyed.keys member same
    · rintro key ⟨⟩ clnt got
      exact inv.keyed.acquired got
    · rintro key - clnt
      exact acquire_destroys _ _ _ _ _ _
    · rintro clnt ⟨⟩
  | destroy clnt =>
    constructor
    · rintro key ⟨⟩
    · rintro key ⟨⟩
    · rintro key ⟨⟩
    · rintro _ ⟨⟩
      exact inv.counted.release_log promise

/-- In every run whose calls keep their keys, the cache refines plain ownership: it is sound
between calls, and every call does what it should. -/
theorem rpcCache_refines {calls : List CacheCall}
    (along : Runs.Along cacheStep CachePromise .empty calls)
    (keyed : ∀ call ∈ calls, call.KeepsKey) :
    CacheSound (Runs.run cacheStep .empty calls) ∧
      ∀ before call later, calls = before ++ call :: later →
        CallSound (Runs.run cacheStep .empty before) call := by
  have start : CacheInvariant .empty := ⟨counted_empty, keyed_empty⟩
  have kept := along.and_forall keyed
  have keeps : ∀ cache call, CacheInvariant cache →
      CachePromise cache call ∧ call.KeepsKey → CacheInvariant (cacheStep cache call) :=
    fun _ _ inv promise => inv.step promise.1 promise.2
  refine ⟨(kept.invariant keeps start).sound, fun before call later split => ?_⟩
  exact kept.each keeps (fun _ _ inv promise => inv.callSound promise.1) start split

/-- Two holders of one connection, which is destroyed when the second gives it back. -/
theorem rpcCache_refines_shared :
    let calls : List CacheCall :=
      [.create ['g', 'w'] 395183 1 ['t', 'c', 'p'] ⟨some 1, true⟩,
        .create ['g', 'w'] 395183 1 ['t', 'c', 'p'] ⟨none, true⟩, .destroy 1, .destroy 1]
    CacheSound (Runs.run cacheStep .empty calls) ∧
      (Runs.run cacheStep .empty calls).log =
        [.opened (.create ['g', 'w'] ['t', 'c', 'p'] 395183 1) 1, .destroyed 1] :=
  ⟨(rpcCache_refines (by decide) (by simp [CacheCall.KeepsKey])).1, by decide⟩

/-- Two requests under port zero, which the portmapper resolves to port 700, leave two entries
under one key. -/
theorem rpcCache_splits_key :
    let request (clnt : Client) : CacheCall :=
      .createTcp 1 0 395184 1 (-1) 0 0 ⟨⟨some clnt, true⟩, 700⟩
    Runs.Along cacheStep CachePromise .empty [request 1, request 2] ∧
      (Runs.run cacheStep .empty [request 1, request 2]).entries.map Entry.key =
        [.tcp 1 700 (-1) 0 0 395184 1, .tcp 1 700 (-1) 0 0 395184 1] ∧
      ¬CacheSound (Runs.run cacheStep .empty [request 1, request 2]) := by
  refine ⟨by decide, by decide, fun sound => ?_⟩
  exact absurd sound.keys (by decide)

/-! ## Hosts -/

/-- What is cached as a connection to a host was opened to that host. -/
def Truthful (cache : RpcCache) : Prop :=
  ∀ e ∈ cache.entries, ∀ host proto prog vers, e.key = .create host proto prog vers →
    openedFor cache.log e.item = some e.key

/-- A change of the use count of an entry changes no key. -/
theorem Truthful.recounted {cache : RpcCache} (truthful : Truthful cache)
    {before after : List (Entry CacheKey Client)} {e : Entry CacheKey Client}
    (split : cache.entries = before ++ e :: after) (uses : Int) (held : Multiset Client) :
    Truthful ⟨before ++ { e with uses } :: after, held, cache.log⟩ := by
  rw [Truthful, split, forall_mem_middle] at truthful
  rw [Truthful, forall_mem_middle]
  exact truthful

/-- A client that is given back leaves what the others were opened for. -/
theorem Truthful.release {cache : RpcCache} (truthful : Truthful cache) (clnt : Client) :
    Truthful (cache.release clnt) := by
  have destroyed : ∀ entries held, entries ⊆ cache.entries →
      Truthful ⟨entries, held, cache.log ++ [.destroyed clnt]⟩ := by
    intro entries held fewer e member host proto prog vers same
    rw [openedFor_destroyed]
    exact truthful e (fewer member) host proto prog vers same
  unfold Holdings.release
  split
  · rename_i gone entries found
    obtain ⟨before, e, after, split, rfl, parts⟩ := giveBack_eq_some found
    rcases parts with ⟨rfl, -, rfl⟩ | ⟨rfl, -, rfl⟩
    · apply destroyed
      rw [split]
      exact ((List.sublist_cons_self e after).append_left before).subset
    · exact truthful.recounted split _ _
  · exact destroyed _ _ (List.Subset.refl _)

/-- A client that is asked for is cached under the host it was asked for, or under no host. -/
theorem Truthful.acquire {cache : RpcCache} (truthful : Truthful cache) (counted : Counted cache)
    {key stored : CacheKey} (same : ∀ host proto prog vers,
      stored = .create host proto prog vers → key = stored) {fresh : Option Client} (room : Bool)
    (isFresh : ∀ clnt ∈ fresh, ¬Open cache.log clnt) :
    Truthful (cache.acquire key stored fresh room).1 := by
  unfold Holdings.acquire
  split
  · rename_i found
    obtain ⟨before, e, after, split, -, rfl, rfl⟩ := reuse_eq_some found
    exact truthful.recounted split _ _
  · split
    · exact truthful
    · rename_i clnt
      intro e member host proto prog vers named
      have old : e ∈ cache.entries →
          openedFor (cache.log ++ [.opened key clnt]) e.item = some e.key := by
        intro inside
        have open' := (counted.open_iff e.item).mpr (counted.held inside)
        have different : clnt ≠ e.item := fun same => isFresh clnt rfl (same ▸ open')
        rw [openedFor_opened, if_neg different]
        exact truthful e inside host proto prog vers named
      cases room with
      | false => exact old member
      | true =>
        rcases List.mem_cons.mp member with rfl | inside
        · rw [openedFor_opened, if_pos rfl, same host proto prog vers named]
        · exact old inside

/-- After any calls the cached connections to hosts are what they say. -/
theorem truthful_run {calls : List CacheCall}
    (along : Runs.Along cacheStep CachePromise .empty calls) :
    Truthful (Runs.run cacheStep .empty calls) := by
  have keeps : ∀ cache call, Counted cache ∧ Truthful cache → CachePromise cache call →
      Counted (cacheStep cache call) ∧ Truthful (cacheStep cache call) := by
    rintro cache call ⟨counted, truthful⟩ promise
    cases call with
    | create host prog vers proto attempt =>
      obtain ⟨shortHost, shortProto, isFresh⟩ := promise
      simp only [cacheStep, CacheCall.apply, clntCreateCached, fieldCopy_short shortHost,
        fieldCopy_short shortProto]
      exact ⟨counted.acquire _ _ _ isFresh,
        truthful.acquire counted (fun _ _ _ _ _ => rfl) _ isFresh⟩
    | createTcp addr port prog vers sock sendsz recvsz attempt =>
      exact ⟨counted.acquire _ _ _ promise,
        truthful.acquire counted (fun _ _ _ _ named => by cases named) _ promise⟩
    | destroy clnt => exact ⟨counted.release promise, truthful.release clnt⟩
  have start : Counted (.empty : RpcCache) ∧ Truthful .empty :=
    ⟨counted_empty, fun e member => by cases member⟩
  exact (along.invariant keeps start).2

/-- What is asked for under a host was opened to that host. -/
theorem Truthful.acquired {cache : RpcCache} (truthful : Truthful cache) {host proto : List Char}
    {prog vers : Nat} {stored : CacheKey} {fresh : Option Client} {room : Bool} {clnt : Client}
    (got : (cache.acquire (.create host proto prog vers) stored fresh room).2 = some clnt) :
    openedFor (cache.acquire (.create host proto prog vers) stored fresh room).1.log clnt =
      some (.create host proto prog vers) := by
  cases found : reuse (.create host proto prog vers) cache.entries with
  | none =>
    cases fresh with
    | none => simp [Holdings.acquire, found] at got
    | some other =>
      simp only [Holdings.acquire, found, Option.some.injEq] at got ⊢
      simp [got]
  | some result =>
    obtain ⟨other, entries⟩ := result
    obtain ⟨before, e, after, split, key, rfl, rfl⟩ := reuse_eq_some found
    simp only [Holdings.acquire, found, Option.some.injEq] at got ⊢
    rw [← got, truthful e (by simp [split]) host proto prog vers key, key]

end GpibUtils.Vxi11
