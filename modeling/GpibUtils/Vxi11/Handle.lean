import GpibUtils.Vxi11.Device
import GpibUtils.Vxi11.RpcCache

/-!
# Opening and closing a handle

`vxi11_open` and `vxi11_close`, with the functions of `vxi11_core.c` that open and close the two
channels. An open may fail after each of the three things it acquires: the core channel, the
link, and the abort channel; it then closes the handle, which gives back whatever the handle
holds.
-/

namespace GpibUtils.Vxi11

open SharedPool

/-- `DEVICE_CORE` -/
def deviceCore : Nat := 0x0607af
/-- `DEVICE_CORE_VERSION` -/
def deviceCoreVersion : Nat := 1
/-- `DEVICE_ASYNC` -/
def deviceAsync : Nat := 0x0607b0
/-- `DEVICE_ASYNC_VERSION` -/
def deviceAsyncVersion : Nat := 1
/-- `RPC_ANYSOCK` -/
def rpcAnysock : Int := -1

/-! ## Channels -/

/-- `vxi11_open_core_channel`: the client stored in `*corep`, or the error. -/
def vxi11OpenCoreChannel (cache : RpcCache) (host : List Char) (attempt : Attempt) :
    RpcCache × Except Int Client :=
  match clntCreateCached cache host deviceCore deviceCoreVersion ['t', 'c', 'p'] attempt with
  | (cache, some core) => (cache, .ok core)
  | (cache, none) => (cache, .error coreCreate)

/-- `vxi11_close_core_channel` -/
def vxi11CloseCoreChannel (cache : RpcCache) (core : Client) : RpcCache :=
  clntDestroyCached cache core

/-- `vxi11_open_abrt_channel`: the client stored in `*abrtp`, or the error. The address of the
server comes from the core channel; the port is kept in the byte order of the host. -/
def vxi11OpenAbrtChannel (cache : RpcCache) (server : UInt32) (abortPort : UInt16)
    (attempt : TcpAttempt) : RpcCache × Except Int Client :=
  match clnttcpCreateCached cache server abortPort deviceAsync deviceAsyncVersion rpcAnysock 0 0
      attempt with
  | (cache, some abrt) => (cache, .ok abrt)
  | (cache, none) => (cache, .error abrtCreate)

/-- `vxi11_close_abrt_channel` -/
def vxi11CloseAbrtChannel (cache : RpcCache) (abrt : Client) : RpcCache :=
  clntDestroyCached cache abrt

/-! ## Handles -/

/-- `_find_before_colon` into a buffer of `MAXHOSTNAMELEN` bytes. -/
def findBeforeColon (s : List Char) : List Char := fieldCopy (s.takeWhile (· ≠ ':'))

/-- `_find_after_colon` -/
def findAfterColon (s : List Char) : List Char :=
  match s.dropWhile (· ≠ ':') with
  | [] => s
  | _ :: after => after

/-- What a handle sends, and the links it is granted. -/
inductive Traffic where
  /-- An RPC. -/
  | sent (rpc : Rpc)
  /-- A reply without error to `create_link`. -/
  | granted (lid : Int)
  deriving DecidableEq

/-- The link granted by a reply to `create_link`, if one came. -/
def grantOf : Option CreateLinkResp → List Traffic
  | none => []
  | some r => if r.error = 0 then [.granted r.lid] else []

/-- The RPC of a close: a link is destroyed over the core channel. A handle with a link has one
(`vxi11_linked`); without one the program would crash here. -/
def unlink (v : Device) (reply : Option DeviceError) : List Rpc :=
  if v.lid ≠ nolid then v.core.toList.map fun core => (vxi11DestroyLink core v.lid reply).1 else []

/-- `vxi11_close`: the handle, the cache, and the RPCs made. The reply of the device is
ignored. -/
def vxi11Close (v : Device) (cache : RpcCache) (reply : Option DeviceError) :
    Device × RpcCache × List Rpc :=
  let cache := v.abrt.elim cache (vxi11CloseAbrtChannel cache)
  let rpcs := unlink v reply
  let cache := v.core.elim cache (vxi11CloseCoreChannel cache)
  ({ v with abrt := none, lid := nolid, core := none }, cache, rpcs)

/-- What an open meets: the attempt to open the core channel, the reply to `create_link` if one
came, the address of the server, the attempt to open the abort channel, and the reply to the
`destroy_link` of a failed open. -/
structure Surroundings where
  core : Attempt
  link : Option CreateLinkResp
  server : UInt32
  abrt : TcpAttempt
  unlink : Option DeviceError

/-- What an open leaves. -/
structure OpenResult where
  ret : Int
  dev : Device
  cache : RpcCache
  traffic : List Traffic

/-- The error exit of `vxi11_open`. -/
def openFailed (v : Device) (cache : RpcCache) (res : Int) (traffic : List Traffic)
    (reply : Option DeviceError) : OpenResult :=
  let (v, cache, rpcs) := vxi11Close v cache reply
  ⟨res, v, cache, traffic ++ rpcs.map .sent⟩

/-- The part of `vxi11_open` after the link. -/
def openAbort (v : Device) (cache : RpcCache) (doAbort : Bool) (env : Surroundings)
    (traffic : List Traffic) : OpenResult :=
  if doAbort then
    match vxi11OpenAbrtChannel cache env.server v.abortPort env.abrt with
    | (cache, .error res) => openFailed v cache res traffic env.unlink
    | (cache, .ok abrt) => ⟨0, { v with abrt := some abrt }, cache, traffic⟩
  else ⟨0, v, cache, traffic⟩

/-- The part of `vxi11_open` after the core channel. -/
def openLink (v : Device) (core : Client) (cache : RpcCache) (doAbort : Bool)
    (env : Surroundings) : OpenResult :=
  let (rpc, res, out) := vxi11CreateLink core v.clientId v.doLocking v.lockTimeout
    (findAfterColon v.devname) ⟨v.lid, v.abortPort, v.maxRecvSize⟩ env.link
  let v := { v with lid := out.lid, abortPort := out.abortPort, maxRecvSize := out.maxRecvSize }
  let traffic := .sent rpc :: grantOf env.link
  if res ≠ 0 then openFailed v cache res traffic env.unlink
  else openAbort v cache doAbort env traffic

/-- `vxi11_open` -/
def vxi11Open (v : Device) (cache : RpcCache) (name : List Char) (doAbort : Bool)
    (env : Surroundings) : OpenResult :=
  let v := { v with devname := fieldCopy name }
  match vxi11OpenCoreChannel cache (findBeforeColon v.devname) env.core with
  | (cache, .error res) => openFailed v cache res [] env.unlink
  | (cache, .ok core) => openLink { v with core := some core } core cache doAbort env

/-- A handle holds nothing. -/
structure Closed (v : Device) : Prop where
  core : v.core = none
  abrt : v.abrt = none
  lid : v.lid = nolid

instance (v : Device) : Decidable (Closed v) :=
  decidable_of_iff (v.core = none ∧ v.abrt = none ∧ v.lid = nolid)
    ⟨fun all => ⟨all.1, all.2.1, all.2.2⟩, fun closed => ⟨closed.core, closed.abrt, closed.lid⟩⟩

/-- `vxi11_destroy` passes its assertions on a handle that holds nothing. -/
theorem Closed.destroy {v : Device} (closed : Closed v) (valid : v.magic = magic) :
    vxi11Destroy v = some () := by
  simp [vxi11Destroy, closed.core, closed.abrt, closed.lid, valid]

/-- After a close the handle holds nothing. -/
theorem vxi11Close_closed (v : Device) (cache : RpcCache) (reply : Option DeviceError) :
    Closed (vxi11Close v cache reply).1 := ⟨rfl, rfl, rfl⟩

/-- So it does after a failed open. -/
theorem openFailed_closed (v : Device) (cache : RpcCache) (res : Int) (traffic : List Traffic)
    (reply : Option DeviceError) : Closed (openFailed v cache res traffic reply).dev :=
  vxi11Close_closed v cache reply

/-- An open keeps the magic number. -/
theorem vxi11Open_magic (v : Device) (cache : RpcCache) (name : List Char) (doAbort : Bool)
    (env : Surroundings) : (vxi11Open v cache name doAbort env).dev.magic = v.magic := by
  simp only [vxi11Open]
  split
  · rfl
  · simp only [openLink]
    split
    · rfl
    · unfold openAbort
      split
      · split <;> rfl
      · rfl

/-- A handle with a link has a core channel. -/
def Linked (v : Device) : Prop := v.lid ≠ nolid → v.core ≠ none

/-- A handle that holds nothing has no link. -/
theorem Closed.linked {v : Device} (closed : Closed v) : Linked v :=
  fun some => absurd closed.lid some

/-- An open gets a link only after the core channel, and gives back both. -/
theorem vxi11Open_linked (v : Device) (cache : RpcCache) (name : List Char) (doAbort : Bool)
    (env : Surroundings) : Linked (vxi11Open v cache name doAbort env).dev := by
  simp only [vxi11Open]
  split
  · exact (openFailed_closed _ _ _ _ _).linked
  · simp only [openLink]
    split
    · exact (openFailed_closed _ _ _ _ _).linked
    · unfold openAbort
      split
      · split
        · exact (openFailed_closed _ _ _ _ _).linked
        · exact fun _ => Option.some_ne_none _
      · exact fun _ => Option.some_ne_none _

/-! ## The clients a handle holds -/

/-- The clients in the core and abort fields of a handle. -/
def refsOf (v : Device) : Multiset Client :=
  (v.core.elim 0 fun c => {c}) + v.abrt.elim 0 fun c => {c}

/-- A handle that holds nothing has no clients. -/
theorem Closed.refsOf {v : Device} (closed : Closed v) : refsOf v = 0 := by
  simp [Vxi11.refsOf, closed.core, closed.abrt]

/-- An abort channel adds its client. -/
theorem refsOf_abrt {v : Device} (free : v.abrt = none) (abrt : Client) :
    refsOf { v with abrt := some abrt } = {abrt} + refsOf v := by
  simp [refsOf, free, add_comm]

/-- The bookkeeping of a cache in which one handle holds its clients, and others hold the
rest. -/
structure Backed (v : Device) (cache : RpcCache) (others : Multiset Client) : Prop where
  counted : Counted cache
  held : cache.held = refsOf v + others

/-- A close gives back what the handle holds. -/
theorem Backed.close {v : Device} {cache : RpcCache} {others : Multiset Client}
    (backed : Backed v cache others) (reply : Option DeviceError) :
    Backed (vxi11Close v cache reply).1 (vxi11Close v cache reply).2.1 others := by
  obtain ⟨counted, held⟩ := backed
  have abrt : cache.held = v.abrt.elim 0 (fun c => {c}) +
      (v.core.elim 0 (fun c => {c}) + others) := by
    rw [held, refsOf, add_comm (v.core.elim _ _), add_assoc]
  have first := counted.returned abrt
  have second := first.1.returned first.2
  refine ⟨second.1, ?_⟩
  rw [(vxi11Close_closed v cache reply).refsOf, zero_add]
  exact second.2

/-- A failed open gives back what the handle holds. -/
theorem Backed.openFailed {v : Device} {cache : RpcCache} {others : Multiset Client}
    (backed : Backed v cache others) (res : Int) (traffic : List Traffic)
    (reply : Option DeviceError) :
    Backed (openFailed v cache res traffic reply).dev (openFailed v cache res traffic reply).cache
        others ∧ Closed (openFailed v cache res traffic reply).dev :=
  ⟨backed.close reply, openFailed_closed v cache res traffic reply⟩

/-- The clients that an open may be given are none of the open ones when it asks for them. -/
structure Fresh (cache : RpcCache) (name : List Char) (env : Surroundings) : Prop where
  core : ∀ clnt ∈ env.core.clnt, ¬Open cache.log clnt
  abrt : ∀ clnt ∈ env.abrt.clnt, ¬Open (vxi11OpenCoreChannel cache
    (findBeforeColon (fieldCopy name)) env.core).1.log clnt

instance (cache : RpcCache) (name : List Char) (env : Surroundings) :
    Decidable (Fresh cache name env) :=
  decidable_of_iff (_ ∧ _) ⟨fun both => ⟨both.1, both.2⟩, fun fresh => ⟨fresh.core, fresh.abrt⟩⟩

/-- The part of an open after the link keeps the bookkeeping, and closes the handle when it
fails. -/
theorem Backed.openAbort {v : Device} {cache : RpcCache} {others : Multiset Client}
    (backed : Backed v cache others) (free : v.abrt = none) (doAbort : Bool) {env : Surroundings}
    (isFresh : ∀ clnt ∈ env.abrt.clnt, ¬Open cache.log clnt)
    (traffic : List Traffic) :
    Backed (openAbort v cache doAbort env traffic).dev (openAbort v cache doAbort env traffic).cache
        others ∧
      ((openAbort v cache doAbort env traffic).ret ≠ 0 →
        Closed (openAbort v cache doAbort env traffic).dev) := by
  cases doAbort with
  | false => exact ⟨backed, fun failed => absurd rfl failed⟩
  | true =>
    simp only [Vxi11.openAbort, ↓reduceIte, vxi11OpenAbrtChannel]
    cases result : clnttcpCreateCached cache env.server v.abortPort deviceAsync
        deviceAsyncVersion rpcAnysock 0 0 env.abrt with
    | mk next got =>
      obtain ⟨counted, held⟩ := backed.counted.acquired isFresh result
      cases got with
      | none =>
        have same : Backed v next others := ⟨counted, by simpa [backed.held] using held⟩
        have failed := same.openFailed abrtCreate traffic env.unlink
        exact ⟨failed.1, fun _ => failed.2⟩
      | some abrt =>
        refine ⟨⟨counted, ?_⟩, fun failed => absurd rfl failed⟩
        change next.held = refsOf { v with abrt := some abrt } + others
        rw [held, backed.held, refsOf_abrt free, add_assoc]
        rfl

/-- The part of an open after the core channel likewise. -/
theorem Backed.openLink {v : Device} {cache : RpcCache} {others : Multiset Client}
    (backed : Backed v cache others) (free : v.abrt = none) (core : Client) (doAbort : Bool)
    {env : Surroundings} (isFresh : ∀ clnt ∈ env.abrt.clnt, ¬Open cache.log clnt) :
    Backed (openLink v core cache doAbort env).dev (openLink v core cache doAbort env).cache
        others ∧
      ((openLink v core cache doAbort env).ret ≠ 0 →
        Closed (openLink v core cache doAbort env).dev) := by
  have linked (lid : Int) (abortPort : UInt16) (maxRecvSize : UInt64) :
      Backed { v with lid, abortPort, maxRecvSize } cache others := ⟨backed.counted, backed.held⟩
  simp only [Vxi11.openLink]
  split
  · exact ⟨((linked _ _ _).openFailed _ _ _).1, fun _ => ((linked _ _ _).openFailed _ _ _).2⟩
  · refine (linked _ _ _).openAbort ?_ doAbort isFresh _
    exact free

/-- An open of a closed handle keeps the bookkeeping, and leaves the handle closed when it
fails. -/
theorem Backed.open {v : Device} {cache : RpcCache} {others : Multiset Client}
    (backed : Backed v cache others) (closed : Closed v) (name : List Char) (doAbort : Bool)
    {env : Surroundings} (isFresh : Fresh cache name env) :
    Backed (vxi11Open v cache name doAbort env).dev (vxi11Open v cache name doAbort env).cache
        others ∧
      ((vxi11Open v cache name doAbort env).ret ≠ 0 →
        Closed (vxi11Open v cache name doAbort env).dev) := by
  have second := isFresh.abrt
  have held := backed.held
  rw [closed.refsOf, zero_add] at held
  simp only [vxi11Open, vxi11OpenCoreChannel] at second ⊢
  cases result : clntCreateCached cache (findBeforeColon (fieldCopy name)) deviceCore
      deviceCoreVersion ['t', 'c', 'p'] env.core with
  | mk next got =>
    rw [result] at second
    obtain ⟨counted, more⟩ := backed.counted.acquired isFresh.core result
    cases got with
    | none =>
      have same : Backed { v with devname := fieldCopy name } next others := by
        refine ⟨counted, ?_⟩
        simp [refsOf, closed.core, closed.abrt, more, held]
      have failed := same.openFailed coreCreate [] env.unlink
      exact ⟨failed.1, fun _ => failed.2⟩
    | some core =>
      have reached :
          Backed { v with devname := fieldCopy name, core := some core } next others := by
        refine ⟨counted, ?_⟩
        simp [refsOf, closed.abrt, more, held]
      exact reached.openLink closed.abrt core doAbort second

end GpibUtils.Vxi11
