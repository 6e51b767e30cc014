import GpibUtils.Vxi11.Locking
import GpibUtils.Vxi11.World

/-!
# Errors and their texts

What an operation returns when an RPC gets no reply, and what `vxi11_strerror` makes of it. The
text of such an error comes from the client the RPC was sent on, which the handle must still
hold. It does, and the code names the right client, except after an abort without a reply and
after an open whose `create_link` gets none (`vxi11_reports_iff`).
-/

namespace GpibUtils.Vxi11

open CSem Dialogue

/-! ## Texts -/

/-- `errtab` -/
def errtab : List (Int × String) :=
  [(coreCreate, "create core RPC channel"),
    (abrtCreate, "create abrt RPC channel"),
    (coreRpcerr, "error on core RPC channel"),
    (abrtRpcerr, "error on abrt RPC channel"),
    (0, "success"),
    (1, "syntax error"),
    (3, "no device"),
    (errLinkinval, "invalid link"),
    (5, "parameter error"),
    (errNochan, "channel not established"),
    (8, "unsupported operation"),
    (9, "insufficent resources"),
    (11, "device locked"),
    (12, "device unlocked"),
    (errIotimeout, "I/O timeout"),
    (17, "I/O error"),
    (21, "address invalid"),
    (23, "I/O operation aborted"),
    (29, "channel already established")]

/-- `_lookup_err` -/
def lookupErr (err : Int) : String := (errtab.lookup err).getD "unknown error"

/-- Where `vxi11_strerror` takes its text from. -/
inductive TextSource where
  /-- `clnt_spcreateerror` -/
  | createError (label : String)
  /-- `clnt_sperror`, with the client given to it. -/
  | clientError (client : Option Client) (label : String)
  /-- The table. -/
  | table (text : String)
  deriving DecidableEq

/-- The switch of `vxi11_strerror`. -/
def strerrorSource (v : Device) (err : Int) : TextSource :=
  if err = coreCreate then .createError "core"
  else if err = abrtCreate then .createError "abrt"
  else if err = coreRpcerr then .clientError v.core "core"
  else if err = abrtRpcerr then .clientError v.abrt "abrt"
  else .table (lookupErr err)

/-- The texts of the RPC library. -/
structure RpcTexts where
  /-- `clnt_spcreateerror` -/
  spcreateerror : String → List Char
  /-- `clnt_sperror` -/
  sperror : Client → String → List Char

/-- The text found at a source; `none` is a null client handed to the library. -/
def TextSource.text (texts : RpcTexts) : TextSource → Option (List Char)
  | .createError label => some (texts.spcreateerror label)
  | .clientError client label => client.map fun client => texts.sperror client label
  | .table text => some text.toList

/-- A text as kept in a handle: what fits 128 bytes, less a newline at its end. -/
def errstr (text : List Char) : List Char :=
  let kept := text.take 127
  if kept.getLast? = some '\n' then kept.dropLast else kept

/-- `vxi11_strerror` -/
def vxi11Strerror (texts : RpcTexts) (v : Device) (err : Int) : Option (List Char) :=
  ((strerrorSource v err).text texts).map errstr

/-- `vxi11_perror`: the line written. -/
def vxi11Perror (texts : RpcTexts) (v : Device) (err : Int) (str : List Char) :
    Option (List Char) :=
  (vxi11Strerror texts v err).map fun text =>
    str ++ " (".toList ++ v.devname ++ "): ".toList ++ text ++ ['\n']

/-! ## What an operation meets -/

/-- One of the two connections to a device. -/
inductive Channel where
  | core
  | abrt
  deriving DecidableEq

/-- The error of an RPC that gets no reply. -/
def Channel.rpcerr : Channel → Int
  | .core => coreRpcerr
  | .abrt => abrtRpcerr

/-- The name of a channel in error texts. -/
def Channel.label : Channel → String
  | .core => "core"
  | .abrt => "abrt"

/-- The channel an RPC is sent on. -/
def Rpc.channel (rpc : Rpc) : Channel :=
  match rpc.procedure with
  | .deviceAbort _ => .abrt
  | _ => .core

/-- A step of an operation. -/
inductive Event where
  /-- An RPC, with the error its reply carried, if a reply came. -/
  | called (rpc : Rpc) (reply : Option DeviceError)
  /-- A step that fails for another reason: no channel, no link, or no time left. -/
  | failed (code : Int)

/-- The RPC of a step. -/
def Event.rpc : Event → Option Rpc
  | .called rpc _ => some rpc
  | .failed _ => none

/-- The error of a step. -/
def Event.code : Event → Int
  | .called _ reply => resultOf reply
  | .failed code => code

/-- The first step of an operation that fails is an RPC that gets no reply. -/
def FailsAt (log : List Event) (rpc : Rpc) : Prop :=
  log.find? (fun event => decide (event.code ≠ 0)) = some (.called rpc none)

/-- The steps of an operation on the core channel. -/
def coreLog (v : Device) (steps : Client → List Event) : List Event :=
  match v.core with
  | none => [.failed errNochan]
  | some core => if v.lid = nolid then [.failed errLinkinval] else steps core

/-- The steps of a transfer, given those of its data RPCs. -/
def transferLog {ρ : Type} (v : Device) (core : Client) (peer : Peer ρ) (data : List Event) :
    List Event :=
  if v.doLocking then
    .called (lockRpc v core) peer.lock ::
      if resultOf peer.lock ≠ 0 then [] else data ++ [.called (unlockRpc v core) peer.unlock]
  else data

/-- A data RPC, and the end of the time where it is used up. -/
def dataLog (rpc : Rpc) (reply : Option DeviceError) (fault : Int) : List Event :=
  .called rpc reply :: if resultOf reply = 0 ∧ fault ≠ 0 then [.failed fault] else []

/-- The steps of the data RPCs of `vxi11_write`. -/
def writeLog (v : Device) (core : Client) (len : Int) (peer : Peer DeviceWriteResp) :
    List Event :=
  (writeRounds v core len peer).flatMap fun round =>
    dataLog ⟨core, .deviceWrite (writeCall v round).parms⟩ (round.2.reply.map (·.error))
      (writeFault v round)

/-- The steps of the data RPCs of `vxi11_read`. -/
def readLog (v : Device) (core : Client) (mem : Memory) (len : Int)
    (peer : Peer DeviceReadResp) : List Event :=
  (readRounds v core mem len peer).flatMap fun round =>
    dataLog ⟨core, .deviceRead (readCall v round).parms⟩ (round.2.reply.map (·.error))
      (readFault round)

/-- The generic parameters of an RPC on the core channel. -/
def genericParms (v : Device) : DeviceGenericParms :=
  ⟨v.lid, waitlockFlags v, v.lockTimeout, v.ioTimeout⟩

/-- The steps of a call on a handle. -/
def IoCall.log (v : Device) : IoCall → List Event
  | .write len peer => coreLog v fun core => transferLog v core peer (writeLog v core len peer)
  | .read mem len peer =>
    coreLog v fun core => transferLog v core peer (readLog v core mem len peer)
  | .readstb _ reply =>
    coreLog v fun core => [.called ⟨core, .deviceReadstb (genericParms v)⟩ (reply.map (·.error))]
  | .trigger reply => coreLog v fun core => [.called ⟨core, .deviceTrigger (genericParms v)⟩ reply]
  | .clear reply => coreLog v fun core => [.called ⟨core, .deviceClear (genericParms v)⟩ reply]
  | .remote reply => coreLog v fun core => [.called ⟨core, .deviceRemote (genericParms v)⟩ reply]
  | .goLocal reply => coreLog v fun core => [.called ⟨core, .deviceLocal (genericParms v)⟩ reply]
  | .lock reply => coreLog v fun core => [.called (lockRpc v core) reply]
  | .unlock reply => coreLog v fun core => [.called (unlockRpc v core) reply]
  | .abort reply =>
    match v.abrt with
    | none => [.failed errNochan]
    | some abrt =>
      if v.lid = nolid then [.failed errLinkinval]
      else [.called ⟨abrt, .deviceAbort v.lid⟩ reply]
  | _ => []

/-- The value a call on a handle returns. -/
def IoCall.ret (v : Device) : IoCall → Int
  | .write len peer => (vxi11Write v len peer).1
  | .read mem len peer => (vxi11Read v mem len peer).ret
  | .readstb stb reply => (vxi11Readstb v stb reply).1
  | .trigger reply => (vxi11Trigger v reply).1
  | .clear reply => (vxi11Clear v reply).1
  | .remote reply => (vxi11Remote v reply).1
  | .goLocal reply => (vxi11Local v reply).1
  | .lock reply => (vxi11Lock v reply).1
  | .unlock reply => (vxi11Unlock v reply).1
  | .abort reply => (vxi11Abort v reply).1
  | _ => 0

/-- An operation that can fail for want of a reply. -/
inductive Operation where
  | «open» (cache : RpcCache) (name : List Char) (doAbort : Bool) (env : Surroundings)
  | io (call : IoCall)

/-- The steps with which a failed open gives back its link. -/
def unlinkLog (v : Device) (reply : Option DeviceError) : List Event :=
  (unlink v reply).map fun rpc => .called rpc reply

/-- The steps of an open after the core channel. -/
def createLog (v : Device) (core : Client) (cache : RpcCache) (doAbort : Bool)
    (env : Surroundings) : List Event :=
  let (rpc, res, out) := vxi11CreateLink core v.clientId v.doLocking v.lockTimeout
    (findAfterColon v.devname) ⟨v.lid, v.abortPort, v.maxRecvSize⟩ env.link
  let v := { v with lid := out.lid, abortPort := out.abortPort, maxRecvSize := out.maxRecvSize }
  .called rpc (env.link.map (·.error)) ::
    if res ≠ 0 then unlinkLog v env.unlink
    else if doAbort then
      match vxi11OpenAbrtChannel cache env.server v.abortPort env.abrt with
      | (_, .error res) => .failed res :: unlinkLog v env.unlink
      | (_, .ok _) => []
    else []

/-- The steps of an operation. -/
def Operation.log (v : Device) : Operation → List Event
  | .open cache name doAbort env =>
    let v := { v with devname := fieldCopy name }
    match vxi11OpenCoreChannel cache (findBeforeColon v.devname) env.core with
    | (_, .error res) => .failed res :: unlinkLog v env.unlink
    | (cache, .ok core) => createLog { v with core := some core } core cache doAbort env
  | .io call => call.log v

/-- The value an operation returns. -/
def Operation.ret (v : Device) : Operation → Int
  | .open cache name doAbort env => (vxi11Open v cache name doAbort env).ret
  | .io call => call.ret v

/-- The handle after an operation. -/
def Operation.dev (v : Device) : Operation → Device
  | .open cache name doAbort env => (vxi11Open v cache name doAbort env).dev
  | .io call => call.dev v

/-- The RPC in an item of traffic. -/
def sentRpc : Traffic → Option Rpc
  | .sent rpc => some rpc
  | .granted _ => none

/-- The RPCs an operation sends. -/
def Operation.rpcs (v : Device) : Operation → List Rpc
  | .open cache name doAbort env =>
    (vxi11Open v cache name doAbort env).traffic.filterMap sentRpc
  | .io call => call.rpcs v

/-- What is promised of an operation that fails for want of a reply: the code names the channel
of the RPC, and its text is taken from the client of that channel, which the handle holds. -/
def Decodes (v : Device) (operation : Operation) : Prop :=
  ∀ rpc, FailsAt (operation.log v) rpc →
    operation.ret v = rpc.channel.rpcerr ∧
      strerrorSource (operation.dev v) (operation.ret v) =
        .clientError (some rpc.client) rpc.channel.label ∧
      ∀ texts str, (vxi11Perror texts (operation.dev v) (operation.ret v) str).isSome

/-- An operation that reports a missing reply right: not an abort that gets none, nor an open
whose `create_link` gets none. -/
def Reports (v : Device) : Operation → Prop
  | .open cache name _ env =>
    (vxi11OpenCoreChannel cache (findBeforeColon (fieldCopy name)) env.core).2.isOk = true →
      env.link ≠ none
  | .io (.abort reply) => v.abrt ≠ none → v.lid ≠ nolid → reply ≠ none
  | .io _ => True

/-! ## Logs tell what is sent and returned -/

/-- A log tells the RPCs an operation sends, and its first error the value returned. -/
structure Tells (log : List Event) (ret : Int) (rpcs : List Rpc) : Prop where
  rpcs : log.filterMap Event.rpc = rpcs
  ret : ret = Loop.firstError (log.map Event.code)

/-- A log of one RPC. -/
theorem tells_one (rpc : Rpc) (reply : Option DeviceError) :
    Tells [.called rpc reply] (resultOf reply) [rpc] := by
  constructor
  · rfl
  · by_cases zero : resultOf reply = 0 <;> simp [Event.code, zero]

section
variable {v : Device} {core : Client}

/-- A handle whose core channel cannot be used tells so. -/
theorem tells_coreLog {steps : Client → List Event} {operation : Client → Int × List Rpc}
    (tells : ∀ core, Opened v core → Tells (steps core) (operation core).1 (operation core).2) :
    Tells (coreLog v steps) (onCore v operation).1 (onCore v operation).2 := by
  cases channel : v.core with
  | none => constructor <;> simp [coreLog, onCore, channel, Event.rpc, Event.code, errNochan]
  | some core =>
    by_cases link : v.lid = nolid
    · constructor <;> simp [coreLog, onCore, channel, link, Event.rpc, Event.code, errLinkinval]
    · simpa [coreLog, onCore, channel, link] using tells core ⟨channel, link⟩

/-- The log of a transfer tells its brackets. -/
theorem tells_transferLog {ρ : Type} {peer : Peer ρ} {events : List Event} {data : List Rpc}
    {error : Int} {call : Int × List Rpc}
    (brackets : Brackets v core peer.lock peer.unlock data error call)
    (rpcs : events.filterMap Event.rpc = data)
    (code : Loop.firstError (events.map Event.code) = error) :
    Tells (transferLog v core peer events) call.1 call.2 := by
  cases locking : v.doLocking with
  | false =>
    rw [brackets.free locking, transferLog, locking]
    exact ⟨rpcs, code.symm⟩
  | true =>
    by_cases granted : resultOf peer.lock = 0
    · rw [brackets.granted locking granted]
      constructor
      · simp [transferLog, locking, granted, Event.rpc, rpcs]
      · by_cases good : error = 0 <;> by_cases freed : resultOf peer.unlock = 0 <;>
          simp [transferLog, locking, granted, Event.code, Loop.firstError_append, code, good,
            freed]
    · rw [brackets.refused locking granted]
      constructor <;> simp [transferLog, locking, granted, Event.rpc, Event.code]

/-- The log of a data RPC tells it. -/
theorem dataLog_rpcs (rpc : Rpc) (reply : Option DeviceError) (fault : Int) :
    (dataLog rpc reply fault).filterMap Event.rpc = [rpc] := by
  unfold dataLog
  split <;> rfl

/-- The first error in the log of a data RPC is its fault. -/
theorem dataLog_code (rpc : Rpc) (reply : Option DeviceError) (fault : Int)
    (failed : resultOf reply ≠ 0 → fault = resultOf reply) :
    Loop.firstError ((dataLog rpc reply fault).map Event.code) = fault := by
  by_cases good : resultOf reply = 0
  · by_cases none : fault = 0 <;> simp [dataLog, Event.code, good, none]
  · simp [dataLog, Event.code, good, failed good]

/-- The logs of several data RPCs tell each of them. -/
theorem flatMap_dataLog_rpcs {α : Type} (items : List α) (rpc : α → Rpc)
    (reply : α → Option DeviceError) (fault : α → Int) :
    (items.flatMap fun item => dataLog (rpc item) (reply item) (fault item)).filterMap Event.rpc =
      items.map rpc := by
  induction items with
  | nil => rfl
  | cons item items ih =>
    rw [List.flatMap_cons, List.filterMap_append, dataLog_rpcs, ih, List.map_cons,
      List.singleton_append]

/-- The log of the data RPCs of `vxi11_write`. -/
theorem writeLog_rpcs (len : Int) (peer : Peer DeviceWriteResp) :
    (writeLog v core len peer).filterMap Event.rpc = writeData v core len peer := by
  rw [writeLog, flatMap_dataLog_rpcs, writeData, writeCalls, List.map_map]
  rfl

/-- The first error in the log of the data RPCs of `vxi11_write`. -/
theorem writeLog_code (len : Int) (peer : Peer DeviceWriteResp) :
    Loop.firstError ((writeLog v core len peer).map Event.code) = writeError v core len peer := by
  rw [writeLog, List.map_flatMap, writeError]
  apply Loop.firstError_flatMap
  intro round
  apply dataLog_code
  intro failed
  cases reply : round.2.reply with
  | none => simp [writeFault, reply, resultOf]
  | some r =>
    have bad : r.error ≠ 0 := by simpa [reply, resultOf] using failed
    simp [writeFault, reply, resultOf, bad]

/-- The log of the data RPCs of `vxi11_read`. -/
theorem readLog_rpcs (mem : Memory) (len : Int) (peer : Peer DeviceReadResp) :
    (readLog v core mem len peer).filterMap Event.rpc = readData v core mem len peer := by
  rw [readLog, flatMap_dataLog_rpcs, readData, readCalls, List.map_map]
  rfl

/-- The first error in the log of the data RPCs of `vxi11_read`. -/
theorem readLog_code (mem : Memory) (len : Int) (peer : Peer DeviceReadResp) :
    Loop.firstError ((readLog v core mem len peer).map Event.code) =
      readError v core mem len peer := by
  rw [readLog, List.map_flatMap, readError]
  apply Loop.firstError_flatMap
  intro round
  apply dataLog_code
  intro failed
  cases reply : round.2.reply with
  | none => simp [readFault, reply, resultOf]
  | some r =>
    have bad : r.error ≠ 0 := by simpa [reply, resultOf] using failed
    simp [readFault, reply, resultOf, bad]

end

/-- What `vxi11_readstb` sends and returns is checked as for the other operations. -/
theorem vxi11Readstb_onCore (v : Device) (stb : UInt8) (reply : Option DeviceReadStbResp) :
    ((vxi11Readstb v stb reply).1, (vxi11Readstb v stb reply).2.1) =
      onCore v fun core => (resultOf (reply.map (·.error)),
        [⟨core, .deviceReadstb (genericParms v)⟩]) := by
  cases channel : v.core with
  | none => simp [vxi11Readstb, onCore, channel]
  | some core =>
    by_cases link : v.lid = nolid
    · simp [vxi11Readstb, onCore, channel, link]
    · simp only [vxi11Readstb, onCore, channel, if_neg link]
      rfl

/-- The log of an abort tells what it sends and returns. -/
theorem tells_abort (v : Device) (reply : Option DeviceError) :
    Tells ((IoCall.abort reply).log v) ((IoCall.abort reply).ret v)
      ((IoCall.abort reply).rpcs v) := by
  cases channel : v.abrt with
  | none =>
    constructor <;>
      simp [IoCall.log, IoCall.ret, IoCall.rpcs, vxi11Abort, channel, Event.rpc, Event.code,
        errNochan]
  | some abrt =>
    by_cases link : v.lid = nolid
    · constructor <;>
        simp [IoCall.log, IoCall.ret, IoCall.rpcs, vxi11Abort, channel, link, Event.rpc,
          Event.code, errLinkinval]
    · simpa [IoCall.log, IoCall.ret, IoCall.rpcs, vxi11Abort, vxi11DeviceAbort, plainWrapper,
        channel, link] using tells_one ⟨abrt, .deviceAbort v.lid⟩ reply

/-- The log of a call on a handle tells what it sends and returns. -/
theorem IoCall.tells (v : Device) (call : IoCall) :
    Tells (call.log v) (call.ret v) (call.rpcs v) := by
  have one : ∀ (rpc : Client → Rpc) (reply : Option DeviceError),
      Tells (coreLog v fun core => [.called (rpc core) reply])
        (onCore v fun core => (resultOf reply, [rpc core])).1
        (onCore v fun core => (resultOf reply, [rpc core])).2 :=
    fun rpc reply => tells_coreLog fun core _ => tells_one (rpc core) reply
  cases call with
  | write len peer =>
    apply tells_coreLog
    intro core opened
    have brackets := vxi11Write_brackets opened len peer
    rw [vxi11Write, onCore_opened opened] at brackets
    exact tells_transferLog brackets (writeLog_rpcs len peer) (writeLog_code len peer)
  | read mem len peer =>
    have frame := Prod.ext_iff.mp (vxi11Read_onCore v mem len peer)
    have ret : (vxi11Read v mem len peer).ret = _ := frame.1
    have rpcs : (vxi11Read v mem len peer).rpcs = _ := frame.2
    rw [IoCall.ret, IoCall.rpcs, ret, rpcs]
    apply tells_coreLog
    intro core opened
    have brackets := vxi11Read_brackets opened mem len peer
    rw [vxi11Read_onCore, onCore_opened opened] at brackets
    exact tells_transferLog brackets (readLog_rpcs mem len peer) (readLog_code mem len peer)
  | readstb stb reply =>
    have frame := Prod.ext_iff.mp (vxi11Readstb_onCore v stb reply)
    have ret : (vxi11Readstb v stb reply).1 = _ := frame.1
    have rpcs : (vxi11Readstb v stb reply).2.1 = _ := frame.2
    rw [IoCall.ret, IoCall.rpcs, ret, rpcs]
    exact one (fun core => ⟨core, .deviceReadstb (genericParms v)⟩) (reply.map (·.error))
  | trigger reply => exact one (fun core => ⟨core, .deviceTrigger (genericParms v)⟩) reply
  | clear reply => exact one (fun core => ⟨core, .deviceClear (genericParms v)⟩) reply
  | remote reply => exact one (fun core => ⟨core, .deviceRemote (genericParms v)⟩) reply
  | goLocal reply => exact one (fun core => ⟨core, .deviceLocal (genericParms v)⟩) reply
  | lock reply => exact one (fun core => lockRpc v core) reply
  | unlock reply => exact one (fun core => unlockRpc v core) reply
  | abort reply => exact tells_abort v reply
  | setIotimeout timeout => exact ⟨rfl, rfl⟩
  | setLockpolicy doLocking timeout => exact ⟨rfl, rfl⟩
  | setTermchar termChar => exact ⟨rfl, rfl⟩
  | setTermcharset termCharSet => exact ⟨rfl, rfl⟩
  | setEndw doEndw => exact ⟨rfl, rfl⟩

/-- The log of an open that fails: some steps that went well, the one that failed, and the RPC
that gives back the link. -/
theorem tells_failed (v : Device) (cache : RpcCache) (reply : Option DeviceError)
    (before : List Event) (event : Event) {res : Int} {traffic : List Traffic}
    (good : Loop.firstError (before.map Event.code) = 0) (fault : event.code = res)
    (failed : res ≠ 0)
    (sent : traffic.filterMap sentRpc = (before ++ [event]).filterMap Event.rpc) :
    Tells (before ++ event :: unlinkLog v reply) (openFailed v cache res traffic reply).ret
      ((openFailed v cache res traffic reply).traffic.filterMap sentRpc) := by
  have given : (unlinkLog v reply).filterMap Event.rpc = unlink v reply := by
    rw [unlinkLog, List.filterMap_map]
    exact List.filterMap_some
  have back : ((unlink v reply).map Traffic.sent).filterMap sentRpc = unlink v reply := by
    rw [List.filterMap_map]
    exact List.filterMap_some
  constructor
  · have all : (openFailed v cache res traffic reply).traffic.filterMap sentRpc =
        (before ++ [event]).filterMap Event.rpc ++ (unlinkLog v reply).filterMap Event.rpc := by
      rw [given, ← sent, ← back, ← List.filterMap_append]
      rfl
    rw [all, ← List.filterMap_append, List.append_assoc, List.singleton_append]
  · change res = _
    rw [List.map_append, Loop.firstError_append, if_pos good, List.map_cons,
      Loop.firstError_cons, fault, if_neg failed]

/-- An abort channel that cannot be opened is told by one error. -/
theorem vxi11OpenAbrtChannel_error {cache next : RpcCache} {server : UInt32} {port : UInt16}
    {attempt : TcpAttempt} {res : Int}
    (failed : vxi11OpenAbrtChannel cache server port attempt = (next, .error res)) :
    res = abrtCreate := by
  unfold vxi11OpenAbrtChannel at failed
  split at failed <;> simp_all

/-- So is a core channel. -/
theorem vxi11OpenCoreChannel_error {cache next : RpcCache} {host : List Char} {attempt : Attempt}
    {res : Int} (failed : vxi11OpenCoreChannel cache host attempt = (next, .error res)) :
    res = coreCreate := by
  unfold vxi11OpenCoreChannel at failed
  split at failed <;> simp_all

/-- The log of an open after the core channel. -/
theorem tells_openLink (v : Device) (core : Client) (cache : RpcCache) (doAbort : Bool)
    (env : Surroundings) :
    Tells (createLog v core cache doAbort env) (openLink v core cache doAbort env).ret
      ((openLink v core cache doAbort env).traffic.filterMap sentRpc) := by
  have granted : (grantOf env.link).filterMap sentRpc = [] := by
    unfold grantOf
    split
    · rfl
    · split <;> rfl
  have alone : ∀ rpc, (Traffic.sent rpc :: grantOf env.link).filterMap sentRpc = [rpc] := by
    intro rpc
    simp [sentRpc, granted]
  simp only [createLog, openLink, vxi11CreateLink]
  by_cases good : resultOf (env.link.map (·.error)) = 0
  · simp only [good, ne_eq, not_true, if_false, openAbort]
    cases doAbort with
    | false =>
      constructor
      · simp [Event.rpc, alone]
      · simp [Event.code, good]
    | true =>
      simp only [if_true]
      generalize channel : vxi11OpenAbrtChannel _ _ _ _ = opened
      cases opened with
      | mk next result =>
        cases result with
        | error res =>
          have failed : res ≠ 0 := by
            rw [vxi11OpenAbrtChannel_error channel]
            decide
          have earlier : Loop.firstError ([Event.called
              ⟨core, .createLink ⟨v.clientId, v.doLocking, v.lockTimeout,
                findAfterColon v.devname⟩⟩ (env.link.map (·.error))].map Event.code) = 0 := by
            simp [Event.code, good]
          apply tells_failed _ _ _ [_] (.failed res) earlier rfl failed
          rw [alone]
          rfl
        | ok abrt =>
          constructor
          · simp [Event.rpc, alone]
          · simp [Event.code, good]
  · simp only [good, ne_eq, not_false_iff, if_true]
    apply tells_failed _ _ _ [] (.called _ _) rfl rfl good
    rw [alone]
    rfl

/-- The log of an operation tells what it sends and returns. -/
theorem Operation.tells (v : Device) (operation : Operation) :
    Tells (operation.log v) (operation.ret v) (operation.rpcs v) := by
  cases operation with
  | «open» cache name doAbort env =>
    simp only [Operation.log, Operation.ret, Operation.rpcs, vxi11Open]
    generalize channel : vxi11OpenCoreChannel _ _ _ = opened
    cases opened with
    | mk next result =>
      cases result with
      | error res =>
        have failed : res ≠ 0 := by
          rw [vxi11OpenCoreChannel_error channel]
          decide
        exact tells_failed _ _ _ [] (.failed res) rfl rfl failed rfl
      | ok core => exact tells_openLink _ _ _ _ _
  | io call => exact call.tells v

/-! ## Missing replies -/

/-- An operation that fails for want of a reply returns the error of the core channel. -/
theorem FailsAt.ret {v : Device} {operation : Operation} {rpc : Rpc}
    (fails : FailsAt (operation.log v) rpc) : operation.ret v = coreRpcerr := by
  rw [(operation.tells v).ret, Loop.firstError, List.find?_map]
  rw [FailsAt] at fails
  change ((List.find? (fun event : Event => decide (event.code ≠ 0)) _).map _).getD 0 = _
  rw [fails]
  rfl

/-- The RPC that gets no reply is one the operation sends. -/
theorem FailsAt.sent {v : Device} {operation : Operation} {rpc : Rpc}
    (fails : FailsAt (operation.log v) rpc) : rpc ∈ operation.rpcs v := by
  rw [← (operation.tells v).rpcs]
  exact List.mem_filterMap.mpr ⟨_, List.mem_of_find?_eq_some fails, rfl⟩

/-- All of some RPCs go out on the core channel. -/
def OnCore (v : Device) (rpcs : List Rpc) : Prop :=
  ∀ rpc ∈ rpcs, v.core = some rpc.client ∧ rpc.channel = .core

/-- Every call on a handle but an abort sends what it sends on the core channel. -/
theorem IoCall.onCore (v : Device) (call : IoCall) (other : ∀ reply, call ≠ .abort reply) :
    OnCore v (call.rpcs v) := by
  have all := call.rpcs_all (P := fun rpc => v.core = some rpc.client ∧ rpc.channel = .core) v
  apply all
  · intro core procedure opened plain
    refine ⟨opened.channel, ?_⟩
    cases procedure with
    | deviceAbort lid => cases plain
    | _ => rfl
  · intro reply aborts
    exact absurd aborts (other reply)

/-- A call on a handle leaves its core channel as it is. -/
theorem IoCall.dev_core (v : Device) (call : IoCall) : (call.dev v).core = v.core := by
  cases call <;> rfl

/-- The error of the core channel is explained by the core channel of the handle. -/
theorem strerrorSource_coreRpcerr (v : Device) :
    strerrorSource v coreRpcerr = .clientError v.core "core" := rfl

/-- An open that fails for want of a reply is one whose `create_link` gets none. -/
theorem FailsAt.open {v : Device} {cache : RpcCache} {name : List Char} {doAbort : Bool}
    {env : Surroundings} {rpc : Rpc}
    (fails : FailsAt ((Operation.open cache name doAbort env).log v) rpc) :
    (vxi11OpenCoreChannel cache (findBeforeColon (fieldCopy name)) env.core).2.isOk = true ∧
      env.link = none := by
  simp only [Operation.log] at fails
  split at fails
  · rename_i next res channel
    have failed : res ≠ 0 := by
      rw [vxi11OpenCoreChannel_error channel]
      decide
    simp [FailsAt, Event.code, failed] at fails
  · rename_i next core channel
    refine ⟨by simp [channel, Except.isOk, Except.toBool], ?_⟩
    cases link : env.link with
    | none => rfl
    | some r =>
      simp only [createLog, vxi11CreateLink, link, Option.map_some] at fails
      by_cases good : resultOf (some r.error) = 0
      · simp only [good, ne_eq, not_true, if_false] at fails
        cases doAbort with
        | false => simp [FailsAt, Event.code, good] at fails
        | true =>
          simp only [if_true] at fails
          split at fails
          · rename_i later res channel
            have failed : res ≠ 0 := by
              rw [vxi11OpenAbrtChannel_error channel]
              decide
            simp [FailsAt, Event.code, good, failed] at fails
          · simp [FailsAt, Event.code, good] at fails
      · simp [FailsAt, Event.code, good] at fails

/-- An open whose `create_link` gets no reply fails there, and leaves a handle that holds
nothing. -/
theorem open_unanswered {v : Device} {cache : RpcCache} {name : List Char} {doAbort : Bool}
    {env : Surroundings}
    (channel : (vxi11OpenCoreChannel cache (findBeforeColon (fieldCopy name)) env.core).2.isOk =
      true) (link : env.link = none) :
    (∃ rpc, FailsAt ((Operation.open cache name doAbort env).log v) rpc) ∧
      Closed ((Operation.open cache name doAbort env).dev v) := by
  cases opened : vxi11OpenCoreChannel cache (findBeforeColon (fieldCopy name)) env.core with
  | mk next found =>
    cases found with
    | error res => simp [opened, Except.isOk, Except.toBool] at channel
    | ok core =>
      constructor
      · simp [Operation.log, opened, createLog, vxi11CreateLink, link, FailsAt, Event.code,
          resultOf, coreRpcerr]
      · simp only [Operation.dev, vxi11Open, opened, openLink, vxi11CreateLink, link,
          Option.map_none]
        exact openFailed_closed _ _ _ _ _

/-- An abort reports a missing reply by the right code exactly when it gets a reply, or sends
nothing. -/
theorem abort_reports_iff (v : Device) (reply : Option DeviceError) :
    Decodes v (.io (.abort reply)) ↔ Reports v (.io (.abort reply)) := by
  cases channel : v.abrt with
  | none =>
    simp [Decodes, Reports, Operation.log, IoCall.log, FailsAt, channel, Event.code, errNochan]
  | some abrt =>
    by_cases link : v.lid = nolid
    · simp [Decodes, Reports, Operation.log, IoCall.log, FailsAt, channel, link, Event.code,
        errLinkinval]
    · cases reply with
      | some error =>
        simp [Decodes, Reports, Operation.log, IoCall.log, FailsAt, channel, link, Event.code]
      | none =>
        have fails : FailsAt ((Operation.io (.abort none)).log v)
            ⟨abrt, .deviceAbort v.lid⟩ := by
          simp [Operation.log, IoCall.log, FailsAt, channel, link, Event.code, resultOf,
            coreRpcerr]
        constructor
        · intro decodes
          have code : coreRpcerr = abrtRpcerr := fails.ret.symm.trans (decodes _ fails).1
          exact absurd code (by decide)
        · intro reports
          exact absurd rfl (reports (by simp [channel]) link)

/-- An operation reports a missing reply by the right code, and leaves what the text of that code
is taken from, exactly when it is not an abort that gets no reply, nor an open whose
`create_link` gets none. -/
theorem vxi11_reports_iff (v : Device) (operation : Operation) :
    Decodes v operation ↔ Reports v operation := by
  cases operation with
  | «open» cache name doAbort env =>
    constructor
    · intro decodes channel link
      obtain ⟨⟨rpc, fails⟩, closed⟩ := @open_unanswered v cache name doAbort env channel link
      have source := (decodes rpc fails).2.1
      rw [fails.ret, strerrorSource_coreRpcerr, closed.core] at source
      cases source
    · intro reports rpc fails
      exact absurd fails.open.2 (reports fails.open.1)
  | io call =>
    by_cases abort : ∃ reply, call = .abort reply
    · obtain ⟨reply, rfl⟩ := abort
      exact abort_reports_iff v reply
    · have other : ∀ reply, call ≠ .abort reply := fun reply same => abort ⟨reply, same⟩
      have reports : Reports v (.io call) := by
        cases call <;> first | trivial | exact absurd rfl (other _)
      refine iff_of_true (fun rpc fails => ?_) reports
      have sent := call.onCore v other rpc fails.sent
      have core : (Operation.dev v (.io call)).core = some rpc.client :=
        (call.dev_core v).trans sent.1
      have source : strerrorSource (Operation.dev v (.io call)) coreRpcerr =
          .clientError (some rpc.client) "core" := by
        rw [strerrorSource_coreRpcerr, core]
      rw [fails.ret, sent.2]
      refine ⟨rfl, source, fun texts str => ?_⟩
      simp [vxi11Perror, vxi11Strerror, source, TextSource.text]

/-- What an open meets whose core channel is created and whose `create_link` gets no reply. -/
def unansweredLink : Surroundings :=
  ⟨⟨some 1, true⟩, none, 0, ⟨⟨none, false⟩, 0⟩, none⟩

/-- A first open whose `create_link` gets no reply has its error explained by a null client, and
an abort without a reply is reported as an error of the core channel. -/
theorem vxi11_reports_wrong :
    ¬Decodes vxi11Create (.open .empty ['h'] false unansweredLink) ∧
      ¬Decodes { linked 1024 with abrt := some 2 } (.io (.abort none)) := by
  constructor
  · intro decodes
    have fails : FailsAt ((Operation.open .empty ['h'] false unansweredLink).log vxi11Create)
        ⟨1, .createLink ⟨0, false, 25000, ['h']⟩⟩ := by
      rfl
    exact absurd (decodes _ fails).2.1 (by decide)
  · intro decodes
    have fails : FailsAt ((Operation.io (.abort none)).log { linked 1024 with abrt := some 2 })
        ⟨2, .deviceAbort 0⟩ := by
      rfl
    exact absurd (decodes _ fails).1 (by decide)

end GpibUtils.Vxi11
