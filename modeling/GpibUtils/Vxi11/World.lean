import GpibUtils.Runs
import GpibUtils.Vxi11.Handle
import GpibUtils.Vxi11.Locking

/-!
# Handles over one connection cache

A program that uses the library: any number of handles, one connection cache, and the calls
made on the handles in any order. A call names its handle by its place in the list of handles;
a handle that has been destroyed leaves its place empty.
-/

namespace GpibUtils.Vxi11

open CSem SharedPool

/-- A call on an open handle that transfers data, controls the device, or changes a setting. -/
inductive IoCall where
  | write (len : Int) (peer : Peer DeviceWriteResp)
  | read (mem : Memory) (len : Int) (peer : Peer DeviceReadResp)
  | readstb (stb : UInt8) (reply : Option DeviceReadStbResp)
  | trigger (reply : Option DeviceError)
  | clear (reply : Option DeviceError)
  | remote (reply : Option DeviceError)
  | goLocal (reply : Option DeviceError)
  | lock (reply : Option DeviceError)
  | unlock (reply : Option DeviceError)
  | abort (reply : Option DeviceError)
  | setIotimeout (timeout : UInt64)
  | setLockpolicy (doLocking : Bool) (timeout : UInt64)
  | setTermchar (termChar : Int)
  | setTermcharset (termCharSet : Bool)
  | setEndw (doEndw : Bool)

/-- The handle after such a call. -/
def IoCall.dev (v : Device) : IoCall → Device
  | .setIotimeout timeout => vxi11SetIotimeout v timeout
  | .setLockpolicy doLocking timeout => vxi11SetLockpolicy v doLocking timeout
  | .setTermchar termChar => vxi11SetTermchar v termChar
  | .setTermcharset termCharSet => vxi11SetTermcharset v termCharSet
  | .setEndw doEndw => vxi11SetEndw v doEndw
  | _ => v

/-- The RPCs of such a call. -/
def IoCall.rpcs (v : Device) : IoCall → List Rpc
  | .write len peer => (vxi11Write v len peer).2
  | .read mem len peer => (vxi11Read v mem len peer).rpcs
  | .readstb stb reply => (vxi11Readstb v stb reply).2.1
  | .trigger reply => (vxi11Trigger v reply).2
  | .clear reply => (vxi11Clear v reply).2
  | .remote reply => (vxi11Remote v reply).2
  | .goLocal reply => (vxi11Local v reply).2
  | .lock reply => (vxi11Lock v reply).2
  | .unlock reply => (vxi11Unlock v reply).2
  | .abort reply => (vxi11Abort v reply).2
  | _ => []

/-- A procedure of an operation on a handle that has its link: none that makes or destroys a link,
or goes out on the abort channel. -/
def Procedure.plain : Procedure → Bool
  | .createLink _ | .destroyLink _ | .deviceAbort _ => false
  | _ => true

/-- What holds of the RPCs of an operation holds of those that are left after its checks. -/
theorem onCore_all {P : Rpc → Prop} {v : Device} {operation : Client → Int × List Rpc}
    (each : ∀ core, Opened v core → ∀ rpc ∈ (operation core).2, P rpc) :
    ∀ rpc ∈ (onCore v operation).2, P rpc := by
  intro rpc member
  cases channel : v.core with
  | none =>
    rw [onCore, channel] at member
    cases member
  | some core =>
    by_cases link : v.lid = nolid
    · simp only [onCore, channel, if_pos link] at member
      cases member
    · rw [onCore_opened ⟨channel, link⟩] at member
      exact each core ⟨channel, link⟩ rpc member

/-- An operation of one RPC, checked. -/
theorem onCore_single {P : Rpc → Prop} {v : Device} {res : Int} {rpc : Client → Rpc}
    (each : ∀ core, Opened v core → P (rpc core)) :
    ∀ sent ∈ (onCore v fun core => (res, [rpc core])).2, P sent := by
  apply onCore_all
  intro core opened sent member
  rw [List.mem_singleton.mp member]
  exact each core opened

/-- What holds of a lock, an unlock and the data RPCs holds of a transfer. -/
theorem bracketed_all {P : Rpc → Prop} {ρ : Type} {v : Device} {core : Client}
    (opened : Opened v core) {peer : Peer ρ} {data : Int × List Rpc}
    (locks : P (lockRpc v core)) (unlocks : P (unlockRpc v core)) (each : ∀ rpc ∈ data.2, P rpc) :
    ∀ rpc ∈ (bracketed v peer data).2, P rpc := by
  have lock : (vxi11Lock v peer.lock).2 = [lockRpc v core] := by
    rw [vxi11Lock, onCore_opened opened]
    rfl
  have unlock : (vxi11Unlock v peer.unlock).2 = [unlockRpc v core] := by
    rw [vxi11Unlock, onCore_opened opened]
    rfl
  unfold bracketed
  simp only [lock, unlock]
  split
  · split
    · exact List.forall_mem_singleton.mpr locks
    · simp only [List.forall_mem_append, List.forall_mem_singleton]
      exact ⟨⟨locks, each⟩, unlocks⟩
  · exact each

/-- What holds of plain procedures holds of a transfer whose data RPCs are plain. -/
theorem transfer_all {P : Rpc → Prop} {ρ : Type} {v : Device} {peer : Peer ρ}
    {data : Client → Int × List Rpc}
    (each : ∀ core procedure, Opened v core → procedure.plain = true → P ⟨core, procedure⟩)
    (plain : ∀ core, ∀ rpc ∈ (data core).2,
      ∃ procedure, procedure.plain = true ∧ rpc = ⟨core, procedure⟩) :
    ∀ rpc ∈ (onCore v fun core => bracketed v peer (data core)).2, P rpc := by
  apply onCore_all
  intro core opened
  apply bracketed_all opened (each _ _ opened rfl) (each _ _ opened rfl)
  intro rpc member
  obtain ⟨procedure, ok, rfl⟩ := plain core rpc member
  exact each core procedure opened ok

/-- What holds of plain procedures on the core channel, and of an abort where the call is one, holds
of all RPCs of a call. -/
theorem IoCall.rpcs_all {P : Rpc → Prop} (v : Device) (call : IoCall)
    (each : ∀ core procedure, Opened v core → procedure.plain = true → P ⟨core, procedure⟩)
    (abort : ∀ reply, call = .abort reply → ∀ abrt, P ⟨abrt, .deviceAbort v.lid⟩) :
    ∀ rpc ∈ call.rpcs v, P rpc := by
  have settings : ∀ rpc ∈ ([] : List Rpc), P rpc := fun rpc member => by cases member
  cases call with
  | write len peer =>
    apply transfer_all each
    intro core rpc member
    obtain ⟨call, -, rfl⟩ := List.mem_map.mp member
    exact ⟨_, rfl, rfl⟩
  | read mem len peer =>
    have rpcs : (vxi11Read v mem len peer).rpcs = _ :=
      (Prod.ext_iff.mp (vxi11Read_onCore v mem len peer)).2
    rw [IoCall.rpcs, rpcs]
    apply transfer_all each
    intro core rpc member
    obtain ⟨call, -, rfl⟩ := List.mem_map.mp member
    exact ⟨_, rfl, rfl⟩
  | readstb stb reply =>
    intro rpc member
    rw [IoCall.rpcs, vxi11Readstb] at member
    split at member
    · cases member
    · rename_i core channel
      split at member
      · cases member
      · rename_i link
        rw [List.mem_singleton.mp member]
        exact each _ _ ⟨channel, link⟩ rfl
  | trigger reply => exact onCore_single fun core opened => each _ _ opened rfl
  | clear reply => exact onCore_single fun core opened => each _ _ opened rfl
  | remote reply => exact onCore_single fun core opened => each _ _ opened rfl
  | goLocal reply => exact onCore_single fun core opened => each _ _ opened rfl
  | lock reply => exact onCore_single fun core opened => each _ _ opened rfl
  | unlock reply => exact onCore_single fun core opened => each _ _ opened rfl
  | abort reply =>
    intro rpc member
    rw [IoCall.rpcs, vxi11Abort] at member
    split at member
    · cases member
    · split at member
      · cases member
      · rw [List.mem_singleton.mp member]
        exact abort reply rfl _
  | setIotimeout | setLockpolicy | setTermchar | setTermcharset | setEndw => exact settings

/-- A call of the program. -/
inductive Action where
  | create
  | «open» (handle : Nat) (name : List Char) (doAbort : Bool) (env : Surroundings)
  | close (handle : Nat) (reply : Option DeviceError)
  | destroy (handle : Nat)
  | io (handle : Nat) (call : IoCall)

/-- The handles, the connection cache, and what each handle has sent and been granted. -/
structure World where
  handles : List (Option Device)
  cache : RpcCache
  traffic : List (Nat × Traffic)

/-- Before the first call. -/
def World.empty : World := ⟨[], .empty, []⟩

/-- The handle at a place. -/
def World.dev (w : World) (handle : Nat) : Option Device := (w.handles[handle]?).join

/-- Put a handle in its place, with the cache and the traffic of the call that leaves it so. -/
def World.put (w : World) (handle : Nat) (v : Option Device) (cache : RpcCache)
    (traffic : List Traffic) : World :=
  ⟨w.handles.set handle v, cache, w.traffic ++ traffic.map fun t => (handle, t)⟩

/-- One call. A call on a handle that does not exist does nothing, nor does a destroy that fails
an assertion and so ends the program. -/
def World.step (w : World) : Action → World
  | .create => { w with handles := w.handles ++ [some vxi11Create] }
  | .open handle name doAbort env =>
    (w.dev handle).elim w fun v =>
      let result := vxi11Open v w.cache name doAbort env
      w.put handle (some result.dev) result.cache result.traffic
  | .close handle reply =>
    (w.dev handle).elim w fun v =>
      let (v, cache, rpcs) := vxi11Close v w.cache reply
      w.put handle (some v) cache (rpcs.map .sent)
  | .destroy handle =>
    (w.dev handle).elim w fun v =>
      (vxi11Destroy v).elim w fun _ => w.put handle none w.cache []
  | .io handle call =>
    (w.dev handle).elim w fun v =>
      w.put handle (some (call.dev v)) w.cache ((call.rpcs v).map .sent)

/-- A handle is put where it was found. -/
theorem World.dev_put {w : World} {handle : Nat} {v : Device} (found : w.dev handle = some v)
    (next : Option Device) (cache : RpcCache) (traffic : List Traffic) (other : Nat) :
    (w.put handle next cache traffic).dev other = if other = handle then next else w.dev other := by
  have place : handle < w.handles.length := by
    by_contra outside
    simp [World.dev, List.getElem?_eq_none (Nat.not_lt.mp outside)] at found
  by_cases same : other = handle
  · simp [World.dev, World.put, same, place]
  · simp [World.dev, World.put, same, List.getElem?_set_ne (Ne.symm same)]

/-- A new handle takes the first place after the others. -/
theorem World.dev_create (w : World) (handle : Nat) :
    (w.step .create).dev handle =
      if handle = w.handles.length then some vxi11Create else w.dev handle := by
  by_cases last : handle = w.handles.length
  · simp [World.dev, World.step, last]
  · by_cases before : handle < w.handles.length
    · simp [World.dev, World.step, last, List.getElem?_append_left before]
    · have after : ¬handle < (w.handles ++ [some vxi11Create]).length := by
        rw [List.length_append, List.length_singleton]
        omega
      simp [World.dev, World.step, last, List.getElem?_eq_none (Nat.not_lt.mp after),
        List.getElem?_eq_none (Nat.not_lt.mp before)]

/-- What a call on an existing handle puts in its place. -/
theorem World.step_found {w : World} {handle : Nat} {v : Device} (found : w.dev handle = some v) :
    (∀ name doAbort env, w.step (.open handle name doAbort env) =
      w.put handle (some (vxi11Open v w.cache name doAbort env).dev)
        (vxi11Open v w.cache name doAbort env).cache
        (vxi11Open v w.cache name doAbort env).traffic) ∧
    (∀ reply, w.step (.close handle reply) =
      w.put handle (some (vxi11Close v w.cache reply).1) (vxi11Close v w.cache reply).2.1
        ((vxi11Close v w.cache reply).2.2.map .sent)) ∧
    (∀ call, w.step (.io handle call) =
      w.put handle (some (call.dev v)) w.cache ((call.rpcs v).map .sent)) := by
  simp [World.step, found]

/-- What a call can do: nothing on a handle that is not there, a new handle, or what it does to the
handle that is there. -/
theorem World.step_cases (w : World) (action : Action) :
    w.step action = w ∨ action = .create ∨ ∃ handle v, w.dev handle = some v ∧
      ((∃ name doAbort env, action = .open handle name doAbort env ∧ w.step action =
          w.put handle (some (vxi11Open v w.cache name doAbort env).dev)
            (vxi11Open v w.cache name doAbort env).cache
            (vxi11Open v w.cache name doAbort env).traffic) ∨
        (∃ reply, action = .close handle reply ∧ w.step action =
          w.put handle (some (vxi11Close v w.cache reply).1) (vxi11Close v w.cache reply).2.1
            ((vxi11Close v w.cache reply).2.2.map .sent)) ∨
        (vxi11Destroy v = some () ∧ w.step action = w.put handle none w.cache []) ∨
        ∃ call, action = .io handle call ∧ w.step action =
          w.put handle (some (call.dev v)) w.cache ((call.rpcs v).map .sent)) := by
  cases action with
  | create => exact .inr (.inl rfl)
  | «open» handle name doAbort env =>
    cases found : w.dev handle with
    | none => exact .inl (by simp [World.step, found])
    | some v =>
      have step := (World.step_found found).1 name doAbort env
      exact .inr (.inr ⟨handle, v, found, .inl ⟨name, doAbort, env, rfl, step⟩⟩)
  | close handle reply =>
    cases found : w.dev handle with
    | none => exact .inl (by simp [World.step, found])
    | some v =>
      have step := (World.step_found found).2.1 reply
      exact .inr (.inr ⟨handle, v, found, .inr (.inl ⟨reply, rfl, step⟩)⟩)
  | destroy handle =>
    cases found : w.dev handle with
    | none => exact .inl (by simp [World.step, found])
    | some v =>
      cases passes : vxi11Destroy v with
      | none => exact .inl (by simp [World.step, found, passes])
      | some _ =>
        have step : w.step (.destroy handle) = w.put handle none w.cache [] := by
          simp [World.step, found, passes]
        exact .inr (.inr ⟨handle, v, found, .inr (.inr (.inl ⟨passes, step⟩))⟩)
  | io handle call =>
    cases found : w.dev handle with
    | none => exact .inl (by simp [World.step, found])
    | some v =>
      have step := (World.step_found found).2.2 call
      exact .inr (.inr ⟨handle, v, found, .inr (.inr (.inr ⟨call, rfl, step⟩))⟩)

/-- Input, output and settings leave the clients of a handle alone. -/
theorem IoCall.dev_same (call : IoCall) (v : Device) :
    (call.dev v).core = v.core ∧ (call.dev v).abrt = v.abrt ∧ (call.dev v).lid = v.lid ∧
      (call.dev v).magic = v.magic := by
  cases call <;> exact ⟨rfl, rfl, rfl, rfl⟩

/-- They leave a link on its channel. -/
theorem Linked.io {v : Device} (linked : Linked v) (call : IoCall) : Linked (call.dev v) := by
  obtain ⟨core, -, lid, -⟩ := call.dev_same v
  rw [Linked, core, lid]
  exact linked

/-- Every handle with a link has a core channel. -/
def World.Linked (w : World) : Prop := ∀ handle, ∀ v ∈ w.dev handle, Vxi11.Linked v

/-- A call keeps the links on their channels when it does for its handle. -/
theorem World.Linked.put {w : World} (linked : w.Linked) {handle : Nat} {v : Device}
    (found : w.dev handle = some v) {next : Option Device} {cache : RpcCache}
    {traffic : List Traffic} (keeps : ∀ u ∈ next, Vxi11.Linked u) :
    (w.put handle next cache traffic).Linked := by
  intro other u there
  rw [World.dev_put found] at there
  by_cases same : other = handle
  · rw [if_pos same] at there
    exact keeps u there
  · rw [if_neg same] at there
    exact linked other u there

/-- Every call keeps the links on their channels. -/
theorem World.Linked.step {w : World} (linked : w.Linked) (action : Action) :
    (w.step action).Linked := by
  obtain same | rfl | ⟨handle, v, found, did⟩ := w.step_cases action
  · rwa [same]
  · intro handle v there
    rw [World.dev_create] at there
    by_cases last : handle = w.handles.length
    · rw [if_pos last] at there
      cases there
      exact fun some => absurd rfl some
    · rw [if_neg last] at there
      exact linked handle v there
  · obtain ⟨name, doAbort, env, -, step⟩ | ⟨reply, -, step⟩ | ⟨-, step⟩ | ⟨call, -, step⟩ := did
    all_goals
      rw [step]
      apply linked.put found
      rintro _ ⟨⟩
    · exact vxi11Open_linked v w.cache name doAbort env
    · exact (vxi11Close_closed v w.cache reply).linked
    · exact (linked handle v found).io call

/-- In every run, a handle with a link has the core channel on which to destroy it. -/
theorem vxi11_linked (actions : List Action) : (Runs.run World.step .empty actions).Linked := by
  apply Runs.run_invariant
  · exact fun w action linked => linked.step action
  · intro handle v there
    simp [World.dev, World.empty] at there

end GpibUtils.Vxi11
