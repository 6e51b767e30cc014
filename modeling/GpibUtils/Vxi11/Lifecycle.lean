import GpibUtils.Vxi11.World

/-!
# The lifecycle of handles

Handles share connections through the cache, which counts how often each is handed out. The
counts are those of the core and abort fields of the handles, whatever fails and in whatever
order handles are used (`vxi11_lifecycle`): a failed open leaks nothing, and closing one handle
leaves the connections of the others open.
-/

namespace GpibUtils.Vxi11

open SharedPool

/-- The clients in the fields of all handles. -/
def refs (handles : List (Option Device)) : Multiset Client :=
  (handles.map fun handle => handle.elim 0 refsOf).sum

/-- The clients of one handle stand beside those of the others. -/
theorem refs_split {handles : List (Option Device)} {handle : Nat} {v : Device}
    (found : handles[handle]?.join = some v) :
    ∃ others, refs handles = refsOf v + others ∧
      ∀ next, refs (handles.set handle next) = next.elim 0 refsOf + others := by
  induction handles generalizing handle with
  | nil => simp at found
  | cons first later ih =>
    cases handle with
    | zero =>
      have here : first = some v := by simpa using found
      refine ⟨refs later, ?_, fun next => ?_⟩
      · simp [refs, here]
      · simp [refs]
    | succ handle =>
      obtain ⟨others, before, after⟩ := ih (by simpa using found)
      refine ⟨first.elim 0 refsOf + others, ?_, fun next => ?_⟩
      · change first.elim 0 refsOf + refs later = _
        rw [before, add_left_comm]
      · change first.elim 0 refsOf + refs (later.set handle next) = _
        rw [after, add_left_comm]

/-- The invariant: the bookkeeping of the cache is that of the fields of the handles. -/
structure World.Balanced (w : World) : Prop where
  counted : Counted w.cache
  held : w.cache.held = refs w.handles
  magic : ∀ handle v, w.dev handle = some v → v.magic = magic

/-- A call that backs its handle keeps the invariant. -/
theorem World.Balanced.put {w : World} (balanced : w.Balanced) {handle : Nat} {v : Device}
    (found : w.dev handle = some v) {next : Device} {cache : RpcCache} (traffic : List Traffic)
    (valid : next.magic = v.magic)
    (backed : ∀ others, Backed v w.cache others → Backed next cache others) :
    (w.put handle (some next) cache traffic).Balanced := by
  obtain ⟨others, before, after⟩ := refs_split found
  have now : Backed next cache others :=
    backed others ⟨balanced.counted, balanced.held.trans before⟩
  refine ⟨now.counted, now.held.trans (after (some next)).symm, fun other u there => ?_⟩
  rw [World.dev_put found] at there
  by_cases same : other = handle
  · rw [if_pos same, Option.some.injEq] at there
    rw [← there, valid]
    exact balanced.magic handle v found
  · rw [if_neg same] at there
    exact balanced.magic other u there

/-- A handle that holds nothing may go. -/
theorem World.Balanced.remove {w : World} (balanced : w.Balanced) {handle : Nat} {v : Device}
    (found : w.dev handle = some v) (nothing : refsOf v = 0) :
    (w.put handle none w.cache []).Balanced := by
  obtain ⟨others, before, after⟩ := refs_split found
  refine ⟨balanced.counted, ?_, fun other u there => ?_⟩
  · change w.cache.held = refs (w.handles.set handle none)
    rw [balanced.held, before, after, nothing]
    rfl
  · rw [World.dev_put found] at there
    by_cases same : other = handle
    · simp [same] at there
    · rw [if_neg same] at there
      exact balanced.magic other u there

/-- What callers and the RPC library promise: a call names a handle that exists, an open one
that is closed, an open is given clients that are not open, and a destroy passes its
assertions. -/
def LifecyclePromise (w : World) : Action → Prop
  | .create => True
  | .open handle name _ env => ∃ v ∈ w.dev handle, Closed v ∧ Fresh w.cache name env
  | .close handle _ => ∃ v ∈ w.dev handle, True
  | .destroy handle => ∃ v ∈ w.dev handle, vxi11Destroy v = some ()
  | .io handle _ => ∃ v ∈ w.dev handle, True

instance (w : World) : (action : Action) → Decidable (LifecyclePromise w action)
  | .create => .isTrue trivial
  | .open handle name _ env =>
    inferInstanceAs (Decidable (∃ v ∈ w.dev handle, Closed v ∧ Fresh w.cache name env))
  | .close handle _ => inferInstanceAs (Decidable (∃ v ∈ w.dev handle, True))
  | .destroy handle => inferInstanceAs (Decidable (∃ v ∈ w.dev handle, vxi11Destroy v = some ()))
  | .io handle _ => inferInstanceAs (Decidable (∃ v ∈ w.dev handle, True))

/-- A handle that passes the assertions of `vxi11_destroy` holds no clients. -/
theorem refsOf_destroyed {v : Device} (passes : vxi11Destroy v = some ()) : refsOf v = 0 := by
  simp [refsOf, vxi11Destroy_closed passes]

/-- Every promised call keeps the invariant. -/
theorem World.Balanced.step {w : World} (balanced : w.Balanced) {action : Action}
    (promise : LifecyclePromise w action) : (w.step action).Balanced := by
  cases action with
  | create =>
    refine ⟨balanced.counted, ?_, fun handle v there => ?_⟩
    · change w.cache.held = refs (w.handles ++ [some vxi11Create])
      rw [balanced.held]
      simp [refs, refsOf, vxi11Create]
    · rw [World.dev_create] at there
      by_cases last : handle = w.handles.length
      · rw [if_pos last, Option.some.injEq] at there
        rw [← there]
        rfl
      · rw [if_neg last] at there
        exact balanced.magic handle v there
  | «open» handle name doAbort env =>
    obtain ⟨v, found, closed, isFresh⟩ := promise
    rw [(World.step_found found).1]
    exact balanced.put found _ (vxi11Open_magic v w.cache name doAbort env)
      fun others backed => (backed.open closed name doAbort isFresh).1
  | close handle reply =>
    obtain ⟨v, found, -⟩ := promise
    rw [(World.step_found found).2.1]
    exact balanced.put found _ rfl fun others backed => backed.close reply
  | destroy handle =>
    obtain ⟨v, found, passes⟩ := promise
    have step : w.step (.destroy handle) = w.put handle none w.cache [] := by
      simp [World.step, Option.mem_def.mp found, passes]
    rw [step]
    exact balanced.remove found (refsOf_destroyed passes)
  | io handle call =>
    obtain ⟨v, found, -⟩ := promise
    obtain ⟨core, abrt, -, valid⟩ := call.dev_same v
    rw [(World.step_found found).2.2]
    refine balanced.put found _ valid fun others backed => ⟨backed.counted, ?_⟩
    rw [backed.held, refsOf, refsOf, core, abrt]

/-- What holds between calls: the outstanding references to a client are the core and abort
fields that hold it, and the connections that are open are those of such clients. -/
structure RefsCounted (w : World) : Prop where
  /-- The hand-outs of the cache. -/
  held : ∀ clnt, w.cache.held.count clnt = (refs w.handles).count clnt
  /-- The use counts of its entries. -/
  uses : ∀ e ∈ w.cache.entries, e.uses = (refs w.handles).count e.item
  /-- The open connections. -/
  live : ∀ clnt, Open w.cache.log clnt ↔ clnt ∈ refs w.handles

/-- A handle that has just been closed, or has failed to open, can be destroyed. -/
structure LeavesClosed (w : World) (action : Action) : Prop where
  /-- A failed open. -/
  opened : ∀ handle name doAbort env, action = .open handle name doAbort env →
    ∀ v ∈ w.dev handle, (vxi11Open v w.cache name doAbort env).ret ≠ 0 →
      ∃ v' ∈ (w.step action).dev handle, Closed v' ∧ vxi11Destroy v' = some ()
  /-- A close. -/
  closed : ∀ handle reply, action = .close handle reply → ∀ v ∈ w.dev handle,
    ∃ v' ∈ (w.step action).dev handle, Closed v' ∧ vxi11Destroy v' = some ()

/-- Under the invariant the references are counted. -/
theorem World.Balanced.refsCounted {w : World} (balanced : w.Balanced) : RefsCounted w where
  held clnt := by rw [balanced.held]
  uses e member := by rw [← balanced.held]; exact (balanced.counted.uses e member).1
  live clnt := by rw [← balanced.held]; exact balanced.counted.open_iff clnt

/-- Under the invariant a promised call leaves its handle closed when it should. -/
theorem World.Balanced.leavesClosed {w : World} (balanced : w.Balanced) {action : Action}
    (promise : LifecyclePromise w action) : LeavesClosed w action := by
  constructor
  · rintro handle name doAbort env rfl v found failed
    obtain ⟨u, there, closed, isFresh⟩ := promise
    obtain rfl := Option.some.inj (there.symm.trans found)
    obtain ⟨others, before, -⟩ := refs_split found
    have backed : Backed u w.cache others := ⟨balanced.counted, balanced.held.trans before⟩
    have now := (backed.open closed name doAbort isFresh).2 failed
    refine ⟨_, ?_, now, now.destroy ?_⟩
    · rw [(World.step_found found).1, World.dev_put found, if_pos rfl]
      rfl
    · rw [vxi11Open_magic]
      exact balanced.magic handle u found
  · rintro handle reply rfl v found
    have now := vxi11Close_closed v w.cache reply
    refine ⟨_, ?_, now, now.destroy (balanced.magic handle v found)⟩
    rw [(World.step_found found).2.1, World.dev_put found, if_pos rfl]
    rfl

/-- In every run of handles over one cache, the references are counted between calls, and a
handle that is closed or fails to open holds nothing afterwards. -/
theorem vxi11_lifecycle {actions : List Action}
    (along : Runs.Along World.step LifecyclePromise .empty actions) :
    RefsCounted (Runs.run World.step .empty actions) ∧
      ∀ before action later, actions = before ++ action :: later →
        LeavesClosed (Runs.run World.step .empty before) action := by
  have start : World.empty.Balanced :=
    ⟨counted_empty, rfl, fun handle v there => by simp [World.dev, World.empty] at there⟩
  have keeps : ∀ w action, World.Balanced w → LifecyclePromise w action →
      (World.step w action).Balanced := fun _ _ balanced promise => balanced.step promise
  refine ⟨(along.invariant keeps start).refsCounted, fun before action later split => ?_⟩
  exact along.each keeps (fun _ _ balanced promise => balanced.leavesClosed promise) start split

/-- What an open meets when it gets a core channel, link 0 and an abort channel. -/
def granting (core abrt : Client) : Surroundings :=
  ⟨⟨some core, true⟩, some ⟨0, 0, 700, 1024⟩, 1, ⟨⟨some abrt, true⟩, 700⟩, none⟩

/-- Two handles to one host share both connections; the first is closed, and the second, whose
reopening is refused a link, is destroyed. -/
theorem vxi11_lifecycle_shared :
    let name := ['g', 'w', ':', 'i']
    let refusing : Surroundings := { granting 3 4 with link := some ⟨9, -1, 0, 0⟩ }
    let actions : List Action :=
      [.create, .create, .open 0 name true (granting 1 2), .open 1 name true (granting 3 4),
        .close 0 none, .close 1 none, .open 1 name false refusing, .destroy 1]
    RefsCounted (Runs.run World.step .empty actions) ∧
      (Runs.run World.step .empty actions).cache.log.length = 6 :=
  ⟨(vxi11_lifecycle (by decide)).1, by decide⟩

end GpibUtils.Vxi11
