import GpibUtils.Ledger
import GpibUtils.Vxi11.Lifecycle

/-!
# Ownership of links

A handle owns the links it is granted, and destroys each once. `vxi11_open` stores the link of a
reply before it looks at the error of the reply, and `vxi11_close` destroys whatever link is
stored. So a refusal that carries a link makes the handle destroy a link it does not own, which
may be one that another handle on the same connection owns; and a reply to a handle that is
open already makes it forget the link it owns. `vxi11_links` says that ownership is kept in
every run in which neither happens.
-/

namespace GpibUtils.Vxi11

open Ledger

/-- The entry of some traffic in the ledger of its handle. -/
def linkEntry : Traffic → Option (Ledger.Entry Int)
  | .granted lid => some (.gain lid)
  | .sent ⟨_, .destroyLink lid⟩ => some (.spend lid)
  | .sent _ => none

/-- The ledger of one handle. -/
def linkLog (handle : Nat) (traffic : List (Nat × Traffic)) : List (Ledger.Entry Int) :=
  traffic.filterMap fun (sender, t) => if sender = handle then linkEntry t else none

/-- A call adds to the ledger of its handle alone. -/
theorem linkLog_put (w : World) (handle : Nat) (v : Option Device) (cache : RpcCache)
    (traffic : List Traffic) (other : Nat) :
    linkLog other (w.put handle v cache traffic).traffic =
      linkLog other w.traffic ++ if other = handle then traffic.filterMap linkEntry else [] := by
  by_cases same : other = handle
  · simp [linkLog, World.put, List.filterMap_map, same]
  · simp [linkLog, World.put, List.filterMap_map, Ne.symm same, same]

/-- A handle owns the link it holds, and no other. -/
structure Owns (v : Device) (log : List (Ledger.Entry Int)) : Prop where
  covered : Covered log
  linked : Linked v
  balance : ∀ lid, lid ≠ nolid → gains log lid = spends log lid + if v.lid = lid then 1 else 0

/-- No link is owned: each but the reserved one has been destroyed as often as granted. -/
structure Settled (log : List (Ledger.Entry Int)) : Prop where
  covered : Covered log
  balance : ∀ lid, lid ≠ nolid → gains log lid = spends log lid

/-- A handle without a link owns none. -/
theorem Owns.settled {v : Device} {log : List (Ledger.Entry Int)} (owns : Owns v log)
    (none : v.lid = nolid) : Settled log := by
  refine ⟨owns.covered, fun lid real => ?_⟩
  have balance := owns.balance lid real
  rwa [none, if_neg (Ne.symm real), Nat.add_zero] at balance

/-- Whoever owns no link may hold none. -/
theorem Settled.owns {v : Device} {log : List (Ledger.Entry Int)} (settled : Settled log)
    (none : v.lid = nolid) : Owns v log := by
  refine ⟨settled.covered, fun some => absurd none some, fun lid real => ?_⟩
  rw [none, if_neg (Ne.symm real), Nat.add_zero]
  exact settled.balance lid real

/-- A close destroys the link the handle owns. -/
theorem Owns.close {v : Device} {log : List (Ledger.Entry Int)} (owns : Owns v log)
    (reply : Option DeviceError) :
    Settled (log ++ ((unlink v reply).map Traffic.sent).filterMap linkEntry) := by
  by_cases none : v.lid = nolid
  · simpa [unlink, none] using owns.settled none
  · obtain ⟨core, channel⟩ := Option.ne_none_iff_exists'.mp (owns.linked none)
    have entry : ((unlink v reply).map Traffic.sent).filterMap linkEntry = [.spend v.lid] := by
      simp [unlink, none, channel, vxi11DestroyLink, plainWrapper, linkEntry]
    rw [entry]
    constructor
    · apply owns.covered.snoc
      intro lid same
      obtain rfl := Entry.spend.inj same
      have balance := owns.balance v.lid none
      rw [if_pos rfl] at balance
      omega
    · intro lid real
      have balance := owns.balance lid real
      simpa using balance

/-! ## Opens -/

section
variable {v : Device} {log : List (Ledger.Entry Int)} {cache : RpcCache} {env : Surroundings}

/-- A failed open destroys the link the handle owns. -/
theorem Owns.openFailed {traffic : List Traffic}
    (owns : Owns v (log ++ traffic.filterMap linkEntry)) (cache : RpcCache) (res : Int)
    (reply : Option DeviceError) :
    Owns (openFailed v cache res traffic reply).dev
      (log ++ (openFailed v cache res traffic reply).traffic.filterMap linkEntry) := by
  have settled := owns.close reply
  rw [List.append_assoc, ← List.filterMap_append] at settled
  exact settled.owns (openFailed_closed v cache res traffic reply).lid

/-- The part of an open after the link keeps what the handle owns, or destroys it. -/
theorem Owns.openAbort {traffic : List Traffic}
    (owns : Owns v (log ++ traffic.filterMap linkEntry)) (cache : RpcCache) (doAbort : Bool)
    (env : Surroundings) :
    Owns (openAbort v cache doAbort env traffic).dev
      (log ++ (openAbort v cache doAbort env traffic).traffic.filterMap linkEntry) := by
  cases doAbort with
  | false => exact owns
  | true =>
    simp only [Vxi11.openAbort, ↓reduceIte]
    split
    · exact owns.openFailed _ _ _
    · exact ⟨owns.covered, owns.linked, owns.balance⟩

/-- A reply to `create_link` comes for a handle without a link, and carries the reserved link
when it refuses one. -/
def AnswersPlainly (v : Device) (link : Option CreateLinkResp) : Prop :=
  ∀ r ∈ link, v.lid = nolid ∧ (r.error ≠ 0 → r.lid = nolid)

instance (v : Device) (link : Option CreateLinkResp) : Decidable (AnswersPlainly v link) :=
  inferInstanceAs (Decidable (∀ r ∈ link, _))

/-- The entries of a `create_link` and its reply. -/
theorem linkEntry_create (core : Client) (parms : CreateLinkParms) (link : Option CreateLinkResp) :
    (.sent ⟨core, .createLink parms⟩ :: grantOf link).filterMap linkEntry =
      (grantOf link).filterMap linkEntry := rfl

/-- The part of an open after the core channel gives the handle the link it is granted. -/
theorem Owns.openLink (owns : Owns v log) {core : Client} (channel : v.core = some core)
    (plain : AnswersPlainly v env.link) (cache : RpcCache) (doAbort : Bool) :
    Owns (openLink v core cache doAbort env).dev
      (log ++ (openLink v core cache doAbort env).traffic.filterMap linkEntry) := by
  have linked : v.core ≠ none := by simp [channel]
  cases answer : env.link with
  | none =>
    simp only [Vxi11.openLink, vxi11CreateLink, answer, Option.map_none, resultOf, coreRpcerr]
    have entries : (grantOf none).filterMap linkEntry = [] := rfl
    refine Owns.openFailed ?_ _ _ _
    rw [linkEntry_create, entries, List.append_nil]
    exact ⟨owns.covered, owns.linked, owns.balance⟩
  | some r =>
    obtain ⟨free, refusal⟩ := plain r answer
    have settled := owns.settled free
    by_cases granted : r.error = 0
    · have gained : Covered (log ++ [.gain r.lid]) := settled.covered.snoc (by simp)
      have entries : (grantOf (some r)).filterMap linkEntry = [.gain r.lid] := by
        simp [grantOf, granted, linkEntry]
      simp only [Vxi11.openLink, vxi11CreateLink, answer, Option.map_some, resultOf, granted]
      refine Owns.openAbort ⟨?_, ?_, ?_⟩ _ _ _
      · rwa [linkEntry_create, entries]
      · exact fun _ => linked
      · intro lid real
        have balance := settled.balance lid real
        rw [linkEntry_create, entries]
        simp [balance]
    · have reserved := refusal granted
      have failed : r.error.toInt ≠ 0 := by simpa using granted
      have entries : (grantOf (some r)).filterMap linkEntry = [] := by simp [grantOf, granted]
      simp only [Vxi11.openLink, vxi11CreateLink, answer, Option.map_some, resultOf, failed,
        ne_eq, not_false_eq_true, if_true]
      refine Owns.openFailed (Settled.owns ?_ reserved) _ _ _
      rwa [linkEntry_create, entries, List.append_nil]

/-- An open gives the handle the link it is granted, or leaves it without. -/
theorem Owns.open (owns : Owns v log) (plain : AnswersPlainly v env.link) (cache : RpcCache)
    (name : List Char) (doAbort : Bool) :
    Owns (vxi11Open v cache name doAbort env).dev
      (log ++ (vxi11Open v cache name doAbort env).traffic.filterMap linkEntry) := by
  simp only [vxi11Open]
  split
  · have renamed : Owns { v with devname := fieldCopy name } log :=
      ⟨owns.covered, owns.linked, owns.balance⟩
    have silent : Owns { v with devname := fieldCopy name }
        (log ++ ([] : List Traffic).filterMap linkEntry) := by simpa using renamed
    exact silent.openFailed _ _ _
  · rename_i next core opened
    have reached : Owns { v with devname := fieldCopy name, core := some core } log :=
      ⟨owns.covered, fun _ => Option.some_ne_none core, owns.balance⟩
    exact reached.openLink rfl plain next doAbort

/-- An open that is refused a link plainly destroys none. -/
theorem vxi11Open_refused (plain : AnswersPlainly v env.link) {r : CreateLinkResp}
    (answer : env.link = some r) (refused : r.error ≠ 0) (cache : RpcCache) (name : List Char)
    (doAbort : Bool) (client : Client) (lid : Int) :
    .sent ⟨client, .destroyLink lid⟩ ∉ (vxi11Open v cache name doAbort env).traffic := by
  obtain ⟨free, refusal⟩ := plain r answer
  have failed : r.error.toInt ≠ 0 := by simpa using refused
  simp only [vxi11Open]
  split
  · simp [openFailed, vxi11Close, unlink, free]
  · simp [openLink, vxi11CreateLink, answer, resultOf, failed, openFailed, vxi11Close, unlink,
      refusal refused, grantOf, refused]

end

/-! ## Other calls -/

/-- None of these RPCs destroys a link. -/
def SparesLinks (rpcs : List Rpc) : Prop := ∀ rpc ∈ rpcs, linkEntry (.sent rpc) = none

/-- RPCs that destroy no link leave the ledger as it is. -/
theorem SparesLinks.entries {rpcs : List Rpc} (spares : SparesLinks rpcs) :
    (rpcs.map Traffic.sent).filterMap linkEntry = [] := by
  rw [List.filterMap_map, List.filterMap_eq_nil_iff]
  exact spares

/-- Input, output and settings destroy no link. -/
theorem IoCall.spares (call : IoCall) (v : Device) : SparesLinks (call.rpcs v) := by
  have all := call.rpcs_all (P := fun rpc => linkEntry (.sent rpc) = none) v
  apply all
  · intro core procedure opened plain
    cases procedure with
    | destroyLink lid => cases plain
    | _ => rfl
  · intro reply aborts abrt
    rfl

/-- Such a call leaves the links of its handle as they are. -/
theorem Owns.io {v : Device} {log : List (Ledger.Entry Int)} (owns : Owns v log) (call : IoCall) :
    Owns (call.dev v) (log ++ ((call.rpcs v).map Traffic.sent).filterMap linkEntry) := by
  obtain ⟨-, -, lid, -⟩ := call.dev_same v
  rw [(call.spares v).entries, List.append_nil]
  constructor
  · exact owns.covered
  · exact owns.linked.io call
  · rw [lid]
    exact owns.balance

/-! ## Runs -/

/-- The ledger of a place is that of the handle there; where there is none, no link is owned. -/
def OwnsAt (v : Option Device) (log : List (Ledger.Entry Int)) : Prop :=
  v.elim (Settled log) fun v => Owns v log

/-- The invariant: every handle owns the link it holds, and no other. -/
def World.Owning (w : World) : Prop := ∀ handle, OwnsAt (w.dev handle) (linkLog handle w.traffic)

/-- Replies to `create_link` come as they should. -/
def LinksPlain (w : World) : Action → Prop
  | .open handle _ _ env => ∀ v ∈ w.dev handle, AnswersPlainly v env.link
  | _ => True

instance (w : World) : (action : Action) → Decidable (LinksPlain w action)
  | .open handle _ _ env =>
    inferInstanceAs (Decidable (∀ v ∈ w.dev handle, AnswersPlainly v env.link))
  | .create | .close .. | .destroy _ | .io .. => .isTrue trivial

/-- A call keeps the invariant when it does at the place of its handle. -/
theorem World.Owning.put {w : World} (owning : w.Owning) {handle : Nat} {v : Device}
    (found : w.dev handle = some v) {next : Option Device} {cache : RpcCache}
    {traffic : List Traffic}
    (owns : OwnsAt next (linkLog handle w.traffic ++ traffic.filterMap linkEntry)) :
    (w.put handle next cache traffic).Owning := by
  intro other
  rw [World.dev_put found, linkLog_put]
  by_cases same : other = handle
  · rw [if_pos same, if_pos same, same]
    exact owns
  · rw [if_neg same, if_neg same, List.append_nil]
    exact owning other

/-- Every call keeps the invariant when replies come as they should. -/
theorem World.Owning.step {w : World} (owning : w.Owning) {action : Action}
    (plain : LinksPlain w action) : (w.step action).Owning := by
  obtain same | rfl | ⟨handle, v, found, did⟩ := w.step_cases action
  · rwa [same]
  · intro handle
    rw [World.dev_create]
    by_cases last : handle = w.handles.length
    · have absent : w.dev handle = none := by simp [World.dev, last]
      have settled : Settled (linkLog handle w.traffic) := by
        simpa [OwnsAt, absent] using owning handle
      rw [if_pos last]
      exact settled.owns rfl
    · rw [if_neg last]
      exact owning handle
  · have here : Owns v (linkLog handle w.traffic) := by
      simpa [OwnsAt, found] using owning handle
    obtain ⟨name, doAbort, env, rfl, step⟩ | ⟨reply, -, step⟩ | ⟨passes, step⟩ | ⟨call, -, step⟩ :=
      did
    all_goals
      rw [step]
      apply owning.put found
    · exact here.open (plain v found) w.cache name doAbort
    · exact (here.close reply).owns rfl
    · obtain ⟨-, unlinked, -⟩ := vxi11Destroy_closed passes
      simpa [OwnsAt] using here.settled unlinked
    · exact here.io call

/-- What holds between calls: a handle destroys a link only after it was granted it, and once
for each time, and a handle that is closed or gone has destroyed all it was granted. -/
structure LinksOwned (w : World) : Prop where
  covered : ∀ handle, Covered (linkLog handle w.traffic)
  closed : ∀ handle, (∀ v ∈ w.dev handle, Closed v) → ∀ lid, lid ≠ nolid →
    spends (linkLog handle w.traffic) lid = gains (linkLog handle w.traffic) lid

/-- An open that is refused a link destroys none. -/
def RefusalSpares (w : World) (action : Action) : Prop :=
  ∀ handle name doAbort env, action = .open handle name doAbort env →
    ∀ v ∈ w.dev handle, ∀ r ∈ env.link, r.error ≠ 0 → ∀ client lid,
      .sent ⟨client, .destroyLink lid⟩ ∉ (vxi11Open v w.cache name doAbort env).traffic

/-- Under the invariant links are owned. -/
theorem World.Owning.linksOwned {w : World} (owning : w.Owning) : LinksOwned w := by
  constructor
  · intro handle
    cases found : w.dev handle with
    | none =>
      have settled : Settled (linkLog handle w.traffic) := by
        simpa [OwnsAt, found] using owning handle
      exact settled.covered
    | some v =>
      have owns : Owns v (linkLog handle w.traffic) := by
        simpa [OwnsAt, found] using owning handle
      exact owns.covered
  · intro handle closed lid real
    have settled : Settled (linkLog handle w.traffic) := by
      cases found : w.dev handle with
      | none => simpa [OwnsAt, found] using owning handle
      | some v =>
        have owns : Owns v (linkLog handle w.traffic) := by
          simpa [OwnsAt, found] using owning handle
        exact owns.settled (closed v found).lid
    exact (settled.balance lid real).symm

end GpibUtils.Vxi11
