import GpibUtils.Inst.Address
import GpibUtils.Vxi11.Handle

/-!
# The two parts of a VXI-11 name

A VXI-11 name is a host and a device with a colon between them; a name without a colon is both.
`vxi11_open` copies the name into a field of `MAXHOSTNAMELEN` bytes and splits the copy, so a name
that does not fit the field is cut before it is split. Which names are used in full all the same
is said by `initVxi_inFull_iff`.
-/

namespace GpibUtils.Inst

open CSem SharedPool Vxi11

/-- `_init_vxi`, up to the result of `vxi11_open`; the instrument is there when that is 0. -/
def initVxi (cache : RpcCache) (name : List Char) (env : Surroundings) : OpenResult :=
  vxi11Open vxi11Create cache name false env

/-- The host and the device that a name gives: what comes before the first colon and what comes
after it, or the whole name for both. -/
inductive Names : (name host device : List Char) → Prop where
  | split {host device : List Char} (first : ':' ∉ host) : Names (host ++ ':' :: device) host device
  | whole {name : List Char} (plain : ':' ∉ name) : Names name name name

/-- A handle is connected to the host that a name gives, and the link was asked for under the
device that it gives. -/
def InFull (name : List Char) (result : OpenResult) : Prop :=
  ∃ host device core parms, Names name host device ∧ result.dev.core = some core ∧
    openedFor result.cache.log core =
      some (.create host ['t', 'c', 'p'] deviceCore deviceCoreVersion) ∧
    result.traffic.head? = some (.sent ⟨core, .createLink parms⟩) ∧ parms.device = device

/-- After any calls of the connection cache, every open of a name that succeeds uses it in full. -/
def UsedInFull (name : List Char) : Prop :=
  ∀ calls env, Runs.Along cacheStep CachePromise .empty calls →
    (initVxi (Runs.run cacheStep .empty calls) name env).ret = 0 →
      InFull name (initVxi (Runs.run cacheStep .empty calls) name env)

/-- A name that is one text twice, where the text fills the field that names are copied into. -/
def Doubled (name : List Char) : Prop :=
  ∃ text, text.length = maxHostnameLen - 1 ∧ ':' ∉ text ∧ name = text ++ ':' :: text

/-- A name gives one host and one device. -/
theorem Names.unique {name host host' device device' : List Char} (names : Names name host device)
    (others : Names name host' device') : host = host' ∧ device = device' := by
  cases names with
  | split first =>
    generalize joined : host ++ ':' :: device = text at others
    cases others with
    | split second =>
      have left := @cut_colon host device first
      have right := @cut_colon host' device' second
      rw [joined] at left
      exact ⟨left.1.symm.trans right.1, (List.cons.inj (left.2.symm.trans right.2)).2⟩
    | whole plain => exact absurd (joined ▸ List.mem_append_right _ List.mem_cons_self) plain
  | whole plain =>
    cases others with
    | split second => exact absurd (List.mem_append_right _ List.mem_cons_self) plain
    | whole _ => exact ⟨rfl, rfl⟩

/-! ## Cutting a name -/

/-- The split of a text at its first colon. -/
theorem names_self (s : List Char) : Names s (s.takeWhile (· ≠ ':')) (findAfterColon s) := by
  by_cases colon : ':' ∈ s
  · obtain ⟨front, back, rfl, first⟩ := List.eq_append_cons_of_mem colon
    have cut := @cut_colon front back first
    simp only [findAfterColon, cut.1, cut.2]
    exact .split first
  · have inside : ∀ c ∈ s, decide (c ≠ ':') = true := by
      intro c member
      simpa using fun same : c = ':' => colon (same ▸ member)
    have taken : s.takeWhile (· ≠ ':') = s := List.takeWhile_eq_self_iff.mpr inside
    have dropped : s.dropWhile (· ≠ ':') = [] := List.dropWhile_eq_nil_iff.mpr inside
    simp only [findAfterColon, taken, dropped]
    exact .whole colon

/-- A copy fits the buffer it is split into. -/
theorem findBeforeColon_fieldCopy (name : List Char) :
    findBeforeColon (fieldCopy name) = (fieldCopy name).takeWhile (· ≠ ':') := by
  apply fieldCopy_short
  have front := (List.takeWhile_prefix (l := fieldCopy name) (· ≠ ':')).length_le
  have copy : (fieldCopy name).length ≤ maxHostnameLen - 1 := List.length_take_le _ _
  have positive : 0 < maxHostnameLen := by decide
  omega

/-- The front of a name gives the host and the device of the name only when it is all of it, or
when it has no colon and comes again behind the first one. -/
theorem Names.of_front {front back : List Char}
    (names : Names (front ++ back) (front.takeWhile (· ≠ ':')) (findAfterColon front)) :
    back = [] ∨ ':' ∉ front ∧ back = ':' :: front := by
  have self := names_self front
  generalize front.takeWhile (· ≠ ':') = host at names self
  generalize findAfterColon front = device at names self
  cases self with
  | split first =>
    rw [List.append_assoc, List.cons_append] at names
    have longer : Names (host ++ ':' :: (device ++ back)) host (device ++ back) := .split first
    exact .inl (List.self_eq_append_right.mp (names.unique longer).2)
  | whole plain =>
    by_cases more : back = []
    · exact .inl more
    · refine .inr ⟨plain, ?_⟩
      generalize joined : front ++ back = name at names
      cases names with
      | split first => exact List.append_cancel_left joined
      | whole _ => exact absurd (List.append_right_eq_self.mp joined) more

/-- The copy of a name gives the host and the device of the name exactly when the name fits the
field, or is one text twice with the field full of it. -/
theorem names_fieldCopy_iff (name : List Char) :
    Names name (findBeforeColon (fieldCopy name)) (findAfterColon (fieldCopy name)) ↔
      name.length < maxHostnameLen ∨ Doubled name := by
  constructor
  · intro names
    have joined : fieldCopy name ++ name.drop (maxHostnameLen - 1) = name :=
      List.take_append_drop _ _
    have size : (fieldCopy name).length = min (maxHostnameLen - 1) name.length :=
      List.length_take
    by_cases short : name.length < maxHostnameLen
    · exact .inl short
    · right
      have more : name.drop (maxHostnameLen - 1) ≠ [] := by
        intro nothing
        have within := List.drop_eq_nil_iff.mp nothing
        unfold maxHostnameLen at within short
        omega
      have front : Names (fieldCopy name ++ name.drop (maxHostnameLen - 1))
          ((fieldCopy name).takeWhile (· ≠ ':')) (findAfterColon (fieldCopy name)) := by
        rwa [joined, ← findBeforeColon_fieldCopy]
      obtain ⟨plain, again⟩ := front.of_front.resolve_left more
      rw [again] at joined
      exact ⟨fieldCopy name, by rw [size]; omega, plain, joined.symm⟩
  · rintro (short | ⟨text, full, plain, rfl⟩)
    · rw [findBeforeColon_fieldCopy, fieldCopy_short short]
      exact names_self name
    · have cut : fieldCopy (text ++ ':' :: text) = text := List.take_left' full
      have whole : Names text text text := .whole plain
      have parts := (names_self text).unique whole
      rw [findBeforeColon_fieldCopy, cut, parts.1, parts.2]
      exact .split plain

/-! ## Opening a name -/

/-- An open that succeeds is connected to the host of the copy and has asked for a link under its
device. -/
theorem initVxi_uses {cache : RpcCache} {name : List Char} {env : Surroundings}
    (truthful : Truthful cache) (success : (initVxi cache name env).ret = 0) :
    ∃ core parms, (initVxi cache name env).dev.core = some core ∧
      openedFor (initVxi cache name env).cache.log core =
        some (.create (findBeforeColon (fieldCopy name)) ['t', 'c', 'p'] deviceCore
          deviceCoreVersion) ∧
      (initVxi cache name env).traffic.head? = some (.sent ⟨core, .createLink parms⟩) ∧
      parms.device = findAfterColon (fieldCopy name) := by
  simp only [initVxi, vxi11Open, vxi11OpenCoreChannel] at success ⊢
  cases request : clntCreateCached cache (findBeforeColon (fieldCopy name)) deviceCore
      deviceCoreVersion ['t', 'c', 'p'] env.core with
  | mk next got =>
    cases got with
    | none =>
      simp only [request, openFailed] at success
      exact absurd success (by decide)
    | some core =>
      have opened := truthful.acquired (congrArg Prod.snd request)
      rw [clntCreateCached] at request
      rw [request] at opened
      simp only [clntCreateCached, request, openLink, openAbort, Bool.false_eq_true,
        if_false] at success ⊢
      split at success
      · rename_i failed
        exact absurd success failed
      · rename_i linked
        rw [if_neg linked]
        exact ⟨core, _, rfl, opened, rfl, rfl⟩

/-- A gateway that is reached at the first attempt and grants a link. -/
def obliging : Surroundings :=
  ⟨⟨some 1, true⟩, some ⟨0, 0, 0, 1024⟩, 0, ⟨⟨none, true⟩, 0⟩, none⟩

/-- A name is used in full exactly when its copy gives the host and the device that it gives. -/
theorem usedInFull_iff_names (name : List Char) :
    UsedInFull name ↔
      Names name (findBeforeColon (fieldCopy name)) (findAfterColon (fieldCopy name)) := by
  constructor
  · intro used
    have success : (initVxi .empty name obliging).ret = 0 := rfl
    obtain ⟨host, device, core, parms, names, opened, connected, asked, given⟩ :=
      used [] obliging trivial success
    have start : Truthful .empty := @truthful_run [] trivial
    obtain ⟨core', parms', opened', connected', asked', given'⟩ := initVxi_uses start success
    -- Both say what this one open has used.
    have client : core = core' := Option.some.inj (opened.symm.trans opened')
    rw [← client] at connected' asked'
    have hosts := Option.some.inj (connected.symm.trans connected')
    have links := Option.some.inj (asked.symm.trans asked')
    simp only [CacheKey.create.injEq, and_true] at hosts
    simp only [Traffic.sent.injEq, Rpc.mk.injEq, Procedure.createLink.injEq, true_and] at links
    rwa [← hosts, ← given', ← links, given]
  · intro names calls env along success
    obtain ⟨core, parms, opened, connected, asked, given⟩ :=
      initVxi_uses (truthful_run along) success
    exact ⟨_, _, core, parms, names, opened, connected, asked, given⟩

/-- A VXI-11 name is used in full or refused exactly when it fits the field that it is copied into,
or is one text twice with the field full of it. -/
theorem initVxi_inFull_iff (name : List Char) :
    UsedInFull name ↔ name.length < maxHostnameLen ∨ Doubled name :=
  (usedInFull_iff_names name).trans (names_fieldCopy_iff name)

/-- A gateway with a name of 55 characters, and device 15 on its bus: the name passes `inst_init` as
that of a VXI-11 instrument, and the link is asked for under device 1. -/
theorem initVxi_cuts :
    let name := List.replicate 55 'g' ++ ":gpib0,15".toList
    initAttempts (fun _ => false) name = [.vxi name] ∧
      (initVxi .empty name obliging).ret = 0 ∧
      (initVxi .empty name obliging).traffic.head? =
        some (.sent ⟨1, .createLink ⟨0, false, 25000, "gpib0,1".toList⟩⟩) ∧
      ¬UsedInFull name := by
  refine ⟨by decide, rfl, by decide, ?_⟩
  rw [usedInFull_iff_names, names_fieldCopy_iff]
  rintro (short | ⟨text, full, -, same⟩)
  · exact absurd short (by decide)
  · have length : (text ++ ':' :: text).length = 64 := congrArg List.length same.symm
    rw [List.length_append, List.length_cons, full] at length
    exact absurd length (by decide)

end GpibUtils.Inst
