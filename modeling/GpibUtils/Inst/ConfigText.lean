import GpibUtils.Ini.Written
import GpibUtils.Inst.ConfigTable

/-!
# Instruments from the text of a file

`cf_create` has the text of a file parsed, with `parse_cb` called for what it says, and there is a
table when nothing goes wrong: every line can be read, names an attribute, and lists no unknown
flag. `cf_create_default` takes the first of three files that there is a table for; a file with an
error is passed over as one that cannot be opened is (`config_default`).
-/

namespace GpibUtils.Inst.Table

open CSem Ini Lsd

/-! ## The code -/

/-- `parse_cb`, as the parser calls it. -/
def handler (cf : CfFile) (sect name value : List Char) : Bool × CfFile :=
  parseCb cf ⟨0, sect, name, value⟩

/-- `cf_create`, of a file with some text, or of one that cannot be opened. -/
def cfCreateText (text : Option (List Char)) : Option CfFile :=
  let (rc, cf) := Ini.iniParse handler text CfFile.new
  if rc = -1 then none else if 0 < rc then none else some cf

/-- `PATH_MAX` -/
def pathMax : Nat := 4096

/-- The paths that `cf_create_default` tries, one after the other: the value of `GPIB_UTILS_CONF`, a
file in the home directory, and one in `X_SYSCONFDIR`. -/
def defaultPaths (env home : Option (List Char)) (sysconfdir : List Char) : List (List Char) :=
  env.toList ++ home.toList.map (fun dir => snprintf pathMax (dir ++ "/.gpib-utils.conf".toList)) ++
    [snprintf pathMax (sysconfdir ++ "/gpib-utils.conf".toList)]

/-- `cf_create_default`: the first table that can be made. -/
def cfCreateDefault (read : List Char → Option (List Char)) : List (List Char) → Option CfFile
  | [] => none
  | path :: paths =>
    match cfCreateText (read path) with
    | some cf => some cf
    | none => cfCreateDefault read paths

/-! ## What a text says -/

/-- The event of a call. -/
def eventOf : Ini.Item → Option IniEvent
  | .call lineno sect name value => some ⟨lineno - 1, sect, name, value⟩
  | .wrong _ => none

/-- The events of a text. -/
def events (text : List Char) : List IniEvent := (items text).filterMap eventOf

/-- Nothing goes wrong in a text: every line can be read, and every event is allowed. -/
def Right (text : List Char) : Prop :=
  (∀ lineno, .wrong lineno ∉ items text) ∧ ∀ event ∈ events text, event.Allowed

/-- Sections keep fitting, line by line. -/
theorem itemsFrom_short (lines : List (List Char)) {sect : List Char} (prevName : List Char)
    (before : Nat) (short : sect.length ≤ 49) :
    ∀ event ∈ (itemsFrom sect prevName before lines).filterMap eventOf, event.sect.length ≤ 49 := by
  induction lines generalizing sect prevName before with
  | nil => exact fun event none => absurd none List.not_mem_nil
  | cons line lines ih =>
    rw [itemsFrom]
    intro event member
    rw [List.filterMap_append] at member
    rcases List.mem_append.mp member with here | later
    · cases what : said (before = 0) (prevName ≠ []) line with
      | nothing | header | wrong =>
        rw [what] at here
        cases here
      | more | setting =>
        rw [what] at here
        rw [List.mem_singleton.mp here]
        exact short
    · refine ih _ _ ?_ event later
      cases said (before = 0) (prevName ≠ []) line with
      | header name => exact List.length_take_le 49 name
      | nothing | wrong | more | setting => exact short

/-- The calls for some items do to a table what their events do to the function, and all of them go
well exactly when no line went wrong and every event is allowed. -/
theorem run_items (its : List Ini.Item) {cf : CfFile} {items : Items (List Char) Nat} {db : Db}
    (points : Points cf items db)
    (short : ∀ event ∈ its.filterMap eventOf, event.sect.length ≤ 63)
    (room : (cf.cfis.length + its.length : Int) ≤ intMax) :
    (Runs.Along (after handler) (Fine handler) cf its ↔
        (∀ lineno, .wrong lineno ∉ its) ∧ ∀ event ∈ its.filterMap eventOf, event.Allowed) ∧
      ∃ items', Points (Runs.run (after handler) cf its) items'
        ((its.filterMap eventOf).foldl (fun db event => (Inst.parseCb db event).2) db) := by
  induction its generalizing cf items db with
  | nil =>
    refine ⟨iff_of_true trivial ⟨fun lineno => List.not_mem_nil, fun event none => ?_⟩, items,
      points⟩
    exact absurd none List.not_mem_nil
  | cons item its ih =>
    rw [List.length_cons] at room
    push_cast at room
    cases item with
    | wrong lineno =>
      obtain ⟨-, goes⟩ := ih points short (by omega)
      refine ⟨iff_of_false (fun along => along.1) fun fine => ?_, goes⟩
      exact fine.1 lineno List.mem_cons_self
    | call lineno sect name value =>
      let event : IniEvent := ⟨lineno - 1, sect, name, value⟩
      have list : (Ini.Item.call lineno sect name value :: its).filterMap eventOf =
          event :: its.filterMap eventOf := rfl
      rw [list] at short ⊢
      obtain ⟨ok, longer, items', points'⟩ := points.parseCb event (by omega)
      have first : Fine handler cf (.call lineno sect name value) ↔ event.Allowed := by
        have allowed := @parseCb_ok_iff db event (short event List.mem_cons_self)
        rw [← ok] at allowed
        exact allowed
      obtain ⟨along, goes⟩ := ih points'
        (fun other member => short other (List.mem_cons_of_mem event member)) (by omega)
      refine ⟨?_, goes⟩
      rw [List.forall_mem_cons, ← first]
      refine (and_congr_right fun _ => along).trans ⟨?_, ?_⟩
      · rintro ⟨fine, right, all⟩
        exact ⟨fun other member => by
          rcases List.mem_cons.mp member with same | later
          · cases same
          · exact right other later, fine, all⟩
      · rintro ⟨right, fine, all⟩
        exact ⟨fine, fun other member => right other (List.mem_cons_of_mem _ member), all⟩

/-- A table tells what some events say: it has a record for each section, which is what the events
of the section say. -/
def Tells (cf : CfFile) (events : List IniEvent) : Prop :=
  ∀ s, (cfLookup cf s = none ↔ ∀ event ∈ events, event.sect ≠ s) ∧
    ∀ cfi, cfLookup cf s = some cfi → Describes events s cfi

/-- A table that keeps what events have made of nothing says what the events say. -/
theorem Points.tells {cf : CfFile} {items : Items (List Char) Nat} {events : List IniEvent}
    (points : Points cf items (events.foldl (fun db event => (Inst.parseCb db event).2) Db.empty))
    (short : ∀ event ∈ events, event.sect.length ≤ 63)
    (allowed : ∀ event ∈ events, event.Allowed) : Tells cf events := by
  intro s
  have looked : cfLookup cf s = if Keyed.history IniEvent.sect s events = [] then none
      else some ((Keyed.history IniEvent.sect s events).foldl applyEvent (newInstrument s)) := by
    rw [points.cfLookup_eq, find_foldl_parseCb Db.empty short allowed]
    exact Keyed.foldl_update_none _ _ _ events rfl
  have named := @Keyed.history_eq_nil_iff _ _ _ IniEvent.sect s events
  rw [looked]
  by_cases absent : Keyed.history IniEvent.sect s events = []
  · rw [if_pos absent]
    exact ⟨iff_of_true rfl (named.mp absent), fun cfi none =>
      absurd none.symm (Option.some_ne_none cfi)⟩
  · rw [if_neg absent]
    refine ⟨iff_of_false (Option.some_ne_none _) fun none => absent (named.mpr none), ?_⟩
    intro cfi same
    rw [← Option.some.inj same]
    have fits : s.length ≤ 63 := by
      by_contra long
      exact absent (named.mpr fun event member same => long (same ▸ short event member))
    exact describes_history fits allowed

/-- There is a table for a text when nothing goes wrong in it, and it says what the text says. -/
theorem cfCreateText_spec {text : List Char} (few : ((items text).length : Int) ≤ intMax) :
    (cfCreateText (some text) = none ↔ ¬Right text) ∧
      ∀ cf, cfCreateText (some text) = some cf → Right text ∧ Tells cf (events text) := by
  have short : ∀ event ∈ events text, event.sect.length ≤ 63 := fun event member =>
    have within := @itemsFrom_short (fileLines text) [] [] 0 (Nat.zero_le 49) event member
    Nat.le_trans within (by decide)
  have room : (CfFile.new.cfis.length + (items text).length : Int) ≤ intMax := by
    show ((0 : Nat) + (items text).length : Int) ≤ intMax
    omega
  obtain ⟨along, items', points⟩ := run_items (items text) points_new short room
  obtain ⟨-, bounds⟩ := itemsFrom_lineno (fileLines text) [] [] 0
  obtain ⟨zero, -⟩ := firstWrong_spec handler CfFile.new (items text) fun item member =>
    Nat.ne_of_gt (bounds item member).1
  obtain ⟨made, error⟩ := foldl_parseLine handler (fileLines text) ⟨[], [], 0, 0, CfFile.new⟩
  rw [if_pos rfl] at error
  have parsed : cfCreateText (some text) =
      if firstWrong handler CfFile.new (items text) = 0 then
        some (Runs.run (after handler) CfFile.new (items text))
      else none := by
    have opened : ((firstWrong handler CfFile.new (items text) : Nat) : Int) ≠ -1 := by omega
    rw [cfCreateText, Ini.iniParse, iniParseFile]
    dsimp only
    rw [error, made]
    show (if ((firstWrong handler CfFile.new (items text) : Nat) : Int) = -1 then none else
      if (0 : Int) < (firstWrong handler CfFile.new (items text) : Nat) then none else
        some (Runs.run (after handler) CfFile.new (items text))) = _
    rw [if_neg opened]
    by_cases fine : firstWrong handler CfFile.new (items text) = 0
    · rw [if_pos fine, if_neg (by omega)]
    · rw [if_neg fine, if_pos (by omega)]
  have right : firstWrong handler CfFile.new (items text) = 0 ↔ Right text := zero.trans along
  rw [parsed]
  by_cases fine : firstWrong handler CfFile.new (items text) = 0
  · rw [if_pos fine]
    refine ⟨iff_of_false (Option.some_ne_none _) fun wrong => wrong (right.mp fine), ?_⟩
    intro cf same
    cases same
    exact ⟨right.mp fine, points.tells short (right.mp fine).2⟩
  · rw [if_neg fine]
    exact ⟨iff_of_true rfl fun good => fine (right.mpr good), fun cf none => nomatch none⟩

/-- A file that there is no table for: it cannot be opened, or something goes wrong in it. -/
def Refused (read : List Char → Option (List Char)) (path : List Char) : Prop :=
  ∀ text, read path = some text → ¬Right text

/-- There is a table for a file unless it is refused. -/
theorem cfCreateText_path {read : List Char → Option (List Char)} {path : List Char}
    (few : ∀ text, read path = some text → ((items text).length : Int) ≤ intMax) :
    (cfCreateText (read path) = none ↔ Refused read path) ∧
      ∀ cf, cfCreateText (read path) = some cf →
        ∃ text, read path = some text ∧ Right text ∧ Tells cf (events text) := by
  cases opened : read path with
  | none =>
    have wrong : Refused read path := fun text same => by
      rw [opened] at same
      cases same
    exact ⟨iff_of_true rfl wrong, fun cf none => nomatch none⟩
  | some text =>
    obtain ⟨refused, told⟩ := cfCreateText_spec (few text opened)
    refine ⟨refused.trans ⟨fun wrong other same => ?_, fun wrong => wrong text opened⟩,
      fun cf made => ⟨text, rfl, told cf made⟩⟩
    rw [opened] at same
    cases same
    exact wrong

/-- The files are tried one after the other. -/
theorem cfCreateDefault_spec {read : List Char → Option (List Char)} (paths : List (List Char))
    (few : ∀ path ∈ paths, ∀ text, read path = some text → ((items text).length : Int) ≤ intMax) :
    (cfCreateDefault read paths = none ↔ ∀ path ∈ paths, Refused read path) ∧
      ∀ cf, cfCreateDefault read paths = some cf → ∃ before path later text,
        paths = before ++ path :: later ∧ (∀ other ∈ before, Refused read other) ∧
          read path = some text ∧ Right text ∧ Tells cf (events text) := by
  induction paths with
  | nil => exact ⟨iff_of_true rfl fun path none => absurd none List.not_mem_nil,
      fun cf none => nomatch none⟩
  | cons path paths ih =>
    obtain ⟨refused, told⟩ := cfCreateText_path (few path List.mem_cons_self)
    obtain ⟨none, first⟩ := ih fun other member => few other (List.mem_cons_of_mem path member)
    rw [cfCreateDefault]
    cases made : cfCreateText (read path) with
    | none =>
      have wrong := refused.mp made
      refine ⟨none.trans (List.forall_mem_cons.trans (and_iff_right wrong)).symm, fun cf some => ?_⟩
      obtain ⟨before, found, later, text, split, all, rest⟩ := first cf some
      exact ⟨path :: before, found, later, text, congrArg (path :: ·) split,
        List.forall_mem_cons.mpr ⟨wrong, all⟩, rest⟩
    | some cf =>
      have good : ¬Refused read path := fun wrong => by
        rw [refused.mpr wrong] at made
        cases made
      refine ⟨iff_of_false (Option.some_ne_none cf) fun all => good (all path List.mem_cons_self),
        ?_⟩
      intro other same
      cases same
      obtain ⟨text, opened, rest⟩ := told cf made
      exact ⟨[], path, paths, text, rfl, fun _ none => absurd none List.not_mem_nil, opened, rest⟩

/-- The instruments that a program knows are those of the first of the files of `cf_create_default`
that can be opened and has no error: each section that has settings has a record, which is what
these say, and there is no other record. There are none when all files are refused. -/
theorem config_default (read : List Char → Option (List Char)) (env home : Option (List Char))
    (sysconfdir : List Char)
    (few : ∀ path ∈ defaultPaths env home sysconfdir, ∀ text, read path = some text →
      ((items text).length : Int) ≤ intMax) :
    (cfCreateDefault read (defaultPaths env home sysconfdir) = none ↔
        ∀ path ∈ defaultPaths env home sysconfdir, Refused read path) ∧
      ∀ cf, cfCreateDefault read (defaultPaths env home sysconfdir) = some cf →
        ∃ before path later text, defaultPaths env home sysconfdir = before ++ path :: later ∧
          (∀ other ∈ before, Refused read other) ∧ read path = some text ∧ Right text ∧
            Tells cf (events text) :=
  cfCreateDefault_spec _ few

/-- A file with one instrument. -/
def oneInstrument : List Ini.Line :=
  [.header ['d'] [], .setting "address".toList [] '=' [] "22".toList []]

/-- What the file says. -/
theorem items_oneInstrument :
    items (fileText oneInstrument) = [.call 2 ['d'] "address".toList "22".toList] := by
  have named : NameProper "address".toList '=' :=
    ⟨by decide, by decide, by decide, by decide, by decide, by decide⟩
  have valued : ValueProper "22".toList [] :=
    ⟨by decide, by decide, by decide, .inl (by decide), by decide⟩
  have setting : Ini.Line.Proper [] (.setting "address".toList [] '=' [] "22".toList []) :=
    ⟨named, valued, by decide, by decide, .inl rfl⟩
  have written : Ini.Written [] oneInstrument :=
    ⟨⟨by decide, by decide⟩, by decide, setting, by decide, trivial⟩
  exact (@itemsFrom_written oneInstrument [] written [] 0 fun _ => by decide).trans (by decide)

/-- The first file cannot be opened, and the second one has an instrument. -/
theorem config_default_home :
    ∃ cf cfi, cfCreateDefault
        (fun path =>
          if path = "h/.gpib-utils.conf".toList then some (fileText oneInstrument) else none)
        (defaultPaths (some ['e']) (some ['h']) ['s']) = some cf ∧
      cfLookup cf ['d'] = some cfi ∧ cfi.addr = "22".toList := by
  have text : ∀ path text, (if path = "h/.gpib-utils.conf".toList then
      some (fileText oneInstrument) else none) = some text → text = fileText oneInstrument := by
    intro path text same
    split at same
    · exact (Option.some.inj same).symm
    · cases same
  obtain ⟨none, made⟩ := config_default
    (fun path => if path = "h/.gpib-utils.conf".toList then some (fileText oneInstrument) else none)
    (some ['e']) (some ['h']) ['s'] fun path _ other same => by
      rw [text path other same, items_oneInstrument]
      decide
  have events : events (fileText oneInstrument) =
      [⟨1, ['d'], "address".toList, "22".toList⟩] := by
    rw [events, items_oneInstrument]
    rfl
  have right : Right (fileText oneInstrument) := by
    refine ⟨fun lineno => by rw [items_oneInstrument]; simp, ?_⟩
    rw [events]
    intro event member
    rw [List.mem_singleton.mp member]
    exact ⟨.address, rfl, fun flags => by cases flags⟩
  cases default : cfCreateDefault (fun path =>
      if path = "h/.gpib-utils.conf".toList then some (fileText oneInstrument) else .none)
      (defaultPaths (some ['e']) (some ['h']) ['s']) with
  | none =>
    have refused := none.mp default "h/.gpib-utils.conf".toList (by decide)
    exact absurd right (refused _ (if_pos rfl))
  | some cf =>
    obtain ⟨before, path, later, other, -, -, opened, -, told⟩ := made cf default
    rw [text path other opened] at told
    obtain ⟨absent, record⟩ := told ['d']
    cases looked : cfLookup cf ['d'] with
    | none =>
      have nobody := absent.mp looked
      rw [events] at nobody
      exact absurd rfl (nobody _ List.mem_cons_self)
    | some cfi =>
      refine ⟨cf, cfi, rfl, looked, (record cfi looked).addr.trans ?_⟩
      rw [events]
      decide

end GpibUtils.Inst.Table
