import HyprRdp.Input.DeviceKeys
import HyprRdp.Lib.FirstMatch
import HyprRdp.Lib.Table

namespace HyprRdp

/-- What a keymap does with an active group that a key does not have. -/
inductive OutOfRangeGroup
  | wrap
  | saturate
  | redirect (group : Nat)
  deriving DecidableEq, Repr

/-- The group of a key that counts while a group is active. -/
def effectiveGroup (action : OutOfRangeGroup) (groups active : Nat) : Nat :=
  if active < groups then active
  else
    match action with
    | .wrap => active % groups
    | .saturate => groups - 1
    | .redirect group => if group < groups then group else 0

namespace XkbKeymap

variable {Xkb : Type} (keymap : XkbKeymap Xkb)

/-- The keys stand once each, from the first keycode that evdev keys have. -/
structure Proper : Prop where
  distinct : (keymap.keys.map Prod.fst).Nodup
  offset : ∀ key ∈ keymap.keys, xkbKeycodeOffset ≤ key.1

def groups (keycode : Nat) : List (List (List Nat)) := (keymap.keys.lookup keycode).getD []

/-- The characters of a key at a level of one of its groups. -/
def entry (keycode group level : Nat) : List Nat :=
  (((keymap.groups keycode)[group]?.getD [])[level]?).getD []

def activeGroup (actions : Nat → OutOfRangeGroup) (active keycode : Nat) : Nat :=
  effectiveGroup (actions keycode) (keymap.groups keycode).length active

/-- The entry that the last key request selects, on a keyboard where at most
Shift is down besides: Shift selects the second level, and nothing the first. -/
def selected (actions : Nat → OutOfRangeGroup) (active : Nat) (requests : SwitchLog Nat) : List Nat :=
  match requests.getLast? with
  | some (evdevKey, true) =>
    let keycode := evdevKey + xkbKeycodeOffset
    keymap.entry keycode (keymap.activeGroup actions active keycode)
      (if SwitchLog.level requests.dropLast leftShiftKey then 1 else 0)
  | _ => []

/-- A place of the keymap. -/
structure Place where
  keycode : Nat
  group : Nat
  level : Nat
  deriving DecidableEq, Repr

/-- The first place where a character stands: by key, then by group, then by level. -/
def firstPlace (character : Nat) : Option Place :=
  keymap.keys.findSome? fun (keycode, layouts) =>
    layouts.zipIdx.findSome? fun (levels, group) =>
      levels.zipIdx.findSome? fun (characters, level) =>
        if character ∈ characters then some ⟨keycode, group, level⟩ else none

/-- The character is reached as it is typed: the active group is the one in which
the character was found, and needs no more than Shift there, or it comes after
that one and has the character at the same of the two levels. -/
def Reaches (actions : Nat → OutOfRangeGroup) (active character : Nat) (place : Place) : Prop :=
  let group := keymap.activeGroup actions active place.keycode
  (group = place.group ∧ place.level ≤ 1) ∨
    (place.group < group ∧ character ∈ keymap.entry place.keycode group (if place.level = 1 then 1 else 0))

instance (actions : Nat → OutOfRangeGroup) (active character : Nat) (place : Place) :
    Decidable (keymap.Reaches actions active character place) :=
  inferInstanceAs (Decidable (_ ∨ _))

variable {keymap}

/-- The mapping of a character is made at its first place. -/
theorem lookup_build {character : Nat} (positive : 0 < character) (basic : character ≤ 0xFFFF) :
    (buildUnicodeToKeycode keymap).lookup character =
      (keymap.firstPlace character).map fun place => ⟨place.keycode - xkbKeycodeOffset, place.level = 1⟩ := by
  unfold buildUnicodeToKeycode firstPlace
  rw [lookup_flatMap, List.map_findSome?]
  refine congrArg keymap.keys.findSome? (funext fun ⟨keycode, layouts⟩ => ?_)
  rw [lookup_flatMap, Function.comp_apply, List.map_findSome?, ← findSome_zipIdx_fst]
  refine congrArg layouts.zipIdx.findSome? (funext fun ⟨levels, group⟩ => ?_)
  rw [lookup_flatMap, Function.comp_apply, List.map_findSome?]
  refine congrArg levels.zipIdx.findSome? (funext fun ⟨characters, level⟩ => ?_)
  have member : character ∈ (characters.filter fun other => 0 < other ∧ other ≤ 0xFFFF) ↔ character ∈ characters := by
    rw [List.mem_filter]
    simp [positive, basic]
  dsimp only [Function.comp_apply]
  rw [lookup_const]
  by_cases here : character ∈ characters
  · rw [if_pos (member.mpr here), if_pos here, Option.map_some]
  · rw [if_neg fun kept => here (member.mp kept), if_neg here, Option.map_none]

/-- Only the characters of the basic plane have a mapping. -/
theorem lookup_basic {character : Nat} {mapping : UnicodeKeyMapping}
    (mapped : (buildUnicodeToKeycode keymap).lookup character = some mapping) :
    0 < character ∧ character ≤ 0xFFFF := by
  have listed := List.mem_of_lookup mapped
  unfold buildUnicodeToKeycode at listed
  obtain ⟨key, _, listed⟩ := List.mem_flatMap.mp listed
  obtain ⟨levels, _, listed⟩ := List.mem_flatMap.mp listed
  obtain ⟨characters, _, listed⟩ := List.mem_flatMap.mp listed
  obtain ⟨other, kept, same⟩ := List.mem_map.mp listed
  cases same
  simpa using (List.mem_filter.mp kept).2

/-- What a first place says of its key: the character is there, and at no earlier level of that key. -/
structure First (keymap : XkbKeymap Xkb) (character : Nat) (place : Place) : Prop where
  offset : xkbKeycodeOffset ≤ place.keycode
  there : character ∈ keymap.entry place.keycode place.group place.level
  least : ∀ group level, character ∈ keymap.entry place.keycode group level →
    place.group < group ∨ (group = place.group ∧ place.level ≤ level)

theorem groups_of_mem (proper : keymap.Proper) {keycode : Nat} {layouts : List (List (List Nat))}
    (listed : (keycode, layouts) ∈ keymap.keys) : keymap.groups keycode = layouts := by
  unfold groups
  cases found : keymap.keys.lookup keycode with
  | none =>
    have absent := List.lookup_eq_none_iff.mp found _ listed
    simp at absent
  | some other =>
    have same := List.inj_on_of_nodup_map proper.distinct (List.mem_of_lookup found) listed rfl
    cases same
    rfl

theorem mem_getD_nil {α : Type} {items : Option (List α)} {item : α} (listed : item ∈ items.getD []) :
    ∃ list, items = some list ∧ item ∈ list := by
  cases items with
  | none => simp at listed
  | some list => exact ⟨list, rfl, listed⟩

theorem firstPlace_first (proper : keymap.Proper) {character : Nat} {place : Place}
    (found : keymap.firstPlace character = some place) : First keymap character place := by
  obtain ⟨⟨keycode, layouts⟩, listed, inKey⟩ := List.exists_of_findSome?_eq_some found
  obtain ⟨group, levels, atGroup, inGroup, noGroup⟩ := findSome_zipIdx inKey
  obtain ⟨level, characters, atLevel, here, noLevel⟩ := findSome_zipIdx inGroup
  obtain ⟨member, same⟩ := Option.ite_none_right_eq_some.mp here
  have groups := groups_of_mem proper listed
  cases same
  refine ⟨proper.offset _ listed, ?_, fun otherGroup otherLevel other => ?_⟩
  · unfold entry
    rw [groups, atGroup, Option.getD_some, atLevel, Option.getD_some]
    exact member
  · unfold entry at other
    dsimp only at other ⊢
    rw [groups] at other
    obtain ⟨others, atOther, other⟩ := mem_getD_nil other
    have inGroup : ∃ otherLevels, layouts[otherGroup]? = some otherLevels ∧ otherLevels[otherLevel]? = some others := by
      cases atOtherGroup : layouts[otherGroup]? with
      | none =>
        rw [atOtherGroup] at atOther
        simp at atOther
      | some otherLevels =>
        rw [atOtherGroup, Option.getD_some] at atOther
        exact ⟨otherLevels, rfl, atOther⟩
    obtain ⟨otherLevels, atOtherGroup, atOther⟩ := inGroup
    rcases Nat.lt_trichotomy otherGroup group with before | rfl | after
    · have missed := List.findSome?_eq_none_iff.mp (noGroup otherGroup before otherLevels atOtherGroup) _
        (List.mk_mem_zipIdx_iff_getElem?.mpr atOther)
      exact absurd ((if_pos other).symm.trans missed) (Option.some_ne_none _)
    · rw [atGroup] at atOtherGroup
      cases atOtherGroup
      refine .inr ⟨rfl, Nat.le_of_not_lt fun before => ?_⟩
      have missed := noLevel otherLevel before others atOther
      exact absurd ((if_pos other).symm.trans missed) (Option.some_ne_none _)
    · exact .inl after

end XkbKeymap

namespace InputActor

variable {Xkb : Type} {api : XkbApi Xkb} {s t u : InputActor Xkb}

/-- The keymap in use, and the mappings of its characters, are as they were. -/
structure SameKeymap (s t : InputActor Xkb) : Prop where
  data : t.keymapData = s.keymapData
  table : t.tracker.unicodeToKeycode = s.tracker.unicodeToKeycode

theorem SameKeymap.trans (first : SameKeymap s t) (second : SameKeymap t u) : SameKeymap s u :=
  ⟨second.data.trans first.data, second.table.trans first.table⟩

theorem SameKeymap.of_depressed {depressed : DepressedKeys} (same : SameKeymap { s with depressed } t) : SameKeymap s t :=
  ⟨same.data, same.table⟩

theorem transition_sameKeymap (s : InputActor Xkb) (evdevKey : Nat) (pressed : Bool) :
    SameKeymap s (s.transition api evdevKey pressed) := by
  unfold transition
  dsimp only
  split <;> exact ⟨rfl, rfl⟩

theorem releaseDepressed_sameKeymap (s : InputActor Xkb) : SameKeymap s (s.releaseDepressed api) := by
  have released : ∀ (keys : List Nat) (s : InputActor Xkb),
      SameKeymap s (keys.foldl (fun t evdevKey => t.releaseKey api evdevKey) s) := by
    intro keys
    induction keys with
    | nil => exact fun _ => ⟨rfl, rfl⟩
    | cons key rest ih =>
      intro s
      have first : SameKeymap s (s.releaseKey api key) := ⟨rfl, rfl⟩
      exact first.trans (ih _)
  have all := released s.depressed.releaseAll s
  exact ⟨all.data, all.table⟩

theorem releaseHeldKeys_sameKeymap (s : InputActor Xkb) : SameKeymap s (s.releaseHeldKeys api) := by
  unfold releaseHeldKeys
  split
  · exact ⟨rfl, rfl⟩
  · have released := @releaseDepressed_sameKeymap _ api s
    exact ⟨released.data, released.table⟩

theorem applyLatchedLocked_table (t : KeyboardStateTracker Xkb) (affect locked : Nat) (group : Option Nat) :
    (t.applyLatchedLocked api affect locked group).unicodeToKeycode = t.unicodeToKeycode := by
  unfold KeyboardStateTracker.applyLatchedLocked
  split <;> rfl

theorem synchronizeLocks_table (t : KeyboardStateTracker Xkb) (flags : SynchronizeFlags) :
    (t.synchronizeLocks api flags).unicodeToKeycode = t.unicodeToKeycode := by
  unfold KeyboardStateTracker.synchronizeLocks
  dsimp only
  split
  · exact applyLatchedLocked_table _ _ _ _
  · generalize (t.modifierState api).locked = before
    generalize [(t.capsLockMask, keyCapslock), (t.numLockMask, keyNumlock), (t.scrollLockMask, keyScrolllock),
      (t.kanaLockMask, keyKatakanahiragana)] = locks
    generalize t.lockedModsFromFlags flags = target
    -- a lock that is toggled by its key leaves the table alone
    induction locks generalizing t with
    | nil => rfl
    | cons lock rest ih =>
      rw [List.foldl_cons, ih]
      split <;> rfl

theorem setLockedGroup_sameKeymap (s : InputActor Xkb) (group : Nat) : SameKeymap s (s.setLockedGroup api group) := by
  have table := @applyLatchedLocked_table _ api s.tracker 0 0 (some group)
  unfold setLockedGroup
  dsimp only
  split <;> exact ⟨rfl, table⟩

theorem pressShift_sameKeymap (s : InputActor Xkb) (codePoint : Nat) : SameKeymap s (s.pressShift api codePoint) := by
  unfold pressShift
  dsimp only
  split
  · exact ⟨rfl, rfl⟩
  · exact (transition_sameKeymap _ _ _).of_depressed

theorem releaseShift_sameKeymap (s : InputActor Xkb) (codePoint : Nat) : SameKeymap s (s.releaseShift api codePoint) := by
  unfold releaseShift
  dsimp only
  split
  · exact (transition_sameKeymap _ _ _).of_depressed
  · exact ⟨rfl, rfl⟩

theorem handleRdpEvent_sameKeymap (s : InputActor Xkb) (event : KeyboardEvent) :
    SameKeymap s (s.handleRdpEvent api event) := by
  cases event with
  | pressed code extended =>
    show SameKeymap s (s.onPressed api code extended)
    unfold onPressed
    split
    · exact ⟨rfl, rfl⟩
    · split
      · exact ⟨rfl, rfl⟩
      · dsimp only
        split
        · exact ⟨rfl, rfl⟩
        · exact (transition_sameKeymap _ _ _).of_depressed
  | released code extended =>
    show SameKeymap s (s.onReleased api code extended)
    unfold onReleased
    split
    · exact ⟨rfl, rfl⟩
    · split
      · exact ⟨rfl, rfl⟩
      · dsimp only
        split
        · exact ⟨rfl, rfl⟩
        · exact (transition_sameKeymap _ _ _).of_depressed
  | synchronize flags =>
    have released := @releaseDepressed_sameKeymap _ api s
    have locked := @synchronizeLocks_table _ api (s.releaseDepressed api).tracker flags
    exact ⟨released.data, locked.trans released.table⟩
  | unicodePressed codePoint =>
    show SameKeymap s (s.onUnicodePressed api codePoint)
    unfold onUnicodePressed
    split
    · exact ⟨rfl, rfl⟩
    · dsimp only
      split
      · have shifted := @pressShift_sameKeymap _ api s codePoint
        exact ⟨shifted.data, shifted.table⟩
      · exact ⟨rfl, rfl⟩
  | unicodeReleased codePoint =>
    show SameKeymap s (s.onUnicodeReleased api codePoint)
    unfold onUnicodeReleased
    split
    · exact ⟨rfl, rfl⟩
    · dsimp only
      split
      · have shifted := @releaseShift_sameKeymap _ api
        exact ⟨(shifted _ _).data, (shifted _ _).table⟩
      · exact ⟨rfl, rfl⟩

/-- The mappings are those of the keymap in use. -/
def Built (api : XkbApi Xkb) (s : InputActor Xkb) : Prop :=
  ∃ keymap, api.compile s.keymapData = some keymap ∧ s.tracker.unicodeToKeycode = buildUnicodeToKeycode keymap

theorem Built.same (built : s.Built api) (same : SameKeymap s t) : t.Built api := by
  obtain ⟨keymap, compiled, table⟩ := built
  exact ⟨keymap, same.data ▸ compiled, same.table.trans table⟩

theorem handleCommand_built (built : s.Built api) (command : InputCommand) : (s.handleCommand api command).Built api := by
  cases command with
  | keyboard event => exact built.same (s.handleRdpEvent_sameKeymap event)
  | mouse => exact built
  | releaseHeldKeys => exact built.same s.releaseHeldKeys_sameKeymap
  | applyKeymap keymapData taken =>
    show (s.applyKeymap api keymapData taken).Built api
    unfold applyKeymap
    split
    · exact built
    · rename_i keymap compiled
      split
      · exact built
      · exact ⟨keymap, compiled, rfl⟩
  | setLockedLayout layoutName fromOwnKeyboard taken =>
    show (s.setLockedLayout api layoutName fromOwnKeyboard taken).Built api
    unfold setLockedLayout
    split
    · unfold handleOwnLayoutEvent
      split
      · split
        · exact built
        · exact built.same ⟨rfl, rfl⟩
      · split
        · exact built.same ⟨rfl, rfl⟩
        · exact built
    · split
      · exact built
      · exact built.same (s.setLockedGroup_sameKeymap _)
  | setInitialLayout main others =>
    dsimp only [handleCommand]
    split
    · exact built
    · exact built.same (s.setLockedGroup_sameKeymap _)
  | shutdown =>
    have released := @releaseHeldKeys_sameKeymap _ api s
    exact built.same ⟨released.data, released.table⟩

theorem reach_built (reach : (runs api).Reach s) : s.Built api := by
  have keep : (runs api).Inductive (Built api) := by
    refine ⟨?_, ?_⟩
    · rintro s ⟨keymapData, keymap, compiled, rfl⟩
      exact ⟨keymap, compiled, rfl⟩
    · intro s command t built step
      obtain ⟨_, same⟩ := Option.ite_none_right_eq_some.mp step
      cases same
      exact handleCommand_built built command
  exact keep.reach reach

/-- No modifier is held, for a key of its own or for a character. -/
structure Unmodified (s : InputActor Xkb) : Prop where
  modifiers : s.depressed.modifiers = []
  owners : s.depressed.unicodeShiftOwners = []
  shift : s.requests.level leftShiftKey = false

/-- The keys that a character is typed with. -/
theorem unicodePressed_requests (unmodified : s.Unmodified) {character : Nat} {mapping : UnicodeKeyMapping}
    (mapped : s.tracker.unicodeToEvdev character = some mapping) :
    ∃ before : SwitchLog Nat, before.level leftShiftKey = mapping.needsShift ∧
      (s.handleRdpEvent api (.unicodePressed character)).requests = before ++ [(mapping.evdevKey, true)] := by
  have pressed : s.handleRdpEvent api (.unicodePressed character) = s.onUnicodePressed api character := rfl
  rw [pressed]
  unfold onUnicodePressed
  rw [mapped]
  dsimp only
  by_cases shifted : mapping.needsShift = true
  · have inactive :
        ¬ (s.depressed.holdsModifier leftShiftKey = true ∨ s.depressed.unicodeShiftOwners.isEmpty = false) := by
      rw [DepressedKeys.holdsModifier_iff, DepressedKeys.owned_iff, unmodified.modifiers, unmodified.owners]
      simp
    have shift : (s.pressShift api character).requests = s.requests ++ [(leftShiftKey, true)] := by
      unfold pressShift
      dsimp only
      rw [if_neg inactive]
      exact (transition_moves _ _ _).requests
    refine ⟨(s.pressShift api character).requests, ?_, ?_⟩
    · rw [shift, SwitchLog.level_concat, if_pos rfl, shifted]
    · rw [if_pos shifted]
      exact sinkKey_requests _ _ _
  · refine ⟨s.requests, ?_, ?_⟩
    · rw [unmodified.shift, (Bool.not_eq_true _).mp shifted]
    · rw [if_neg shifted]
      exact sinkKey_requests _ _ _

end InputActor

theorem XkbKeymap.selected_concat {Xkb : Type} (keymap : XkbKeymap Xkb) (actions : Nat → OutOfRangeGroup)
    (active evdevKey : Nat) (before : SwitchLog Nat) :
    keymap.selected actions active (before ++ [(evdevKey, true)]) =
      keymap.entry (evdevKey + xkbKeycodeOffset) (keymap.activeGroup actions active (evdevKey + xkbKeycodeOffset))
        (if before.level leftShiftKey then 1 else 0) := by
  unfold selected
  rw [List.getLast?_concat, List.dropLast_concat]

/-- What the first place says of the entry that its mapping selects. -/
theorem XkbKeymap.First.reaches_iff {Xkb : Type} {keymap : XkbKeymap Xkb} {character : Nat} {place : Place}
    (first : First keymap character place) (actions : Nat → OutOfRangeGroup) (active : Nat) :
    character ∈ keymap.entry place.keycode (keymap.activeGroup actions active place.keycode)
        (if place.level = 1 then 1 else 0) ↔ keymap.Reaches actions active character place := by
  unfold Reaches
  dsimp only
  generalize keymap.activeGroup actions active place.keycode = group
  constructor
  · intro listed
    rcases first.least group _ listed with after | ⟨same, level⟩
    · exact .inr ⟨after, listed⟩
    · refine .inl ⟨same, ?_⟩
      split at level <;> omega
  · rintro (⟨same, level⟩ | ⟨_, listed⟩)
    · have there := first.there
      have kept : (if place.level = 1 then 1 else 0) = place.level := by
        split <;> omega
      rw [same, kept]
      exact there
    · exact listed

namespace InputActor

variable {Xkb : Type} {api : XkbApi Xkb} {s : InputActor Xkb} {keymap : XkbKeymap Xkb} {character : Nat}
  {mapping : UnicodeKeyMapping}

/-- A character is typed as itself exactly when the active group reaches its first place. -/
theorem unicode_types_itself (reach : (runs api).Reach s) (compiled : api.compile s.keymapData = some keymap)
    (proper : keymap.Proper) (unmodified : s.Unmodified) (mapped : s.tracker.unicodeToEvdev character = some mapping)
    (actions : Nat → OutOfRangeGroup) (active : Nat) :
    character ∈ keymap.selected actions active (s.handleRdpEvent api (.unicodePressed character)).requests ↔
      ∃ place, keymap.firstPlace character = some place ∧ keymap.Reaches actions active character place := by
  obtain ⟨other, compiledOther, table⟩ := reach_built reach
  have same : other = keymap := Option.some.inj (compiledOther.symm.trans compiled)
  have inTable : (buildUnicodeToKeycode keymap).lookup character = some mapping := by
    rw [← same, ← table]
    exact mapped
  obtain ⟨positive, basic⟩ := XkbKeymap.lookup_basic inTable
  have made := inTable
  rw [XkbKeymap.lookup_build positive basic] at made
  obtain ⟨place, found, rfl⟩ := Option.map_eq_some_iff.mp made
  have first := XkbKeymap.firstPlace_first proper found
  obtain ⟨before, shift, requests⟩ := @unicodePressed_requests _ api _ unmodified _ _ mapped
  rw [requests, keymap.selected_concat, shift, Nat.sub_add_cancel first.offset]
  have selects := first.reaches_iff actions active
  simp only [decide_eq_true_eq] at selects ⊢
  rw [selects, found]
  exact ⟨fun reaches => ⟨place, rfl, reaches⟩, fun ⟨_, same, reaches⟩ => Option.some.inj same ▸ reaches⟩

/-- Two keys of the German layout: q with @ on its third level, and w. -/
def germanKeymap : XkbKeymap Unit := ⟨[(24, [[[113], [81], [64]]]), (25, [[[119], [87]]])], ["German"], ()⟩

/-- A keyboard that knows no other keymap. -/
def germanKeyboard : XkbApi Unit where
  compile _ := some germanKeymap
  updateKey _ _ _ := ()
  modifierState _ := ⟨0, 0, 0, 0⟩
  updateLatchedLocked := none

theorem germanKeymap_proper : germanKeymap.Proper := ⟨by decide, by decide⟩

theorem german_reach : (runs germanKeyboard).Reach (start germanKeyboard [] germanKeymap) :=
  .start ⟨[], germanKeymap, rfl, rfl⟩

/-- The character @ is typed as q. -/
theorem at_sign_typed_as_q : ∃ s, (runs germanKeyboard).Reach s ∧ germanKeyboard.compile s.keymapData = some germanKeymap ∧
    germanKeymap.Proper ∧ s.Unmodified ∧ (s.tracker.unicodeToEvdev 64).isSome ∧
    germanKeymap.selected (fun _ => .wrap) 0 (s.handleRdpEvent germanKeyboard (.unicodePressed 64)).requests = [113] ∧
    64 ∉ germanKeymap.selected (fun _ => .wrap) 0 (s.handleRdpEvent germanKeyboard (.unicodePressed 64)).requests :=
  ⟨_, german_reach, rfl, germanKeymap_proper, ⟨rfl, rfl, rfl⟩, by decide, by decide, by decide⟩

theorem unicode_types_itself_shifted :
    87 ∈ germanKeymap.selected (fun _ => .wrap) 0
      ((start germanKeyboard [] germanKeymap).handleRdpEvent germanKeyboard (.unicodePressed 87)).requests := by
  have mapped : (start germanKeyboard [] germanKeymap).tracker.unicodeToEvdev 87 = some ⟨17, true⟩ := by decide
  refine (unicode_types_itself german_reach rfl germanKeymap_proper ⟨rfl, rfl, rfl⟩ mapped (fun _ => .wrap) 0).mpr ?_
  exact ⟨⟨25, 0, 1⟩, by decide, by decide⟩

end InputActor

end HyprRdp
