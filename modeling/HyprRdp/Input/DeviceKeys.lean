import HyprRdp.Input.HeldKeys

namespace HyprRdp

namespace InputActor

open DepressedKeys

variable {Xkb : Type} {api : XkbApi Xkb} {s t : InputActor Xkb}

/-- The tracked keys are those that are down on the device, and the device knows the modifiers. -/
structure InStep (api : XkbApi Xkb) (s : InputActor Xkb) : Prop where
  tracks : s.depressed.Tracks s.requests
  announced : s.announced = s.tracker.modifierState api

/-- No modifier key that a character is typed on has another owner besides: the character is pressed
when the key is up and released when it is down, and until then nothing else presses the key. -/
def Unshared (s : InputActor Xkb) : InputCommand → Prop
  | .keyboard (.pressed code extended) =>
    ∀ evdevKey ∈ xtToEvdev code extended, isModifier evdevKey = true → evdevKey ∉ s.depressed.plain
  | .keyboard (.unicodePressed codePoint) =>
    ∀ mapping ∈ s.tracker.unicodeToEvdev codePoint,
      (isModifier mapping.evdevKey = true → ¬ s.depressed.Holds mapping.evdevKey ∧
        (mapping.evdevKey = leftShiftKey → mapping.needsShift = false)) ∧
      (mapping.needsShift = true → leftShiftKey ∉ s.depressed.plain)
  | .keyboard (.unicodeReleased codePoint) =>
    ∀ mapping ∈ s.tracker.unicodeToEvdev codePoint, isModifier mapping.evdevKey = true → mapping.evdevKey ∈ s.depressed.plain
  | _ => True

instance (s : InputActor Xkb) : DecidablePred s.Unshared
  | .keyboard (.pressed code extended) =>
    inferInstanceAs (Decidable (∀ evdevKey ∈ xtToEvdev code extended, isModifier evdevKey = true → evdevKey ∉ s.depressed.plain))
  | .keyboard (.unicodePressed codePoint) =>
    inferInstanceAs (Decidable (∀ mapping ∈ s.tracker.unicodeToEvdev codePoint,
      (isModifier mapping.evdevKey = true → ¬ s.depressed.Holds mapping.evdevKey ∧
        (mapping.evdevKey = leftShiftKey → mapping.needsShift = false)) ∧
      (mapping.needsShift = true → leftShiftKey ∉ s.depressed.plain)))
  | .keyboard (.unicodeReleased codePoint) =>
    inferInstanceAs (Decidable (∀ mapping ∈ s.tracker.unicodeToEvdev codePoint,
      isModifier mapping.evdevKey = true → mapping.evdevKey ∈ s.depressed.plain))
  | .keyboard (.released _ _) | .keyboard (.synchronize _) | .mouse | .releaseHeldKeys | .applyKeymap _ _
  | .setLockedLayout _ _ _ | .setInitialLayout _ _ | .shutdown => inferInstanceAs (Decidable True)

theorem record_requests (s : InputActor Xkb) (event : ActorEvent) :
    (s.record event).requests = s.requests ++ event.sentKey.toList := by
  unfold requests record
  rw [List.filterMap_append]
  cases event <;> rfl

theorem sinkKey_requests (s : InputActor Xkb) (evdevKey : Nat) (pressed : Bool) :
    (s.sinkKey evdevKey pressed).requests = s.requests ++ [(evdevKey, pressed)] := s.record_requests _

theorem trackerKey_requests (s : InputActor Xkb) (evdevKey : Nat) (pressed : Bool) :
    (s.trackerKey api evdevKey pressed).requests = s.requests :=
  (s.record_requests (.fed evdevKey pressed)).trans (List.append_nil _)

theorem InStep.with_depressed (inStep : s.InStep api) {depressed : DepressedKeys} (tracks : depressed.Tracks s.requests) :
    InStep api { s with depressed } := ⟨tracks, inStep.announced⟩

/-- One key request, fed through the replica as well. -/
structure Moves (api : XkbApi Xkb) (s t : InputActor Xkb) (evdevKey : Nat) (pressed : Bool) : Prop where
  requests : t.requests = s.requests ++ [(evdevKey, pressed)]
  depressed : t.depressed = s.depressed
  tracker : t.tracker = s.tracker.key api evdevKey pressed
  announced : s.announced = s.tracker.modifierState api → t.announced = t.tracker.modifierState api

theorem transition_moves (s : InputActor Xkb) (evdevKey : Nat) (pressed : Bool) :
    Moves api s (s.transition api evdevKey pressed) evdevKey pressed := by
  have requests : ((s.sinkKey evdevKey pressed).trackerKey api evdevKey pressed).requests =
      s.requests ++ [(evdevKey, pressed)] := (trackerKey_requests _ _ _).trans (s.sinkKey_requests _ _)
  unfold transition
  dsimp only
  split
  · exact ⟨requests, rfl, rfl, fun _ => rfl⟩
  · rename_i same
    exact ⟨requests, rfl, rfl, fun announced => announced.trans (not_not.mp same).symm⟩

/-- A key is sent once the owners are rewritten. -/
theorem InStep.transition (inStep : s.InStep api) {depressed : DepressedKeys} {evdevKey : Nat} {pressed : Bool}
    (tracks : depressed.Tracks (s.requests ++ [(evdevKey, pressed)])) :
    InStep api (({ s with depressed } : InputActor Xkb).transition api evdevKey pressed) := by
  have moves : Moves api { s with depressed } (({ s with depressed } : InputActor Xkb).transition api evdevKey pressed) evdevKey
    pressed := transition_moves _ _ _
  refine ⟨?_, moves.announced inStep.announced⟩
  rw [moves.depressed, moves.requests]
  exact tracks

theorem onPressed_inStep (inStep : s.InStep api) (code : Nat) (extended : Bool)
    (unshared : s.Unshared (.keyboard (.pressed code extended))) : (s.onPressed api code extended).InStep api := by
  have separate := inStep.tracks.separate
  unfold onPressed
  cases found : xtToEvdev code extended with
  | none => exact inStep
  | some key =>
    have apart : isModifier key = true → key ∉ s.depressed.plain := unshared key found
    dsimp only
    split
    · exact inStep
    · rename_i fresh
      have notHeld : isModifier key = true → key ∉ s.depressed.modifiers :=
        fun modifier held => fresh ⟨modifier, holdsModifier_iff.mpr held⟩
      have pressed : (s.depressed.press key (isModifier key)).Separate := by
        cases modifier : isModifier key with
        | true => exact separate.pressModifier modifier (apart modifier)
        | false => exact separate.pressPlain fun isModifier => by rw [modifier] at isModifier; cases isModifier
      split
      · rename_i owned
        refine inStep.with_depressed (inStep.tracks.silent pressed fun other => ?_)
        rw [press_holds]
        refine ⟨fun either => either.elim id fun same => ?_, .inl⟩
        exact .inr (.inr ⟨same.trans owned.1, owned_iff.mp owned.2⟩)
      · rename_i unowned
        refine inStep.transition (inStep.tracks.sent pressed (fun other => ?_) fun modifier => ?_)
        · rw [press_holds]
          split
          · rename_i same
            exact ⟨fun _ => rfl, fun _ => .inr same.symm⟩
          · rename_i different
            exact ⟨fun either => either.resolve_right fun same => different same.symm, .inl⟩
        · refine ⟨fun held => ?_, Bool.noConfusion⟩
          rcases held with plain | held | ⟨shift, owned⟩
          · exact absurd plain (apart modifier)
          · exact absurd held (notHeld modifier)
          · exact absurd ⟨shift, owned_iff.mpr owned⟩ unowned

theorem onReleased_inStep (inStep : s.InStep api) (code : Nat) (extended : Bool) :
    (s.onReleased api code extended).InStep api := by
  have separate := inStep.tracks.separate
  unfold onReleased
  cases xtToEvdev code extended with
  | none => exact inStep
  | some key =>
    dsimp only
    split
    · exact inStep
    · rename_i held
      have released : (s.depressed.release key (isModifier key)).Separate := separate.release key (isModifier key)
      have owns : if isModifier key = true then key ∈ s.depressed.modifiers
          else isModifier key = true → key ∈ s.depressed.plain := by
        split
        · rename_i modifier
          exact holdsModifier_iff.mp (Bool.of_not_eq_false fun notHeld => held ⟨modifier, notHeld⟩)
        · rename_i plain
          exact fun modifier => absurd modifier plain
      split
      · rename_i owned
        obtain ⟨rfl, owned⟩ := owned
        have owned := owned_iff.mp owned
        refine inStep.with_depressed (inStep.tracks.silent released fun other => ?_)
        unfold DepressedKeys.Holds DepressedKeys.release
        rw [if_pos leftShiftKey_modifier]
        simp only [mem_retainOthers]
        constructor
        · rintro (plain | ⟨modifier, _⟩ | shift)
          · exact .inl plain
          · exact .inr (.inl modifier)
          · exact .inr (.inr shift)
        · rintro (plain | modifier | shift)
          · exact .inl plain
          · by_cases same : other = leftShiftKey
            · exact .inr (.inr ⟨same, owned⟩)
            · exact .inr (.inl ⟨modifier, same⟩)
          · exact .inr (.inr shift)
      · rename_i unowned
        have free : key = leftShiftKey → s.depressed.unicodeShiftOwners = [] := by
          intro shift
          by_contra owned
          exact unowned ⟨shift, owned_iff.mpr owned⟩
        refine inStep.transition (inStep.tracks.sent released (fun other => ?_) fun modifier => ?_)
        · rw [release_holds separate owns other free]
          split
          · rename_i same
            exact ⟨fun both => absurd same.symm both.2, Bool.noConfusion⟩
          · rename_i different
            exact ⟨And.left, fun holds => ⟨holds, fun same => different same.symm⟩⟩
        · rw [if_pos modifier] at owns
          exact ⟨fun _ => rfl, fun _ => .inr (.inl owns)⟩

theorem pressShift_inStep (inStep : s.InStep api) (free : leftShiftKey ∉ s.depressed.plain) (codePoint : Nat) :
    (s.pressShift api codePoint).InStep api ∧
      (s.pressShift api codePoint).depressed = s.depressed.pressUnicodeShift codePoint := by
  have separate := inStep.tracks.separate.pressUnicodeShift free codePoint
  unfold pressShift
  dsimp only
  split
  · rename_i active
    refine ⟨inStep.with_depressed (inStep.tracks.silent separate fun other => ?_), rfl⟩
    rw [pressUnicodeShift_holds]
    refine ⟨fun either => either.elim id ?_, .inl⟩
    rintro rfl
    exact .inr (active.imp holdsModifier_iff.mp fun owned => ⟨rfl, owned_iff.mp owned⟩)
  · rename_i inactive
    refine ⟨inStep.transition (inStep.tracks.sent separate (fun other => ?_) fun _ => ?_), (transition_moves _ _ _).depressed⟩
    · rw [pressUnicodeShift_holds]
      split
      · rename_i same
        exact ⟨fun _ => rfl, fun _ => .inr same.symm⟩
      · rename_i different
        exact ⟨fun either => either.resolve_right fun same => different same.symm, .inl⟩
    · refine ⟨fun held => ?_, Bool.noConfusion⟩
      rcases held with plain | modifier | ⟨_, owned⟩
      · exact absurd plain free
      · exact absurd (.inl (holdsModifier_iff.mpr modifier)) inactive
      · exact absurd (.inr (owned_iff.mpr owned)) inactive

theorem releaseShift_inStep (inStep : s.InStep api) (codePoint : Nat) : (s.releaseShift api codePoint).InStep api := by
  have separate := inStep.tracks.separate.releaseUnicodeShift codePoint
  unfold releaseShift
  dsimp only
  cases owned : (s.depressed.releaseUnicodeShift codePoint).2 with
  | false =>
    rw [if_neg (fun all => Bool.false_ne_true all.1), releaseUnicodeShift_unowned owned]
    exact inStep
  | true =>
    have owners := releaseUnicodeShift_owned owned
    split
    · rename_i last
      have empty : (s.depressed.releaseUnicodeShift codePoint).1.unicodeShiftOwners = [] := List.isEmpty_iff.mp last.2.1
      have notHeld : leftShiftKey ∉ s.depressed.modifiers := by
        intro held
        have holds : (s.depressed.releaseUnicodeShift codePoint).1.holdsModifier leftShiftKey = true := holdsModifier_iff.mpr held
        rw [last.2.2] at holds
        cases holds
      refine inStep.transition (inStep.tracks.sent separate (fun other => ?_) fun _ => ⟨fun _ => rfl, fun _ => ?_⟩)
      · split
        · rename_i same
          refine ⟨fun holds => ?_, Bool.noConfusion⟩
          subst same
          rcases holds with plain | modifier | ⟨_, still⟩
          · exact absurd plain (inStep.tracks.separate.shift owners)
          · exact absurd modifier notHeld
          · exact absurd empty still
        · rename_i different
          constructor
          · rintro (plain | modifier | ⟨same, _⟩)
            · exact .inl plain
            · exact .inr (.inl modifier)
            · exact absurd same.symm different
          · rintro (plain | modifier | ⟨same, _⟩)
            · exact .inl plain
            · exact .inr (.inl modifier)
            · exact absurd same.symm different
      · exact .inr (.inr ⟨rfl, owners⟩)
    · rename_i more
      refine inStep.with_depressed (inStep.tracks.silent separate fun other => ?_)
      constructor
      · rintro (plain | modifier | ⟨same, _⟩)
        · exact .inl plain
        · exact .inr (.inl modifier)
        · exact .inr (.inr ⟨same, owners⟩)
      · rintro (plain | modifier | ⟨same, _⟩)
        · exact .inl plain
        · exact .inr (.inl modifier)
        · by_cases empty : (s.depressed.releaseUnicodeShift codePoint).1.unicodeShiftOwners = []
          · have held : (s.depressed.releaseUnicodeShift codePoint).1.holdsModifier leftShiftKey = true :=
              Bool.of_not_eq_false fun notHeld => more ⟨rfl, List.isEmpty_iff.mpr empty, notHeld⟩
            exact .inr (.inl (same ▸ holdsModifier_iff.mp held))
          · exact .inr (.inr ⟨same, empty⟩)

theorem onUnicodePressed_inStep (inStep : s.InStep api) (codePoint : Nat)
    (unshared : s.Unshared (.keyboard (.unicodePressed codePoint))) : (s.onUnicodePressed api codePoint).InStep api := by
  unfold onUnicodePressed
  cases found : s.tracker.unicodeToEvdev codePoint with
  | none => exact inStep
  | some mapping =>
    obtain ⟨alone, free⟩ := unshared mapping found
    have shifted : ∃ t, (if mapping.needsShift then s.pressShift api codePoint else s) = t ∧ t.InStep api ∧
        (isModifier mapping.evdevKey = true → ¬ t.depressed.Holds mapping.evdevKey) := by
      refine ⟨_, rfl, ?_⟩
      split
      · rename_i shift
        obtain ⟨stays, depressed⟩ := pressShift_inStep inStep (free shift) codePoint
        refine ⟨stays, fun modifier held => ?_⟩
        rw [depressed, pressUnicodeShift_holds] at held
        rcases held with held | same
        · exact (alone modifier).1 held
        · rw [(alone modifier).2 same] at shift
          cases shift
      · exact ⟨inStep, fun modifier => (alone modifier).1⟩
    obtain ⟨t, same, stays, apart⟩ := shifted
    dsimp only
    rw [same]
    have separate : (t.depressed.press mapping.evdevKey false).Separate := by
      refine stays.tracks.separate.pressPlain fun modifier => ⟨fun held => apart modifier (.inr (.inl held)), fun shift => ?_⟩
      by_contra owned
      exact apart modifier (.inr (.inr ⟨shift, owned⟩))
    refine ⟨?_, stays.announced⟩
    show (t.depressed.press mapping.evdevKey false).Tracks (t.sinkKey mapping.evdevKey true).requests
    rw [sinkKey_requests]
    refine stays.tracks.sent separate (fun other => ?_) fun modifier => ⟨fun held => absurd held (apart modifier), Bool.noConfusion⟩
    rw [press_holds]
    split
    · rename_i same
      exact ⟨fun _ => rfl, fun _ => .inr same.symm⟩
    · rename_i different
      exact ⟨fun either => either.resolve_right fun same => different same.symm, .inl⟩

theorem onUnicodeReleased_inStep (inStep : s.InStep api) (codePoint : Nat)
    (unshared : s.Unshared (.keyboard (.unicodeReleased codePoint))) : (s.onUnicodeReleased api codePoint).InStep api := by
  unfold onUnicodeReleased
  cases found : s.tracker.unicodeToEvdev codePoint with
  | none => exact inStep
  | some mapping =>
    have typed : isModifier mapping.evdevKey = true → mapping.evdevKey ∈ s.depressed.plain := unshared mapping found
    have separate := inStep.tracks.separate
    have free : mapping.evdevKey = leftShiftKey → s.depressed.unicodeShiftOwners = [] := by
      intro shift
      have modifier : isModifier mapping.evdevKey = true := shift ▸ leftShiftKey_modifier
      exact (separate.plain _ (typed modifier) modifier).2 shift
    have released : InStep api
        { s.sinkKey mapping.evdevKey false with depressed := s.depressed.release mapping.evdevKey false } := by
      refine ⟨?_, inStep.announced⟩
      show (s.depressed.release mapping.evdevKey false).Tracks (s.sinkKey mapping.evdevKey false).requests
      rw [sinkKey_requests]
      refine inStep.tracks.sent (separate.release mapping.evdevKey false) (fun other => ?_)
        fun modifier => ⟨fun _ => rfl, fun _ => .inl (typed modifier)⟩
      rw [release_holds separate (by simpa using typed) other free]
      split
      · rename_i same
        exact ⟨fun both => absurd same.symm both.2, Bool.noConfusion⟩
      · rename_i different
        exact ⟨And.left, fun holds => ⟨holds, fun same => different same.symm⟩⟩
    dsimp only
    split
    · exact releaseShift_inStep released codePoint
    · exact released

theorem releaseKeys_requests (s : InputActor Xkb) (keys : List Nat) :
    (keys.foldl (fun t evdevKey => t.releaseKey api evdevKey) s).requests = s.requests ++ SwitchLog.offs keys := by
  induction keys generalizing s with
  | nil => exact (List.append_nil _).symm
  | cons key rest ih =>
    have one : (s.releaseKey api key).requests = s.requests ++ [(key, false)] :=
      (trackerKey_requests _ _ _).trans (s.sinkKey_requests _ _)
    rw [List.foldl_cons, ih, one, List.append_assoc]
    rfl

/-- Everything that was held is up afterwards; the modifiers are still to be announced. -/
theorem releaseDepressed_tracks (tracks : s.depressed.Tracks s.requests) :
    DepressedKeys.default.Tracks (s.releaseDepressed api).requests := by
  have requests : (s.releaseDepressed api).requests = s.requests ++ SwitchLog.offs s.depressed.releaseAll :=
    releaseKeys_requests s _
  rw [requests]
  exact tracks.releaseAll

theorem record_tracks {depressed : DepressedKeys} (tracks : depressed.Tracks s.requests) {event : ActorEvent}
    (silent : event.sentKey = none) : depressed.Tracks (s.record event).requests := by
  rw [record_requests, silent]
  exact (List.append_nil s.requests).symm ▸ tracks

theorem onSynchronize_inStep (tracks : s.depressed.Tracks s.requests) (flags : SynchronizeFlags) :
    (s.onSynchronize api flags).InStep api := ⟨record_tracks (releaseDepressed_tracks tracks) rfl, rfl⟩

theorem isEmpty_iff {d : DepressedKeys} : d.isEmpty = true ↔ d = .default := by
  obtain ⟨plain, modifiers, owners⟩ := d
  simp [DepressedKeys.isEmpty, DepressedKeys.default, and_assoc]

theorem releaseHeldKeys_inStep (inStep : s.InStep api) :
    (s.releaseHeldKeys api).InStep api ∧ (s.releaseHeldKeys api).depressed = .default := by
  unfold releaseHeldKeys
  split
  · rename_i empty
    exact ⟨inStep, isEmpty_iff.mp empty⟩
  · exact ⟨⟨releaseDepressed_tracks inStep.tracks, rfl⟩, rfl⟩

theorem applyKeymap_inStep (inStep : s.InStep api) (keymapData : List UInt8) (taken : Bool) :
    (s.applyKeymap api keymapData taken).InStep api ∧
      (api.compile keymapData ≠ none → taken = true → (s.applyKeymap api keymapData taken).depressed = .default) := by
  unfold applyKeymap
  cases api.compile keymapData with
  | none => exact ⟨inStep, fun compiles => absurd rfl compiles⟩
  | some keymap =>
    dsimp only
    split
    · rename_i refused
      exact ⟨inStep, fun _ taken => by rw [refused] at taken; cases taken⟩
    · have announced : s.depressed.Tracks (s.record (.announceKeymap keymapData)).requests := record_tracks inStep.tracks rfl
      have released := @releaseDepressed_tracks _ api (s.record (.announceKeymap keymapData)) announced
      exact ⟨⟨record_tracks released rfl, rfl⟩, fun _ _ => rfl⟩

theorem setLockedGroup_inStep (inStep : s.InStep api) (group : Nat) : (s.setLockedGroup api group).InStep api := by
  have tracks : s.depressed.Tracks (s.record (.group group)).requests := record_tracks inStep.tracks rfl
  unfold setLockedGroup
  dsimp only
  split
  · exact ⟨tracks, rfl⟩
  · rename_i same
    exact ⟨tracks, inStep.announced.trans (not_not.mp same).symm⟩

theorem setLockedLayout_inStep (inStep : s.InStep api) (layoutName : String) (fromOwnKeyboard taken : Bool) :
    (s.setLockedLayout api layoutName fromOwnKeyboard taken).InStep api := by
  unfold setLockedLayout
  split
  · unfold handleOwnLayoutEvent
    split
    · split
      · exact inStep
      · exact ⟨inStep.tracks, rfl⟩
    · split
      · exact ⟨record_tracks inStep.tracks rfl, rfl⟩
      · exact inStep
  · split
    · exact inStep
    · exact setLockedGroup_inStep inStep _

theorem handleCommand_inStep (inStep : s.InStep api) (command : InputCommand) (unshared : s.Unshared command) :
    (s.handleCommand api command).InStep api := by
  cases command with
  | keyboard event =>
    cases event with
    | pressed code extended => exact onPressed_inStep inStep code extended unshared
    | released code extended => exact onReleased_inStep inStep code extended
    | synchronize flags => exact onSynchronize_inStep inStep.tracks flags
    | unicodePressed codePoint => exact onUnicodePressed_inStep inStep codePoint unshared
    | unicodeReleased codePoint => exact onUnicodeReleased_inStep inStep codePoint unshared
  | mouse => exact inStep
  | releaseHeldKeys => exact (releaseHeldKeys_inStep inStep).1
  | applyKeymap keymapData taken => exact (applyKeymap_inStep inStep keymapData taken).1
  | setLockedLayout layoutName fromOwnKeyboard taken => exact setLockedLayout_inStep inStep layoutName fromOwnKeyboard taken
  | setInitialLayout main others =>
    unfold handleCommand
    dsimp only
    split
    · exact inStep
    · exact setLockedGroup_inStep inStep _
  | shutdown =>
    obtain ⟨tracks, announced⟩ := (releaseHeldKeys_inStep inStep).1
    exact ⟨tracks, announced⟩

theorem start_inStep (keymapData : List UInt8) (keymap : XkbKeymap Xkb) : (start api keymapData keymap).InStep api where
  tracks := ⟨default_separate, fun key => ⟨nofun, fun held => absurd held (default_holds key)⟩,
    fun key _ => SwitchLog.alternates_nil key⟩
  announced := rfl

theorem reach_inStep (reach : ((runs api).guarded Unshared).Reach s) : s.InStep api := by
  have keep : ((runs api).guarded Unshared).Inductive (InStep api) := by
    refine ⟨?_, ?_⟩
    · rintro s ⟨keymapData, keymap, _, rfl⟩
      exact start_inStep keymapData keymap
    · intro s command t inStep step
      obtain ⟨unshared, step⟩ := step
      obtain ⟨_, same⟩ := Option.ite_none_right_eq_some.mp step
      cases same
      exact handleCommand_inStep inStep command unshared
  exact keep.reach reach

/-- The commands after which nothing is held. -/
def Clears (api : XkbApi Xkb) : InputCommand → Prop
  | .keyboard (.synchronize _) | .releaseHeldKeys | .shutdown => True
  | .applyKeymap keymapData taken => api.compile keymapData ≠ none ∧ taken = true
  | _ => False

theorem handleCommand_clears (inStep : s.InStep api) {command : InputCommand} (clears : Clears api command) :
    (s.handleCommand api command).depressed = .default := by
  cases command with
  | keyboard event =>
    cases event with
    | synchronize flags => rfl
    | _ => exact clears.elim
  | releaseHeldKeys => exact (releaseHeldKeys_inStep inStep).2
  | applyKeymap keymapData taken => exact (applyKeymap_inStep inStep keymapData taken).2 clears.1 clears.2
  | shutdown => exact (releaseHeldKeys_inStep inStep).2
  | _ => exact clears.elim

/-- As long as no modifier key is shared with a character that is typed on it, the keys down on the device are those
that are tracked, the requests for a modifier key alternate, the device knows the modifiers of the replica, and
nothing is down after the commands that release everything. -/
theorem held_keys_match (reach : ((runs api).guarded Unshared).Reach s) :
    (∀ key, s.requests.level key = true ↔ key ∈ s.depressed.plain ∨ key ∈ s.depressed.modifiers ∨
      (key = leftShiftKey ∧ s.depressed.unicodeShiftOwners ≠ [])) ∧
    (∀ key, isModifier key = true → s.requests.Alternates key) ∧
    s.announced = s.tracker.modifierState api ∧
    ∀ command t, Clears api command → s.Unshared command → next api s command = some t → ∀ key, t.requests.level key = false := by
  have inStep := reach_inStep reach
  refine ⟨inStep.tracks.level, inStep.tracks.alternates, inStep.announced, ?_⟩
  intro command t clears unshared step key
  obtain ⟨_, same⟩ := Option.ite_none_right_eq_some.mp step
  cases same
  have after := handleCommand_inStep inStep command unshared
  refine Bool.eq_false_iff.mpr fun down => ?_
  have held := (after.tracks.level key).mp down
  rw [handleCommand_clears inStep clears] at held
  exact default_holds key held

/-- A keymap that types a and A on one key, and ä on the right Alt key. -/
def shiftKeymap : XkbKeymap (List Nat) := ⟨[(38, [[[97], [65]]]), (108, [[[228]]])], ["plain"], []⟩

/-- A keyboard of which only the Shift keys do anything. -/
def shiftKeyboard : XkbApi (List Nat) where
  compile _ := some shiftKeymap
  updateKey down keycode pressed := if pressed then keycode :: down else down.filter fun other => other ≠ keycode
  modifierState down := ⟨if 50 ∈ down ∨ 62 ∈ down then 1 else 0, 0, 0, 0⟩
  updateLatchedLocked := none

/-- The character on the right Alt key is typed while that key is held: the key is pressed twice, and it is up though it is
still tracked. -/
theorem shared_modifier_key : ∃ s, (runs shiftKeyboard).Reach s ∧ isModifier 100 = true ∧ ¬ s.requests.Alternates 100 ∧
    100 ∈ s.depressed.modifiers ∧ s.requests.level 100 = false := by
  have run : ((StepSystem.exec (next shiftKeyboard) (start shiftKeyboard [] shiftKeymap)
      [.keyboard (.pressed 0x38 true), .keyboard (.unicodePressed 228), .keyboard (.unicodeReleased 228)]).map
        fun s => (s.requests, s.depressed.modifiers)) = some ([(100, true), (100, true), (100, false)], [100]) := by
    decide
  obtain ⟨s, run, facts⟩ := Option.map_eq_some_iff.mp run
  obtain ⟨requests, modifiers⟩ : s.requests = [(100, true), (100, true), (100, false)] ∧ s.depressed.modifiers = [100] := by
    simpa only [Prod.mk.injEq] using facts
  have reach : (runs shiftKeyboard).Reach s := .exec (fun _ _ _ step => step) _ (.start ⟨[], _, rfl, rfl⟩) run
  refine ⟨s, reach, by decide, fun alternates => ?_, by rw [modifiers]; decide, by rw [requests]; decide⟩
  have twice := alternates [(100, true)] true [(100, false)] requests
  revert twice
  decide

/-- A shifted character and the Shift key overlap, and Shift stays down for the key. -/
theorem held_keys_match_once : ∃ s, ((runs shiftKeyboard).guarded Unshared).Reach s ∧ s.requests.level leftShiftKey = true ∧
    s.requests.Alternates leftShiftKey ∧ s.announced = s.tracker.modifierState shiftKeyboard := by
  have run : ((StepSystem.exec (fun s command => if s.Unshared command then next shiftKeyboard s command else none)
      (start shiftKeyboard [] shiftKeymap)
      [.keyboard (.unicodePressed 65), .keyboard (.pressed 0x2A false), .keyboard (.unicodeReleased 65)]).map
        fun s => decide (leftShiftKey ∈ s.depressed.modifiers)) = some true := by
    decide
  obtain ⟨s, run, held⟩ := Option.map_eq_some_iff.mp run
  have reach : ((runs shiftKeyboard).guarded Unshared).Reach s :=
    .exec (fun _ _ _ step => Option.ite_none_right_eq_some.mp step) _ (.start ⟨[], _, rfl, rfl⟩) run
  obtain ⟨level, alternates, announced, _⟩ := held_keys_match reach
  exact ⟨s, reach, (level leftShiftKey).mpr (.inr (.inl (of_decide_eq_true held))), alternates _ leftShiftKey_modifier, announced⟩

end InputActor

end HyprRdp
