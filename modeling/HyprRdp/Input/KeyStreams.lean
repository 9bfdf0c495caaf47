import HyprRdp.Input.Actor

namespace HyprRdp

/-- Every key that is sent is fed right after it, and nothing else is fed. -/
inductive Paired : List ActorEvent → Prop
  | nil : Paired []
  | aside {event : ActorEvent} {rest : List ActorEvent} :
      event.sentKey = none → event.fedKey = none → Paired rest → Paired (event :: rest)
  | key (evdevKey : Nat) (pressed : Bool) {rest : List ActorEvent} :
      Paired rest → Paired (.sent evdevKey pressed :: .fed evdevKey pressed :: rest)

namespace Paired

variable {first second : List ActorEvent}

theorem append (one : Paired first) (other : Paired second) : Paired (first ++ second) := by
  induction one with
  | nil => exact other
  | aside notSent notFed _ ih => exact .aside notSent notFed ih
  | key evdevKey pressed _ ih => exact .key evdevKey pressed ih

theorem same_keys (paired : Paired first) : first.filterMap (·.sentKey) = first.filterMap (·.fedKey) := by
  induction paired with
  | nil => rfl
  | aside notSent notFed _ ih => rw [List.filterMap_cons_none notSent, List.filterMap_cons_none notFed, ih]
  | key evdevKey pressed _ ih => exact congrArg ((evdevKey, pressed) :: ·) ih

/-- A trace may be cut wherever no key is between its two sides. -/
theorem cut {trace : List ActorEvent} (paired : Paired trace) (split : trace = first ++ second)
    (whole : ∀ evdevKey pressed, first.getLast? = some (.sent evdevKey pressed) →
      second.head? ≠ some (.fed evdevKey pressed)) : Paired first ∧ Paired second := by
  induction paired generalizing first with
  | nil =>
    obtain ⟨rfl, rfl⟩ := List.append_eq_nil_iff.mp split.symm
    exact ⟨.nil, .nil⟩
  | @aside event rest notSent notFed paired ih =>
    cases first with
    | nil =>
      cases split
      exact ⟨.nil, .aside notSent notFed paired⟩
    | cons _ more =>
      cases split
      obtain ⟨left, right⟩ := ih rfl fun evdevKey pressed last =>
        whole evdevKey pressed (by rw [List.getLast?_cons, last]; rfl)
      exact ⟨.aside notSent notFed left, right⟩
  | @key evdevKey pressed rest paired ih =>
    cases first with
    | nil =>
      cases split
      exact ⟨.nil, .key evdevKey pressed paired⟩
    | cons _ more =>
      cases more with
      | nil =>
        cases split
        exact absurd rfl (whole evdevKey pressed rfl)
      | cons _ more =>
        cases split
        obtain ⟨left, right⟩ := ih rfl fun other on last =>
          whole other on (by rw [List.getLast?_cons, List.getLast?_cons, last]; rfl)
        exact ⟨.key evdevKey pressed left, right⟩

end Paired

/-- A place where a keymap was announced or installed, or an end of the trace. -/
def AtKeymap : Option ActorEvent → Prop
  | none | some (.announceKeymap _) | some (.installKeymap _) => True
  | _ => False

/-- The state of a compositor that takes each keymap when the replica does, and is told of the
keys that are sent to the device. -/
def compositor {Xkb : Type} (api : XkbApi Xkb) :
    Option (KeyboardStateTracker Xkb) → ActorEvent → Option (KeyboardStateTracker Xkb)
  | _, .installKeymap keymapData => (api.compile keymapData).map (.new api)
  | state, .sent evdevKey pressed => state.map fun t => t.key api evdevKey pressed
  | state, .locks flags => state.map fun t => t.synchronizeLocks api flags
  | state, .group group => state.map fun t => t.setLockedGroup api group
  | state, .announceKeymap _ | state, .fed _ _ => state

namespace InputActor

variable {Xkb : Type} {api : XkbApi Xkb} {s t : InputActor Xkb}

/-- No character is typed that the keymap has a key for. -/
def Unmapped (s : InputActor Xkb) : InputCommand → Prop
  | .keyboard (.unicodePressed codePoint) | .keyboard (.unicodeReleased codePoint) =>
    s.tracker.unicodeToEvdev codePoint = none
  | _ => True

instance (s : InputActor Xkb) : DecidablePred s.Unmapped
  | .keyboard (.unicodePressed codePoint) | .keyboard (.unicodeReleased codePoint) =>
    decidable_of_iff ((s.tracker.unicodeToEvdev codePoint).isNone = true) Option.isNone_iff_eq_none
  | .keyboard (.pressed _ _) | .keyboard (.released _ _) | .keyboard (.synchronize _) | .mouse | .releaseHeldKeys
  | .applyKeymap _ _ | .setLockedLayout _ _ _ | .setInitialLayout _ _ | .shutdown => inferInstanceAs (Decidable True)

/-- What is done from one state to another feeds the replica as it tells the compositor. -/
structure Follows (api : XkbApi Xkb) (s t : InputActor Xkb) : Prop where
  exists_more : ∃ more, t.trace = s.trace ++ more ∧ Paired more ∧ more.foldl (compositor api) (some s.tracker) = some t.tracker

theorem Follows.of_same (trace : t.trace = s.trace) (tracker : t.tracker = s.tracker) : Follows api s t :=
  ⟨[], by rw [trace, List.append_nil], .nil, by rw [tracker]; rfl⟩

theorem Follows.trans {u : InputActor Xkb} (first : Follows api s t) (second : Follows api t u) : Follows api s u := by
  obtain ⟨one, firstTrace, firstPaired, firstState⟩ := first.exists_more
  obtain ⟨other, secondTrace, secondPaired, secondState⟩ := second.exists_more
  refine ⟨one ++ other, by rw [secondTrace, firstTrace, List.append_assoc], firstPaired.append secondPaired, ?_⟩
  rw [List.foldl_append, firstState, secondState]

theorem Follows.aside (event : ActorEvent) (trace : t.trace = s.trace ++ [event]) (notSent : event.sentKey = none)
    (notFed : event.fedKey = none) (state : compositor api (some s.tracker) event = some t.tracker) : Follows api s t :=
  ⟨[event], trace, .aside notSent notFed .nil, state⟩

theorem sinkModifiers_follows (s : InputActor Xkb) : Follows api s (s.sinkModifiers api) := .of_same rfl rfl

theorem releaseKey_follows (s : InputActor Xkb) (evdevKey : Nat) (pressed : Bool) :
    Follows api s ((s.sinkKey evdevKey pressed).trackerKey api evdevKey pressed) :=
  ⟨[.sent evdevKey pressed, .fed evdevKey pressed], List.append_assoc _ _ _, .key evdevKey pressed .nil, rfl⟩

theorem transition_follows (s : InputActor Xkb) (evdevKey : Nat) (pressed : Bool) :
    Follows api s (s.transition api evdevKey pressed) := by
  unfold transition
  dsimp only
  split
  · exact (s.releaseKey_follows evdevKey pressed).trans (sinkModifiers_follows _)
  · exact s.releaseKey_follows evdevKey pressed

theorem releaseKeys_follows (s : InputActor Xkb) (keys : List Nat) :
    Follows api s (keys.foldl (fun t evdevKey => t.releaseKey api evdevKey) s) := by
  induction keys generalizing s with
  | nil => exact .of_same rfl rfl
  | cons key rest ih => exact (s.releaseKey_follows key false).trans (ih _)

theorem releaseDepressed_follows (s : InputActor Xkb) : Follows api s (s.releaseDepressed api) :=
  (s.releaseKeys_follows s.depressed.releaseAll).trans (.of_same rfl rfl)

theorem onPressed_follows (s : InputActor Xkb) (code : Nat) (extended : Bool) : Follows api s (s.onPressed api code extended) := by
  unfold onPressed
  split
  · exact .of_same rfl rfl
  · split
    · exact .of_same rfl rfl
    · dsimp only
      have pressed (depressed : DepressedKeys) : Follows api s { s with depressed } := .of_same rfl rfl
      split
      · exact pressed _
      · exact (pressed _).trans (transition_follows _ _ _)

theorem onReleased_follows (s : InputActor Xkb) (code : Nat) (extended : Bool) : Follows api s (s.onReleased api code extended) := by
  unfold onReleased
  split
  · exact .of_same rfl rfl
  · split
    · exact .of_same rfl rfl
    · dsimp only
      have released (depressed : DepressedKeys) : Follows api s { s with depressed } := .of_same rfl rfl
      split
      · exact released _
      · exact (released _).trans (transition_follows _ _ _)

theorem onSynchronize_follows (s : InputActor Xkb) (flags : SynchronizeFlags) : Follows api s (s.onSynchronize api flags) :=
  s.releaseDepressed_follows.trans (.aside (.locks flags) rfl rfl rfl rfl)

theorem releaseHeldKeys_follows (s : InputActor Xkb) : Follows api s (s.releaseHeldKeys api) := by
  unfold releaseHeldKeys
  split
  · exact .of_same rfl rfl
  · exact s.releaseDepressed_follows.trans (sinkModifiers_follows _)

/-- The keys held before go to both sides under the keymap that the replica has. -/
theorem applyKeymap_follows (s : InputActor Xkb) (keymapData : List UInt8) (taken : Bool) :
    Follows api s (s.applyKeymap api keymapData taken) := by
  unfold applyKeymap
  split
  · exact .of_same rfl rfl
  · rename_i keymap compiles
    split
    · exact .of_same rfl rfl
    · have announced : Follows api s (s.record (.announceKeymap keymapData)) := .aside _ rfl rfl rfl rfl
      refine (announced.trans (releaseDepressed_follows _)).trans (.aside (.installKeymap keymapData) rfl rfl rfl ?_)
      show (api.compile keymapData).map _ = _
      rw [compiles]
      rfl

theorem setLockedGroup_follows (s : InputActor Xkb) (group : Nat) : Follows api s (s.setLockedGroup api group) := by
  have updated : Follows api s { s.record (.group group) with tracker := s.tracker.setLockedGroup api group } :=
    .aside (.group group) rfl rfl rfl rfl
  unfold setLockedGroup
  dsimp only
  split
  · exact updated.trans (sinkModifiers_follows _)
  · exact updated

theorem setLockedLayout_follows (s : InputActor Xkb) (layoutName : String) (fromOwnKeyboard taken : Bool) :
    Follows api s (s.setLockedLayout api layoutName fromOwnKeyboard taken) := by
  unfold setLockedLayout
  split
  · unfold handleOwnLayoutEvent
    split
    · split
      · exact .of_same rfl rfl
      · exact sinkModifiers_follows s
    · split
      · exact .aside (.announceKeymap s.keymapData) rfl rfl rfl rfl
      · exact .of_same rfl rfl
  · split
    · exact .of_same rfl rfl
    · exact s.setLockedGroup_follows _

theorem handleCommand_follows (s : InputActor Xkb) (command : InputCommand) (unmapped : s.Unmapped command) :
    Follows api s (s.handleCommand api command) := by
  cases command with
  | keyboard event =>
    cases event with
    | pressed code extended => exact s.onPressed_follows code extended
    | released code extended => exact s.onReleased_follows code extended
    | synchronize flags => exact s.onSynchronize_follows flags
    | unicodePressed codePoint =>
      have nothing : s.onUnicodePressed api codePoint = s := by
        unfold onUnicodePressed
        rw [show s.tracker.unicodeToEvdev codePoint = none from unmapped]
      exact .of_same (congrArg InputActor.trace nothing) (congrArg InputActor.tracker nothing)
    | unicodeReleased codePoint =>
      have nothing : s.onUnicodeReleased api codePoint = s := by
        unfold onUnicodeReleased
        rw [show s.tracker.unicodeToEvdev codePoint = none from unmapped]
      exact .of_same (congrArg InputActor.trace nothing) (congrArg InputActor.tracker nothing)
  | mouse => exact .of_same rfl rfl
  | releaseHeldKeys => exact s.releaseHeldKeys_follows
  | applyKeymap keymapData taken => exact s.applyKeymap_follows keymapData taken
  | setLockedLayout layoutName fromOwnKeyboard taken => exact s.setLockedLayout_follows layoutName fromOwnKeyboard taken
  | setInitialLayout main others =>
    unfold handleCommand
    dsimp only
    split
    · exact .of_same rfl rfl
    · exact s.setLockedGroup_follows _
  | shutdown => exact s.releaseHeldKeys_follows.trans (.of_same rfl rfl)

theorem reach_paired (reach : ((runs api).guarded Unmapped).Reach s) :
    Paired s.trace ∧ s.trace.foldl (compositor api) none = some s.tracker := by
  have keep : ((runs api).guarded Unmapped).Inductive fun s =>
      Paired s.trace ∧ s.trace.foldl (compositor api) none = some s.tracker := by
    refine ⟨?_, ?_⟩
    · rintro s ⟨keymapData, keymap, compiles, rfl⟩
      refine ⟨.aside rfl rfl (.aside rfl rfl .nil), ?_⟩
      show (api.compile keymapData).map _ = _
      rw [compiles]
      rfl
    · rintro s command t ⟨paired, state⟩ ⟨unmapped, step⟩
      obtain ⟨_, same⟩ := Option.ite_none_right_eq_some.mp step
      cases same
      obtain ⟨more, trace, pairs, follows⟩ := (s.handleCommand_follows command unmapped).exists_more
      refine ⟨trace ▸ paired.append pairs, ?_⟩
      rw [trace, List.foldl_append, state]
      exact follows
  exact keep.reach reach

/-- As long as no character is typed that the keymap has a key for, the replica is fed between two keymaps exactly
the keys that the device is sent, and has the state of a compositor that is told of these. -/
theorem replica_sees_device_keys (reach : ((runs api).guarded Unmapped).Reach s) :
    (∀ before interval after, s.trace = before ++ interval ++ after → AtKeymap before.getLast? → AtKeymap after.head? →
      interval.filterMap (·.sentKey) = interval.filterMap (·.fedKey)) ∧
    s.trace.foldl (compositor api) none = some s.tracker := by
  obtain ⟨paired, state⟩ := reach_paired reach
  refine ⟨fun before interval after split starts ends => ?_, state⟩
  have left : Paired (before ++ interval) := by
    refine (paired.cut split fun evdevKey pressed _ fed => ?_).1
    rw [fed] at ends
    exact ends
  refine (left.cut rfl fun evdevKey pressed sent => ?_).2.same_keys
  rw [sent] at starts
  exact starts.elim

/-- A keymap with one character. -/
def latchKeymap : XkbKeymap Bool := ⟨[(38, [[[97]]])], ["plain"], false⟩

/-- A keyboard whose left Shift key latches: the next key that is pressed uses the latch up. -/
def latchKeyboard : XkbApi Bool where
  compile _ := some latchKeymap
  updateKey latched keycode pressed := if keycode = 50 then true else if pressed then false else latched
  modifierState latched := ⟨0, if latched then 1 else 0, 0, 0⟩
  updateLatchedLocked := none

/-- A character is typed after the latch: the device is sent a key that the replica is
not fed, and the replica's latch outlives that of the compositor. -/
theorem character_not_fed : ∃ s, (runs latchKeyboard).Reach s ∧
    s.trace.filterMap (·.sentKey) ≠ s.trace.filterMap (·.fedKey) ∧
    (s.trace.foldl (compositor latchKeyboard) none).map (·.modifierState latchKeyboard) ≠
      some (s.tracker.modifierState latchKeyboard) := by
  have run : ((StepSystem.exec (next latchKeyboard) (start latchKeyboard [] latchKeymap)
      [.keyboard (.pressed 0x2A false), .keyboard (.released 0x2A false), .keyboard (.unicodePressed 97)]).map
        fun s => (s.trace.filterMap (·.sentKey), s.trace.filterMap (·.fedKey),
          (s.trace.foldl (compositor latchKeyboard) none).map (·.modifierState latchKeyboard),
          s.tracker.modifierState latchKeyboard)) =
        some ([(42, true), (42, false), (30, true)], [(42, true), (42, false)], some ⟨0, 0, 0, 0⟩, ⟨0, 1, 0, 0⟩) := by
    decide
  obtain ⟨s, run, facts⟩ := Option.map_eq_some_iff.mp run
  obtain ⟨sent, fed, told, replica⟩ : s.trace.filterMap (·.sentKey) = [(42, true), (42, false), (30, true)] ∧
      s.trace.filterMap (·.fedKey) = [(42, true), (42, false)] ∧
      (s.trace.foldl (compositor latchKeyboard) none).map (·.modifierState latchKeyboard) = some ⟨0, 0, 0, 0⟩ ∧
      s.tracker.modifierState latchKeyboard = ⟨0, 1, 0, 0⟩ := by
    simpa only [Prod.mk.injEq] using facts
  have reach : (runs latchKeyboard).Reach s := .exec (fun _ _ _ step => step) _ (.start ⟨[], _, rfl, rfl⟩) run
  refine ⟨s, reach, ?_, ?_⟩
  · rw [sent, fed]
    decide
  · rw [told, replica]
    decide

/-- Shift latches, and a key is held when the keymap is replaced. -/
theorem replica_sees_device_keys_once : ∃ s, ((runs latchKeyboard).guarded Unmapped).Reach s ∧
    s.trace.length = 12 ∧ s.trace.foldl (compositor latchKeyboard) none = some s.tracker := by
  have run : ((StepSystem.exec (fun s command => if s.Unmapped command then next latchKeyboard s command else none)
      (start latchKeyboard [] latchKeymap)
      [.keyboard (.pressed 0x2A false), .keyboard (.released 0x2A false), .keyboard (.pressed 0x1E false),
        .applyKeymap [] true]).map fun s => s.trace.length) = some 12 := by
    decide
  obtain ⟨s, run, length⟩ := Option.map_eq_some_iff.mp run
  have reach : ((runs latchKeyboard).guarded Unmapped).Reach s :=
    .exec (fun _ _ _ step => Option.ite_none_right_eq_some.mp step) _ (.start ⟨[], _, rfl, rfl⟩) run
  exact ⟨s, reach, length, (replica_sees_device_keys reach).2⟩

end InputActor

end HyprRdp
