import HyprRdp.Input.Actor
import Mathlib.Data.List.Nodup

namespace HyprRdp

namespace DepressedKeys

variable {d e : DepressedKeys} {log : SwitchLog Nat} {key : Nat} {on : Bool}

theorem mem_insertKey {keys : List Nat} {key other : Nat} : other ∈ insertKey keys key ↔ other ∈ keys ∨ other = key := by
  unfold insertKey
  split
  · rename_i held
    have member := List.contains_iff_mem.mp held
    exact ⟨.inl, fun either => either.elim id fun same => same ▸ member⟩
  · rw [List.mem_append, List.mem_singleton]

theorem insertKey_nodup {keys : List Nat} (distinct : keys.Nodup) (key : Nat) : (insertKey keys key).Nodup := by
  unfold insertKey
  split
  · exact distinct
  · rename_i notHeld
    have absent : key ∉ keys := fun member => notHeld (List.contains_iff_mem.mpr member)
    rw [← List.concat_eq_append]
    exact List.Nodup.concat absent distinct

theorem mem_retainOthers {keys : List Nat} {key other : Nat} : other ∈ retainOthers keys key ↔ other ∈ keys ∧ other ≠ key := by
  simp [retainOthers]

/-- The keys that must be down on the device: those that the client holds, and Left Shift when a character owns it. -/
def Holds (d : DepressedKeys) (key : Nat) : Prop :=
  key ∈ d.plain ∨ key ∈ d.modifiers ∨ (key = leftShiftKey ∧ d.unicodeShiftOwners ≠ [])

instance (d : DepressedKeys) : DecidablePred d.Holds := fun key =>
  inferInstanceAs (Decidable (key ∈ d.plain ∨ key ∈ d.modifiers ∨ (key = leftShiftKey ∧ d.unicodeShiftOwners ≠ [])))

/-- A modifier key that is held as a plain key has no other owner. -/
structure Separate (d : DepressedKeys) : Prop where
  modifiers : ∀ key ∈ d.modifiers, isModifier key = true
  plain : ∀ key ∈ d.plain, isModifier key = true → key ∉ d.modifiers ∧ (key = leftShiftKey → d.unicodeShiftOwners = [])
  plainNodup : d.plain.Nodup
  modifiersNodup : d.modifiers.Nodup

/-- What the device was sent, against what the actor holds. -/
structure Tracks (d : DepressedKeys) (log : SwitchLog Nat) : Prop where
  separate : d.Separate
  level : ∀ key, log.level key = true ↔ d.Holds key
  alternates : ∀ key, isModifier key = true → log.Alternates key

theorem Tracks.silent (tracks : d.Tracks log) (separate : e.Separate) (same : ∀ key, e.Holds key ↔ d.Holds key) :
    e.Tracks log := ⟨separate, fun key => (tracks.level key).trans (same key).symm, tracks.alternates⟩

theorem Tracks.sent (tracks : d.Tracks log) (separate : e.Separate)
    (holds : ∀ other, e.Holds other ↔ if key = other then on = true else d.Holds other)
    (moves : isModifier key = true → (d.Holds key ↔ on = false)) : e.Tracks (log ++ [(key, on)]) where
  separate := separate
  level := by
    intro other
    rw [SwitchLog.level_concat, holds other]
    split
    · exact Iff.rfl
    · exact tracks.level other
  alternates := by
    intro other isModifier
    refine (tracks.alternates other isModifier).concat fun same => ?_
    subst same
    have level := (tracks.level key).trans (moves isModifier)
    cases on with
    | false => exact level.mpr rfl
    | true => exact Bool.eq_false_iff.mpr fun up => absurd (level.mp up) Bool.noConfusion

theorem default_separate : DepressedKeys.default.Separate := ⟨nofun, nofun, .nil, .nil⟩

theorem default_holds (key : Nat) : ¬ DepressedKeys.default.Holds key := by
  rintro (held | held | ⟨_, owned⟩)
  · cases held
  · cases held
  · exact owned rfl

theorem leftShiftKey_modifier : isModifier leftShiftKey = true := by decide

/-- Left Shift is nobody's plain key while a character owns it. -/
theorem Separate.shift (separate : d.Separate) (owned : d.unicodeShiftOwners ≠ []) : leftShiftKey ∉ d.plain :=
  fun held => owned ((separate.plain _ held leftShiftKey_modifier).2 rfl)

theorem holdsModifier_iff : d.holdsModifier key = true ↔ key ∈ d.modifiers := List.contains_iff_mem

theorem owned_iff : d.unicodeShiftOwners.isEmpty = false ↔ d.unicodeShiftOwners ≠ [] := by
  rw [Bool.eq_false_iff, ne_eq, List.isEmpty_iff]

theorem Separate.pressModifier (separate : d.Separate) (modifier : isModifier key = true) (apart : key ∉ d.plain) :
    (d.press key true).Separate where
  modifiers other held := by
    rcases mem_insertKey.mp held with old | rfl
    · exact separate.modifiers other old
    · exact modifier
  plain other held isModifier := by
    obtain ⟨notHeld, free⟩ := separate.plain other held isModifier
    refine ⟨fun held' => ?_, free⟩
    rcases mem_insertKey.mp held' with old | rfl
    · exact notHeld old
    · exact apart held
  plainNodup := separate.plainNodup
  modifiersNodup := insertKey_nodup separate.modifiersNodup key

theorem Separate.pressPlain (separate : d.Separate)
    (apart : isModifier key = true → key ∉ d.modifiers ∧ (key = leftShiftKey → d.unicodeShiftOwners = [])) :
    (d.press key false).Separate where
  modifiers := separate.modifiers
  plain other held isModifier := by
    rcases mem_insertKey.mp held with old | rfl
    · exact separate.plain other old isModifier
    · exact apart isModifier
  plainNodup := insertKey_nodup separate.plainNodup key
  modifiersNodup := separate.modifiersNodup

theorem Separate.release (separate : d.Separate) (key : Nat) (modifier : Bool) : (d.release key modifier).Separate := by
  cases modifier with
  | true =>
    refine ⟨fun other held => separate.modifiers other (mem_retainOthers.mp held).1, fun other held isModifier => ?_,
      separate.plainNodup, separate.modifiersNodup.filter _⟩
    obtain ⟨notHeld, free⟩ := separate.plain other held isModifier
    exact ⟨fun held' => notHeld (mem_retainOthers.mp held').1, free⟩
  | false =>
    exact ⟨separate.modifiers, fun other held => separate.plain other (mem_retainOthers.mp held).1,
      separate.plainNodup.filter _, separate.modifiersNodup⟩

theorem press_holds (d : DepressedKeys) (key : Nat) (modifier : Bool) (other : Nat) :
    (d.press key modifier).Holds other ↔ d.Holds other ∨ other = key := by
  unfold Holds press
  cases modifier with
  | true =>
    simp only [if_true, mem_insertKey]
    tauto
  | false =>
    simp only [Bool.false_eq_true, if_false, mem_insertKey]
    tauto

/-- A key that is released is up, unless something else keeps it down. -/
theorem release_holds (separate : d.Separate) {modifier : Bool} (held : if modifier then key ∈ d.modifiers else isModifier key = true → key ∈ d.plain)
    (other : Nat) (free : key = leftShiftKey → d.unicodeShiftOwners = []) :
    (d.release key modifier).Holds other ↔ d.Holds other ∧ other ≠ key := by
  unfold Holds release
  cases modifier with
  | true =>
    simp only [if_true] at held
    have notPlain : key ∉ d.plain := fun plain => (separate.plain key plain (separate.modifiers key held)).1 held
    simp only [if_true, mem_retainOthers]
    constructor
    · rintro (plain | ⟨modifier, apart⟩ | ⟨rfl, owned⟩)
      · exact ⟨.inl plain, fun same => notPlain (same ▸ plain)⟩
      · exact ⟨.inr (.inl modifier), apart⟩
      · exact ⟨.inr (.inr ⟨rfl, owned⟩), fun same => owned (free same.symm)⟩
    · rintro ⟨plain | modifier | shift, apart⟩
      · exact .inl plain
      · exact .inr (.inl ⟨modifier, apart⟩)
      · exact .inr (.inr shift)
  | false =>
    simp only [Bool.false_eq_true, if_false] at held
    have notModifier : key ∉ d.modifiers := by
      intro modifier
      have isModifier := separate.modifiers key modifier
      exact (separate.plain key (held isModifier) isModifier).1 modifier
    simp only [Bool.false_eq_true, if_false, mem_retainOthers]
    constructor
    · rintro (⟨plain, apart⟩ | modifier | ⟨rfl, owned⟩)
      · exact ⟨.inl plain, apart⟩
      · exact ⟨.inr (.inl modifier), fun same => notModifier (same ▸ modifier)⟩
      · exact ⟨.inr (.inr ⟨rfl, owned⟩), fun same => owned (free same.symm)⟩
    · rintro ⟨plain | modifier | shift, apart⟩
      · exact .inl ⟨plain, apart⟩
      · exact .inr (.inl modifier)
      · exact .inr (.inr shift)

theorem pressUnicodeShift_owned (d : DepressedKeys) (codePoint : Nat) :
    (d.pressUnicodeShift codePoint).unicodeShiftOwners ≠ [] := by
  intro empty
  have member : codePoint ∈ (d.pressUnicodeShift codePoint).unicodeShiftOwners := mem_insertKey.mpr (.inr rfl)
  rw [empty] at member
  cases member

theorem pressUnicodeShift_holds (d : DepressedKeys) (codePoint other : Nat) :
    (d.pressUnicodeShift codePoint).Holds other ↔ d.Holds other ∨ other = leftShiftKey := by
  constructor
  · rintro (plain | modifier | ⟨shift, _⟩)
    · exact .inl (.inl plain)
    · exact .inl (.inr (.inl modifier))
    · exact .inr shift
  · rintro ((plain | modifier | ⟨shift, _⟩) | shift)
    · exact .inl plain
    · exact .inr (.inl modifier)
    · exact .inr (.inr ⟨shift, d.pressUnicodeShift_owned codePoint⟩)
    · exact .inr (.inr ⟨shift, d.pressUnicodeShift_owned codePoint⟩)

theorem Separate.pressUnicodeShift (separate : d.Separate) (free : leftShiftKey ∉ d.plain) (codePoint : Nat) :
    (d.pressUnicodeShift codePoint).Separate where
  modifiers := separate.modifiers
  plain key plain isModifier := ⟨(separate.plain key plain isModifier).1, fun same => absurd (same ▸ plain) free⟩
  plainNodup := separate.plainNodup
  modifiersNodup := separate.modifiersNodup

theorem Separate.releaseUnicodeShift (separate : d.Separate) (codePoint : Nat) :
    (d.releaseUnicodeShift codePoint).1.Separate where
  modifiers := separate.modifiers
  plain key plain isModifier := by
    refine ⟨(separate.plain key plain isModifier).1, fun same => ?_⟩
    show retainOthers d.unicodeShiftOwners codePoint = []
    rw [(separate.plain key plain isModifier).2 same]
    rfl
  plainNodup := separate.plainNodup
  modifiersNodup := separate.modifiersNodup

/-- A character that owned nothing leaves the owners as they are. -/
theorem releaseUnicodeShift_unowned {codePoint : Nat} (unowned : (d.releaseUnicodeShift codePoint).2 = false) :
    (d.releaseUnicodeShift codePoint).1 = d := by
  have length : (retainOthers d.unicodeShiftOwners codePoint).length = d.unicodeShiftOwners.length :=
    not_not.mp (of_decide_eq_false unowned)
  have same : retainOthers d.unicodeShiftOwners codePoint = d.unicodeShiftOwners :=
    List.filter_eq_self.mpr (List.length_filter_eq_length_iff.mp length)
  show { d with unicodeShiftOwners := retainOthers d.unicodeShiftOwners codePoint } = d
  rw [same]

theorem releaseUnicodeShift_owned {codePoint : Nat} (owned : (d.releaseUnicodeShift codePoint).2 = true) :
    d.unicodeShiftOwners ≠ [] := by
  intro empty
  have length : (retainOthers d.unicodeShiftOwners codePoint).length ≠ d.unicodeShiftOwners.length := of_decide_eq_true owned
  rw [empty] at length
  exact length rfl

theorem mem_releaseAll (key : Nat) : key ∈ d.releaseAll ↔ d.Holds key := by
  have last : key ∈ (if d.unicodeShiftOwners.isEmpty = false ∧ d.holdsModifier leftShiftKey = false then [leftShiftKey] else []) ↔
      key = leftShiftKey ∧ d.unicodeShiftOwners ≠ [] ∧ leftShiftKey ∉ d.modifiers := by
    have lone : (d.unicodeShiftOwners.isEmpty = false ∧ d.holdsModifier leftShiftKey = false) ↔
        d.unicodeShiftOwners ≠ [] ∧ leftShiftKey ∉ d.modifiers := by
      rw [owned_iff, Bool.eq_false_iff, ne_eq, ne_eq, holdsModifier_iff]
    split
    · rename_i alone
      rw [List.mem_singleton]
      exact ⟨fun same => ⟨same, lone.mp alone⟩, fun all => all.1⟩
    · rename_i shared
      exact ⟨nofun, fun all => absurd (lone.mpr all.2) shared⟩
  unfold releaseAll Holds
  rw [List.mem_append, List.mem_append, List.mem_reverse, List.mem_reverse, last]
  constructor
  · rintro ((plain | modifier) | ⟨shift, owned, _⟩)
    · exact .inl plain
    · exact .inr (.inl modifier)
    · exact .inr (.inr ⟨shift, owned⟩)
  · rintro (plain | modifier | ⟨rfl, owned⟩)
    · exact .inl (.inl plain)
    · exact .inl (.inr modifier)
    · by_cases held : leftShiftKey ∈ d.modifiers
      · exact .inl (.inr held)
      · exact .inr ⟨rfl, owned, held⟩

theorem Separate.releaseAll_nodup (separate : d.Separate) : d.releaseAll.Nodup := by
  unfold releaseAll
  refine List.nodup_append.mpr ⟨List.nodup_append.mpr ⟨?_, ?_, ?_⟩, ?_, ?_⟩
  · exact List.nodup_reverse.mpr separate.plainNodup
  · exact List.nodup_reverse.mpr separate.modifiersNodup
  · rintro key plain _ modifier rfl
    have modifier := List.mem_reverse.mp modifier
    exact (separate.plain key (List.mem_reverse.mp plain) (separate.modifiers key modifier)).1 modifier
  · split
    · exact (List.nodup_cons.mpr ⟨List.not_mem_nil, .nil⟩)
    · exact .nil
  · rintro key held _ last rfl
    split at last
    · rename_i alone
      cases List.mem_singleton.mp last
      rcases List.mem_append.mp held with plain | modifier
      · exact separate.shift (owned_iff.mp alone.1) (List.mem_reverse.mp plain)
      · rw [holdsModifier_iff.mpr (List.mem_reverse.mp modifier)] at alone
        cases alone.2
    · cases last

theorem Tracks.releaseAll (tracks : d.Tracks log) : DepressedKeys.default.Tracks (log ++ SwitchLog.offs d.releaseAll) where
  separate := default_separate
  level := by
    intro key
    rw [SwitchLog.level_offs]
    refine ⟨fun up => ?_, fun held => absurd held (default_holds key)⟩
    split at up
    · cases up
    · rename_i notReleased
      exact absurd (mem_releaseAll key |>.mpr ((tracks.level key).mp up)) notReleased
  alternates := by
    intro key isModifier
    exact (tracks.alternates key isModifier).offs tracks.separate.releaseAll_nodup fun released =>
      (tracks.level key).mpr ((mem_releaseAll key).mp released)

end DepressedKeys

end HyprRdp
