import HyprRdp.Lib.Runs
import Mathlib.Algebra.Ring.Nat

namespace HyprRdp

/-- A surface of the graphics server; the shared record keeps the same data of one. -/
structure Surface where
  id : Nat
  width : Nat
  height : Nat
  deriving DecidableEq, Repr

/-- How far `prepare_for_resize` has come. -/
inductive ResizeStage
  | idle
  | resized
  | forgotten
  | handedOver
  | windowCleared
  deriving DecidableEq, Repr

/-- How far the surface set-up of a processing step has come. -/
inductive SetupStage
  | idle
  | checked
  | found (surfaceId : Nat)
  | invalid
  | missing
  | created (surface : Surface)
  | announced (surface : Surface)
  | ready (surfaceId : Nat)
  deriving DecidableEq, Repr

/-- The surface that was created and is not recorded yet. -/
def SetupStage.unrecorded : SetupStage → Option Surface
  | .created surface | .announced surface => some surface
  | .idle | .checked | .found _ | .invalid | .missing | .ready _ => none

/-- What a frame processor keeps of its surface. -/
structure SurfaceHolder where
  width : Nat
  height : Nat
  egfxGeneration : Nat
  egfxSurfaceId : Option Nat
  deriving DecidableEq, Repr

/-- The graphics server, the shared record and the processor of one client,
with the resize and the set-up under way. `width` and `height` are those of the
last resize; `lost` says that an encoding or a hand-over failed. -/
structure SurfaceRace where
  surfaces : List Surface
  nextId : Nat
  currentSurface : Option Surface
  readyGeneration : Nat
  width : Nat
  height : Nat
  processor : SurfaceHolder
  resize : ResizeStage
  setup : SetupStage
  lost : Bool
  deriving DecidableEq, Repr

namespace SurfaceRace

inductive Action
  | resize (width height : Nat)
  | forget
  | handOverResize (delivered : Bool)
  | clearFrameQueue
  | nextGeneration
  | replaceProcessor
  | check (reset : Bool)
  | skip
  | lookup
  | validate
  | clearInvalid
  | create (succeeds : Bool)
  | handOverSetup (delivered : Bool)
  | record
  | store (kept : Bool)
  deriving DecidableEq, Repr

def start (width height : Nat) : SurfaceRace where
  surfaces := []
  nextId := 1
  currentSurface := none
  readyGeneration := 0
  width
  height
  processor := ⟨width, height, 0, none⟩
  resize := .idle
  setup := .idle
  lost := false

/-- A processor made for the size of the last resize. -/
def Follows (s : SurfaceRace) : Prop := s.processor.width = s.width ∧ s.processor.height = s.height

instance (s : SurfaceRace) : Decidable s.Follows := inferInstanceAs (Decidable (_ ∧ _))

def currentSurfaceId (s : SurfaceRace) (width height : Nat) : Option Nat :=
  match s.currentSurface with
  | none => none
  | some surface => if surface.width = width ∧ surface.height = height then some surface.id else none

/-- One step of either side. The steps of a resize hold the display lock, so
there is one resize at a time; the capture thread runs one set-up at a time. -/
def next (s : SurfaceRace) : Action → Option SurfaceRace
  | .resize width height =>
    if s.resize = .idle then some { s with surfaces := [], width, height, resize := .resized } else none
  | .forget => if s.resize = .resized then some { s with currentSurface := none, resize := .forgotten } else none
  | .handOverResize delivered =>
    if s.resize = .forgotten then
      if delivered then some { s with resize := .handedOver } else some { s with resize := .idle, lost := true }
    else none
  | .clearFrameQueue => if s.resize = .handedOver then some { s with resize := .windowCleared } else none
  | .nextGeneration =>
    if s.resize = .windowCleared then
      some { s with readyGeneration := (s.readyGeneration + 1) % 2 ^ 32, resize := .idle }
    else none
  | .replaceProcessor =>
    if s.setup = .idle then some { s with processor := ⟨s.width, s.height, 0, none⟩ } else none
  | .check reset =>
    if s.setup = .idle ∧ s.Follows then
      if s.readyGeneration ≠ s.processor.egfxGeneration ∨ reset = true then
        some
          { s with
            processor := { s.processor with egfxGeneration := s.readyGeneration, egfxSurfaceId := none }
            setup := .checked }
      else some { s with setup := .checked }
    else none
  | .skip => if s.setup = .checked then some { s with setup := .idle } else none
  | .lookup =>
    if s.setup = .checked then
      match s.currentSurfaceId s.processor.width s.processor.height with
      | some id => some { s with setup := .found id }
      | none => some { s with setup := .missing }
    else none
  | .validate =>
    match s.setup with
    | .found id =>
      if s.surfaces.any (·.id == id) then some { s with setup := .ready id } else some { s with setup := .invalid }
    | _ => none
  | .clearInvalid =>
    if s.setup = .invalid then some { s with currentSurface := none, setup := .missing } else none
  | .create succeeds =>
    if s.setup = .missing then
      if succeeds then
        let surface := ⟨s.nextId, s.processor.width, s.processor.height⟩
        some { s with surfaces := s.surfaces ++ [surface], nextId := s.nextId + 1, setup := .created surface }
      else some { s with setup := .idle }
    else none
  | .handOverSetup delivered =>
    match s.setup with
    | .created surface =>
      if delivered then some { s with setup := .announced surface } else some { s with setup := .idle, lost := true }
    | _ => none
  | .record =>
    match s.setup with
    | .announced surface => some { s with currentSurface := some surface, setup := .ready surface.id }
    | _ => none
  | .store kept =>
    match s.setup with
    | .ready id =>
      let processor := if kept then { s.processor with egfxSurfaceId := some id } else s.processor
      some { s with processor, setup := .idle }
    | _ => none

def runs (width height : Nat) : StepSystem SurfaceRace Action := .ofFun (start width height) next

/-- The id stands for the only surface of the server, and that is recorded. -/
def Live (s : SurfaceRace) (id : Nat) : Prop :=
  ∃ surface, surface.id = id ∧ s.surfaces = [surface] ∧ s.currentSurface = some surface

/-- One live surface at most, which is the recorded one and the processor's. -/
structure Agrees (s : SurfaceRace) : Prop where
  single : s.surfaces.length ≤ 1
  recorded : ∀ surface, s.currentSurface = some surface → s.surfaces = [surface]
  held : s.processor.egfxGeneration = s.readyGeneration → ∀ id, s.processor.egfxSurfaceId = some id → s.Live id

/-- The resize and the set-up do not get between each other's steps: no surface
is deleted before it is recorded, none is made for an older size, and none is
recorded in time to be forgotten. The generation does not come round to the
processor's. -/
def Undisturbed (s : SurfaceRace) : Action → Prop
  | .resize _ _ => s.setup.unrecorded = none
  | .forget => ∀ surface ∈ s.currentSurface, surface ∉ s.surfaces
  | .create _ => s.Follows
  | .nextGeneration => (s.readyGeneration + 1) % 2 ^ 32 ≠ s.processor.egfxGeneration
  | _ => True

instance (s : SurfaceRace) (a : Action) : Decidable (s.Undisturbed a) := by
  cases a <;> unfold Undisturbed <;> infer_instance

/-- Where the one surface is known: in the record, or to the set-up that made it. -/
structure Invariant (s : SurfaceRace) : Prop where
  known : s.surfaces = [] ∨ ∃ surface, s.surfaces = [surface] ∧ surface.width = s.width ∧ surface.height = s.height ∧
    (s.currentSurface = some surface ∨ s.setup.unrecorded = some surface)
  unrecorded : ∀ surface, s.setup.unrecorded = some surface → s.surfaces = [surface]
  recorded : s.resize ≠ .resized → ∀ surface, s.currentSurface = some surface → s.surfaces = [surface]
  found : ∀ id, s.setup = .found id → ∀ surface ∈ s.surfaces, surface.id = id
  invalid : s.setup = .invalid → s.surfaces = []
  missing : s.setup = .missing → s.Follows → s.surfaces = []
  held : ∀ id, s.processor.egfxSurfaceId = some id ∨ s.setup = .ready id →
    s.Live id ∨ s.processor.egfxGeneration ≠ s.readyGeneration ∨ s.resize ≠ .idle

variable {s t : SurfaceRace}

/-- While no set-up has an unrecorded surface, a surface of the server is the recorded one. -/
theorem Invariant.recorded_of_mem (inv : s.Invariant) (none : s.setup.unrecorded = none) {surface : Surface}
    (member : surface ∈ s.surfaces) : s.surfaces = [surface] ∧ surface.width = s.width ∧ surface.height = s.height ∧
      s.currentSurface = some surface := by
  rcases inv.known with empty | ⟨other, one, width, height, known⟩
  · rw [empty] at member
    cases member
  · rw [one] at member
    cases List.mem_singleton.mp member
    exact ⟨one, width, height, known.resolve_right fun pending => by rw [none] at pending; cases pending⟩

/-- The set-up goes on, or ends, with no surface that only it knows. -/
theorem Invariant.setUp (inv : s.Invariant) (none : s.setup.unrecorded = none) {stage : SetupStage}
    (unrecorded : stage.unrecorded = Option.none) (found : ∀ id, stage = .found id → ∀ surface ∈ s.surfaces, surface.id = id)
    (invalid : stage = .invalid → s.surfaces = []) (missing : stage = .missing → s.Follows → s.surfaces = [])
    (ready : ∀ id, stage = .ready id → s.Live id ∨ s.processor.egfxGeneration ≠ s.readyGeneration ∨ s.resize ≠ .idle) :
    Invariant { s with setup := stage } := by
  refine ⟨?_, fun surface pending => ?_, inv.recorded, found, invalid, missing, fun id holds => ?_⟩
  · rcases inv.known with empty | ⟨surface, one, width, height, known⟩
    · exact .inl empty
    · exact .inr ⟨surface, one, width, height, .inl (known.resolve_right fun pending => by cases none.symm.trans pending)⟩
  · cases unrecorded.symm.trans pending
  · rcases holds with held | isReady
    · exact inv.held id (.inl held)
    · exact ready id isReady

/-- A set-up without a surface ends, or is about to look for one. -/
theorem Invariant.rest (inv : s.Invariant) (none : s.setup.unrecorded = none) {stage : SetupStage}
    (resting : stage = .idle ∨ stage = .checked) : Invariant { s with setup := stage } := by
  rcases resting with rfl | rfl
  · exact inv.setUp none rfl nofun nofun nofun nofun
  · exact inv.setUp none rfl nofun nofun nofun nofun

/-- An id that the record gives is that of the one surface; without one there is no surface. -/
theorem Invariant.lookup (inv : s.Invariant) (checked : s.setup = .checked) :
    (∀ id, s.currentSurfaceId s.processor.width s.processor.height = some id → Invariant { s with setup := .found id }) ∧
      (s.currentSurfaceId s.processor.width s.processor.height = none → Invariant { s with setup := .missing }) := by
  have none : s.setup.unrecorded = none := by rw [checked]; rfl
  refine ⟨fun id looked => ?_, fun looked => ?_⟩
  · refine inv.setUp none rfl (fun other found surface member => ?_) nofun nofun nofun
    cases found
    obtain ⟨_, _, _, current⟩ := inv.recorded_of_mem none member
    unfold currentSurfaceId at looked
    rw [current] at looked
    exact Option.some.inj (Option.ite_none_right_eq_some.mp looked).2
  · refine inv.setUp none rfl nofun nofun (fun _ follows => ?_) nofun
    refine List.eq_nil_iff_forall_not_mem.mpr fun surface member => ?_
    obtain ⟨_, width, height, current⟩ := inv.recorded_of_mem none member
    obtain ⟨sameWidth, sameHeight⟩ := follows
    unfold currentSurfaceId at looked
    rw [current] at looked
    dsimp only at looked sameWidth sameHeight
    rw [if_pos ⟨width.trans sameWidth.symm, height.trans sameHeight.symm⟩] at looked
    cases looked

theorem Invariant.validate (inv : s.Invariant) {id : Nat} (found : s.setup = .found id) :
    (s.surfaces.any (·.id == id) = true → Invariant { s with setup := .ready id }) ∧
      (¬ s.surfaces.any (·.id == id) = true → Invariant { s with setup := .invalid }) := by
  have none : s.setup.unrecorded = none := by rw [found]; rfl
  refine ⟨fun present => inv.setUp none rfl nofun nofun nofun fun other ready => ?_,
    fun absent => inv.setUp none rfl nofun (fun _ => ?_) nofun nofun⟩
  · cases ready
    obtain ⟨surface, member, same⟩ := List.any_eq_true.mp present
    obtain ⟨one, _, _, current⟩ := inv.recorded_of_mem none member
    exact .inl ⟨surface, beq_iff_eq.mp same, one, current⟩
  · refine List.eq_nil_iff_forall_not_mem.mpr fun surface member => absent ?_
    exact List.any_eq_true.mpr ⟨surface, member, beq_iff_eq.mpr (inv.found id found surface member)⟩

/-- Without a surface the processor holds the id of a live one no more. -/
theorem Invariant.unheld (inv : s.Invariant) (empty : s.surfaces = []) {id : Nat} (held : s.processor.egfxSurfaceId = some id) :
    s.processor.egfxGeneration ≠ s.readyGeneration ∨ s.resize ≠ .idle := by
  rcases inv.held id (.inl held) with ⟨surface, _, one, _⟩ | elsewhere
  · cases empty.symm.trans one
  · exact elsewhere

/-- A surface that is made while there is none is the only one. -/
theorem Invariant.create (inv : s.Invariant) (missing : s.setup = .missing) (follows : s.Follows) {surface : Surface}
    (width : surface.width = s.processor.width) (height : surface.height = s.processor.height) (nextId : Nat) :
    Invariant { s with surfaces := s.surfaces ++ [surface], nextId, setup := .created surface } := by
  have empty := inv.missing missing follows
  have one : s.surfaces ++ [surface] = [surface] := by rw [empty]; rfl
  refine ⟨.inr ⟨surface, one, width.trans follows.1, height.trans follows.2, .inr rfl⟩, fun other pending => ?_,
    fun stage other current => ?_, nofun, nofun, nofun, fun id holds => ?_⟩
  · cases pending
    exact one
  · cases empty.symm.trans (inv.recorded stage other current)
  · exact .inr (inv.unheld empty (holds.resolve_right nofun))

theorem Invariant.record (inv : s.Invariant) {surface : Surface} (announced : s.setup = .announced surface) :
    Invariant { s with currentSurface := some surface, setup := .ready surface.id } := by
  have one := inv.unrecorded surface (by rw [announced]; rfl)
  obtain ⟨width, height⟩ : surface.width = s.width ∧ surface.height = s.height := by
    rcases inv.known with empty | ⟨other, known, width, height, _⟩
    · cases empty.symm.trans one
    · cases one.symm.trans known
      exact ⟨width, height⟩
  refine ⟨.inr ⟨surface, one, width, height, .inl rfl⟩, nofun, fun _ other current => ?_, nofun, nofun, nofun,
    fun id holds => ?_⟩
  · cases current
    exact one
  · rcases holds with held | ready
    · rcases inv.held id (.inl held) with ⟨other, same, only, _⟩ | elsewhere
      · cases one.symm.trans only
        exact .inl ⟨surface, same, one, rfl⟩
      · exact .inr elsewhere
    · cases ready
      exact .inl ⟨surface, rfl, one, rfl⟩

theorem Invariant.next (inv : s.Invariant) {a : Action} (undisturbed : s.Undisturbed a) (step : s.next a = some t)
    (delivered : t.lost = false) : t.Invariant := by
  cases a with
  | resize width height =>
    obtain ⟨_, same⟩ := Option.ite_none_right_eq_some.mp step
    cases same
    have none : s.setup.unrecorded = none := undisturbed
    refine ⟨.inl rfl, fun surface pending => ?_, fun changed => absurd rfl changed, nofun, fun _ => rfl, fun _ _ => rfl,
      fun _ _ => .inr (.inr nofun)⟩
    cases none.symm.trans pending
  | forget =>
    obtain ⟨_, same⟩ := Option.ite_none_right_eq_some.mp step
    cases same
    refine ⟨?_, inv.unrecorded, nofun, inv.found, inv.invalid, inv.missing, fun _ _ => .inr (.inr nofun)⟩
    rcases inv.known with empty | ⟨surface, one, width, height, known⟩
    · exact .inl empty
    · refine .inr ⟨surface, one, width, height, .inr (known.resolve_left fun current => ?_)⟩
      exact undisturbed surface current (by rw [one]; exact List.mem_singleton_self surface)
  | handOverResize success =>
    obtain ⟨stage, same⟩ := Option.ite_none_right_eq_some.mp step
    cases success with
    | false =>
      cases same
      cases delivered
    | true =>
      cases same
      exact ⟨inv.known, inv.unrecorded, fun _ => inv.recorded (by rw [stage]; nofun), inv.found, inv.invalid, inv.missing,
        fun _ _ => .inr (.inr nofun)⟩
  | clearFrameQueue =>
    obtain ⟨stage, same⟩ := Option.ite_none_right_eq_some.mp step
    cases same
    exact ⟨inv.known, inv.unrecorded, fun _ => inv.recorded (by rw [stage]; nofun), inv.found, inv.invalid, inv.missing,
      fun _ _ => .inr (.inr nofun)⟩
  | nextGeneration =>
    obtain ⟨stage, same⟩ := Option.ite_none_right_eq_some.mp step
    cases same
    exact ⟨inv.known, inv.unrecorded, fun _ => inv.recorded (by rw [stage]; nofun), inv.found, inv.invalid, inv.missing,
      fun _ _ => .inr (.inl fun same => undisturbed same.symm)⟩
  | replaceProcessor =>
    obtain ⟨idle, same⟩ := Option.ite_none_right_eq_some.mp step
    cases same
    refine ⟨inv.known, inv.unrecorded, inv.recorded, inv.found, inv.invalid, fun missing => ?_, fun id holds => ?_⟩
    · cases idle.symm.trans missing
    · rcases holds with held | ready
      · cases held
      · cases idle.symm.trans ready
  | check reset =>
    obtain ⟨⟨idle, _⟩, same⟩ := Option.ite_none_right_eq_some.mp step
    have checked := inv.rest (by rw [idle]; rfl) (.inr rfl)
    split at same
    · cases same
      exact ⟨checked.known, nofun, inv.recorded, nofun, nofun, nofun, fun id holds => by rcases holds with held | ready <;> contradiction⟩
    · cases same
      exact checked
  | skip =>
    obtain ⟨checked, same⟩ := Option.ite_none_right_eq_some.mp step
    cases same
    exact inv.rest (by rw [checked]; rfl) (.inl rfl)
  | lookup =>
    obtain ⟨checked, same⟩ := Option.ite_none_right_eq_some.mp step
    obtain ⟨found, missing⟩ := inv.lookup checked
    split at same
    · rename_i id looked
      cases same
      exact found id looked
    · rename_i looked
      cases same
      exact missing looked
  | validate =>
    unfold SurfaceRace.next at step
    dsimp only at step
    split at step
    · rename_i id found
      obtain ⟨ready, invalid⟩ := inv.validate found
      split at step
      · rename_i present
        cases step
        exact ready present
      · rename_i absent
        cases step
        exact invalid absent
    · cases step
  | clearInvalid =>
    obtain ⟨invalid, same⟩ := Option.ite_none_right_eq_some.mp step
    cases same
    have empty := inv.invalid invalid
    exact ⟨.inl empty, nofun, nofun, nofun, nofun, fun _ _ => empty, fun id holds =>
      .inr (inv.unheld empty (holds.resolve_right nofun))⟩
  | create succeeds =>
    obtain ⟨missing, same⟩ := Option.ite_none_right_eq_some.mp step
    cases succeeds with
    | false =>
      cases same
      exact inv.rest (by rw [missing]; rfl) (.inl rfl)
    | true =>
      cases same
      exact inv.create missing undisturbed rfl rfl _
  | handOverSetup success =>
    unfold SurfaceRace.next at step
    dsimp only at step
    split at step
    · rename_i surface created
      cases success with
      | false =>
        cases step
        cases delivered
      | true =>
        cases step
        have known := inv.known
        have pending := inv.unrecorded
        rw [created] at known pending
        exact ⟨known, pending, inv.recorded, nofun, nofun, nofun,
          fun id holds => inv.held id (holds.imp_right fun ready => by cases ready)⟩
    · cases step
  | record =>
    unfold SurfaceRace.next at step
    dsimp only at step
    split at step
    · cases step
      exact inv.record ‹_›
    · cases step
  | store kept =>
    unfold SurfaceRace.next at step
    dsimp only at step
    split at step
    · rename_i id ready
      cases step
      have stored := inv.rest (by rw [ready]; rfl) (.inl rfl)
      refine ⟨stored.known, nofun, inv.recorded, nofun, nofun, nofun, fun other holds => ?_⟩
      dsimp only at holds ⊢
      cases kept with
      | true =>
        rcases holds with held | pending
        · cases held
          exact inv.held id (.inr ready)
        · cases pending
      | false => exact stored.held other holds
    · cases step

theorem start_invariant (width height : Nat) : (start width height).Invariant where
  known := .inl rfl
  unrecorded := nofun
  recorded := nofun
  found := nofun
  invalid := nofun
  missing := nofun
  held := nofun

/-- A lost message is remembered. -/
theorem next_lost {a : Action} (step : s.next a = some t) (delivered : t.lost = false) : s.lost = false := by
  cases a <;> unfold SurfaceRace.next at step <;> dsimp only at step <;> (repeat' split at step) <;> cases step <;>
    first | exact delivered | cases delivered

/-- In a run whose resizes and set-ups do not disturb each other and that loses
no message, there is one live surface at most whenever no resize is under way. -/
theorem one_live_surface {width height : Nat} (reach : ((runs width height).guarded Undisturbed).Reach s)
    (delivered : s.lost = false) (resize : s.resize = .idle) : s.Agrees := by
  have kept : ((runs width height).guarded Undisturbed).Inductive fun s => s.lost = false → s.Invariant :=
    ⟨fun s first _ => first ▸ start_invariant width height,
      fun s a t inv step delivered => (inv (next_lost step.2 delivered)).next step.1 step.2 delivered⟩
  obtain ⟨known, _, recorded, _, _, _, held⟩ := kept.reach reach delivered
  refine ⟨?_, recorded (by rw [resize]; nofun), fun same id holds => ?_⟩
  · rcases known with empty | ⟨surface, one, _⟩
    · rw [empty]
      exact Nat.zero_le 1
    · rw [one]
      exact Nat.le_refl 1
  · exact (held id (.inl holds)).resolve_right fun either => either.elim (· same) (· resize)

/-- The steps of a set-up that makes a surface. -/
def setUp : List Action := [.check false, .lookup, .create true, .handOverSetup true, .record, .store true]

def resizeTo (width height : Nat) : List Action :=
  [.resize width height, .forget, .handOverResize true, .clearFrameQueue, .nextGeneration]

/-- A surface, a resize, and a surface of the new size. -/
theorem one_live_surface_after_resize : ∃ s : SurfaceRace, ((runs 400 300).guarded Undisturbed).Reach s ∧
    s.processor.egfxSurfaceId = some 2 ∧ s.Agrees := by
  have run : ((runs 400 300).guarded Undisturbed).Reach _ :=
    StepSystem.guarded_exec_reach (setUp ++ resizeTo 800 600 ++ [Action.replaceProcessor] ++ setUp) (.start rfl) rfl
  exact ⟨_, run, rfl, one_live_surface run rfl rfl⟩

/-- A whole resize falls between the check and the look-up of a set-up, which
then makes a surface of the old size; the next processor makes a second one. -/
theorem resize_within_set_up_leaves_two_surfaces : ∃ s : SurfaceRace, (runs 400 300).Reach s ∧
    s.lost = false ∧ s.resize = .idle ∧ s.setup = .idle ∧ ¬ s.Agrees := by
  have run : (runs 400 300).Reach _ :=
    StepSystem.exec_reach ([Action.check false] ++ resizeTo 800 600 ++ setUp.tail ++ [Action.replaceProcessor] ++ setUp) (.start rfl)
      rfl
  refine ⟨_, run, rfl, rfl, rfl, fun agrees => ?_⟩
  exact absurd agrees.single (by decide)

end SurfaceRace

end HyprRdp
