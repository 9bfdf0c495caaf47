import HyprRdp.Capture.DmabufSender
import HyprRdp.Lib.Runs

namespace HyprRdp

/-- The capture thread as far as it sends H.264 frames: with a frame processor,
in the DMA-BUF loop, or between two loops. -/
inductive PictureSession (E : Type)
  | shm (x : PictureCall E)
  | dmabuf (x : DmabufSender E)
  | ended (chain : PictureChain)

/-- A new frame processor comes with each shared-memory loop and each change of
its geometry. -/
inductive SessionInput (Input : Type)
  | newProcessor (shape : FrameShape) (egfxShared : Bool) (pixelFormat : PixelFormat) (quality : Nat)
    (rateControl : H264RateControl) (h264Backend : H264BackendPolicy)
  | newDmabuf (width height : Nat) (egfxShared : Bool) (pendingInitialResize : Option (Nat × Nat))
    (h264Backend : H264BackendPolicy) (metadataQp : Nat)
  | initialResize (size : Option (Nat × Nat))
  | queueDamage (damage : List Region)
  | requestFullFrame
  | process (env : CodingEnvironment Input) (data : Bytes)
  | processFrame (env : CodingEnvironment Input)

namespace PictureSession

variable {E Input : Type} (library : OpenH264 E Input)

def chain : PictureSession E → PictureChain
  | .shm x => x.chain
  | .dmabuf x => x.chain
  | .ended chain => chain

/-- A change of the processor that leaves its encoder alone. -/
def adjust (x : PictureCall E) (p : FrameProcessor) : PictureCall E := { x with call := x.call.update p }

def next (s : PictureSession E) : SessionInput Input → Option (PictureSession E)
  | .newProcessor shape egfxShared pixelFormat quality rateControl h264Backend =>
    some (.shm ⟨⟨.new shape egfxShared pixelFormat quality rateControl h264Backend, false, []⟩, none, s.chain⟩)
  | .newDmabuf width height egfxShared pendingInitialResize h264Backend metadataQp =>
    some (.dmabuf (.new width height egfxShared pendingInitialResize h264Backend metadataQp s.chain))
  | .initialResize size =>
    match s with
    | .shm x => some (.shm (adjust x { x.call.processor with pendingInitialResize := size }))
    | _ => none
  | .queueDamage damage =>
    match s with
    | .shm x => some (.shm (adjust x (x.call.processor.queueDamage damage)))
    | _ => none
  | .requestFullFrame =>
    match s with
    | .shm x => some (.shm { x with call := { x.call with fullFrameRequested := true } })
    | _ => none
  | .process env data =>
    match s with
    | .shm x =>
      let (y, goesOn) := x.processAt library env data
      some (if goesOn then .shm y else .ended y.chain)
    | _ => none
  | .processFrame env =>
    match s with
    | .dmabuf x =>
      let (y, flow) := x.processFrame library env
      some (if flow.continues then .dmabuf y else .ended y.chain)
    | _ => none

def runs : StepSystem (PictureSession E) (SessionInput Input) := .ofFun (.ended ⟨0, 0, []⟩) (next library)

def Sound : PictureSession E → Prop
  | .shm x => x.Sound library
  | .dmabuf x => x.Sound library
  | .ended chain => chain.Sound

variable {library} {s t : PictureSession E}

theorem Sound.chain (sound : s.Sound library) : s.chain.Sound := by
  cases s with
  | shm x => exact PictureCall.Sound.chain sound
  | dmabuf x => exact DmabufSender.Sound.chain sound
  | ended chain => exact sound

theorem Sound.next (sound : s.Sound library) {input : SessionInput Input} (step : s.next library input = some t) :
    t.Sound library := by
  cases input with
  | newProcessor shape egfxShared pixelFormat quality rateControl h264Backend =>
    cases step
    exact PictureCall.idle_sound sound.chain rfl rfl nofun
  | newDmabuf width height egfxShared pendingInitialResize h264Backend metadataQp =>
    cases step
    exact DmabufSender.new_sound sound.chain
  | initialResize size =>
    cases s <;> cases step
    exact PictureCall.Sound.keep sound _ ⟨rfl, rfl, rfl, rfl, rfl⟩
  | queueDamage damage =>
    cases s <;> cases step
    exact PictureCall.Sound.keep sound _ ⟨rfl, rfl, rfl, rfl, rfl⟩
  | requestFullFrame =>
    cases s <;> cases step
    exact PictureCall.Sound.keep sound _ (.refl _)
  | process env data =>
    cases s with
    | shm x =>
      have processed := PictureCall.processAt_sound sound env data
      dsimp only [PictureSession.next] at step
      generalize x.processAt library env data = result at processed step
      cases step
      split
      · exact processed
      · exact processed.chain
    | dmabuf x => cases step
    | ended chain => cases step
  | processFrame env =>
    cases s with
    | shm x => cases step
    | dmabuf x =>
      have processed := DmabufSender.processFrame_sound sound env
      dsimp only [PictureSession.next] at step
      generalize x.processFrame library env = result at processed step
      cases step
      split
      · exact processed
      · exact processed.chain
    | ended chain => cases step

theorem reach_sound (reach : (runs library).Reach s) : s.Sound library := by
  have kept : (runs library).Inductive fun s => s.Sound library :=
    ⟨fun s first => by
      cases first
      exact ⟨.nil, nofun⟩, fun s input t sound step => sound.next step⟩
  exact kept.reach reach

/-- Of the H.264 frames that have left, the first from each encoder and the
first on each surface are IDR pictures, and a P picture is predicted from the
frame that left just before it on its surface. Picture numbers only grow. -/
theorem prediction_chain_unbroken (reach : (runs library).Reach s) {before after : List ChainEntry} {surface coder : Nat}
    {picture : Picture} (sent : s.chain.entries = before ++ ChainEntry.frame surface (some (coder, picture)) :: after) :
    (∀ number ∈ before.filterMap ChainEntry.number?, number < picture.number) ∧
    ((∀ id earlier, .frame id (some (coder, earlier)) ∉ before) → picture.kind = .idr) ∧
    ((∀ coded, .frame surface coded ∉ before) → picture.kind = .idr) ∧
    (∀ earlier rest, before = earlier ++ ChainEntry.surface surface :: rest → (∀ coded, .frame surface coded ∉ rest) →
      picture.kind = .idr) ∧
    (∀ reference, picture.kind = .p reference → ∃ earlier last,
      before = earlier ++ [ChainEntry.frame surface (some (coder, last))] ∧ reference = some last.number) := by
  obtain ⟨newer, unbroken⟩ := (reach_sound reach).chain.unbroken _ _ _ sent surface coder picture rfl
  refine ⟨newer, fun first => ?_, fun first => ?_, fun earlier rest split first => ?_, fun reference predicted => ?_⟩
  · by_contra predicted
    obtain ⟨_, last, rfl, _⟩ := unbroken predicted
    exact first surface last (List.mem_append_right _ List.mem_cons_self)
  · by_contra predicted
    obtain ⟨_, last, rfl, _⟩ := unbroken predicted
    exact first _ (List.mem_append_right _ List.mem_cons_self)
  · by_contra predicted
    obtain ⟨_, last, tail, _⟩ := unbroken predicted
    have end_ := congrArg List.getLast? (split.symm.trans tail)
    rw [List.getLast?_concat, List.getLast?_append, List.getLast?_cons] at end_
    cases rest using List.reverseRecOn with
    | nil => cases end_
    | append_singleton rest entry =>
      rw [List.getLast?_concat] at end_
      cases end_
      exact first _ (List.mem_append_right _ List.mem_cons_self)
  · obtain ⟨earlier, last, split, referred⟩ := unbroken (by rw [predicted]; nofun)
    exact ⟨earlier, last, split, referred reference predicted⟩

/-- A library that codes an IDR picture where it must and P pictures of a given length else. -/
def steadyOpenH264 : OpenH264 (Option Nat) Bitstream where
  new := none
  forceIntraFrame _ := none
  encode encoder data number :=
    match data.len, encoder with
    | 0, _ => (encoder, .ok ⟨.skip, data, ⟨number, .i⟩⟩)
    | _, none => (some number, .ok ⟨.idr, data, ⟨number, .idr⟩⟩)
    | _, some earlier => (some number, .ok ⟨.p, data, ⟨number, .p (some earlier)⟩⟩)
  reference := id
  reference_new := rfl
  reference_force _ := rfl
  skipped encoder data number after output run empty := by
    split at run
    · cases run
      rfl
    · rename_i filled
      cases run
      exact absurd empty filled
    · rename_i filled
      cases run
      exact absurd empty filled
  coded encoder data number after output run filled := by
    split at run
    · rename_i empty
      cases run
      exact absurd empty filled
    · cases run
      exact ⟨⟨rfl, .inl rfl⟩, rfl⟩
    · cases run
      exact ⟨⟨rfl, .inr ⟨_, rfl, .inr rfl⟩⟩, rfl⟩

def codedEnvironment : CodingEnvironment Bitstream :=
  { Environment.avc420 with
    config := ⟨40, false, by decide⟩
    image := none
    vaapi := .coded ⟨64, 0, by decide⟩
    rejected := none
    software := ⟨64, 40, by decide⟩
    vpp := none
    backends := ⟨true, true⟩ }

/-- Two frames through the DMA-BUF loop. -/
def twoDmabufFrames : List (SessionInput Bitstream) :=
  [.newDmabuf 64 64 true none .vaapi 23, .processFrame codedEnvironment, .processFrame codedEnvironment]

theorem prediction_chain_unbroken_twice : ∃ s, (runs steadyOpenH264).Reach s ∧
    ∃ earlier last, [ChainEntry.surface 1, .frame 1 (some (1, ⟨0, .idr⟩))] =
      earlier ++ [ChainEntry.frame 1 (some (1, last))] ∧ some 0 = some last.number := by
  have run : ((StepSystem.exec (next steadyOpenH264) (.ended ⟨0, 0, []⟩) twoDmabufFrames).map fun s => s.chain.entries) =
      some [.surface 1, .frame 1 (some (1, ⟨0, .idr⟩)), .frame 1 (some (1, ⟨1, .p (some 0)⟩))] := by
    decide
  obtain ⟨s, exec, entries⟩ := Option.map_eq_some_iff.mp run
  have reach : (runs steadyOpenH264).Reach s := StepSystem.exec_reach twoDmabufFrames (.start rfl) exec
  exact ⟨s, reach, (prediction_chain_unbroken reach entries).2.2.2.2 (some 0) rfl⟩

end PictureSession

end HyprRdp
