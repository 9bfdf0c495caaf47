import HyprRdp.Egfx.FrameEncoder

namespace HyprRdp

/-- The samples the client has decoded so far. -/
abbrev ClientPlanes := Sample → UInt8

/-- The regions of an AVC444 frame for one of the two subframes. -/
def Avc444FrameEncoding.regionsFor (encoding : Avc444FrameEncoding) (stream1Regions stream2Regions : List Avc420Region) :
    Avc444SubframeRole → List Avc420Region
  | .luma =>
    match encoding with
    | .lumaAndChroma | .luma => stream1Regions
    | .chroma => []
  | .chroma =>
    match encoding with
    | .lumaAndChroma => stream2Regions
    | .luma => []
    | .chroma => stream1Regions

/-- The client takes over the encoder's samples inside the regions that the frame carries for them. -/
def WireFrame.decode (wire : WireFrame) (width : Nat) (planes : Avc444Planes) (client : ClientPlanes) : ClientPlanes :=
  match wire with
  | .avc444 _ encoding stream1Regions stream2Regions => fun s =>
    if ∃ r ∈ encoding.regionsFor stream1Regions stream2Regions s.role,
        r.edges.Covers (s.origin width).1 (s.origin width).2 then planes.sample s
    else client s
  | .avc420 .. | .clearcodec .. => client

/-- Two frames with the same pixels in a sample's block have the same value for the sample. -/
theorem Sample.ofFrame_congr {data other : Bytes} {stride width : Nat} {s : Sample}
    (same : ∀ px py, px / 2 = (s.block width).1 → py / 2 = (s.block width).2 → data.SamePixel other stride px py) :
    s.ofFrame data stride width = s.ofFrame other stride width := by
  have pixel : ∀ px py, px / 2 = (s.block width).1 → py / 2 = (s.block width).2 →
      bgraPixelToYuv data stride px py = bgraPixelToYuv other stride px py := by
    intro px py column row
    have bytes := same px py column row
    have blue : data.byte (py * stride + px * 4) = other.byte (py * stride + px * 4) := bytes 0 (by decide)
    unfold bgraPixelToYuv
    dsimp only
    rw [bytes 2 (by decide), bytes 1 (by decide), blue]
  obtain ⟨role, channel, row, column⟩ := s
  have here := pixel (Sample.origin ⟨role, channel, row, column⟩ width).1 (Sample.origin ⟨role, channel, row, column⟩ width).2
    rfl rfl
  cases role with
  | chroma => simp only [ofFrame, here]
  | luma =>
    cases channel with
    | y => simp only [ofFrame, here]
    | u =>
      have right := pixel (2 * column + 1) (2 * row) (by simp only [block, origin]; omega) (by simp only [block, origin])
      have below := pixel (2 * column) (2 * row + 1) (by simp only [block, origin]) (by simp only [block, origin]; omega)
      have last := pixel (2 * column + 1) (2 * row + 1) (by simp only [block, origin]; omega)
        (by simp only [block, origin]; omega)
      simp only [origin] at here
      simp only [ofFrame, origin, here, right, below, last]
    | v =>
      have right := pixel (2 * column + 1) (2 * row) (by simp only [block, origin]; omega) (by simp only [block, origin])
      have below := pixel (2 * column) (2 * row + 1) (by simp only [block, origin]) (by simp only [block, origin]; omega)
      have last := pixel (2 * column + 1) (2 * row + 1) (by simp only [block, origin]; omega)
        (by simp only [block, origin]; omega)
      simp only [origin] at here
      simp only [ofFrame, origin, here, right, below, last]

/-- Regions on the encoder's grid take whole blocks of four by two pixels. -/
theorem Covered.sameBlock {width height : Nat} {regions : List Region} (grid : ∀ r ∈ regions, OnGrid 4 2 width height r)
    {px py px' py' : Nat} (column : px / 2 = px' / 2) (row : py / 2 = py' / 2) (covered : Covered regions px py) :
    Covered regions px' py' := by
  obtain ⟨r, member, covers⟩ := covered
  obtain ⟨_, x, w, y, h⟩ := grid r member
  refine ⟨r, member, ?_⟩
  unfold Region.Covers at *
  omega

namespace Avc444Encoder

variable {enc after : Avc444Encoder} {bgra : Bytes} {stride : Nat} {regions : List Region} {debugFullFrame : Bool}
  {first second : Except String Nat} {frame : Avc444EncodedFrame} {client : ClientPlanes}

/-- What an encoder knows of its client: nothing at all, or all the samples. -/
structure Knows (enc : Avc444Encoder) (client : ClientPlanes) : Prop where
  together : enc.lumaReference = none ↔ enc.chromaReference = none
  luma : ∀ reference, enc.lumaReference = some reference → ∀ s : Sample, s.role = .luma →
    s.InFrame enc.width enc.height → client s = reference.at s
  chroma : ∀ reference, enc.chromaReference = some reference → ∀ s : Sample, s.role = .chroma →
    s.InFrame enc.width enc.height → client s = reference.at s

/-- The extents an AVC444v2 encoder accepts, within those of a desktop. -/
structure Supported (enc : Avc444Encoder) : Prop where
  columns : 0 < enc.width
  rows : 0 < enc.height
  width_lt : enc.width < 2 ^ 31
  height_lt : enc.height < 2 ^ 31
  fours : enc.width % 4 = 0
  even : enc.height % 2 = 0

def Selection.regionsFor (sel : Selection) : Avc444SubframeRole → List Region
  | .luma => sel.lumaRegions
  | .chroma => sel.chromaProtocolRegions

/-- A sample whose pixel a subframe of the selection carries. -/
def Selection.Carries (sel : Selection) (width : Nat) (s : Sample) : Prop :=
  Covered (sel.regionsFor s.role) (s.origin width).1 (s.origin width).2

/-- A selection for converted candidates: what it leaves out is what the references already hold. -/
structure Selects (enc : Avc444Encoder) (candidates : List Region) (sel : Selection) : Prop where
  lumaGrid : ∀ r ∈ sel.lumaRegions, OnGrid 2 2 enc.width enc.height r
  chromaGrid : ∀ r ∈ sel.chromaRegions, OnGrid 2 2 enc.width enc.height r
  fresh : enc.lumaReference = none → ∀ s : Sample, s.InFrame enc.width enc.height → sel.Carries enc.width s
  inside : ∀ s : Sample, s.InFrame enc.width enc.height → sel.Carries enc.width s →
    Covered candidates (s.origin enc.width).1 (s.origin enc.width).2
  lumaLeft : ∀ reference, enc.lumaReference = some reference → ∀ s : Sample, s.role = .luma →
    s.InFrame enc.width enc.height → Covered candidates (s.origin enc.width).1 (s.origin enc.width).2 →
    ¬ sel.Carries enc.width s → enc.planes.sample s = reference.at s
  places : ∀ s : Sample, s.role = .chroma → s.InFrame enc.width enc.height →
    Covered sel.chromaRegions s.packed.1 s.packed.2 → sel.Carries enc.width s
  chromaLeft : ∀ reference, enc.chromaReference = some reference → ∀ s : Sample, s.role = .chroma →
    s.InFrame enc.width enc.height → Covered candidates (s.origin enc.width).1 (s.origin enc.width).2 →
    ¬ Covered sel.chromaRegions s.packed.1 s.packed.2 → enc.planes.sample s = reference.at s

theorem Supported.fours_dvd (supported : enc.Supported) : (4 : Int) ∣ (enc.width : Int) := by
  have := supported.fours
  omega

theorem Supported.even_dvd (supported : enc.Supported) : (2 : Int) ∣ (enc.height : Int) := by
  have := supported.even
  omega

theorem Supported.origin_inFrame (supported : enc.Supported) {s : Sample} (inFrame : s.InFrame enc.width enc.height) :
    (s.origin enc.width).1 < enc.width ∧ (s.origin enc.width).2 < enc.height :=
  Sample.origin_inFrame supported.fours supported.even inFrame

/-- The pixels of a sample's block are in the frame. -/
theorem Supported.block_inFrame (supported : enc.Supported) {s : Sample} (inFrame : s.InFrame enc.width enc.height)
    {px py : Nat} (column : px / 2 = (s.block enc.width).1) (row : py / 2 = (s.block enc.width).2) :
    px < enc.width ∧ py < enc.height := by
  have origin := supported.origin_inFrame inFrame
  have fours := supported.fours
  have even := supported.even
  simp only [Sample.block] at column row
  omega

theorem full_covers {width height px py : Nat} (column : px < width) (row : py < height) :
    Covered [Region.full width height] px py :=
  (Covered.cons _ _ _ _).mpr (.inl ((Region.covers_full _ _ _ _).mpr ⟨column, row⟩))

/-- The candidates of a conversion are on the grid; forced, they are the whole frame. -/
theorem convert_candidates (supported : enc.Supported) {force : Bool} {converted : Avc444Encoder}
    {candidates : List Region} (run : enc.convert bgra stride force regions = (converted, candidates)) :
    (∀ r ∈ candidates, OnGrid 4 2 enc.width enc.height r) ∧
    ∀ px py, px < enc.width → py < enc.height → force = true ∨ Covered regions px py → Covered candidates px py := by
  unfold convert at run
  cases force with
  | true =>
    cases run
    refine ⟨fun r member => ?_, fun px py column row _ => full_covers column row⟩
    rw [List.mem_singleton.mp member]
    exact full_onGrid supported.columns supported.rows supported.fours_dvd supported.even_dvd
  | false =>
    cases run
    obtain ⟨grid, covers⟩ := alignAvc444V2ProtocolRegions_good supported.width_lt supported.height_lt supported.fours_dvd
      supported.even_dvd regions
    exact ⟨grid, fun px py column row due => covers px py column row (due.resolve_left Bool.false_ne_true)⟩

/-- The planes after a conversion show the frame inside the candidates. -/
theorem convert_planes (supported : enc.Supported) {force : Bool} {converted : Avc444Encoder}
    {candidates : List Region} (run : enc.convert bgra stride force regions = (converted, candidates)) {s : Sample}
    (inFrame : s.InFrame enc.width enc.height) (covered : Covered candidates (s.origin enc.width).1 (s.origin enc.width).2) :
    converted.planes.sample s = s.ofFrame bgra stride enc.width := by
  have grid := (convert_candidates supported run).1
  cases run
  dsimp only
  rw [bgraToAvc444V2PlaneRegions_sample bgra stride supported.width_lt supported.height_lt supported.fours grid _ inFrame,
    if_pos covered]

/-- The selection of whole subframes. -/
theorem whole_selects (supported : enc.Supported) {candidates : List Region}
    (whole : ∀ px py, px < enc.width → py < enc.height → Covered candidates px py) :
    enc.Selects candidates ⟨[.full enc.width enc.height], [.full enc.width enc.height], [.full enc.width enc.height]⟩ := by
  have grid : ∀ r ∈ [Region.full enc.width enc.height], OnGrid 2 2 enc.width enc.height r := by
    intro r member
    rw [List.mem_singleton.mp member]
    have fours := supported.fours_dvd
    exact full_onGrid supported.columns supported.rows (by omega) supported.even_dvd
  have carries : ∀ s : Sample, s.InFrame enc.width enc.height → Selection.Carries ⟨[.full enc.width enc.height],
      [.full enc.width enc.height], [.full enc.width enc.height]⟩ enc.width s := by
    intro s inFrame
    obtain ⟨column, row⟩ := supported.origin_inFrame inFrame
    unfold Selection.Carries
    cases s.role with
    | luma => exact full_covers column row
    | chroma => exact full_covers column row
  refine ⟨grid, grid, fun _ => carries, fun s inFrame _ => ?_, fun _ _ s _ inFrame _ left => ?_,
    fun s _ inFrame _ => carries s inFrame, fun _ _ s _ inFrame _ left => ?_⟩
  · obtain ⟨column, row⟩ := supported.origin_inFrame inFrame
    exact whole _ _ column row
  · exact absurd (carries s inFrame) left
  · exact absurd (full_covers inFrame.1 inFrame.2) left

theorem Sample.luma_origin {s : Sample} (luma : s.role = .luma) (width : Nat) : s.origin width = s.packed := by
  obtain ⟨role, channel, row, column⟩ := s
  cases luma
  cases channel <;> rfl

/-- A selection made by comparison with two references. -/
theorem compared_selects {candidates luma places protocol : List Region} {lumaReference chromaReference : Yuv420}
    (hasLuma : enc.lumaReference = some lumaReference) (hasChroma : enc.chromaReference = some chromaReference)
    (lumaFound : ∀ r ∈ luma, OnGrid 2 2 enc.width enc.height r ∧ ∃ c ∈ candidates, ∀ px py, r.Covers px py → c.Covers px py)
    (lumaLeft : ∀ s : Sample, Covered candidates s.packed.1 s.packed.2 → ¬ Covered luma s.packed.1 s.packed.2 →
      enc.planes.main.at s = lumaReference.at s)
    (grid : ∀ r ∈ places, OnGrid 2 2 enc.width enc.height r)
    (inside : ∀ px py, Covered protocol px py → Covered candidates px py)
    (samples : ∀ s : Sample, s.role = .chroma → s.InFrame enc.width enc.height →
      (Covered places s.packed.1 s.packed.2 → Covered protocol (s.origin enc.width).1 (s.origin enc.width).2) ∧
      (Covered candidates (s.origin enc.width).1 (s.origin enc.width).2 → ¬ Covered places s.packed.1 s.packed.2 →
        enc.planes.aux.at s = chromaReference.at s)) : enc.Selects candidates ⟨luma, places, protocol⟩ where
  lumaGrid r member := (lumaFound r member).1
  chromaGrid := grid
  fresh absent := by
    rw [hasLuma] at absent
    cases absent
  inside s _ carries := by
    unfold Selection.Carries at carries
    cases role : s.role with
    | luma =>
      rw [role] at carries
      obtain ⟨r, member, covers⟩ := carries
      obtain ⟨_, c, candidate, wider⟩ := lumaFound r member
      exact ⟨c, candidate, wider _ _ covers⟩
    | chroma =>
      rw [role] at carries
      exact inside _ _ carries
  lumaLeft reference held s role _ candidate left := by
    cases hasLuma.symm.trans held
    unfold Selection.Carries at left
    rw [role, Sample.luma_origin role] at left
    rw [Sample.luma_origin role] at candidate
    unfold Avc444Planes.sample
    rw [role]
    exact lumaLeft s candidate left
  places s role inFrame covered := by
    unfold Selection.Carries
    rw [role]
    exact (samples s role inFrame).1 covered
  chromaLeft reference held s role inFrame candidate left := by
    cases hasChroma.symm.trans held
    unfold Avc444Planes.sample
    rw [role]
    exact (samples s role inFrame).2 candidate left

/-- What the encoder selects from grid candidates. -/
theorem select_selects (supported : enc.Supported) (knows : enc.Knows client) {candidates : List Region}
    (grid : ∀ r ∈ candidates, OnGrid 4 2 enc.width enc.height r) {force : Bool}
    (whole : force = true ∨ enc.lumaReference = none → ∀ px py, px < enc.width → py < enc.height →
      Covered candidates px py) : enc.Selects candidates (enc.select force candidates) := by
  unfold select
  cases force with
  | true => exact whole_selects supported (whole (.inl rfl))
  | false =>
    rw [if_neg Bool.false_ne_true]
    cases luma : enc.lumaReference with
    | none =>
      rw [knows.together.mp luma]
      exact whole_selects supported (whole (.inr luma))
    | some lumaReference =>
      cases chroma : enc.chromaReference with
      | none => rw [knows.together.mpr chroma] at luma; cases luma
      | some chromaReference =>
        have fours := supported.fours_dvd
        have grid22 : ∀ r ∈ candidates, OnGrid 2 2 enc.width enc.height r := by
          intro r member
          obtain ⟨within, x, w, y, h⟩ := grid r member
          exact ⟨within, ⟨by omega, by omega, y, h⟩⟩
        obtain ⟨found, left⟩ := detectYuv420Regions_some supported.width_lt supported.height_lt
          (by decide : (2 : Int) ∣ 64) (by decide : (2 : Int) ∣ 64) (dvd_refl 2) (dvd_refl 2) enc.planes.main lumaReference
          grid22
        rcases detected : detectAvc444V2ChromaRegions enc.width enc.height enc.planes.aux (some chromaReference)
          candidates with ⟨places, protocol⟩
        obtain ⟨placesGrid, _, inside, samples⟩ := detectAvc444V2ChromaRegions_some supported.width_lt
          supported.height_lt fours enc.planes.aux chromaReference grid detected
        dsimp only
        split
        · rename_i still
          -- Without protocol regions no place holds a sample that changed.
          have still := List.isEmpty_iff.mp still
          refine compared_selects luma chroma found left nofun (fun px py covered => absurd covered (Covered.nil px py))
            fun s role inFrame => ⟨fun covered => absurd covered (Covered.nil _ _), fun candidate _ => ?_⟩
          refine (samples s role inFrame).2 candidate fun covered => ?_
          have moved := (samples s role inFrame).1 covered
          rw [still] at moved
          exact Covered.nil _ _ moved
        · exact compared_selects luma chroma found left placesGrid inside samples

/-- A frame that drops no chroma brings the client the selected samples. -/
theorem Carried.decode {sel : Selection} {commitChroma : Bool} {width height surface quality : Nat} {planes : Avc444Planes}
    (columns : width < 2 ^ 31) (rows : height < 2 ^ 31) (carried : Carried sel second frame commitChroma)
    (kept : second ≠ .ok 0) {s : Sample} (column : (s.origin width).1 < width) (row : (s.origin width).2 < height) :
    ((sel.Carries width s → (WireFrame.avc444 surface frame.encoding
        (damageRegionsToAvc420 frame.stream1Regions width height quality)
        (damageRegionsToAvc420 frame.stream2Regions width height quality)).decode width planes client s =
          planes.sample s) ∧
      (¬ sel.Carries width s → (WireFrame.avc444 surface frame.encoding
        (damageRegionsToAvc420 frame.stream1Regions width height quality)
        (damageRegionsToAvc420 frame.stream2Regions width height quality)).decode width planes client s = client s)) := by
  have onWire : ∀ regions : List Region, (∃ r ∈ damageRegionsToAvc420 regions width height quality,
      r.edges.Covers (s.origin width).1 (s.origin width).2) ↔ Covered regions (s.origin width).1 (s.origin width).2 := by
    intro regions
    rw [damageRegionsToAvc420_covers columns rows]
    exact ⟨fun found => found.2.2, fun covered => ⟨column, row, covered⟩⟩
  have none : ¬ ∃ r ∈ ([] : List Avc420Region), r.edges.Covers (s.origin width).1 (s.origin width).2 := by
    rintro ⟨r, member, _⟩
    cases member
  have regions : (∃ r ∈ frame.encoding.regionsFor (damageRegionsToAvc420 frame.stream1Regions width height quality)
      (damageRegionsToAvc420 frame.stream2Regions width height quality) s.role,
        r.edges.Covers (s.origin width).1 (s.origin width).2) ↔ sel.Carries width s := by
    unfold Selection.Carries
    cases carried with
    | chroma still encoding regions =>
      cases s.role with
      | luma =>
        rw [encoding]
        exact iff_of_false none (by unfold Selection.regionsFor; rw [still]; exact Covered.nil _ _)
      | chroma =>
        rw [encoding, regions]
        exact onWire _
    | luma encoding regions _ _ without =>
      cases s.role with
      | luma =>
        rw [encoding, regions]
        exact onWire _
      | chroma =>
        rw [encoding]
        refine iff_of_false none ?_
        unfold Selection.regionsFor
        rw [without.resolve_right kept]
        exact Covered.nil _ _
    | both encoding regions chroma =>
      cases s.role with
      | luma =>
        rw [encoding, regions]
        exact onWire _
      | chroma =>
        rw [encoding, chroma]
        exact onWire _
  constructor
  · intro carries
    exact if_pos (regions.mpr carries)
  · intro left
    exact if_neg fun found => left (regions.mp found)

/-- The encoder's view of the client after a frame: the candidates are up to
date, and what was up to date elsewhere stays so. -/
theorem Selects.delivers {candidates : List Region} {sel : Selection} {client' : ClientPlanes} {value : Sample → UInt8}
    (knows : enc.Knows client) (selects : enc.Selects candidates sel)
    (converted : ∀ s : Sample, s.InFrame enc.width enc.height →
      Covered candidates (s.origin enc.width).1 (s.origin enc.width).2 → enc.planes.sample s = value s)
    (settled : ∀ s : Sample, s.InFrame enc.width enc.height →
      ¬ Covered candidates (s.origin enc.width).1 (s.origin enc.width).2 → client s = value s)
    (decoded : ∀ s : Sample, s.InFrame enc.width enc.height →
      (sel.Carries enc.width s → client' s = enc.planes.sample s) ∧ (¬ sel.Carries enc.width s → client' s = client s))
    {s : Sample} (inFrame : s.InFrame enc.width enc.height) : client' s = value s := by
  obtain ⟨taken, left⟩ := decoded s inFrame
  by_cases carries : sel.Carries enc.width s
  · exact (taken carries).trans (converted s inFrame (selects.inside s inFrame carries))
  · rw [left carries]
    by_cases candidate : Covered candidates (s.origin enc.width).1 (s.origin enc.width).2
    · have shown := converted s inFrame candidate
      cases luma : enc.lumaReference with
      | none => exact absurd (selects.fresh luma s inFrame) carries
      | some lumaReference =>
        cases role : s.role with
        | luma =>
          rw [knows.luma lumaReference luma s role inFrame,
            ← selects.lumaLeft lumaReference luma s role inFrame candidate carries]
          exact shown
        | chroma =>
          cases chroma : enc.chromaReference with
          | none => rw [knows.together.mpr chroma] at luma; cases luma
          | some chromaReference =>
            have outside : ¬ Covered sel.chromaRegions s.packed.1 s.packed.2 :=
              fun covered => carries (selects.places s role inFrame covered)
            rw [knows.chroma chromaReference chroma s role inFrame,
              ← selects.chromaLeft chromaReference chroma s role inFrame candidate outside]
            exact shown
    · exact settled s inFrame candidate

theorem updateYuv420ReferenceRegions_isSome (reference : Option Yuv420) (width height : Nat) (p : Yuv420)
    (regions : List Region) : updateYuv420ReferenceRegions reference width height p regions ≠ none := by
  cases reference <;> exact Option.some_ne_none _

/-- Without a reference a delivery that commits no chroma is impossible: the selection has all the chroma. -/
theorem Selects.hasChroma {candidates : List Region} {sel : Selection} (supported : enc.Supported)
    (knows : enc.Knows client) (selects : enc.Selects candidates sel) (without : sel.chromaProtocolRegions = []) :
    enc.chromaReference ≠ none := by
  intro absent
  have carries := selects.fresh (knows.together.mpr absent) ⟨.chroma, .y, 0, 0⟩ ⟨supported.columns, supported.rows⟩
  unfold Selection.Carries Selection.regionsFor at carries
  rw [without] at carries
  exact Covered.nil _ _ carries

/-- After the commit the references hold what the client has. -/
theorem Selects.knows {candidates : List Region} {sel : Selection} {client' : ClientPlanes} (supported : enc.Supported)
    (knows : enc.Knows client) (selects : enc.Selects candidates sel)
    (decoded : ∀ s : Sample, s.InFrame enc.width enc.height →
      (sel.Carries enc.width s → client' s = enc.planes.sample s) ∧ (¬ sel.Carries enc.width s → client' s = client s))
    (luma : enc.lastLumaReferenceRegions = sel.lumaRegions) (chroma : enc.lastChromaReferenceRegions = sel.chromaRegions)
    (commit : enc.lastChromaEncoded = false → sel.chromaProtocolRegions = []) :
    enc.commitReference.Knows client' := by
  have sampleLuma : ∀ s : Sample, s.role = .luma → enc.planes.sample s = enc.planes.main.at s := by
    intro s role
    unfold Avc444Planes.sample
    rw [role]
    rfl
  have sampleChroma : ∀ s : Sample, s.role = .chroma → enc.planes.sample s = enc.planes.aux.at s := by
    intro s role
    unfold Avc444Planes.sample
    rw [role]
    rfl
  refine ⟨iff_of_false (updateYuv420ReferenceRegions_isSome _ _ _ _ _) ?_, ?_, ?_⟩
  · unfold commitReference
    dsimp only
    split
    · exact updateYuv420ReferenceRegions_isSome _ _ _ _ _
    · rename_i uncommitted
      exact selects.hasChroma supported knows (commit (Bool.eq_false_iff.mpr uncommitted))
  · intro reference updated s role inFrame
    obtain ⟨taken, left⟩ := decoded s inFrame
    have carried : sel.Carries enc.width s ↔ Covered sel.lumaRegions s.packed.1 s.packed.2 := by
      unfold Selection.Carries
      rw [role, Sample.luma_origin role]
      rfl
    unfold commitReference at updated
    dsimp only at updated
    rw [luma] at updated
    cases held : enc.lumaReference with
    | none =>
      rw [held] at updated
      cases updated
      exact (taken (selects.fresh held s inFrame)).trans (sampleLuma s role)
    | some old =>
      rw [held] at updated
      obtain ⟨_, same, value⟩ := updateYuv420ReferenceRegions_at enc.planes.main old supported.width_lt
        supported.height_lt selects.lumaGrid s
      cases same.symm.trans updated
      rw [value]
      by_cases covered : Covered sel.lumaRegions s.packed.1 s.packed.2
      · rw [if_pos covered, taken (carried.mpr covered), sampleLuma s role]
      · rw [if_neg covered, left fun carries => covered (carried.mp carries)]
        exact knows.luma old held s role inFrame
  · intro reference updated s role inFrame
    obtain ⟨taken, left⟩ := decoded s inFrame
    unfold commitReference at updated
    dsimp only at updated
    split at updated
    · rw [chroma] at updated
      cases held : enc.chromaReference with
      | none =>
        rw [held] at updated
        cases updated
        exact (taken (selects.fresh (knows.together.mpr held) s inFrame)).trans (sampleChroma s role)
      | some old =>
        rw [held] at updated
        obtain ⟨_, same, value⟩ := updateYuv420ReferenceRegions_at enc.planes.aux old supported.width_lt
          supported.height_lt selects.chromaGrid s
        cases same.symm.trans updated
        rw [value]
        by_cases covered : Covered sel.chromaRegions s.packed.1 s.packed.2
        · rw [if_pos covered, taken (selects.places s role inFrame covered), sampleChroma s role]
        · rw [if_neg covered]
          by_cases carries : sel.Carries enc.width s
          · rw [taken carries]
            exact selects.chromaLeft old held s role inFrame (selects.inside s inFrame carries) covered
          · rw [left carries]
            exact knows.chroma old held s role inFrame
    · rename_i uncommitted
      have without := commit (Bool.eq_false_iff.mpr uncommitted)
      rw [left]
      · exact knows.chroma reference updated s role inFrame
      · unfold Selection.Carries
        rw [role]
        unfold Selection.regionsFor
        rw [without]
        exact Covered.nil _ _

theorem SameReferences.supported (same : enc.SameReferences after) (supported : enc.Supported) : after.Supported := by
  obtain ⟨columns, rows, width_lt, height_lt, fours, even⟩ := supported
  rw [← same.width] at columns width_lt fours
  rw [← same.height] at rows height_lt even
  exact ⟨columns, rows, width_lt, height_lt, fours, even⟩

theorem SameReferences.knows (same : enc.SameReferences after) (knows : enc.Knows client) : after.Knows client where
  together := by
    rw [same.luma, same.chroma]
    exact knows.together
  luma reference held s role inFrame := by
    rw [same.luma] at held
    rw [same.width, same.height] at inFrame
    exact knows.luma reference held s role inFrame
  chroma reference held s role inFrame := by
    rw [same.chroma] at held
    rw [same.width, same.height] at inFrame
    exact knows.chroma reference held s role inFrame

theorem Selects.same {candidates : List Region} {sel : Selection} (same : enc.SameReferences after)
    (planes : after.planes = enc.planes) (selects : enc.Selects candidates sel) : after.Selects candidates sel := by
  obtain ⟨lumaGrid, chromaGrid, fresh, inside, lumaLeft, places, chromaLeft⟩ := selects
  simp only [← same.width, ← same.height, ← same.luma, ← same.chroma, ← planes] at *
  exact ⟨lumaGrid, chromaGrid, fresh, inside, lumaLeft, places, chromaLeft⟩

/-- Some pixel of the sample's block is in the regions. -/
def Touches (regions : List Region) (width : Nat) (s : Sample) : Prop :=
  ∃ px py, px / 2 = (s.block width).1 ∧ py / 2 = (s.block width).2 ∧ Covered regions px py

/-- A frame on the wire with no chroma dropped brings the client up to date:
inside the regions it is converted and compared, outside nothing changed. -/
theorem encode_delivers (surface quality : Nat) (supported : enc.Supported) (knows : enc.Knows client)
    (run : enc.encode bgra stride regions debugFullFrame first second = (after, .ok frame))
    (sendable : (EncodedEgfxFrame.avc444 frame).state = .sendable) (kept : second ≠ .ok 0)
    (start : enc.lumaReference = none → enc.forcing debugFullFrame = true ∨
      ∀ px py, px < enc.width → py < enc.height → Covered regions px py)
    (settled : ∀ s : Sample, s.InFrame enc.width enc.height → ¬ Touches regions enc.width s →
      enc.lumaReference ≠ none → client s = s.ofFrame bgra stride enc.width) :
    let client' := (WireFrame.avc444 surface frame.encoding
      (damageRegionsToAvc420 frame.stream1Regions enc.width enc.height quality)
      (damageRegionsToAvc420 frame.stream2Regions enc.width enc.height quality)).decode enc.width after.planes client
    after.commitReference.Knows client' ∧
    ∀ s : Sample, s.InFrame enc.width enc.height → client' s = s.ofFrame bgra stride enc.width := by
  intro client'
  rcases encode_cases run with ⟨_, _, failed⟩ | ⟨converted, candidates, conversion, selection⟩
  · cases failed
  obtain ⟨grid, wide⟩ := convert_candidates supported conversion
  have before := convert_same conversion
  obtain ⟨kept', samePlanes⟩ := encodeSelection_same selection
  obtain ⟨lumaRegions, chromaRegions, carried⟩ := encodeSelection_sendable selection sendable
  -- From here on everything is said of the encoder after the conversion.
  have knowsNow := before.knows knows
  have supportedNow := before.supported supported
  rw [← before.width, ← before.height] at grid
  have whole : enc.forcing debugFullFrame = true ∨ converted.lumaReference = none →
      ∀ px py, px < converted.width → py < converted.height → Covered candidates px py := by
    intro due px py column row
    rw [before.width] at column
    rw [before.height] at row
    rcases due with forced | blank
    · exact wide px py column row (.inl forced)
    · exact wide px py column row ((start (before.luma.symm.trans blank)).imp_right fun all => all px py column row)
  have selects := select_selects supportedNow knowsNow grid whole
  have decoded : ∀ s : Sample, s.InFrame converted.width converted.height →
      ((converted.select (enc.forcing debugFullFrame) candidates).Carries converted.width s →
        client' s = converted.planes.sample s) ∧
      (¬ (converted.select (enc.forcing debugFullFrame) candidates).Carries converted.width s →
        client' s = client s) := by
    intro s inFrame
    obtain ⟨column, row⟩ := supportedNow.origin_inFrame inFrame
    simp only [client', samePlanes, ← before.width, ← before.height]
    exact carried.decode supportedNow.width_lt supportedNow.height_lt kept column row
  have committed : after.lastChromaEncoded = false →
      (converted.select (enc.forcing debugFullFrame) candidates).chromaProtocolRegions = [] := by
    intro uncommitted
    cases carried with
    | chroma _ _ _ _ commit => rw [uncommitted] at commit; cases commit
    | luma _ _ _ _ without => exact without.resolve_right kept
    | both _ _ _ commit => rw [uncommitted] at commit; cases commit
  constructor
  · refine (selects.same kept' samePlanes).knows (kept'.supported supportedNow) (kept'.knows knowsNow) ?_ lumaRegions
      chromaRegions committed
    rw [kept'.width, kept'.height, samePlanes]
    exact decoded
  · intro s inFrame
    have shown : ∀ s : Sample, s.InFrame converted.width converted.height →
        Covered candidates (s.origin converted.width).1 (s.origin converted.width).2 →
        converted.planes.sample s = s.ofFrame bgra stride enc.width := by
      intro s inFrame
      rw [before.width] at inFrame ⊢
      rw [before.height] at inFrame
      exact convert_planes supported conversion inFrame
    have elsewhere : ∀ s : Sample, s.InFrame converted.width converted.height →
        ¬ Covered candidates (s.origin converted.width).1 (s.origin converted.width).2 →
        client s = s.ofFrame bgra stride enc.width := by
      intro s inFrame outside
      have origin := supportedNow.origin_inFrame inFrame
      refine settled s (by rw [← before.width, ← before.height]; exact inFrame) ?_ fun blank => ?_
      · rintro ⟨px, py, column, row, covered⟩
        rw [← before.width] at column row
        obtain ⟨inColumns, inRows⟩ := supportedNow.block_inFrame inFrame column row
        rw [before.width] at inColumns
        rw [before.height] at inRows
        exact outside (Covered.sameBlock grid column row (wide px py inColumns inRows (.inr covered)))
      · exact outside (whole (.inr (before.luma.trans blank)) _ _ origin.1 origin.2)
    rw [← before.width, ← before.height] at inFrame
    exact selects.delivers knowsNow shown elsewhere decoded inFrame

end Avc444Encoder

end HyprRdp
