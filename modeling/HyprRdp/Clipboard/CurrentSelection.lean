import HyprRdp.Clipboard.CachedSelection

namespace HyprRdp

namespace ClipState

open ClipboardFormatId

variable {s t : ClipState} {bitmap : BitmapApi} {filePath : List UInt8 → Option (List UInt8)} {event : SelectionEvent}
  {mimes : List String}

/-- A cache holds nothing of an earlier selection, and its format was announced exactly when it holds something. -/
structure Slot (s : ClipState) (format : Nat) (cache : Option Cached) : Prop where
  current : ∀ cached, cache = some cached → cached.event = s.events
  announced : format ∈ s.announced ↔ cache.isSome = true

structure Current (s : ClipState) : Prop where
  text : s.Slot cfUnicodeText s.clipboardData
  image : s.Slot cfDib s.clipboardImage

/-- Nothing that is cached comes from a selection that is still to come. -/
structure Past (s : ClipState) : Prop where
  text : ∀ cached, s.clipboardData = some cached → cached.event ≤ s.events
  image : ∀ cached, s.clipboardImage = some cached → cached.event ≤ s.events

/-- A selection with an offer that is not known finds both caches empty, and
one that offers an image finds the image cache empty or fills it. -/
def Renews (s : ClipState) (bitmap : BitmapApi) (event : SelectionEvent) : Prop :=
  match event.id.map fun id => s.offerMimes.lookup id with
  | none => True
  | some none => s.clipboardData = none ∧ s.clipboardImage = none
  | some (some mimes) =>
    s.clipboardImage = none ∨ ∀ mime ∈ SelectionKind.image.offeredWaylandMime mimes, event.dib bitmap mime ≠ none

instance (s : ClipState) (bitmap : BitmapApi) (event : SelectionEvent) : Decidable (s.Renews bitmap event) :=
  match offer : event.id.map fun id => s.offerMimes.lookup id with
  | none => isTrue (by unfold Renews; rw [offer]; trivial)
  | some none => decidable_of_iff (s.clipboardData = none ∧ s.clipboardImage = none) (by unfold Renews; rw [offer])
  | some (some mimes) =>
    decidable_of_iff (s.clipboardImage = none ∨
      ∀ mime ∈ SelectionKind.image.offeredWaylandMime mimes, event.dib bitmap mime ≠ none) (by unfold Renews; rw [offer])

def Renewing (bitmap : BitmapApi) (s : ClipState) : Action → Prop
  | .selection event => (s.selectionIsOurEcho event.now).2 = false → s.Renews bitmap event
  | _ => True

instance (bitmap : BitmapApi) (s : ClipState) : DecidablePred (Renewing bitmap s)
  | .selection event => inferInstanceAs (Decidable ((s.selectionIsOurEcho event.now).2 = false → s.Renews bitmap event))
  | .dataOffer _ | .offer _ _ | .write _ | .takePendingWrite _ | .requestFormatList | .takeEchoCandidate | .changeFiles _
  | .disconnect => inferInstanceAs (Decidable True)

/-- What the caches and the announcement are is the same. -/
structure Alike (s t : ClipState) : Prop where
  events : t.events = s.events
  announced : t.announced = s.announced
  text : t.clipboardData = s.clipboardData
  image : t.clipboardImage = s.clipboardImage

theorem Slot.congr {format : Nat} {cache : Option Cached} (slot : s.Slot format cache) (events : t.events = s.events)
    (announced : format ∈ t.announced ↔ format ∈ s.announced) : t.Slot format cache :=
  ⟨fun cached holds => (slot.current cached holds).trans events.symm, announced.trans slot.announced⟩

theorem Alike.current (alike : Alike s t) (current : s.Current) : t.Current := by
  have announced (format : Nat) : format ∈ t.announced ↔ format ∈ s.announced := by rw [alike.announced]
  refine ⟨?_, ?_⟩
  · rw [alike.text]
    exact current.text.congr alike.events (announced _)
  · rw [alike.image]
    exact current.image.congr alike.events (announced _)

theorem Slot.empty {format : Nat} (silent : format ∉ s.announced) : s.Slot format none :=
  ⟨nofun, by simp [silent]⟩

theorem Slot.filled {format : Nat} {data : List UInt8} (announced : format ∈ s.announced) :
    s.Slot format (some ⟨data, s.events⟩) := by
  refine ⟨fun cached holds => ?_, by simp [announced]⟩
  cases holds
  rfl

theorem announceLocalFormats_alike (s : ClipState) (formats : List Nat) : Alike s (s.announceLocalFormats formats) := by
  unfold announceLocalFormats
  split <;> exact ⟨rfl, rfl, rfl, rfl⟩

theorem readText_cases (s : ClipState) (event : SelectionEvent) (mimes : List String) :
    (SelectionKind.text.offeredWaylandMime mimes = none ∧ s.readText event mimes = s) ∨
    s.readText event mimes = { s with clipboardData := none } ∨
    ∃ data, s.readText event mimes =
      { s with clipboardData := some ⟨data, s.events⟩, announced := s.announced ++ [cfUnicodeText] } := by
  unfold readText
  cases offered : SelectionKind.text.offeredWaylandMime mimes with
  | none => exact .inl ⟨rfl, rfl⟩
  | some mime =>
    refine .inr ?_
    dsimp only
    cases event.text mime with
    | none => exact .inl rfl
    | some data =>
      dsimp only
      split
      · exact .inl rfl
      · exact .inr ⟨data, rfl⟩

theorem readImage_cases (s : ClipState) (bitmap : BitmapApi) (event : SelectionEvent) (mimes : List String) :
    (s.readImage bitmap event mimes = s ∧
      ∀ mime, SelectionKind.image.offeredWaylandMime mimes = some mime → event.dib bitmap mime = none) ∨
    ∃ mime dib, SelectionKind.image.offeredWaylandMime mimes = some mime ∧ event.dib bitmap mime = some dib ∧
      s.readImage bitmap event mimes =
        { s with clipboardImage := some ⟨dib, s.events⟩, announced := s.announced ++ [cfDib] } := by
  unfold readImage
  cases offered : SelectionKind.image.offeredWaylandMime mimes with
  | none => exact .inl ⟨rfl, nofun⟩
  | some mime =>
    dsimp only
    cases read : event.dib bitmap mime with
    | none =>
      refine .inl ⟨rfl, fun other same => ?_⟩
      cases same
      exact read
    | some dib => exact .inr ⟨mime, dib, rfl, read, rfl⟩

theorem freeze_alike (s : ClipState) (paths : List (List UInt8)) (taken : Bool) : Alike s (s.freeze paths taken).1 := by
  unfold freeze
  split <;> exact ⟨rfl, rfl, rfl, rfl⟩

theorem readFiles_cases (s : ClipState) (filePath : List UInt8 → Option (List UInt8)) (event : SelectionEvent)
    (mimes : List String) :
    Alike s (s.readFiles filePath event mimes) ∨
    ∃ uriList, Alike { s with clipboardData := some ⟨uriList, s.events⟩, announced := s.announced ++ [cfUnicodeText] }
      (s.readFiles filePath event mimes) := by
  unfold readFiles
  cases SelectionKind.files.offeredWaylandMime mimes with
  | none => exact .inl ⟨rfl, rfl, rfl, rfl⟩
  | some mime =>
    dsimp only
    cases event.read mime with
    | none => exact .inl ⟨rfl, rfl, rfl, rfl⟩
    | some uriList =>
      have frozen := s.freeze_alike (uriListPaths filePath uriList) event.taken
      dsimp only
      split
      · exact .inr ⟨uriList, frozen.events, rfl, rfl, frozen.image⟩
      · exact .inl frozen

theorem dib_silent {announced : List Nat} : cfDib ∈ announced ++ [cfUnicodeText] ↔ cfDib ∈ announced := by
  simp [cfDib, cfUnicodeText]

theorem text_silent {announced : List Nat} : cfUnicodeText ∈ announced ++ [cfDib] ↔ cfUnicodeText ∈ announced := by
  simp [cfDib, cfUnicodeText]

/-- The text cache is cleared before it is read into, whatever the reads give. -/
theorem readOffer_text (silent : s.announced = []) :
    (s.readOffer bitmap filePath event mimes).Slot cfUnicodeText (s.readOffer bitmap filePath event mimes).clipboardData := by
  have quiet : cfUnicodeText ∉ s.announced := by simp [silent]
  unfold readOffer
  split
  · exact .empty quiet
  have read : ((s.clearUnoffered mimes).readText event mimes).Slot cfUnicodeText
      ((s.clearUnoffered mimes).readText event mimes).clipboardData := by
    rcases (s.clearUnoffered mimes).readText_cases event mimes with ⟨unoffered, same⟩ | cleared | ⟨data, filled⟩
    · have none : (s.clearUnoffered mimes).clipboardData = none := if_pos (Option.isNone_iff_eq_none.mpr unoffered)
      rw [same, none]
      exact .empty quiet
    · rw [cleared]
      exact .empty quiet
    · rw [filled]
      exact .filled (List.mem_append_right _ List.mem_cons_self)
  generalize (s.clearUnoffered mimes).readText event mimes = t at read ⊢
  have image : (t.readImage bitmap event mimes).Slot cfUnicodeText (t.readImage bitmap event mimes).clipboardData := by
    rcases t.readImage_cases bitmap event mimes with ⟨same, _⟩ | ⟨_, _, _, _, filled⟩
    · rw [same]
      exact read
    · rw [filled]
      exact read.congr rfl text_silent
  generalize t.readImage bitmap event mimes = u at image ⊢
  have announced := (u.readFiles filePath event mimes).announceLocalFormats_alike (u.readFiles filePath event mimes).announced
  rw [announced.text]
  refine Slot.congr ?_ announced.events (by rw [announced.announced])
  rcases u.readFiles_cases filePath event mimes with same | ⟨uriList, filled⟩
  · rw [same.text]
    exact image.congr same.events (by rw [same.announced])
  · rw [filled.text]
    refine Slot.congr (s := { u with announced := u.announced ++ [cfUnicodeText] }) ?_ filled.events (by rw [filled.announced])
    exact .filled (List.mem_append_right _ List.mem_cons_self)

/-- The image cache is emptied only where no image is offered. -/
theorem readOffer_image (silent : s.announced = []) (bitmap : BitmapApi) (filePath : List UInt8 → Option (List UInt8))
    (event : SelectionEvent) (mimes : List String) :
    let t := s.readOffer bitmap filePath event mimes
    t.events = s.events ∧
      ((cfDib ∉ t.announced ∧ t.clipboardImage = none ∧ SelectionKind.image.offeredWaylandMime mimes = none) ∨
      (∃ mime dib, SelectionKind.image.offeredWaylandMime mimes = some mime ∧ event.dib bitmap mime = some dib ∧
        cfDib ∈ t.announced ∧ t.clipboardImage = some ⟨dib, s.events⟩) ∨
      ∃ mime, SelectionKind.image.offeredWaylandMime mimes = some mime ∧ event.dib bitmap mime = none ∧
        cfDib ∉ t.announced ∧ t.clipboardImage = s.clipboardImage) := by
  have quiet : cfDib ∉ s.announced := by simp [silent]
  unfold readOffer
  split
  · rename_i unsupported
    have unoffered := List.all_eq_true.mp unsupported .image (by simp [SelectionKind.all])
    exact ⟨rfl, .inl ⟨quiet, rfl, Option.isNone_iff_eq_none.mp unoffered⟩⟩
  have text : ∃ t, (s.clearUnoffered mimes).readText event mimes = t ∧ t.events = s.events ∧ cfDib ∉ t.announced ∧
      t.clipboardImage = (s.clearUnoffered mimes).clipboardImage := by
    refine ⟨_, rfl, ?_⟩
    rcases (s.clearUnoffered mimes).readText_cases event mimes with ⟨_, same⟩ | cleared | ⟨data, filled⟩
    · rw [same]
      exact ⟨rfl, quiet, rfl⟩
    · rw [cleared]
      exact ⟨rfl, quiet, rfl⟩
    · rw [filled]
      exact ⟨rfl, fun announced => quiet (dib_silent.mp announced), rfl⟩
  obtain ⟨t, read, events, stillQuiet, kept⟩ := text
  rw [read]
  have last (u : ClipState) : ∃ v, (u.readFiles filePath event mimes).announceLocalFormats
      (u.readFiles filePath event mimes).announced = v ∧ v.events = u.events ∧ (cfDib ∈ v.announced ↔ cfDib ∈ u.announced) ∧
        v.clipboardImage = u.clipboardImage := by
    have announced := (u.readFiles filePath event mimes).announceLocalFormats_alike (u.readFiles filePath event mimes).announced
    refine ⟨_, rfl, ?_⟩
    rw [announced.events, announced.announced, announced.image]
    rcases u.readFiles_cases filePath event mimes with same | ⟨uriList, filled⟩
    · rw [same.events, same.announced, same.image]
      exact ⟨rfl, Iff.rfl, rfl⟩
    · rw [filled.events, filled.announced, filled.image]
      exact ⟨rfl, dib_silent, rfl⟩
  obtain ⟨v, announced, lastEvents, lastAnnounced, lastImage⟩ := last (t.readImage bitmap event mimes)
  dsimp only
  rw [announced, lastEvents, lastAnnounced, lastImage]
  rcases t.readImage_cases bitmap event mimes with ⟨same, failed⟩ | ⟨mime, dib, offered, converted, filled⟩
  · rw [same, kept]
    refine ⟨events, ?_⟩
    cases offered : SelectionKind.image.offeredWaylandMime mimes with
    | none => exact .inl ⟨stillQuiet, if_pos (Option.isNone_iff_eq_none.mpr offered), rfl⟩
    | some mime =>
      refine .inr (.inr ⟨mime, rfl, failed mime offered, stillQuiet, if_neg ?_⟩)
      rw [offered]
      exact Bool.false_ne_true
  · rw [filled]
    exact ⟨events, .inr (.inl ⟨mime, dib, offered, converted, List.mem_append_right _ List.mem_cons_self, by rw [← events]⟩)⟩

theorem Slot.earlier {format : Nat} {cache : Option Cached} (slot : s.Slot format cache)
    (earlier : ∀ cached, cache = some cached → cached.event < s.events) : cache = none := by
  cases cache with
  | none => rfl
  | some cached =>
    have current := slot.current cached rfl
    have before := earlier cached rfl
    omega

/-- Of all the selections that are not our own echo, those that renew the
caches are exactly the ones after which nothing earlier is cached. -/
theorem replaceSelection_current_iff (past : s.Past) (bitmap : BitmapApi) (filePath : List UInt8 → Option (List UInt8))
    (event : SelectionEvent) : (s.replaceSelection bitmap filePath event).Current ↔ s.Renews bitmap event := by
  have textBefore : ∀ cached, s.clipboardData = some cached → cached.event < s.events + 1 :=
    fun cached holds => Nat.lt_succ_of_le (past.text cached holds)
  have imageBefore : ∀ cached, s.clipboardImage = some cached → cached.event < s.events + 1 :=
    fun cached holds => Nat.lt_succ_of_le (past.image cached holds)
  unfold replaceSelection Renews
  cases isOffer : event.id with
  | none =>
    refine ⟨fun _ => trivial, fun _ => ⟨?_, ?_⟩⟩
    · exact .empty List.not_mem_nil
    · exact .empty List.not_mem_nil
  | some id =>
    dsimp only [Option.map_some]
    cases s.offerMimes.lookup id with
    | none =>
      refine ⟨fun current => ⟨current.text.earlier textBefore, current.image.earlier imageBefore⟩, fun empty => ⟨?_, ?_⟩⟩
      · show Slot _ _ s.clipboardData
        rw [empty.1]
        exact .empty List.not_mem_nil
      · show Slot _ _ s.clipboardImage
        rw [empty.2]
        exact .empty List.not_mem_nil
    | some mimes =>
      dsimp only
      have start : ∃ t : ClipState, ({ s.localOwnerChanged with
          echoCandidate := none, events := s.events + 1, announced := [] } : ClipState).removeOffer id = t ∧
          t.announced = [] ∧ t.events = s.events + 1 ∧ t.clipboardImage = s.clipboardImage := ⟨_, rfl, rfl, rfl, rfl⟩
      obtain ⟨t, same, silent, events, image⟩ := start
      rw [same]
      obtain ⟨lastEvents, outcome⟩ := t.readOffer_image silent bitmap filePath event mimes
      have text := @readOffer_text t bitmap filePath event mimes silent
      generalize t.readOffer bitmap filePath event mimes = u at lastEvents outcome text ⊢
      rcases outcome with ⟨quiet, empty, unoffered⟩ | ⟨mime, dib, offered, converted, announced, filled⟩ |
        ⟨mime, offered, failed, quiet, kept⟩
      · refine ⟨fun _ => .inr fun mime offered => ?_, fun _ => ⟨text, ?_⟩⟩
        · rw [unoffered] at offered
          cases offered
        · rw [empty]
          exact .empty quiet
      · refine ⟨fun _ => .inr fun other same => ?_, fun _ => ⟨text, ?_⟩⟩
        · cases offered.symm.trans same
          rw [converted]
          exact Option.some_ne_none dib
        · rw [filled, ← lastEvents]
          exact .filled announced
      · have stays : u.clipboardImage = s.clipboardImage := kept.trans image
        refine ⟨fun current => .inl ?_, fun renews => ⟨text, ?_⟩⟩
        · have slot := current.image
          rw [stays] at slot
          exact slot.earlier fun cached holds => by rw [lastEvents, events]; exact imageBefore cached holds
        · rw [stays, renews.resolve_right fun converts => converts mime offered failed]
          exact .empty quiet

theorem Current.past (current : s.Current) : s.Past :=
  ⟨fun cached holds => (current.text.current cached holds).le, fun cached holds => (current.image.current cached holds).le⟩

theorem selectionIsOurEcho_alike (s : ClipState) (now : Nat) : Alike s (s.selectionIsOurEcho now).1 ∧
    (s.selectionIsOurEcho now).1.offerMimes = s.offerMimes := by
  unfold selectionIsOurEcho
  split
  · exact ⟨⟨rfl, rfl, rfl, rfl⟩, rfl⟩
  · split <;> exact ⟨⟨rfl, rfl, rfl, rfl⟩, rfl⟩

theorem Renews.alike (renews : s.Renews bitmap event) (alike : Alike s t) (offers : t.offerMimes = s.offerMimes) :
    t.Renews bitmap event := by
  unfold Renews
  rw [alike.text, alike.image, offers]
  exact renews

theorem next_alike {action : Action} (other : ∀ event, action ≠ .selection event)
    (step : next bitmap filePath s action = some t) : Alike s t := by
  cases action with
  | selection event => exact absurd rfl (other event)
  | takePendingWrite now =>
    cases step
    unfold takePendingWrite
    split <;> exact ⟨rfl, rfl, rfl, rfl⟩
  | requestFormatList =>
    cases step
    obtain ⟨events, announced, text, image⟩ := s.announceLocalFormats_alike s.localFormats
    exact ⟨events, announced, text, image⟩
  | _ =>
    cases step
    exact ⟨rfl, rfl, rfl, rfl⟩

theorem selection_current (current : s.Current) (bitmap : BitmapApi) (filePath : List UInt8 → Option (List UInt8))
    (event : SelectionEvent) (renewing : (s.selectionIsOurEcho event.now).2 = false → s.Renews bitmap event) :
    (s.selection bitmap filePath event).Current := by
  obtain ⟨alike, offers⟩ := s.selectionIsOurEcho_alike event.now
  have stays := alike.current current
  unfold selection
  generalize s.selectionIsOurEcho event.now = result at renewing alike offers stays ⊢
  obtain ⟨t, isEcho⟩ := result
  cases isEcho with
  | false => exact (replaceSelection_current_iff stays.past bitmap filePath event).mpr ((renewing rfl).alike alike offers)
  | true =>
    dsimp only
    cases event.id with
    | none => exact stays
    | some id =>
      have removed : Alike t (t.removeOffer id) := ⟨rfl, rfl, rfl, rfl⟩
      exact removed.current stays

theorem next_current {action : Action} (current : s.Current) (renewing : Renewing bitmap s action)
    (step : next bitmap filePath s action = some t) : t.Current := by
  by_cases selects : ∃ event, action = .selection event
  · obtain ⟨event, rfl⟩ := selects
    cases step
    exact selection_current current bitmap filePath event renewing
  · exact (next_alike (not_exists.mp selects) step).current current

theorem new_current (worker : Bool) : (new worker).Current := ⟨.empty List.not_mem_nil, .empty List.not_mem_nil⟩

theorem reach_current {worker : Bool} (reach : ((runs bitmap filePath worker).guarded (Renewing bitmap)).Reach s) :
    s.Current := by
  have keep : ((runs bitmap filePath worker).guarded (Renewing bitmap)).Inductive Current := by
    refine ⟨?_, ?_⟩
    · rintro s rfl
      exact new_current worker
    · intro s action t current step
      exact next_current current step.1 step.2
  exact keep.reach reach

/-- A cache that a format list or an answer is made from. -/
theorem mem_localFormats {format : Nat} (listed : format ∈ s.localFormats) :
    (format = cfUnicodeText ∧ ∃ cached, s.clipboardData = some cached ∧ cached.data ≠ []) ∨
    (format = cfDib ∧ ∃ cached, s.clipboardImage = some cached ∧ cached.data ≠ []) := by
  obtain ⟨kind, member, isFormat⟩ := List.mem_filterMap.mp listed
  have has := (List.mem_filter.mp member).2
  cases kind with
  | text =>
    obtain ⟨cached, holds, filled⟩ := (Option.any_eq_true _ _).mp has
    exact .inl ⟨(Option.some.inj isFormat).symm, cached, holds, by simpa using filled⟩
  | image =>
    obtain ⟨cached, holds, filled⟩ := (Option.any_eq_true _ _).mp has
    exact .inr ⟨(Option.some.inj isFormat).symm, cached, holds, by simpa using filled⟩
  | files => cases has

theorem onFormatDataRequest_cases (s : ClipState) (unicodeString : List UInt8 → FormatDataResponse) (format : Nat) :
    s.onFormatDataRequest unicodeString format = .error ∨
    (∃ cached, s.clipboardData = some cached ∧
      s.onFormatDataRequest unicodeString format = unicodeString (toCrlf (utf8Lossy cached.data))) ∨
    ∃ cached, s.clipboardImage = some cached ∧ s.onFormatDataRequest unicodeString format = ⟨false, cached.data⟩ := by
  unfold onFormatDataRequest
  split
  · split
    · exact .inl rfl
    · rename_i cached holds
      split
      · exact .inl rfl
      · exact .inr (.inl ⟨cached, holds, rfl⟩)
  · split
    · exact .inl rfl
    · rename_i cached holds
      split
      · exact .inl rfl
      · exact .inr (.inr ⟨cached, holds, rfl⟩)
  · exact .inl rfl
  · exact .inl rfl

/-- Where every selection renews the caches, what they hold was read from the last selection's offer, the formats
announced for it are those of the caches that it filled, and no list of formats and no answer is made of anything else. -/
theorem caches_follow_selection {worker : Bool} (reach : ((runs bitmap filePath worker).guarded (Renewing bitmap)).Reach s)
    (unicodeString : List UInt8 → FormatDataResponse) :
    (∀ cached, s.clipboardData = some cached → cached.event = s.events) ∧
    (∀ cached, s.clipboardImage = some cached → cached.event = s.events) ∧
    (cfUnicodeText ∈ s.announced ↔ s.clipboardData.isSome = true) ∧ (cfDib ∈ s.announced ↔ s.clipboardImage.isSome = true) ∧
    (∀ format ∈ s.localFormats, format ∈ s.announced) ∧
    ∀ format, s.onFormatDataRequest unicodeString format = .error ∨
      (∃ cached, s.clipboardData = some cached ∧ cached.event = s.events ∧
        s.onFormatDataRequest unicodeString format = unicodeString (toCrlf (utf8Lossy cached.data))) ∨
      ∃ cached, s.clipboardImage = some cached ∧ cached.event = s.events ∧
        s.onFormatDataRequest unicodeString format = ⟨false, cached.data⟩ := by
  obtain ⟨text, image⟩ := reach_current reach
  refine ⟨text.current, image.current, text.announced, image.announced, ?_, ?_⟩
  · intro format listed
    rcases mem_localFormats listed with ⟨rfl, cached, holds, _⟩ | ⟨rfl, cached, holds, _⟩
    · exact text.announced.mpr (by rw [holds]; rfl)
    · exact image.announced.mpr (by rw [holds]; rfl)
  · intro format
    rcases s.onFormatDataRequest_cases unicodeString format with error | ⟨cached, holds, answer⟩ | ⟨cached, holds, answer⟩
    · exact .inl error
    · exact .inr (.inl ⟨cached, holds, text.current cached holds, answer⟩)
    · exact .inr (.inr ⟨cached, holds, image.current cached holds, answer⟩)

/-- A conversion that takes the bytes of an image as they are. -/
def plainBitmap : BitmapApi := ⟨some, some, some⟩

def imageCopied : List Action :=
  [.dataOffer 1, .offer 1 imagePngMime, .selection ⟨some 1, 0, fun _ => some [7], false⟩]

/-- The image of the first selection is still announced and served after the second one, whose image
cannot be read, and after one whose offer is not known. -/
theorem earlier_image_served :
    (∃ s, (runs plainBitmap some false).Reach s ∧ s.events = 2 ∧ s.clipboardImage = some ⟨[7], 1⟩ ∧ s.localFormats = [cfDib] ∧
      s.onFormatDataRequest (fun text => ⟨false, text⟩) cfDib = ⟨false, [7]⟩) ∧
    ∃ s, (runs plainBitmap some false).Reach s ∧ s.events = 2 ∧ s.clipboardImage = some ⟨[7], 1⟩ ∧ s.localFormats = [cfDib] ∧
      s.onFormatDataRequest (fun text => ⟨false, text⟩) cfDib = ⟨false, [7]⟩ := by
  have stale : ∀ more : List Action, ((StepSystem.exec (next plainBitmap some) (new false) (imageCopied ++ more)).map
      fun s => (s.events, s.clipboardImage, s.localFormats, s.onFormatDataRequest (fun text => ⟨false, text⟩) cfDib)) =
        some (2, some ⟨[7], 1⟩, [cfDib], ⟨false, [7]⟩) →
      ∃ s, (runs plainBitmap some false).Reach s ∧ s.events = 2 ∧ s.clipboardImage = some ⟨[7], 1⟩ ∧
        s.localFormats = [cfDib] ∧ s.onFormatDataRequest (fun text => ⟨false, text⟩) cfDib = ⟨false, [7]⟩ := by
    intro more run
    obtain ⟨s, run, facts⟩ := Option.map_eq_some_iff.mp run
    exact ⟨s, StepSystem.exec_reach _ (.start rfl) run, by simpa only [Prod.mk.injEq] using facts⟩
  refine ⟨stale [.dataOffer 2, .offer 2 imagePngMime, .selection ⟨some 2, 1000, fun _ => none, false⟩] (by decide), ?_⟩
  exact stale [.selection ⟨some 2, 1000, fun _ => none, false⟩] (by decide)

/-- A text replaces the image, and is all that is announced and served. -/
theorem caches_follow_selection_once : ∃ s, ((runs plainBitmap some false).guarded (Renewing plainBitmap)).Reach s ∧
    s.localFormats = [cfUnicodeText] ∧ (∀ format ∈ s.localFormats, format ∈ s.announced) ∧
      ∀ cached, s.clipboardData = some cached → cached.event = 2 := by
  have run : ((StepSystem.exec (fun s action => if Renewing plainBitmap s action then next plainBitmap some s action else none)
      (new false) (imageCopied ++ [Action.dataOffer 2, .offer 2 utf8Mime, .selection ⟨some 2, 1000, fun _ => some [97], false⟩])).map
        fun s => (s.events, s.localFormats)) = some (2, [cfUnicodeText]) := by
    decide
  obtain ⟨s, run, facts⟩ := Option.map_eq_some_iff.mp run
  obtain ⟨events, formats⟩ : s.events = 2 ∧ s.localFormats = [cfUnicodeText] := by
    simpa only [Prod.mk.injEq] using facts
  have reach := StepSystem.guarded_exec_reach _ (.start rfl) run
  obtain ⟨text, _, _, _, listed, _⟩ := caches_follow_selection reach fun text => ⟨false, text⟩
  exact ⟨s, reach, formats, listed, fun cached holds => events ▸ text cached holds⟩

end ClipState

end HyprRdp
