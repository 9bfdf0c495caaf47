import HyprRdp.Clipboard.RemoteCopies

namespace HyprRdp

namespace RemoteCopy

variable {copy : RemoteCopy}

theorem request_some {selection : RemoteSelectionRequest} (requested : copy.request = some selection) :
    copy.preferred = some selection.format ∧ copy.fileGeneration = selection.fileGeneration := by
  obtain ⟨format, preferred, rfl⟩ := Option.map_eq_some_iff.mp requested
  exact ⟨preferred, rfl⟩

theorem request_none (unusable : copy.request = none) : copy.preferred = none := Option.map_eq_none_iff.mp unusable

theorem fileGeneration_eq {generation : Nat} (belongs : copy.fileGeneration = some generation) :
    copy.generation = some generation := (Option.ite_none_right_eq_some.mp belongs).2

end RemoteCopy

namespace HyprCliprdrBackend

variable {Fetch : Type} {s t : HyprCliprdrBackend Fetch} {bitmap : BitmapApi} {maxEntries : Nat}

/-- The last copy was asked for in its preferred format, or there was nothing to ask for, or not any more. -/
def Settled (s : HyprCliprdrBackend Fetch) : Prop :=
  s.connected = true → ∀ copy, s.copies.getLast? = some copy →
    (∃ request, s.requests.getLast? = some request ∧ request.copies = s.copies.length ∧
      copy.preferred = some request.format) ∨
    copy.preferred = none ∨ ∃ generation, copy.fileGeneration = some generation ∧ generation ∈ s.retired

/-- One request is not answered yet. -/
structure Outstanding (s : HyprCliprdrBackend Fetch) (request : PasteRequest) : Prop where
  last : s.requests.getLast? = some request
  answers : s.requests.length = s.answers + 1
  format : s.lastRequestedFormat = some request.format

/-- The backend knows what the next answer is for. -/
inductive Attributed (s : HyprCliprdrBackend Fetch) : Prop
  | idle (free : s.remoteRequest = none) (format : s.lastRequestedFormat = none) (answers : s.answers = s.requests.length)
      (settled : s.Settled)
  | waiting (request : PasteRequest) (copy : RemoteCopy) (fileGeneration : Option Nat)
      (waits : s.remoteRequest = some (.waiting fileGeneration)) (outstanding : s.Outstanding request)
      (last : s.copies.getLast? = some copy) (latest : request.copies = s.copies.length)
      (requested : copy.request = some ⟨request.format, fileGeneration⟩)
  | draining (request : PasteRequest) (copy : RemoteCopy)
      (drains : s.remoteRequest = some (.draining copy.request)) (outstanding : s.Outstanding request)
      (last : s.copies.getLast? = some copy) (superseded : request.copies < s.copies.length)
      (alive : ∀ generation, copy.fileGeneration = some generation →
        s.generation = some generation ∨ generation ∈ s.retired)

/-- Nothing that concerns the remote copies happened, but the file side may have moved on. -/
structure Aside (s t : HyprCliprdrBackend Fetch) : Prop where
  remoteRequest : t.remoteRequest = s.remoteRequest
  format : t.lastRequestedFormat = s.lastRequestedFormat
  copies : t.copies = s.copies
  requests : t.requests = s.requests
  answers : t.answers = s.answers
  connected : t.connected = true → s.connected = true
  retired : s.retired ⊆ t.retired
  alive : ∀ generation, s.generation = some generation → t.generation = some generation ∨ generation ∈ t.retired

theorem Outstanding.aside {request : PasteRequest} (outstanding : s.Outstanding request) (aside : Aside s t) :
    t.Outstanding request where
  last := by rw [aside.requests]; exact outstanding.last
  answers := by rw [aside.requests, aside.answers]; exact outstanding.answers
  format := by rw [aside.format]; exact outstanding.format

theorem Attributed.aside (attributed : s.Attributed) (aside : Aside s t) : t.Attributed := by
  cases attributed with
  | idle free format answers settled =>
    refine .idle (aside.remoteRequest.trans free) (aside.format.trans format) ?_ ?_
    · rw [aside.answers, aside.requests]
      exact answers
    · intro connected copy last
      rw [aside.copies] at last ⊢
      rw [aside.requests]
      rcases settled (aside.connected connected) copy last with asked | unusable | ⟨generation, belongs, ended⟩
      · exact .inl asked
      · exact .inr (.inl unusable)
      · exact .inr (.inr ⟨generation, belongs, aside.retired ended⟩)
  | waiting request copy fileGeneration waits outstanding last latest requested =>
    exact .waiting request copy fileGeneration (aside.remoteRequest.trans waits) (outstanding.aside aside)
      (by rw [aside.copies]; exact last) (by rw [aside.copies]; exact latest) requested
  | draining request copy drains outstanding last superseded alive =>
    refine .draining request copy (aside.remoteRequest.trans drains) (outstanding.aside aside)
      (by rw [aside.copies]; exact last) (by rw [aside.copies]; exact superseded) ?_
    intro generation belongs
    rcases alive generation belongs with live | ended
    · exact aside.alive generation live
    · exact .inr (aside.retired ended)

/-- An operation of the file side alone. -/
structure FileSide (s t : HyprCliprdrBackend Fetch) : Prop where
  remoteRequest : t.remoteRequest = s.remoteRequest
  format : t.lastRequestedFormat = s.lastRequestedFormat
  copies : t.copies = s.copies
  requests : t.requests = s.requests
  answers : t.answers = s.answers
  connected : t.connected = s.connected
  retired : t.retired = s.retired

theorem onInbound_fileSide (s : HyprCliprdrBackend Fetch) (operation : TransferState Fetch → TransferState Fetch) :
    FileSide s (s.onInbound operation) := by
  unfold onInbound
  split <;> exact ⟨rfl, rfl, rfl, rfl, rfl, rfl, rfl⟩

theorem releaseLocks_fileSide (s : HyprCliprdrBackend Fetch) (dataIds : List Nat) : FileSide s (s.releaseLocks dataIds) := by
  unfold releaseLocks
  split <;> exact ⟨rfl, rfl, rfl, rfl, rfl, rfl, rfl⟩

theorem acceptFor_fileSide (s : HyprCliprdrBackend Fetch) (maxEntries generation : Nat) (files : List FileDescriptor)
    (dataId : Option Nat) : FileSide s (s.acceptFor maxEntries generation files dataId) := by
  unfold acceptFor
  split
  · exact ⟨rfl, rfl, rfl, rfl, rfl, rfl, rfl⟩
  · split <;> exact ⟨rfl, rfl, rfl, rfl, rfl, rfl, rfl⟩

/-- A generation that is not live any more was recorded. -/
theorem FileSide.ended (side : FileSide s t) : Aside s (s.ended t) where
  remoteRequest := side.remoteRequest
  format := side.format
  copies := side.copies
  requests := side.requests
  answers := side.answers
  connected connected := side.connected ▸ connected
  retired := by
    unfold HyprCliprdrBackend.ended
    rw [side.retired]
    exact List.subset_append_left _ _
  alive := by
    intro generation live
    by_cases same : t.generation = s.generation
    · exact .inl (same.trans live)
    · refine .inr (List.mem_append_right _ ?_)
      rw [if_neg same, live]
      exact List.mem_singleton_self generation

theorem requestRemoteSelection_attributed {copy : RemoteCopy} {selection : RemoteSelectionRequest}
    (free : s.remoteRequest = none) (format : s.lastRequestedFormat = none) (answers : s.answers = s.requests.length)
    (last : s.copies.getLast? = some copy) (requested : copy.request = some selection) :
    (s.requestRemoteSelection selection).Attributed := by
  unfold requestRemoteSelection
  by_cases connected : s.connected = true
  · rw [if_pos connected]
    refine .waiting ⟨selection.format, s.copies.length⟩ copy selection.fileGeneration rfl ?_ last rfl requested
    exact ⟨List.getLast?_concat, by simp only [List.length_append, List.length_singleton]; omega, rfl⟩
  · rw [if_neg connected]
    exact .idle free format answers fun stillConnected => absurd stillConnected connected

/-- Handling an answer that is not taken, once it is counted. -/
theorem finishRemoteRequest_attributed {copy : RemoteCopy} (free : s.remoteRequest = none)
    (answers : s.answers = s.requests.length) (last : s.copies.getLast? = some copy)
    (alive : ∀ generation, copy.fileGeneration = some generation → s.generation = some generation ∨ generation ∈ s.retired) :
    (s.finishRemoteRequest (.draining copy.request)).Attributed := by
  unfold finishRemoteRequest
  dsimp only
  cases requested : copy.request with
  | none =>
    refine .idle free rfl answers fun _ other isLast => .inr (.inl ?_)
    cases last.symm.trans isLast
    exact RemoteCopy.request_none requested
  | some selection =>
    dsimp only
    split
    · rename_i superseded
      obtain ⟨generation, asked, notLive⟩ := (Option.any_eq_true _ _).mp superseded
      refine .idle free rfl answers fun _ other isLast => .inr (.inr ⟨generation, ?_, ?_⟩)
      · cases last.symm.trans isLast
        exact (RemoteCopy.request_some requested).2.trans asked
      · have belongs := (RemoteCopy.request_some requested).2.trans asked
        exact (alive generation belongs).resolve_left (of_decide_eq_true notLive)
    · exact requestRemoteSelection_attributed free rfl answers last requested

/-- What was asked for last is all that there is to ask for. -/
theorem Settled.asked {request : PasteRequest} {copy : RemoteCopy} (last : s.copies.getLast? = some copy)
    (asked : s.requests.getLast? = some request) (latest : request.copies = s.copies.length)
    (preferred : copy.preferred = some request.format) : s.Settled := by
  intro _ other isLast
  cases last.symm.trans isLast
  exact .inl ⟨request, asked, latest, preferred⟩

theorem onRemoteCopy_attributed (attributed : s.Attributed) (formats : List ClipboardFormat) :
    (s.onRemoteCopy formats).Attributed := by
  have side : FileSide s s.retireSelection := onInbound_fileSide s _
  unfold onRemoteCopy
  dsimp only
  generalize s.retireSelection = t at side ⊢
  have busy {request : PasteRequest} (outstanding : s.Outstanding request) (early : request.copies ≤ s.copies.length) :
      ∀ formats, ({ t with
        echoCandidate := none
        copies := t.copies ++ [⟨formats, t.filesEnabled, t.generation⟩]
        remoteRequest := some (.draining (RemoteCopy.request ⟨formats, t.filesEnabled, t.generation⟩))
        pendingEchoCandidate := t.echoCandidate.or t.pendingEchoCandidate } : HyprCliprdrBackend Fetch).Attributed := by
    intro formats
    refine .draining request ⟨formats, t.filesEnabled, t.generation⟩ rfl ?_ List.getLast?_concat ?_ ?_
    · exact ⟨side.requests ▸ outstanding.last, by rw [side.requests, side.answers]; exact outstanding.answers,
        side.format ▸ outstanding.format⟩
    · simp only [List.length_append, List.length_singleton, side.copies]
      omega
    · intro generation belongs
      exact .inl (RemoteCopy.fileGeneration_eq belongs)
  cases attributed with
  | idle free format answers settled =>
    rw [if_neg (by rw [side.remoteRequest, side.format, free, format]; simp)]
    have answers : t.answers = t.requests.length := by rw [side.answers, side.requests]; exact answers
    cases requested : RemoteCopy.request ⟨formats, t.filesEnabled, t.generation⟩ with
    | none =>
      refine .idle (side.remoteRequest.trans free) rfl answers fun _ copy isLast => .inr (.inl ?_)
      cases List.getLast?_concat.symm.trans isLast
      exact RemoteCopy.request_none requested
    | some selection =>
      exact requestRemoteSelection_attributed (side.remoteRequest.trans free) (side.format.trans format) answers
        List.getLast?_concat requested
  | waiting request copy fileGeneration waits outstanding last latest requested =>
    rw [if_pos (.inl (by rw [side.remoteRequest, waits]; rfl))]
    exact busy outstanding latest.le formats
  | draining request copy drains outstanding last superseded alive =>
    rw [if_pos (.inl (by rw [side.remoteRequest, drains]; rfl))]
    exact busy outstanding superseded.le formats

/-- An answer that a newer copy superseded is dropped. -/
theorem onAnswer_draining {selection : Option RemoteSelectionRequest} (drains : s.remoteRequest = some (.draining selection))
    (bitmap : BitmapApi) (maxEntries : Nat) (answer : Answer) :
    s.onAnswer bitmap maxEntries answer = { s with remoteRequest := none }.finishRemoteRequest (.draining selection) := by
  cases answer with
  | formatData response =>
    show s.onFormatDataResponse bitmap response = _
    unfold onFormatDataResponse
    rw [drains]
  | fileList files dataId =>
    show s.onRemoteFileList maxEntries files dataId = _
    unfold onRemoteFileList
    rw [drains]

theorem finishRemoteRequest_keeps (s : HyprCliprdrBackend Fetch) (request : RemoteRequest) :
    (s.finishRemoteRequest request).pendingWrite = s.pendingWrite ∧ (s.finishRemoteRequest request).inbound = s.inbound := by
  unfold finishRemoteRequest requestRemoteSelection
  dsimp only
  split
  · split
    · exact ⟨rfl, rfl⟩
    · split <;> exact ⟨rfl, rfl⟩
  · exact ⟨rfl, rfl⟩

/-- The request of the latest copy is done with, whatever became of its answer. -/
structure Freed (s t : HyprCliprdrBackend Fetch) : Prop where
  free : t.remoteRequest = none
  format : t.lastRequestedFormat = none
  copies : t.copies = s.copies
  requests : t.requests = s.requests
  answers : t.answers = s.answers

theorem handleFormatDataResponse_freed (free : s.remoteRequest = none) (bitmap : BitmapApi) (response : FormatDataResponse)
    (maxClipboardSize : Nat) : Freed s (s.handleFormatDataResponse bitmap response maxClipboardSize) := by
  unfold handleFormatDataResponse
  dsimp only
  split <;> exact ⟨free, rfl, rfl, rfl, rfl⟩

theorem onAnswer_waiting {fileGeneration : Option Nat} (waits : s.remoteRequest = some (.waiting fileGeneration))
    (bitmap : BitmapApi) (maxEntries : Nat) (answer : Answer) : Freed s (s.onAnswer bitmap maxEntries answer) := by
  cases answer with
  | formatData response =>
    show Freed s (s.onFormatDataResponse bitmap response)
    unfold onFormatDataResponse
    rw [waits]
    cases fileGeneration with
    | none =>
      obtain ⟨free, format, copies, requests, answers⟩ :=
        @handleFormatDataResponse_freed _ { s with remoteRequest := none } rfl bitmap response maxClipboardSize
      exact ⟨free, format, copies, requests, answers⟩
    | some generation => exact ⟨rfl, rfl, rfl, rfl, rfl⟩
  | fileList files dataId =>
    show Freed s (s.onRemoteFileList maxEntries files dataId)
    unfold onRemoteFileList
    rw [waits]
    cases fileGeneration with
    | none => exact ⟨rfl, rfl, rfl, rfl, rfl⟩
    | some generation =>
      have side := @acceptFor_fileSide _
        { s with remoteRequest := none, lastRequestedFormat := none, pendingEchoCandidate := none }
        maxEntries generation files dataId
      exact ⟨side.remoteRequest, side.format, side.copies, side.requests, side.answers⟩

theorem onAnswer_attributed (attributed : s.Attributed) (expected : s.answers < s.requests.length)
    (bitmap : BitmapApi) (maxEntries : Nat) (answer : Answer) :
    ({ s with answers := s.answers + 1 }.onAnswer bitmap maxEntries answer).Attributed := by
  cases attributed with
  | idle free format answers settled => omega
  | waiting request copy fileGeneration waits outstanding last latest requested =>
    obtain ⟨free, format, copies, requests, answers⟩ :=
      @onAnswer_waiting _ { s with answers := s.answers + 1 } _ waits bitmap maxEntries answer
    have lastNow := (congrArg List.getLast? copies).trans last
    have asked := (congrArg List.getLast? requests).trans outstanding.last
    refine .idle free format ?_ (.asked lastNow asked ?_ (RemoteCopy.request_some requested).1)
    · rw [answers, requests]
      exact outstanding.answers.symm
    · rw [copies]
      exact latest
  | draining request copy drains outstanding last superseded alive =>
    have dropped := @onAnswer_draining _ { s with answers := s.answers + 1 } _ drains bitmap maxEntries answer
    rw [dropped]
    have finished := @finishRemoteRequest_attributed _ { s with remoteRequest := none, answers := s.answers + 1 } copy rfl
      outstanding.answers.symm last alive
    exact finished

theorem next_attributed {action : Action} (attributed : s.Attributed) (answering : s.Answering action)
    (step : next bitmap maxEntries s action = some t) : t.Attributed := by
  cases action with
  | remoteCopy formats =>
    cases step
    exact onRemoteCopy_attributed attributed formats
  | answer answer =>
    cases step
    exact onAnswer_attributed attributed answering bitmap maxEntries answer
  | localOwner =>
    cases step
    exact attributed.aside (onInbound_fileSide s _).ended
  | capabilities stream huge locking =>
    cases step
    exact attributed.aside (onInbound_fileSide s _).ended
  | outgoingLocksCleared dataIds =>
    cases step
    exact attributed.aside (releaseLocks_fileSide s dataIds).ended
  | announce candidate =>
    cases step
    exact attributed.aside ⟨rfl, rfl, rfl, rfl, rfl, id, fun _ => id, fun _ => .inl⟩
  | takePendingWrite =>
    cases step
    exact attributed.aside ⟨rfl, rfl, rfl, rfl, rfl, id, fun _ => id, fun _ => .inl⟩
  | publishMount uriList gnomeCopiedFiles =>
    cases step
    exact attributed.aside ⟨rfl, rfl, rfl, rfl, rfl, id, fun _ => id, fun _ => .inl⟩
  | tick clock =>
    cases step
    refine attributed.aside ⟨rfl, rfl, rfl, rfl, rfl, id, fun _ => id, fun generation live => .inl ?_⟩
    rw [← live]
    unfold HyprCliprdrBackend.generation
    cases s.inbound <;> rfl
  | disconnect =>
    cases step
    exact attributed.aside ⟨rfl, rfl, rfl, rfl, rfl, nofun, fun _ => id, fun _ => .inl⟩

theorem new_attributed (connected : Bool) (clock : Option Int) : (new connected clock : HyprCliprdrBackend Fetch).Attributed :=
  .idle rfl rfl rfl fun _ _ last => absurd last (by simp [new])

theorem reach_attributed {connected : Bool} {clock : Option Int}
    (reach : ((runs bitmap maxEntries connected clock).guarded Answering).Reach s) : s.Attributed := by
  have keep : ((runs bitmap maxEntries connected clock).guarded (@Answering Fetch)).Inductive Attributed := by
    refine ⟨?_, ?_⟩
    · rintro s rfl
      exact new_attributed connected clock
    · intro s action t attributed step
      exact next_attributed attributed step.1 step.2
  exact keep.reach reach

/-- The request that is answered next. -/
theorem Outstanding.eq {request other : PasteRequest} (outstanding : s.Outstanding request)
    (answered : s.requests[s.answers]? = some other) : other = request := by
  have last : s.requests[s.requests.length - 1]? = some request := List.getLast?_eq_getElem? ▸ outstanding.last
  have position : s.requests.length - 1 = s.answers := by
    have answers := outstanding.answers
    omega
  rw [position] at last
  exact Option.some.inj (answered.symm.trans last)

/-- One paste request is under way at most. The answer to one that a newer copy superseded leaves the
pending write and the file side as they were. Once everything is answered, the last request was for the
preferred format of the last copy, unless nothing of it was usable or the generation of its files was ended. -/
theorem latest_copy_wins {connected : Bool} {clock : Option Int}
    (reach : ((runs bitmap maxEntries connected clock).guarded Answering).Reach s) :
    (s.answers ≤ s.requests.length ∧ s.requests.length ≤ s.answers + 1) ∧
    (∀ request, s.requests[s.answers]? = some request → request.copies < s.copies.length →
      ∀ answer t, next bitmap maxEntries s (.answer answer) = some t →
        t.pendingWrite = s.pendingWrite ∧ t.inbound = s.inbound) ∧
    (s.connected = true → s.answers = s.requests.length → ∀ copy, s.copies.getLast? = some copy →
      (∃ request, s.requests.getLast? = some request ∧ request.copies = s.copies.length ∧
        copy.preferred = some request.format) ∨
      copy.preferred = none ∨ ∃ generation, copy.fileGeneration = some generation ∧ generation ∈ s.retired) := by
  cases reach_attributed reach with
  | idle free format answers settled =>
    refine ⟨⟨answers.le, by omega⟩, ?_, fun connected _ => settled connected⟩
    intro request answered
    rw [List.getElem?_eq_none answers.ge] at answered
    cases answered
  | waiting request copy fileGeneration waits outstanding last latest requested =>
    have answers := outstanding.answers
    refine ⟨⟨by omega, answers.le⟩, ?_, fun _ all => by omega⟩
    intro other answered superseded
    rw [outstanding.eq answered] at superseded
    omega
  | draining request copy drains outstanding last superseded alive =>
    have answers := outstanding.answers
    refine ⟨⟨by omega, answers.le⟩, ?_, fun _ all => by omega⟩
    intro _ _ _ answer t step
    have dropped := @onAnswer_draining _ { s with answers := s.answers + 1 } _ drains bitmap maxEntries answer
    cases step
    rw [dropped]
    exact finishRemoteRequest_keeps _ _

/-- Conversions that refuse everything, and so answer with nothing for the clipboard. -/
def noBitmap : BitmapApi := ⟨fun _ => none, fun _ => none, fun _ => none⟩

/-- A list of files is copied while a text is on its way, and the text is dropped. -/
theorem latest_copy_wins_once : ∃ s : HyprCliprdrBackend Unit, ((runs noBitmap 100 true (some 0)).guarded Answering).Reach s ∧
    s.requests = [⟨13, 1⟩] ∧ s.copies.length = 2 ∧
    ∀ answer t, next noBitmap 100 s (.answer answer) = some t → t.pendingWrite = s.pendingWrite ∧ t.inbound = s.inbound := by
  have run : ((StepSystem.exec (fun s action => if Answering s action then next noBitmap 100 s action else none)
      (new true (some 0) : HyprCliprdrBackend Unit)
      [.capabilities true false false, .remoteCopy [⟨13, none⟩], .remoteCopy [⟨13, none⟩, ⟨0xC001, some fileListName⟩]]).map
        fun s => (s.requests, s.copies.length, s.answers)) = some ([⟨13, 1⟩], 2, 0) := by
    decide
  obtain ⟨s, run, facts⟩ := Option.map_eq_some_iff.mp run
  obtain ⟨requests, copies, answers⟩ : s.requests = [⟨13, 1⟩] ∧ s.copies.length = 2 ∧ s.answers = 0 := by
    simpa only [Prod.mk.injEq] using facts
  have reach := StepSystem.guarded_exec_reach _ (.start rfl) run
  have stale : s.requests[s.answers]? = some ⟨13, 1⟩ := by rw [requests, answers]; rfl
  exact ⟨s, reach, requests, copies, (latest_copy_wins reach).2.1 ⟨13, 1⟩ stale (by rw [copies]; decide)⟩

end HyprCliprdrBackend

end HyprRdp
