import HyprRdp.Clipboard.AcceptedLists

namespace HyprRdp

namespace Transfer

open TransferState

variable {Fetch : Type} {api : ChunkedFetchApi Fetch} {s t : Transfer Fetch} {i : Nat} {call : TransferCall}
  {accepted more : List AcceptedList} {sizes reports : List (Nat × Nat × Nat)}

/-- What a read aims at: a file of the list accepted for its generation, the size of
which came with the list or was reported by the client. -/
structure Aims (accepted : List AcceptedList) (sizes : List (Nat × Nat × Nat)) (call : TransferCall) (position size : Nat)
    (list : AcceptedList) (index known : Nat) : Prop where
  range : call.range = some (position, size)
  isAccepted : list ∈ accepted
  generation : list.generation = call.generation
  file : ∃ first, list.selection.tree.node call.inode = some first ∧ first.kind = .file index ∧
    (first.size = some known ∨ (first.size = none ∧ (call.generation, call.inode, known) ∈ sizes))

/-- The data of responses, in their order. -/
def received (responses : List FileContentsResponse) : List (List UInt8) := responses.map FileContentsResponse.data

/-- The exchange of a read so far: on one stream, about one file, and each
request is for the bytes from where those that have come end. -/
structure Correlated (asked : List FileContentsRequest) (got : List FileContentsResponse) (id index position : Nat)
    (dataId : Option Nat) : Prop where
  asked : ∀ (k : Nat) (request : FileContentsRequest), asked[k]? = some request → request =
    ⟨id, index, false, true, position + (received (got.take k)).flatten.length, request.requestedSize, dataId⟩
  got : ∀ response ∈ got, response.streamId = id

/-- The bytes are those that the read is for, put together from the responses to its requests. -/
def Reads (accepted : List AcceptedList) (sizes : List (Nat × Nat × Nat)) (call : TransferCall) (bytes : List UInt8) : Prop :=
  ∃ position size list index known id, Aims accepted sizes call position size list index known ∧
    Correlated call.asked call.got id index position list.selection.dataId ∧ call.asked.length = call.got.length ∧
      bytes = (received call.got).flatten ∧ bytes.length = min (known - position) size

/-- A request and the call that waits for it. -/
def Waits (api : ChunkedFetchApi Fetch) (accepted : List AcceptedList) (sizes : List (Nat × Nat × Nat))
    (entry : Nat × PendingFetch Fetch) (call : TransferCall) : Prop :=
  match entry.2.operation with
  | .size inode => call.stage = .waiting false ∧ ∃ list ∈ accepted, list.generation = call.generation ∧
      ∃ first, list.selection.tree.node inode = some first ∧ first.size = none
  | .range base fetch => call.stage = .waiting true ∧ ∃ size list index known chunk requests,
      Aims accepted sizes call base size list index known ∧ Correlated call.asked call.got entry.1 index base list.selection.dataId ∧
        call.asked.length = call.got.length + 1 ∧ requests.length = call.got.length + 1 ∧
          api.Fetching entry.1 index (min (known - base) size) chunk list.selection.dataId maxRead fetch requests
            (received call.got)

/-- Nothing has been asked for the bytes of the call yet. -/
def Unasked (call : TransferCall) : Prop :=
  match call.stage with
  | .sizing | .reading | .waiting false | .answered false _ => True
  | _ => False

/-- The call holds the bytes, and has returned them or will. -/
def Holds (call : TransferCall) (bytes : List UInt8) : Prop :=
  call.stage = .answered true (some (.bytes bytes)) ∨ call.stage = .finished (some (.bytes bytes))

structure Sincere (accepted : List AcceptedList) (sizes : List (Nat × Nat × Nat)) (opened : List Nat) (call : TransferCall) :
    Prop where
  blank : Unasked call → call.asked = [] ∧ call.got = []
  done : ∀ bytes, Holds call bytes → Reads accepted sizes call bytes
  opened : ∀ request ∈ call.asked, request.streamId ∈ opened

structure Answering (api : ChunkedFetchApi Fetch) (s : Transfer Fetch) : Prop where
  distinct : s.state.pending.Pairwise fun one other => one.2.answer ≠ other.2.answer
  owned : ∀ entry ∈ s.state.pending, ∃ call, s.calls[entry.2.answer]? = some call ∧
    call.generation = entry.2.generation ∧ (call.stage = .abandoned ∨ Waits api s.accepted s.sizes entry call)
  sincere : ∀ (i : Nat) call, s.calls[i]? = some call → Sincere s.accepted s.sizes s.opened call
  fresh : ∀ id ∈ s.opened, ∀ next, s.state.nextStream = some next → id < next
  apart : ∀ (i j : Nat) one other, i ≠ j → s.calls[i]? = some one → s.calls[j]? = some other →
    ∀ request ∈ one.asked, ∀ another ∈ other.asked, request.streamId ≠ another.streamId

theorem Aims.later {position size index known : Nat} {list : AcceptedList}
    (aims : Aims accepted sizes call position size list index known) (longer : accepted ⊆ more) (reported : sizes ⊆ reports) :
    Aims more reports call position size list index known := by
  obtain ⟨first, atFirst, kind, isSize⟩ := aims.file
  exact ⟨aims.range, longer aims.isAccepted, aims.generation, first, atFirst, kind,
    isSize.imp_right fun ⟨unknown, report⟩ => ⟨unknown, reported report⟩⟩

theorem Reads.later {bytes : List UInt8} (reads : Reads accepted sizes call bytes) (longer : accepted ⊆ more)
    (reported : sizes ⊆ reports) : Reads more reports call bytes := by
  obtain ⟨position, size, list, index, known, id, aims, rest⟩ := reads
  exact ⟨position, size, list, index, known, id, aims.later longer reported, rest⟩

theorem Reads.stage {bytes : List UInt8} (reads : Reads accepted sizes call bytes) (stage : CallStage) :
    Reads accepted sizes { call with stage } bytes := by
  obtain ⟨position, size, list, index, known, id, aims, rest⟩ := reads
  exact ⟨position, size, list, index, known, id, ⟨aims.range, aims.isAccepted, aims.generation, aims.file⟩, rest⟩

theorem Waits.later {entry : Nat × PendingFetch Fetch} (waits : Waits api accepted sizes entry call)
    (longer : accepted ⊆ more) (reported : sizes ⊆ reports) : Waits api more reports entry call := by
  unfold Waits at waits ⊢
  cases operation : entry.2.operation with
  | size inode =>
    rw [operation] at waits
    obtain ⟨stage, list, isAccepted, rest⟩ := waits
    exact ⟨stage, list, longer isAccepted, rest⟩
  | range base fetch =>
    rw [operation] at waits
    obtain ⟨stage, size, list, index, known, chunk, requests, aims, rest⟩ := waits
    exact ⟨stage, size, list, index, known, chunk, requests, aims.later longer reported, rest⟩

theorem Sincere.later {opened ids : List Nat} (sincere : Sincere accepted sizes opened call) (longer : accepted ⊆ more)
    (reported : sizes ⊆ reports) (streams : opened ⊆ ids) : Sincere more reports ids call where
  blank := sincere.blank
  done bytes holds := (sincere.done bytes holds).later longer reported
  opened request member := streams (sincere.opened request member)

/-- Requests may go, and the history may grow. -/
theorem Answering.later (answering : Answering api s) (calls : t.calls = s.calls) (opened : t.opened = s.opened)
    (pending : t.state.pending.Sublist s.state.pending) (longer : s.accepted ⊆ t.accepted) (reported : s.sizes ⊆ t.sizes)
    (fresh : ∀ id ∈ s.opened, ∀ next, t.state.nextStream = some next → id < next) : Answering api t := by
  refine ⟨answering.distinct.sublist pending, fun entry member => ?_, fun i call atCall => ?_, opened ▸ fresh, ?_⟩
  · obtain ⟨call, atCall, generation, waits⟩ := answering.owned entry (pending.subset member)
    exact ⟨call, calls ▸ atCall, generation, waits.imp_right fun waits => waits.later longer reported⟩
  · rw [opened]
    exact (answering.sincere i call (calls ▸ atCall)).later longer reported fun _ => id
  · rw [calls]
    exact answering.apart

/-- A call that no request answers goes to another stage. -/
theorem Answering.setCall (answering : Answering api s) (atCall : s.calls[i]? = some call)
    (free : ∀ entry ∈ s.state.pending, entry.2.answer ≠ i) {next : TransferCall} (asked : next.asked = call.asked)
    (sincere : Sincere s.accepted s.sizes s.opened next) : Answering api (s.setCall i next) := by
  refine ⟨answering.distinct, fun entry member => ?_, fun j row atRow => ?_, answering.fresh, ?_⟩
  · obtain ⟨owner, atOwner, rest⟩ := answering.owned entry member
    exact ⟨owner, (List.getElem?_set_ne (free entry member).symm).trans atOwner, rest⟩
  · rcases List.getElem?_set_cases atRow with ⟨_, same⟩ | ⟨_, old⟩
    · exact same ▸ sincere
    · exact answering.sincere j row old
  · have old : ∀ (j : Nat) row, (s.calls.set i next)[j]? = some row → ∃ before, s.calls[j]? = some before ∧ before.asked = row.asked := by
      intro j row atRow
      rcases List.getElem?_set_cases atRow with ⟨here, same⟩ | ⟨_, old⟩
      · exact ⟨call, here ▸ atCall, same ▸ asked.symm⟩
      · exact ⟨row, old, rfl⟩
    intro j k one other distinct atOne atOther
    obtain ⟨oneBefore, atOneBefore, sameOne⟩ := old j one atOne
    obtain ⟨otherBefore, atOtherBefore, sameOther⟩ := old k other atOther
    rw [← sameOne, ← sameOther]
    exact answering.apart j k _ _ distinct atOneBefore atOtherBefore

theorem Answering.free (answering : Answering api s) (atCall : s.calls[i]? = some call) (settled : call.stage ≠ .abandoned)
    (ready : ∀ ranged, call.stage ≠ .waiting ranged) : ∀ entry ∈ s.state.pending, entry.2.answer ≠ i := by
  intro entry member mine
  obtain ⟨owner, atOwner, _, abandoned | waits⟩ := answering.owned entry member
  · exact settled (Option.some.inj (atCall.symm.trans (mine ▸ atOwner)) ▸ abandoned)
  · have : call = owner := Option.some.inj (atCall.symm.trans (mine ▸ atOwner))
    subst this
    unfold Waits at waits
    split at waits
    · exact ready _ waits.1
    · exact ready _ waits.1

/-- The call comes to a stage at which it has no bytes. -/
theorem Sincere.stage {opened : List Nat} (sincere : Sincere accepted sizes opened call) {stage : CallStage}
    (blank : Unasked { call with stage } → Unasked call) (empty : ∀ bytes, ¬ Holds { call with stage } bytes) :
    Sincere accepted sizes opened { call with stage } where
  blank unasked := sincere.blank (blank unasked)
  done bytes holds := absurd holds (empty bytes)
  opened := sincere.opened

theorem Answering.fail (answering : Answering api s) (atCall : s.calls[i]? = some call)
    (free : ∀ entry ∈ s.state.pending, entry.2.answer ≠ i) : Answering api (s.fail i call) :=
  answering.setCall atCall free rfl ((answering.sincere i call atCall).stage (fun unasked => unasked.elim)
    (by unfold Holds; simp))

/-- A file that is served comes from a list that was accepted for its generation. -/
theorem Recorded.file (recorded : s.Recorded) {generation inode index : Nat} {selection : Selection} {node : RemoteNode}
    (serves : s.state.selection generation = some selection) (found : selection.tree.node inode = some node)
    (isFile : node.kind = .file index) : ∃ list first, Described s.accepted s.sizes generation selection list ∧
      list.selection.tree.node inode = some first ∧ first.kind = .file index ∧ (node.size = first.size ∨
        (first.size = none ∧ ∃ known, node.size = some known ∧ (list.generation, inode, known) ∈ s.sizes)) := by
  have origin : (∃ clock, selection = .none clock) ∨ ∃ list, Described s.accepted s.sizes generation selection list := by
    unfold TransferState.selection at serves
    obtain ⟨_, serves⟩ := Option.ite_none_right_eq_some.mp serves
    split at serves
    · rename_i live
      have isCurrent := Option.some.inj serves
      rw [← isCurrent, ← live]
      exact recorded.current
    · obtain ⟨list, described⟩ := recorded.retiring _ (List.mem_of_lookup serves)
      exact .inr ⟨list, described⟩
  rcases origin with ⟨clock, none⟩ | ⟨list, described⟩
  · rw [none] at found
    rw [List.mem_singleton.mp (RemoteTree.mem_of_node found)] at isFile
    cases isFile
  · obtain ⟨first, atFirst, kind, size⟩ := described.nodes inode node found
    exact ⟨list, first, described, atFirst, kind.symm.trans isFile, size⟩

/-- A request is sent for a call that no request answers yet. -/
theorem Answering.submit (answering : Answering api s) (atCall : s.calls[i]? = some call)
    (free : ∀ entry ∈ s.state.pending, entry.2.answer ≠ i) {request : FileContentsRequest}
    {operation : TransferOperation Fetch} {bytes : Nat} (above : ∀ old ∈ s.opened, old < request.streamId)
    (below : ∀ next, s.state.nextStream = some next → request.streamId < next) (asked : call.asked = []) (got : call.got = [])
    (waits : Waits api s.accepted s.sizes (request.streamId, ⟨call.generation, operation, i, bytes⟩)
      { call with stage := .waiting operation.ranged, asked := if operation.ranged then [request] else [] }) :
    Answering api (s.submit i call request operation bytes) := by
  unfold Transfer.submit
  dsimp only
  by_cases connected : s.connected = true
  · rw [if_pos connected, asked, List.nil_append]
    generalize operation.ranged = ranged at waits ⊢
    obtain ⟨bound, _⟩ := List.getElem?_eq_some_iff.mp atCall
    have left : (s.state.removePending request.streamId).pending.Sublist s.state.pending := List.filter_sublist
    have longer : s.opened ⊆ s.opened ++ [request.streamId] := List.subset_append_left _ _
    have only : ∀ another ∈ (if ranged = true then [request] else []), another = request := by
      intro another member
      split at member
      · exact List.mem_singleton.mp member
      · cases member
    refine ⟨?_, fun entry member => ?_, fun j row atRow => ?_, fun id member next same => ?_, ?_⟩
    · refine List.pairwise_append.mpr ⟨answering.distinct.sublist left, List.pairwise_singleton _ _, fun old isOld new isNew => ?_⟩
      rw [List.mem_singleton.mp isNew]
      exact free old (left.subset isOld)
    · rcases List.mem_append.mp member with old | new
      · obtain ⟨owner, atOwner, rest⟩ := answering.owned entry (left.subset old)
        exact ⟨owner, (List.getElem?_set_ne (free entry (left.subset old)).symm).trans atOwner, rest⟩
      · rw [List.mem_singleton.mp new]
        exact ⟨_, List.getElem?_set_self bound, rfl, .inr waits⟩
    · rcases List.getElem?_set_cases atRow with ⟨_, same⟩ | ⟨_, old⟩
      · subst same
        refine ⟨fun unasked => ⟨?_, got⟩, fun bytes holds => ?_, fun another member => ?_⟩
        · cases ranged with
          | false => rfl
          | true => exact unasked.elim
        · rcases holds with answered | finished
          · cases answered
          · cases finished
        · rw [only another member]
          exact List.mem_append_right _ List.mem_cons_self
      · exact (answering.sincere j row old).later (fun _ => id) (fun _ => id) longer
    · rcases List.mem_append.mp member with old | new
      · exact answering.fresh id old next same
      · rw [List.mem_singleton.mp new]
        exact below next same
    · intro j k one other distinct atOne atOther request' isOne another isOther
      rcases List.getElem?_set_cases atOne with ⟨here, same⟩ | ⟨_, oldOne⟩
      · subst same
        rcases List.getElem?_set_cases atOther with ⟨there, _⟩ | ⟨_, oldOther⟩
        · exact absurd (here.trans there.symm) distinct
        · rw [only request' isOne]
          exact (above _ ((answering.sincere k other oldOther).opened another isOther)).ne'
      · rcases List.getElem?_set_cases atOther with ⟨_, same⟩ | ⟨_, oldOther⟩
        · subst same
          rw [only another isOther]
          exact (above _ ((answering.sincere j one oldOne).opened request' isOne)).ne
        · exact answering.apart j k one other distinct oldOne oldOther request' isOne another isOther
  · rw [if_neg connected]
    exact answering.fail atCall free

theorem Answering.allocate (answering : Answering api s) (gone : Nat → Bool) (bytes : Nat) :
    Answering api { s with state := (s.state.allocate gone bytes).1 } := by
  obtain ⟨nextStream, isState, _⟩ := @allocate_spec Fetch s.state gone bytes
  have fresh := (allocate_fresh answering.fresh gone bytes).1
  rw [isState] at fresh ⊢
  exact answering.later rfl rfl List.filter_sublist (fun _ => id) (fun _ => id) fresh

theorem Answering.sized (answering : Answering api s) (atCall : s.calls[i]? = some call)
    (free : ∀ entry ∈ s.state.pending, entry.2.answer ≠ i) (unasked : Unasked call) (size : Nat) :
    Answering api (s.sized i call size) := by
  refine answering.setCall atCall free rfl ((answering.sincere i call atCall).stage (fun _ => unasked) ?_)
  cases call.range with
  | none => simp [Holds]
  | some range => simp [Holds]

theorem Answering.submitSize (answering : Answering api s) (recorded : s.Recorded) (atCall : s.calls[i]? = some call)
    (sizing : call.stage = .sizing) : Answering api (s.submitSize i call) := by
  have free := answering.free atCall (by simp [sizing]) (by simp [sizing])
  have unasked : Unasked call := by
    unfold Unasked
    rw [sizing]
    trivial
  obtain ⟨asked, got⟩ := (answering.sincere i call atCall).blank unasked
  have failed := answering.fail atCall free
  unfold Transfer.submitSize
  split
  · rename_i selection _ serves
    split
    · exact failed
    · rename_i node found
      split
      · split
        · exact failed
        · exact answering.sized atCall free unasked _
      · exact failed
      · rename_i index isSize isFile
        have allocated := answering.allocate s.gone 8
        obtain ⟨nextStream, isState, _⟩ := @allocate_spec Fetch s.state s.gone 8
        have above := (allocate_fresh answering.fresh s.gone 8).2
        have freed : ∀ entry ∈ (s.state.allocate s.gone 8).1.pending, entry.2.answer ≠ i := by
          rw [isState]
          exact fun entry member => free entry (List.mem_of_mem_filter member)
        split
        · rename_i state refused
          rw [refused] at allocated freed
          exact allocated.fail atCall freed
        · rename_i state id granted
          rw [granted] at allocated freed above
          obtain ⟨isAbove, isBelow⟩ := above id rfl
          refine allocated.submit atCall freed isAbove isBelow asked got ?_
          obtain ⟨list, first, described, atFirst, _, size⟩ := recorded.file serves found isFile
          refine ⟨rfl, list, described.isAccepted, described.generation, first, atFirst, ?_⟩
          rcases size with same | ⟨unknown, _⟩
          · exact same.symm.trans isSize
          · exact unknown
  · exact failed

theorem Answering.submitRange (documented : api.Documented) (answering : Answering api s) (recorded : s.Recorded)
    (atCall : s.calls[i]? = some call) (reading : call.stage = .reading) {position size : Nat}
    (range : call.range = some (position, size)) (maxChunk : Nat) :
    Answering api (s.submitRange api maxChunk i call position size) := by
  have free := answering.free atCall (by simp [reading]) (by simp [reading])
  have unasked : Unasked call := by
    unfold Unasked
    rw [reading]
    trivial
  obtain ⟨asked, got⟩ := (answering.sincere i call atCall).blank unasked
  have failed := answering.fail atCall free
  unfold Transfer.submitRange
  split
  · rename_i selection _ serves
    split
    · exact failed
    · rename_i node found
      split
      · exact failed
      · exact failed
      · rename_i index known isFile isSize
        obtain ⟨list, first, described, atFirst, kind, origin⟩ := recorded.file serves found isFile
        have aims : Aims s.accepted s.sizes call position size list index known := by
          refine ⟨range, described.isAccepted, described.generation, first, atFirst, kind, ?_⟩
          rw [← described.generation]
          refine origin.imp (fun same => same.symm.trans isSize) fun ⟨unknown, reportedSize, same, reported⟩ => ⟨unknown, ?_⟩
          rw [Option.some.inj (isSize.symm.trans same)]
          exact reported
        dsimp only
        split
        · rename_i nothing
          refine answering.setCall atCall free rfl ⟨fun unasked => unasked.elim, fun bytes holds => ?_, ?_⟩
          · rcases holds with answered | finished
            · cases answered
            · cases finished
              refine ⟨position, size, list, index, known, 0, ⟨aims.range, aims.isAccepted, aims.generation, aims.file⟩,
                ⟨?_, ?_⟩, ?_, ?_, nothing.symm⟩
              · intro k request atRequest
                rw [show _ = [] from asked] at atRequest
                cases atRequest
              · rw [show _ = [] from got]
                exact nofun
              · exact (congrArg List.length asked).trans (congrArg List.length got).symm
              · rw [show _ = [] from got]
                rfl
          · rw [show _ = [] from asked]
            exact nofun
        · generalize isAmount : min (known - position) size = amount
          have allocated := answering.allocate s.gone amount
          obtain ⟨nextStream, isState, _⟩ := @allocate_spec Fetch s.state s.gone amount
          have above := (allocate_fresh answering.fresh s.gone amount).2
          have freed : ∀ entry ∈ (s.state.allocate s.gone amount).1.pending, entry.2.answer ≠ i := by
            rw [isState]
            exact fun entry member => free entry (List.mem_of_mem_filter member)
          split
          · rename_i state refused
            rw [refused] at allocated freed
            exact allocated.fail atCall freed
          · rename_i state id granted
            rw [granted] at allocated freed above
            obtain ⟨isAbove, isBelow⟩ := above id rfl
            split
            · exact allocated.fail atCall freed
            · rename_i request fetch requested
              have first := documented.first requested
              have isId : request.streamId = id := congrArg FileContentsRequest.streamId first
              refine allocated.submit atCall freed (isId ▸ isAbove) (isId ▸ isBelow) asked got ?_
              refine ⟨rfl, size, list, index, known, maxChunk, [request],
                ⟨aims.range, aims.isAccepted, aims.generation, aims.file⟩, ⟨fun k other atOther => ?_, ?_⟩, ?_, ?_, ?_⟩
              · cases k with
                | zero =>
                  have same : { request with position } = other := Option.some.inj atOther
                  rw [← same, first, described.dataId]
                  rfl
                | succ k => cases atOther
              · rw [show _ = [] from got]
                exact nofun
              · rw [show _ = [] from got]
                rfl
              · rw [show _ = [] from got]
                rfl
              · rw [show _ = [] from got, isAmount, ← described.dataId, isId]
                exact .request .new rfl requested
  · exact failed

/-- The answer to a call that still waits. -/
theorem answer_eq (atCall : s.calls[i]? = some call) {ranged : Bool} (waiting : call.stage = .waiting ranged)
    (result : Option TransferValue) : s.answer i result = s.atStage i call (.answered ranged result) := by
  unfold Transfer.answer
  rw [atCall]
  dsimp only
  rw [waiting]

theorem setCall_setCall (s : Transfer Fetch) (i : Nat) (call next : TransferCall) :
    (s.setCall i call).setCall i next = s.setCall i next := by
  unfold setCall
  rw [List.set_set]

theorem Answering.answerNone (answering : Answering api s) (atCall : s.calls[i]? = some call)
    (free : ∀ entry ∈ s.state.pending, entry.2.answer ≠ i) {ranged : Bool} (waiting : call.stage = .waiting ranged) :
    Answering api (s.answer i none) := by
  rw [answer_eq atCall waiting]
  refine answering.setCall atCall free rfl ((answering.sincere i call atCall).stage (fun unasked => ?_) (by simp [Holds]))
  cases ranged with
  | false =>
    unfold Unasked
    rw [waiting]
    trivial
  | true => exact unasked.elim

theorem Correlated.respond {asked : List FileContentsRequest} {got : List FileContentsResponse} {id index position : Nat}
    {dataId : Option Nat} (correlated : Correlated asked got id index position dataId)
    (bound : asked.length ≤ got.length + 1) {response : FileContentsResponse} (stream : response.streamId = id) :
    Correlated asked (got ++ [response]) id index position dataId := by
  refine ⟨fun k request atRequest => ?_, fun other member => ?_⟩
  · obtain ⟨within, _⟩ := List.getElem?_eq_some_iff.mp atRequest
    rw [List.take_append_of_le_length (by omega)]
    exact correlated.asked k request atRequest
  · rcases List.mem_append.mp member with old | new
    · exact correlated.got other old
    · rw [List.mem_singleton.mp new]
      exact stream

theorem Correlated.request {asked : List FileContentsRequest} {got : List FileContentsResponse} {id index position : Nat}
    {dataId : Option Nat} (correlated : Correlated asked got id index position dataId) (answered : asked.length = got.length)
    {request : FileContentsRequest}
    (next : request = ⟨id, index, false, true, position + (received got).flatten.length, request.requestedSize, dataId⟩) :
    Correlated (asked ++ [request]) got id index position dataId := by
  refine ⟨fun k other atOther => ?_, correlated.got⟩
  by_cases old : k < asked.length
  · rw [List.getElem?_append_left old] at atOther
    exact correlated.asked k other atOther
  · obtain ⟨within, _⟩ := List.getElem?_eq_some_iff.mp atOther
    rw [List.length_append, List.length_singleton] at within
    have last : k = asked.length := by omega
    subst last
    rw [List.getElem?_concat_length] at atOther
    rw [answered, List.take_length, ← Option.some.inj atOther]
    exact next

theorem received_concat (got : List FileContentsResponse) (response : FileContentsResponse) :
    received (got ++ [response]) = received got ++ [response.data] := List.map_append

theorem recordResponse_eq (atCall : s.calls[i]? = some call) (response : FileContentsResponse) :
    s.recordResponse i response = s.setCall i { call with got := call.got ++ [response] } := by
  unfold Transfer.recordResponse
  rw [atCall]

theorem recordRequest_eq (atCall : s.calls[i]? = some call) (request : FileContentsRequest) :
    s.recordRequest i request = s.setCall i { call with asked := call.asked ++ [request] } := by
  unfold Transfer.recordRequest
  rw [atCall]

theorem setCall_at (atCall : s.calls[i]? = some call) (next : TransferCall) : (s.setCall i next).calls[i]? = some next := by
  obtain ⟨bound, _⟩ := List.getElem?_eq_some_iff.mp atCall
  exact List.getElem?_set_self bound

/-- The request that a response answers is gone, and no other one answers its call. -/
theorem Answering.removed (answering : Answering api s) {id : Nat} {pending : PendingFetch Fetch}
    (member : (id, pending) ∈ s.state.pending) : Answering api { s with state := s.state.removePending id } ∧
      ∀ entry ∈ (s.state.removePending id).pending, entry.2.answer ≠ pending.answer := by
  refine ⟨answering.later rfl rfl List.filter_sublist (fun _ member => member) (fun _ member => member) answering.fresh,
    fun entry isEntry mine => ?_⟩
  have same := List.eq_of_key_eq answering.distinct (List.mem_of_mem_filter isEntry) member mine
  have removed := List.of_mem_filter isEntry
  rw [decide_eq_true_iff] at removed
  exact removed (congrArg Prod.fst same)

/-- A call that a request answers goes on to its next request on the same stream. -/
theorem Answering.goOn (answering : Answering api s) {id : Nat} {pending : PendingFetch Fetch}
    (member : (id, pending) ∈ s.state.pending) (atCall : s.calls[pending.answer]? = some call)
    (generation : call.generation = pending.generation) (operation : TransferOperation Fetch) {next : TransferCall}
    (same : next.generation = call.generation) (stage : next.stage = .waiting true)
    (waits : Waits api s.accepted s.sizes (id, { pending with operation }) next)
    (streams : ∀ request ∈ next.asked, ∃ before ∈ call.asked, before.streamId = request.streamId) :
    Answering api ({ s with state := (s.state.removePending id).insertPending id { pending with operation } }.setCall
      pending.answer next) := by
  have left : ((s.state.removePending id).removePending id).pending.Sublist s.state.pending :=
    List.filter_sublist.trans List.filter_sublist
  have free : ∀ entry ∈ ((s.state.removePending id).removePending id).pending, entry.2.answer ≠ pending.answer :=
    fun entry isEntry => (answering.removed member).2 entry (List.mem_of_mem_filter isEntry)
  refine ⟨?_, fun entry isEntry => ?_, fun j row atRow => ?_, answering.fresh, ?_⟩
  · refine List.pairwise_append.mpr ⟨answering.distinct.sublist left, List.pairwise_singleton _ _, fun old isOld new isNew => ?_⟩
    rw [List.mem_singleton.mp isNew]
    exact free old isOld
  · rcases List.mem_append.mp isEntry with old | new
    · obtain ⟨owner, atOwner, rest⟩ := answering.owned entry (left.subset old)
      exact ⟨owner, (List.getElem?_set_ne (free entry old).symm).trans atOwner, rest⟩
    · rw [List.mem_singleton.mp new]
      exact ⟨next, setCall_at atCall next, same.trans generation, .inr waits⟩
  · rcases List.getElem?_set_cases atRow with ⟨_, isNext⟩ | ⟨_, old⟩
    · subst isNext
      refine ⟨fun unasked => ?_, fun bytes holds => ?_, fun request isRequest => ?_⟩
      · unfold Unasked at unasked
        rw [stage] at unasked
        exact unasked.elim
      · unfold Holds at holds
        rw [stage] at holds
        rcases holds with answered | finished
        · cases answered
        · cases finished
      · obtain ⟨before, isBefore, stream⟩ := streams request isRequest
        exact stream ▸ (answering.sincere _ call atCall).opened before isBefore
    · exact answering.sincere j row old
  · have known : ∀ (j : Nat) row, (s.calls.set pending.answer next)[j]? = some row → ∃ before, s.calls[j]? = some before ∧
        ∀ request ∈ row.asked, ∃ other ∈ before.asked, other.streamId = request.streamId := by
      intro j row atRow
      rcases List.getElem?_set_cases atRow with ⟨here, isNext⟩ | ⟨_, old⟩
      · subst here isNext
        exact ⟨call, atCall, streams⟩
      · exact ⟨row, old, fun request isRequest => ⟨request, isRequest, rfl⟩⟩
    intro j k one other distinct atOne atOther request isOne another isOther
    obtain ⟨oneBefore, atOneBefore, oneStreams⟩ := known j one atOne
    obtain ⟨otherBefore, atOtherBefore, otherStreams⟩ := known k other atOther
    obtain ⟨first, isFirst, sameFirst⟩ := oneStreams request isOne
    obtain ⟨second, isSecond, sameSecond⟩ := otherStreams another isOther
    rw [← sameFirst, ← sameSecond]
    exact answering.apart j k _ _ distinct atOneBefore atOtherBefore first isFirst second isSecond

theorem Answering.onSize (answering : Answering api s) {pending : PendingFetch Fetch} {inode : Nat}
    (free : ∀ entry ∈ s.state.pending, entry.2.answer ≠ pending.answer) (atCall : s.calls[pending.answer]? = some call)
    (waiting : call.stage = .waiting false) (response : FileContentsResponse) :
    Answering api (s.onSize pending inode response) := by
  unfold Transfer.onSize
  split
  · exact answering.answerNone atCall free waiting
  · split
    · dsimp only
      obtain ⟨isPending, nextStream⟩ := s.state.setSize_requests pending.generation inode (fromLeBytes response.data)
      have resized : Answering api { s with
          state := (s.state.setSize pending.generation inode (fromLeBytes response.data)).1
          sizes := s.sizes ++ [(pending.generation, inode, fromLeBytes response.data)] } := by
        refine answering.later rfl rfl ?_ (fun _ => id) (List.subset_append_left _ _) ?_
        · exact isPending ▸ List.Sublist.refl _
        · dsimp only
          rw [nextStream]
          exact answering.fresh
      have freed := isPending.symm ▸ free
      split
      · exact resized.answerNone atCall freed waiting
      · rw [@answer_eq _ { s with
          state := (s.state.setSize pending.generation inode (fromLeBytes response.data)).1
          sizes := s.sizes ++ [(pending.generation, inode, fromLeBytes response.data)] } _ _ atCall false waiting]
        refine resized.setCall atCall freed rfl ((resized.sincere _ call atCall).stage (fun _ => ?_) (by simp [Holds]))
        unfold Unasked
        rw [waiting]
        trivial
    · exact answering.answerNone atCall free waiting

theorem respond_answer (atCall : s.calls[i]? = some call) {ranged : Bool} (waiting : call.stage = .waiting ranged)
    (response : FileContentsResponse) (result : Option TransferValue) :
    (s.recordResponse i response).answer i result =
      s.setCall i { call with got := call.got ++ [response], stage := .answered ranged result } := by
  have still : ({ call with got := call.got ++ [response] } : TransferCall).stage = .waiting ranged := waiting
  rw [recordResponse_eq atCall, answer_eq (setCall_at atCall _) still]
  exact setCall_setCall _ _ _ _

theorem respond_request (atCall : s.calls[i]? = some call) (response : FileContentsResponse) (request : FileContentsRequest) :
    (s.recordResponse i response).recordRequest i request =
      s.setCall i { call with got := call.got ++ [response], asked := call.asked ++ [request] } := by
  rw [recordResponse_eq atCall, recordRequest_eq (setCall_at atCall _)]
  exact setCall_setCall _ _ _ _

theorem Answering.onRange (documented : api.Documented) (answering : Answering api s) {pending : PendingFetch Fetch}
    {base : Nat} {fetch : Fetch} (operation : pending.operation = .range base fetch) {response : FileContentsResponse}
    (member : (response.streamId, pending) ∈ s.state.pending) (atCall : s.calls[pending.answer]? = some call)
    (generation : call.generation = pending.generation)
    (waits : Waits api s.accepted s.sizes (response.streamId, pending) call) :
    Answering api ({ s with state := s.state.removePending response.streamId }.onRange api pending base fetch response) := by
  unfold Waits at waits
  dsimp only at waits
  rw [operation] at waits
  obtain ⟨waiting, size, list, index, known, chunk, requests, aims, correlated, unanswered, count, fetching⟩ := waits
  obtain ⟨removed, free⟩ := answering.removed member
  have failed := removed.answerNone atCall free waiting
  have requestsLength : requests.length = (received call.got).length + 1 := by
    unfold received
    rw [List.length_map]
    exact count
  have answered := correlated.respond unanswered.le rfl
  unfold Transfer.onRange
  cases progress : api.onResponse fetch response with
  | mk outcome fetched =>
    cases outcome with
    | failed => exact failed
    | complete =>
      obtain ⟨data, whole⟩ := documented.completes fetching requestsLength progress
      dsimp only
      rw [@respond_answer _ { s with state := s.state.removePending response.streamId } _ _ atCall true waiting]
      refine removed.setCall atCall free rfl ⟨fun unasked => unasked.elim, fun bytes holds => ?_,
        (answering.sincere _ call atCall).opened⟩
      have same : api.intoData fetched = bytes := by
        rcases holds with answered | finished
        · cases answered
          rfl
        · cases finished
      refine ⟨base, size, list, index, known, response.streamId,
        ⟨aims.range, aims.isAccepted, aims.generation, aims.file⟩, answered, ?_, ?_, ?_⟩
      · dsimp only
        rw [List.length_append]
        exact unanswered
      · dsimp only
        rw [← same, received_concat]
        exact data
      · rw [← same, data]
        exact whole
    | inProgress =>
      dsimp only
      cases requested : api.nextRequest fetched with
      | none => exact failed
      | some following =>
        obtain ⟨request, fetched⟩ := following
        dsimp only
        split
        · have further := received_concat call.got response ▸ ChunkedFetchApi.Fetching.response fetching requestsLength progress
          have balanced : requests.length = (received (call.got ++ [response])).length := by
            rw [received_concat, List.length_append]
            exact requestsLength
          obtain ⟨isRequest, _, _⟩ := documented.asks further balanced requested
          have isStream : request.streamId = response.streamId := congrArg FileContentsRequest.streamId isRequest
          have even : call.asked.length = (call.got ++ [response]).length := by
            rw [List.length_append]
            exact unanswered
          have correlated : Correlated (call.asked ++ [{ request with position := base + request.position }])
              (call.got ++ [response]) response.streamId index base list.selection.dataId := by
            refine answered.request even ?_
            rw [isRequest]
          rw [@respond_request _ { s with
              state := (s.state.removePending response.streamId).insertPending response.streamId
                { pending with operation := .range base fetched } } _ _ atCall]
          refine answering.goOn member atCall generation (.range base fetched) rfl waiting ?_ fun other isOther => ?_
          · refine ⟨waiting, size, list, index, known, chunk, requests ++ [request],
              ⟨aims.range, aims.isAccepted, aims.generation, aims.file⟩, correlated, ?_, ?_, ?_⟩
            · dsimp only
              rw [List.length_append, even]
              rfl
            · dsimp only
              rw [List.length_append, List.length_append, count]
              rfl
            · exact .request further balanced requested
          · have first : 0 < call.asked.length := by omega
            have atFirst := List.getElem?_eq_getElem first
            refine ⟨_, List.getElem_mem first, ?_⟩
            rw [correlated.asked 0 call.asked[0] (by rw [List.getElem?_append_left first]; exact atFirst)]
            obtain ⟨k, atOther⟩ := List.mem_iff_getElem?.mp isOther
            rw [correlated.asked k other atOther]
        · exact failed

/-- A step on a single request leaves the lists and the selections alone. -/
structure Keeps (s t : Transfer Fetch) : Prop where
  current : t.state.current = s.state.current
  generation : t.state.generation = s.state.generation
  retiring : t.state.retiring = s.state.retiring
  nextBase : t.state.nextBase = s.state.nextBase
  accepted : t.accepted = s.accepted
  sizes : t.sizes = s.sizes

theorem Keeps.recorded (keeps : Keeps s t) (recorded : s.Recorded) : t.Recorded :=
  recorded.congr keeps.current keeps.generation keeps.retiring keeps.nextBase keeps.accepted (keeps.sizes ▸ fun _ => id)

theorem keeps_setCall (s : Transfer Fetch) (i : Nat) (call : TransferCall) : Keeps s (s.setCall i call) :=
  ⟨rfl, rfl, rfl, rfl, rfl, rfl⟩

theorem keeps_answer (s : Transfer Fetch) (i : Nat) (result : Option TransferValue) : Keeps s (s.answer i result) := by
  unfold Transfer.answer
  split
  · exact ⟨rfl, rfl, rfl, rfl, rfl, rfl⟩
  · split
    · exact keeps_setCall _ _ _
    · exact ⟨rfl, rfl, rfl, rfl, rfl, rfl⟩

theorem Keeps.answer (keeps : Keeps s t) (i : Nat) (result : Option TransferValue) : Keeps s (t.answer i result) := by
  have answered := keeps_answer t i result
  exact ⟨answered.current.trans keeps.current, answered.generation.trans keeps.generation,
    answered.retiring.trans keeps.retiring, answered.nextBase.trans keeps.nextBase,
    answered.accepted.trans keeps.accepted, answered.sizes.trans keeps.sizes⟩

theorem keeps_allocate (s : Transfer Fetch) (gone : Nat → Bool) (bytes : Nat) :
    Keeps s { s with state := (s.state.allocate gone bytes).1 } := by
  obtain ⟨nextStream, isState, _⟩ := @allocate_spec Fetch s.state gone bytes
  rw [isState]
  exact ⟨rfl, rfl, rfl, rfl, rfl, rfl⟩

theorem Keeps.setCall (keeps : Keeps s t) (i : Nat) (call : TransferCall) : Keeps s (t.setCall i call) :=
  ⟨keeps.current, keeps.generation, keeps.retiring, keeps.nextBase, keeps.accepted, keeps.sizes⟩

theorem Keeps.submit (keeps : Keeps s t) (i : Nat) (call : TransferCall) (request : FileContentsRequest)
    (operation : TransferOperation Fetch) (bytes : Nat) : Keeps s (t.submit i call request operation bytes) := by
  unfold Transfer.submit
  dsimp only
  split
  · exact ⟨keeps.current, keeps.generation, keeps.retiring, keeps.nextBase, keeps.accepted, keeps.sizes⟩
  · exact keeps.setCall _ _

theorem keeps_submitSize (s : Transfer Fetch) (i : Nat) (call : TransferCall) : Keeps s (s.submitSize i call) := by
  unfold Transfer.submitSize
  split
  · split
    · exact keeps_setCall _ _ _
    · split
      · split
        · exact keeps_setCall _ _ _
        · exact keeps_setCall _ _ _
      · exact keeps_setCall _ _ _
      · have allocated := keeps_allocate s s.gone 8
        split
        · rename_i state refused
          rw [refused] at allocated
          exact allocated.setCall _ _
        · rename_i state id granted
          rw [granted] at allocated
          exact allocated.submit _ _ _ _ _
  · exact keeps_setCall _ _ _

theorem keeps_submitRange (api : ChunkedFetchApi Fetch) (s : Transfer Fetch) (i : Nat) (call : TransferCall)
    (maxChunk position size : Nat) : Keeps s (s.submitRange api maxChunk i call position size) := by
  unfold Transfer.submitRange
  split
  · split
    · exact keeps_setCall _ _ _
    · split
      · exact keeps_setCall _ _ _
      · exact keeps_setCall _ _ _
      · rename_i known _ _
        dsimp only
        split
        · exact keeps_setCall _ _ _
        · have allocated := keeps_allocate s s.gone (min (known - position) size)
          split
          · rename_i state refused
            rw [refused] at allocated
            exact allocated.setCall _ _
          · rename_i state id granted
            rw [granted] at allocated
            split
            · exact allocated.setCall _ _
            · exact allocated.submit _ _ _ _ _
  · exact keeps_setCall _ _ _

theorem Keeps.recordResponse (keeps : Keeps s t) (i : Nat) (response : FileContentsResponse) :
    Keeps s (t.recordResponse i response) := by
  unfold Transfer.recordResponse
  split
  · exact keeps
  · exact keeps.setCall _ _

theorem Keeps.recordRequest (keeps : Keeps s t) (i : Nat) (request : FileContentsRequest) :
    Keeps s (t.recordRequest i request) := by
  unfold Transfer.recordRequest
  split
  · exact keeps
  · exact keeps.setCall _ _

theorem keeps_onRange (api : ChunkedFetchApi Fetch) (s : Transfer Fetch) (pending : PendingFetch Fetch) (base : Nat)
    (fetch : Fetch) (response : FileContentsResponse) : Keeps s (s.onRange api pending base fetch response) := by
  have same : Keeps s s := ⟨rfl, rfl, rfl, rfl, rfl, rfl⟩
  unfold Transfer.onRange
  split
  · exact same.answer _ _
  · exact (same.recordResponse _ _).answer _ _
  · split
    · exact same.answer _ _
    · dsimp only
      split
      · refine Keeps.recordRequest (Keeps.recordResponse ?_ _ _) _ _
        exact ⟨rfl, rfl, rfl, rfl, rfl, rfl⟩
      · exact same.answer _ _

/-- The lists, and the calls that wait for what is in them. -/
structure Paired (api : ChunkedFetchApi Fetch) (s : Transfer Fetch) : Prop where
  recorded : s.Recorded
  answering : Answering api s

theorem Paired.onResponse (documented : api.Documented) (paired : Paired api s) (response : FileContentsResponse) :
    Paired api (s.onResponse api response) := by
  unfold Transfer.onResponse
  split
  · exact paired
  · rename_i pending found
    have member := List.mem_of_lookup found
    obtain ⟨removed, free⟩ := paired.answering.removed member
    have kept : Recorded { s with state := s.state.removePending response.streamId } :=
      paired.recorded.congr rfl rfl rfl rfl rfl fun _ => id
    obtain ⟨call, atCall, generation, waits⟩ := paired.answering.owned _ member
    dsimp only
    split
    · exact ⟨kept, removed⟩
    · rename_i present
      have waits := waits.resolve_left fun abandoned => present (by
        unfold Transfer.gone
        rw [atCall]
        exact decide_eq_true abandoned)
      split
      · rename_i inode operation
        have sizing := waits
        unfold Waits at sizing
        dsimp only at sizing
        rw [operation] at sizing
        obtain ⟨waiting, list, isAccepted, isList, first, atFirst, unsized⟩ := sizing
        refine ⟨?_, removed.onSize free atCall waiting response⟩
        unfold Transfer.onSize
        split
        · exact (keeps_answer _ _ _).recorded kept
        · split
          · refine (keeps_answer _ _ _).recorded (kept.setSize _ _ _ fun other isOther same found atFound => ?_)
            have : other = list := paired.recorded.unique isOther isAccepted (same.trans (isList.trans generation).symm)
            subst this
            exact (Option.some.inj (atFirst.symm.trans atFound)) ▸ unsized
          · exact (keeps_answer _ _ _).recorded kept
      · rename_i base fetch operation
        exact ⟨(keeps_onRange _ _ _ _ _ _).recorded kept,
          paired.answering.onRange documented operation member atCall generation waits⟩

theorem Paired.receive (paired : Paired api s) (atCall : s.calls[i]? = some call) (step : s.receive i call = some t) :
    Paired api t := by
  have sincere := paired.answering.sincere i call atCall
  unfold Transfer.receive at step
  split at step
  · rename_i size stage
    cases step
    have free := paired.answering.free atCall (by simp [stage]) (by simp [stage])
    refine ⟨(keeps_setCall _ _ _).recorded paired.recorded, paired.answering.sized atCall free ?_ size⟩
    unfold Unasked
    rw [stage]
    trivial
  · rename_i bytes stage
    cases step
    have free := paired.answering.free atCall (by simp [stage]) (by simp [stage])
    refine ⟨(keeps_setCall _ _ _).recorded paired.recorded,
      paired.answering.setCall atCall free rfl ⟨fun unasked => unasked.elim, fun data holds => ?_, sincere.opened⟩⟩
    rcases holds with answered | finished
    · cases answered
    · cases finished
      exact (sincere.done bytes (.inl stage)).stage _
  · rename_i stage
    cases step
    have free := paired.answering.free atCall (by simp [stage]) (by simp [stage])
    exact ⟨(keeps_setCall _ _ _).recorded paired.recorded, paired.answering.fail atCall free⟩
  · split at step
    · rename_i none
      cases step
      refine ⟨(keeps_setCall _ _ _).recorded paired.recorded, paired.answering.fail atCall fun entry member => ?_⟩
      exact of_decide_eq_true (List.all_eq_true.mp none entry member)
    · cases step
  · cases step

/-- The caller is gone; its request may still be there. -/
theorem Answering.abandon (answering : Answering api s) (atCall : s.calls[i]? = some call) :
    Answering api (s.atStage i call .abandoned) := by
  refine ⟨answering.distinct, fun entry member => ?_, fun j row atRow => ?_, answering.fresh, ?_⟩
  · obtain ⟨owner, atOwner, generation, waits⟩ := answering.owned entry member
    by_cases mine : i = entry.2.answer
    · subst mine
      have : owner = call := Option.some.inj (atOwner.symm.trans atCall)
      subst this
      exact ⟨_, setCall_at atCall _, generation, .inl rfl⟩
    · exact ⟨owner, (List.getElem?_set_ne mine).trans atOwner, generation, waits⟩
  · rcases List.getElem?_set_cases atRow with ⟨_, same⟩ | ⟨_, old⟩
    · subst same
      exact (answering.sincere i call atCall).stage (fun unasked => unasked.elim) (by simp [Holds])
    · exact answering.sincere j row old
  · have old : ∀ (j : Nat) row, (s.calls.set i { call with stage := .abandoned })[j]? = some row →
        ∃ before, s.calls[j]? = some before ∧ before.asked = row.asked := by
      intro j row atRow
      rcases List.getElem?_set_cases atRow with ⟨here, same⟩ | ⟨_, old⟩
      · subst here same
        exact ⟨call, atCall, rfl⟩
      · exact ⟨row, old, rfl⟩
    intro j k one other distinct atOne atOther
    obtain ⟨oneBefore, atOneBefore, sameOne⟩ := old j one atOne
    obtain ⟨otherBefore, atOtherBefore, sameOther⟩ := old k other atOther
    rw [← sameOne, ← sameOther]
    exact answering.apart j k _ _ distinct atOneBefore atOtherBefore

theorem Answering.addCall (answering : Answering api s) (generation inode : Nat) (range : Option (Nat × Nat)) :
    Answering api { s with calls := s.calls ++ [⟨generation, inode, range, .sizing, [], []⟩] } := by
  have rows : ∀ (j : Nat) row, (s.calls ++ [⟨generation, inode, range, .sizing, [], []⟩])[j]? = some row →
      s.calls[j]? = some row ∨ row = ⟨generation, inode, range, .sizing, [], []⟩ := by
    intro j row atRow
    by_cases old : j < s.calls.length
    · rw [List.getElem?_append_left old] at atRow
      exact .inl atRow
    · rw [List.getElem?_append_right (Nat.le_of_not_lt old)] at atRow
      exact .inr (List.mem_singleton.mp (List.mem_of_getElem? atRow))
  refine ⟨answering.distinct, fun entry member => ?_, fun j row atRow => ?_, answering.fresh, ?_⟩
  · obtain ⟨owner, atOwner, rest⟩ := answering.owned entry member
    obtain ⟨bound, _⟩ := List.getElem?_eq_some_iff.mp atOwner
    exact ⟨owner, (List.getElem?_append_left bound).trans atOwner, rest⟩
  · rcases rows j row atRow with old | new
    · exact answering.sincere j row old
    · subst new
      refine ⟨fun _ => ⟨rfl, rfl⟩, fun bytes holds => ?_, nofun⟩
      rcases holds with answered | finished
      · cases answered
      · cases finished
  · intro j k one other distinct atOne atOther request isOne another isOther
    rcases rows j one atOne with oldOne | new
    · rcases rows k other atOther with oldOther | new
      · exact answering.apart j k one other distinct oldOne oldOther request isOne another isOther
      · subst new
        cases isOther
    · subst new
      cases isOne

theorem Paired.shifts (paired : Paired api s) {state : TransferState Fetch} (shifts : Shifts s.state state) :
    Paired api { s with state } := by
  refine ⟨paired.recorded.shifts shifts, paired.answering.later rfl rfl shifts.pending (fun _ => id) (fun _ => id) ?_⟩
  exact fun id member next same => paired.answering.fresh id member next (shifts.nextStream ▸ same)

theorem Paired.next (documented : api.Documented) {maxEntries maxChunk : Nat} {action : Action} (paired : Paired api s)
    (numbered : s.Numbered action) (step : s.next api maxEntries maxChunk action = some t) : Paired api t := by
  obtain ⟨recorded, answering⟩ := paired
  have paired : Paired api s := ⟨recorded, answering⟩
  cases action with
  | tick clock =>
    cases step
    exact ⟨recorded.congr rfl rfl rfl rfl rfl fun _ => id,
      answering.later rfl rfl (List.Sublist.refl _) (fun _ => id) (fun _ => id) answering.fresh⟩
  | capabilities stream huge locking =>
    cases step
    exact paired.shifts (s.state.capabilities_shifts stream huge locking)
  | retireGeneration =>
    cases step
    exact paired.shifts s.state.retireCurrent_shifts.1
  | releaseLocks dataIds =>
    cases step
    exact paired.shifts (s.state.releaseLocks_shifts dataIds)
  | close =>
    cases step
    exact paired.shifts s.state.close_shifts
  | acceptFor expected files dataId =>
    have outcome := s.state.acceptFor_accepts maxEntries expected files dataId
    dsimp only [Transfer.next] at step
    split at step
    · rename_i state refused
      rw [refused] at outcome
      cases step
      exact paired.shifts outcome
    · rename_i state generation rest accepted
      rw [accepted] at outcome
      cases step
      obtain ⟨isNext, accepts⟩ := outcome
      rw [isNext, ← accepts.generation]
      refine ⟨recorded.accepts accepts numbered,
        answering.later rfl rfl accepts.pending (List.subset_append_left _ _) (fun _ => id) ?_⟩
      exact fun id member next same => answering.fresh id member next (accepts.nextStream ▸ same)
  | size generation inode =>
    cases step
    exact ⟨recorded.congr rfl rfl rfl rfl rfl fun _ => id, answering.addCall _ _ _⟩
  | read generation inode position size =>
    cases step
    exact ⟨recorded.congr rfl rfl rfl rfl rfl fun _ => id, answering.addCall _ _ _⟩
  | submitSize i =>
    obtain ⟨call, atCall, step⟩ := Option.bind_eq_some_iff.mp step
    obtain ⟨sizing, same⟩ := Option.ite_none_right_eq_some.mp step
    cases same
    exact ⟨(keeps_submitSize _ _ _).recorded recorded, answering.submitSize recorded atCall sizing⟩
  | submitRange i =>
    obtain ⟨call, atCall, step⟩ := Option.bind_eq_some_iff.mp step
    split at step
    · rename_i position size reading range
      cases step
      exact ⟨(keeps_submitRange _ _ _ _ _ _ _).recorded recorded,
        answering.submitRange documented recorded atCall reading range _⟩
    · cases step
  | receive i =>
    obtain ⟨call, atCall, step⟩ := Option.bind_eq_some_iff.mp step
    exact paired.receive atCall step
  | abandon i =>
    obtain ⟨call, atCall, step⟩ := Option.bind_eq_some_iff.mp step
    split at step
    · cases step
    · cases step
      exact ⟨(keeps_setCall _ _ _).recorded recorded, answering.abandon atCall⟩
  | onResponse response =>
    cases step
    exact paired.onResponse documented response
  | timeout id =>
    cases step
    exact ⟨recorded.congr rfl rfl rfl rfl rfl fun _ member => member,
      answering.later rfl rfl List.filter_sublist (fun _ member => member) (fun _ member => member) answering.fresh⟩
  | disconnect =>
    cases step
    exact ⟨recorded.congr rfl rfl rfl rfl rfl fun _ => id,
      answering.later rfl rfl (List.Sublist.refl _) (fun _ => id) (fun _ => id) answering.fresh⟩

theorem reach_paired (documented : api.Documented) {maxEntries maxChunk : Nat} {clock : Int}
    (reach : ((runs api maxEntries maxChunk clock).guarded Numbered).Reach s) : Paired api s := by
  have kept : ((runs api maxEntries maxChunk clock).guarded Numbered).Inductive (Paired api) := by
    refine ⟨fun s first => ?_, fun s action t paired step => paired.next documented step.1 step.2⟩
    cases first
    refine ⟨new_recorded clock, .nil, nofun, nofun, nofun, fun _ _ _ _ _ isCall => absurd isCall (Option.some_ne_none _).symm⟩
  exact kept.reach reach

/-- A read returns the data of the responses to its own requests, in their order. The requests
name the descriptor of its file in the list accepted for its generation, and the lock of that
list, and ask for consecutive ranges; and an inode stands for one file of one list. -/
theorem read_returns_own_bytes (documented : api.Documented) {maxEntries maxChunk : Nat} {clock : Int}
    (reach : ((runs api maxEntries maxChunk clock).guarded Numbered).Reach s) :
    (∀ (i : Nat) call position size bytes, s.calls[i]? = some call → call.range = some (position, size) →
      call.stage = .finished (some (.bytes bytes)) →
        ∃ list ∈ s.accepted, list.generation = call.generation ∧ ∃ first index known id,
          list.selection.tree.node call.inode = some first ∧ first.kind = .file index ∧
          (first.size = some known ∨ (first.size = none ∧ (call.generation, call.inode, known) ∈ s.sizes)) ∧
          bytes = (received call.got).flatten ∧ bytes.length = min (known - position) size ∧
          call.asked.length = call.got.length ∧
          (∀ (k : Nat) (request : FileContentsRequest), call.asked[k]? = some request → request = ⟨id, index, false, true,
            position + (received (call.got.take k)).flatten.length, request.requestedSize, list.selection.dataId⟩) ∧
          (∀ response ∈ call.got, response.streamId = id) ∧
          ∀ (j : Nat) other, j ≠ i → s.calls[j]? = some other →
            ∀ request ∈ call.asked, ∀ another ∈ other.asked, request.streamId ≠ another.streamId) ∧
    (s.accepted.Pairwise fun earlier later => earlier.generation ≠ later.generation ∧ ∀ inode, inode ≠ rootInode →
      earlier.selection.tree.node inode = none ∨ later.selection.tree.node inode = none) ∧
    (∀ list ∈ s.accepted, ∀ inode node index, list.selection.tree.node inode = some node → node.kind = .file index →
      ∃ file, list.files[index]? = some file ∧ file.isDirectory = false ∧
        ∃ components, file.pathComponents = some components ∧ components.getLast? = some node.name) := by
  obtain ⟨recorded, answering⟩ := reach_paired documented reach
  refine ⟨fun i call position size bytes atCall range finished => ?_, ?_, fun list isAccepted inode node index found isFile => ?_⟩
  · obtain ⟨start, amount, list, index, known, id, aims, correlated, balanced, same, whole⟩ :=
      (answering.sincere i call atCall).done bytes (.inr finished)
    obtain ⟨rfl, rfl⟩ := Prod.mk.inj (Option.some.inj (aims.range.symm.trans range))
    obtain ⟨first, atFirst, kind, isSize⟩ := aims.file
    exact ⟨list, aims.isAccepted, aims.generation, first, index, known, id, atFirst, kind, isSize, same, whole, balanced,
      correlated.asked, correlated.got, fun j other distinct atOther => answering.apart i j call other distinct.symm atCall atOther⟩
  · refine (recorded.ordered.and recorded.apart).imp fun ⟨order, apart⟩ => ⟨order.ne, fun inode below => ?_⟩
    by_contra both
    obtain ⟨inEarlier, inLater⟩ := not_or.mp both
    obtain ⟨node, found⟩ := Option.ne_none_iff_exists'.mp inEarlier
    obtain ⟨other, foundLater⟩ := Option.ne_none_iff_exists'.mp inLater
    have := RemoteTree.node_bounds found below
    have := RemoteTree.node_bounds foundLater below
    omega
  · exact recorded.listed list isAccepted node (RemoteTree.mem_of_node found) index isFile

instance (s : Transfer Fetch) : DecidablePred s.Numbered
  | .acceptFor _ _ _ => inferInstanceAs (Decidable (s.state.top < u64Max))
  | .tick _ | .capabilities _ _ _ | .retireGeneration | .releaseLocks _ | .close | .size _ _ | .read _ _ _ _ | .submitSize _
  | .submitRange _ | .receive _ | .abandon _ | .onResponse _ | .timeout _ | .disconnect => inferInstanceAs (Decidable True)

/-- A read in two chunks, the second of which comes when another list has been accepted. -/
theorem read_returns_own_bytes_once : ∃ s, ∃ call : TransferCall, ((runs BufferedFetch.api 100 3 0).guarded Numbered).Reach s ∧
    s.calls[0]? = some call ∧ call.stage = .finished (some (.bytes [1, 2, 3, 4])) ∧
      [1, 2, 3, 4] = (received call.got).flatten := by
  let file : FileDescriptor := ⟨['f'], none, none, some 4, none⟩
  let choices : List Action :=
    [.capabilities true true true, .acceptFor 1 [file] (some 7), .read 2 2 0 4, .submitSize 0, .submitRange 0,
      .onResponse ⟨1, .data [1, 2, 3]⟩, .acceptFor 2 [file] (some 8), .onResponse ⟨1, .data [4]⟩, .receive 0]
  have run : ((StepSystem.exec
        (fun s action => if Numbered s action then next BufferedFetch.api 100 3 s action else none) (.new 0) choices).bind
      fun s => s.calls[0]?.map fun call : TransferCall => (decide (call.range = some (0, 4)), call.stage)) =
        some (true, .finished (some (.bytes [1, 2, 3, 4]))) := by
    decide
  obtain ⟨s, run, rest⟩ := Option.bind_eq_some_iff.mp run
  obtain ⟨call, atCall, facts⟩ := Option.map_eq_some_iff.mp rest
  obtain ⟨range, finished⟩ := Prod.mk.inj facts
  have reach := StepSystem.guarded_exec_reach choices (.start rfl) run
  obtain ⟨_, _, _, _, _, _, _, _, _, _, same, _⟩ := (read_returns_own_bytes BufferedFetch.api_documented reach).1 0 call 0 4
    [1, 2, 3, 4] atCall (of_decide_eq_true range) finished
  exact ⟨s, call, reach, atCall, finished, same⟩

def firstFile : FileDescriptor := ⟨['a'], none, none, some 4, none⟩

def secondFile : FileDescriptor := ⟨['b'], none, none, some 4, none⟩

def thirdFile : FileDescriptor := ⟨['c'], none, none, some 4, none⟩

theorem rooted_open (clock : Int) (base : Nat) :
    ¬ ((RemoteTree.rooted clock base).isFull 3 = true ∨ 3 ≤ 0 ∨ 2 ^ 31 ≤ 0) := by
  simp [RemoteTree.isFull, RemoteTree.entries, RemoteTree.rooted]

theorem build_firstFile (clock : Int) {base : Nat} (room : base < 2 ^ 64) (below : rootInode < base) :
    ∃ node, (RemoteTree.build clock [firstFile] 3 base).node base = some node ∧ node.kind = .file 0 := by
  have first := @RemoteTree.add_rootFile (.rooted clock base) 3 0 firstFile ['a'] (by decide) rfl rfl rfl room
  unfold RemoteTree.build RemoteTree.addAll
  rw [if_neg (rooted_open clock base), first]
  exact ⟨_, RemoteTree.node_add below 0, rfl⟩

theorem build_twoFiles (clock : Int) {base : Nat} (room : base + 1 < 2 ^ 64) (below : rootInode < base) :
    (RemoteTree.build clock [firstFile, secondFile] 3 base).entries = 2 ∧
      ∃ node, (RemoteTree.build clock [firstFile, secondFile] 3 base).node (base + 1) = some node ∧ node.kind = .file 1 := by
  have first := @RemoteTree.add_rootFile (.rooted clock base) 3 0 firstFile ['a'] (by decide) rfl rfl rfl (Nat.lt_of_succ_lt room)
  unfold RemoteTree.build RemoteTree.addAll
  rw [if_neg (rooted_open clock base), first]
  unfold RemoteTree.addAll
  rw [if_neg (by simp [RemoteTree.isFull, RemoteTree.entries, RemoteTree.rooted]),
    RemoteTree.add_rootFile (by decide : secondFile.pathComponents = some [['b']]) rfl rfl rfl room]
  refine ⟨rfl, ?_⟩
  exact ⟨_, RemoteTree.node_add below 1, rfl⟩

theorem build_threeFiles (clock : Int) {base : Nat} (room : base + 2 < 2 ^ 64) :
    (RemoteTree.build clock [firstFile, secondFile, thirdFile] 3 base).entries = 3 := by
  have first := @RemoteTree.add_rootFile (.rooted clock base) 3 0 firstFile ['a'] (by decide) rfl rfl rfl
    (Nat.lt_of_succ_lt (Nat.lt_of_succ_lt room))
  unfold RemoteTree.build RemoteTree.addAll
  rw [if_neg (rooted_open clock base), first]
  unfold RemoteTree.addAll
  rw [if_neg (by simp [RemoteTree.isFull, RemoteTree.entries, RemoteTree.rooted]),
    RemoteTree.add_rootFile (by decide : secondFile.pathComponents = some [['b']]) rfl rfl rfl (Nat.lt_of_succ_lt room)]
  unfold RemoteTree.addAll
  rw [if_neg (by simp [RemoteTree.isFull, RemoteTree.entries, RemoteTree.rooted]),
    RemoteTree.add_rootFile (by decide : thirdFile.pathComponents = some [['c']]) rfl rfl rfl room]
  rfl

/-- A selection that nothing is locked for is not kept. -/
theorem retireCurrent_unlocked {state : TransferState Fetch} (unlocked : state.current.dataId = none)
    (countable : state.generation < u64Max) :
    state.retireCurrent.1 = { state with
      generation := state.generation + 1
      nextBase := state.top
      current := .none state.clock
      pending := withoutPending state.generation state.pending } := by
  unfold retireCurrent
  dsimp only
  rw [if_pos (.inr (by rw [unlocked]; rfl))]
  exact @bump_eq Fetch (state.takeCurrent.failPending state.generation) countable

theorem acceptFor_unlocked {state : TransferState Fetch} (opened : state.closed = false) (stream : state.stream = true)
    (locking : state.locking = false) (unlocked : state.current.dataId = none) (countable : state.generation < u64Max)
    (files : List FileDescriptor) :
    ∃ rest, state.acceptFor 3 state.generation files none = ({ state with
      generation := state.generation + 1
      nextBase := (RemoteTree.build state.clock files 3 state.top).nextBase
      current := ⟨RemoteTree.build state.clock files 3 state.top, none⟩
      pending := withoutPending state.generation state.pending }, some (state.generation + 1, rest)) := by
  have live : ¬ state.live state.generation = false := by
    unfold live
    simp [opened, stream]
  unfold acceptFor
  rw [if_neg live]
  dsimp only
  rw [retireCurrent_unlocked unlocked countable, if_neg (by unfold TransferState.live; simp [opened, stream])]
  dsimp only
  rw [locking]
  exact ⟨_, rfl⟩

theorem next_acceptFor {maxEntries maxChunk expected generation : Nat} {files : List FileDescriptor} {dataId : Option Nat}
    {state : TransferState Fetch} {rest : List FileName × List Nat}
    (accepted : s.state.acceptFor maxEntries expected files dataId = (state, some (generation, rest))) :
    s.next api maxEntries maxChunk (.acceptFor expected files dataId) =
      some { s with state, accepted := s.accepted ++ [⟨generation, files, state.current⟩] } := by
  dsimp only [Transfer.next]
  rw [accepted]

/-- A run that has accepted so many lists, each after the one before was retired,
and has used up the inodes below `top`. -/
structure Counting (lists top : Nat) (s : Transfer BufferedFetch) : Prop where
  reach : (runs BufferedFetch.api 3 1024 0).Reach s
  opened : s.state.closed = false
  stream : s.state.stream = true
  locking : s.state.locking = false
  unlocked : s.state.current.dataId = none
  generation : s.state.generation = 2 * lists + 1
  top : s.state.top = top

/-- A client that announces a list: what it announced before is retired, then the list is accepted. -/
theorem Counting.announce {lists top : Nat} {s : Transfer BufferedFetch} (counting : Counting lists top s)
    (more : 2 * lists + 2 < u64Max) (above : rootInode < top) (files : List FileDescriptor) :
    ∃ t clock, Counting (lists + 1) (RemoteTree.build clock files 3 top).nextBase t ∧ t.accepted = s.accepted ++
      [⟨2 * lists + 3, files, ⟨RemoteTree.build clock files 3 top, none⟩⟩] := by
  have countable : s.state.generation < u64Max := by
    have := counting.generation
    omega
  have retired := @retireCurrent_unlocked _ s.state counting.unlocked countable
  have step : s.next BufferedFetch.api 3 1024 .retireGeneration = some { s with state := s.state.retireCurrent.1 } := rfl
  obtain ⟨between, isBetween⟩ : ∃ between, between = s.state.retireCurrent.1 := ⟨_, rfl⟩
  rw [← isBetween] at step
  rw [retired] at isBetween
  have generation : between.generation = 2 * lists + 2 := by
    rw [isBetween]
    exact congrArg (· + 1) counting.generation
  have sameTop : between.top = top := by
    rw [isBetween]
    change max s.state.top 2 = top
    rw [counting.top]
    exact Nat.max_eq_left above
  have opened : between.closed = false := by
    rw [isBetween]
    exact counting.opened
  have stream : between.stream = true := by
    rw [isBetween]
    exact counting.stream
  have locking : between.locking = false := by
    rw [isBetween]
    exact counting.locking
  obtain ⟨rest, accepted⟩ := acceptFor_unlocked opened stream locking (by rw [isBetween]; rfl) (by omega) files
  rw [sameTop] at accepted
  have next := @next_acceptFor _ BufferedFetch.api { s with state := between } 3 1024 _ _ _ _ _ _ accepted
  refine ⟨_, between.clock, ⟨.next (.next counting.reach step) next, opened, stream, locking, rfl, ?_, ?_⟩, ?_⟩
  · dsimp only
    omega
  · exact Nat.max_self _
  · dsimp only
    rw [generation]

/-- As many lists of three files as the inodes last for. -/
theorem counting_reach (lists : Nat) (bound : 3 * lists + 1 < 2 ^ 64) : ∃ s, Counting lists (3 * lists + 2) s := by
  induction lists with
  | zero =>
    have step : Transfer.next BufferedFetch.api 3 1024 (.new 0) (.capabilities true false false) = some _ := rfl
    exact ⟨_, .next (.start rfl) step, rfl, rfl, rfl, rfl, rfl, rfl⟩
  | succ lists ih =>
    obtain ⟨s, counting⟩ := ih (by omega)
    obtain ⟨t, clock, counting, _⟩ := counting.announce (by unfold u64Max; omega) (by unfold rootInode; omega)
      [firstFile, secondFile, thirdFile]
    have base := (RemoteTree.build_base clock [firstFile, secondFile, thirdFile] 3 (3 * lists + 2)).1
    have entries := build_threeFiles clock (by omega : 3 * lists + 2 + 2 < 2 ^ 64)
    have top : (RemoteTree.build clock [firstFile, secondFile, thirdFile] 3 (3 * lists + 2)).nextBase = 3 * (lists + 1) + 2 := by
      unfold RemoteTree.nextBase
      rw [base, entries]
      omega
    exact ⟨t, top ▸ counting⟩

/-- The last inode of all is handed out again, for a file of the next list. -/
theorem last_inode_reused : ∃ s, (runs BufferedFetch.api 3 1024 0).Reach s ∧
    ∃ earlier ∈ s.accepted, ∃ later ∈ s.accepted, earlier.generation < later.generation ∧ ∃ inode node other,
      inode ≠ rootInode ∧ earlier.selection.tree.node inode = some node ∧ node.kind = .file 1 ∧
        later.selection.tree.node inode = some other ∧ other.kind = .file 0 := by
  -- after that many lists of three files two inodes are left
  obtain ⟨lists, enough⟩ : ∃ lists, 3 * lists + 2 = 2 ^ 64 - 2 := ⟨(2 ^ 64 - 4) / 3, by decide⟩
  obtain ⟨s, counting⟩ := counting_reach lists (by omega)
  obtain ⟨t, clock, counting, first⟩ := counting.announce (by unfold u64Max; omega) (by unfold rootInode; omega)
    [firstFile, secondFile]
  have base := (RemoteTree.build_base clock [firstFile, secondFile] 3 (3 * lists + 2)).1
  obtain ⟨entries, node, found, isFile⟩ := @build_twoFiles clock (3 * lists + 2) (by omega) (by unfold rootInode; omega)
  have top : (RemoteTree.build clock [firstFile, secondFile] 3 (3 * lists + 2)).nextBase = 2 ^ 64 - 1 := by
    unfold RemoteTree.nextBase
    rw [base, entries]
    omega
  rw [top] at counting
  obtain ⟨u, clock', counting, second⟩ := counting.announce (by unfold u64Max; omega) (by unfold rootInode; omega) [firstFile]
  obtain ⟨other, foundLater, isOther⟩ := @build_firstFile clock' (2 ^ 64 - 1) (by omega) (by unfold rootInode; omega)
  have last : 3 * lists + 2 + 1 = 2 ^ 64 - 1 := by omega
  rw [last] at found
  refine ⟨u, counting.reach,
    ⟨2 * lists + 3, [firstFile, secondFile], ⟨RemoteTree.build clock [firstFile, secondFile] 3 (3 * lists + 2), none⟩⟩, ?_,
    ⟨2 * (lists + 1) + 3, [firstFile], ⟨RemoteTree.build clock' [firstFile] 3 (2 ^ 64 - 1), none⟩⟩, ?_, ?_,
    2 ^ 64 - 1, node, other, ?_, found, isFile, foundLater, isOther⟩
  · rw [second, first]
    exact List.mem_append_left _ (List.mem_append_right _ List.mem_cons_self)
  · rw [second]
    exact List.mem_append_right _ List.mem_cons_self
  · dsimp only
    omega
  · unfold rootInode
    omega

end Transfer

end HyprRdp
