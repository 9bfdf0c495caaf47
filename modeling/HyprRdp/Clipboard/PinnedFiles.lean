import HyprRdp.Clipboard.FileWorker
import HyprRdp.Lib.Runs

namespace HyprRdp

/-- An object of a file system, under the two numbers that name it while it exists. -/
structure SourceObject where
  dev : Nat
  ino : Nat
  isFile : Bool
  bytes : List UInt8
  deriving DecidableEq, Repr

/-- A copy of a file of a selection, with the object that it keeps open. -/
structure PinnedFile extends FrozenFile where
  source : Option Nat
  deriving DecidableEq

/-- Where the file worker is: in the walk of a selection, or in a read. -/
inductive SourceStage
  | idle
  | selected (path : List UInt8)
  | pinned (path : List UInt8) (object : Nat)
  | reading (file : PinnedFile) (request : FileContentsRequest)
  | opened (file : PinnedFile) (request : FileContentsRequest) (object : Nat)
  | checked (file : PinnedFile) (request : FileContentsRequest) (object : Nat) (metadata : Metadata)

/-- An answer, with the bytes of the selected object at that moment. -/
structure ServedRead where
  file : PinnedFile
  request : FileContentsRequest
  contents : FileContents
  selected : Option (List UInt8)

/-- The file systems and the file worker. `objects` are all objects that ever existed, `links` says where
the paths lead, `others` are the objects that other processes have open, `frozen` the copies of files that
selections, locks and waiting reads hold. -/
structure SourceFiles where
  objects : List SourceObject
  links : List (List UInt8 × Nat)
  others : List Nat
  frozen : List PinnedFile
  stage : SourceStage
  served : List ServedRead

namespace SourceStage

def file : SourceStage → Option PinnedFile
  | .idle | .selected _ | .pinned _ _ => none
  | .reading file _ | .opened file _ _ | .checked file _ _ _ => some file

/-- What the worker has open besides its copies. -/
def object : SourceStage → Option Nat
  | .pinned _ object | .opened _ _ object | .checked _ _ object _ => some object
  | .idle | .selected _ | .reading _ _ => none

end SourceStage

namespace SourceFiles

inductive Action
  | create (path : List UInt8) (object : SourceObject)
  | link (path : List UInt8) (object : Nat)
  | unlink (path : List UInt8)
  | write (object : Nat) (bytes : List UInt8)
  | openOther (object : Nat)
  | closeOther (k : Nat)
  | copy (k : Nat)
  | drop (k : Nat)
  | select (path : List UInt8)
  | selectDirectory (path : List UInt8)
  | pin
  | freeze
  | skip
  | startRead (k : Nat) (request : FileContentsRequest)
  | openRead
  | statRead
  | answerRead (seek : Bool) (count : Option Nat)
  | failRead

def init : SourceFiles := ⟨[], [], [], [], .idle, []⟩

variable (s : SourceFiles)

def held : List Nat :=
  s.others ++ s.frozen.filterMap PinnedFile.source ++ (s.stage.file.bind PinnedFile.source).toList ++ s.stage.object.toList

/-- The numbers of an object are not given to another one while a path leads to it or somebody has it open. -/
def Alive (object : Nat) : Prop := object ∈ s.links.map Prod.snd ∨ object ∈ s.held

instance (object : Nat) : Decidable (s.Alive object) := inferInstanceAs (Decidable (_ ∨ _))

def Fresh (dev ino : Nat) : Prop :=
  ∀ entry ∈ s.objects.zipIdx, s.Alive entry.2 → ¬ (entry.1.dev = dev ∧ entry.1.ino = ino)

instance (dev ino : Nat) : Decidable (s.Fresh dev ino) := by
  unfold Fresh
  infer_instance

def fstat (object : SourceObject) : Metadata := ⟨object.dev, object.ino, object.isFile, object.bytes.length⟩

def resolve (path : List UInt8) : Option Nat := s.links.lookup path

/-- The worker answers with what it has met at the path. -/
def answer (maxChunkBytes : Nat) (file : PinnedFile) (request : FileContentsRequest) (opened : Option OpenedFile) :
    SourceFiles :=
  { s with
    stage := .idle
    served := s.served ++ [{
      file
      request
      contents := (readFrozenFileWithOpen (some file.toFrozenFile) request maxChunkBytes fun _ => opened).contents
      selected := (file.source.bind fun object => s.objects[object]?).map SourceObject.bytes }] }

def next (maxChunkBytes : Nat) (s : SourceFiles) : Action → Option SourceFiles
  | .create path object =>
    if s.Fresh object.dev object.ino then
      some { s with
        objects := s.objects ++ [object]
        links := (path, s.objects.length) :: s.links.filter fun entry => entry.1 ≠ path }
    else none
  | .link path object =>
    if s.Alive object then some { s with links := (path, object) :: s.links.filter fun entry => entry.1 ≠ path } else none
  | .unlink path => some { s with links := s.links.filter fun entry => entry.1 ≠ path }
  | .write object bytes => some { s with objects := s.objects.modify object fun old => { old with bytes } }
  | .openOther object => if s.Alive object then some { s with others := object :: s.others } else none
  | .closeOther k => some { s with others := s.others.eraseIdx k }
  | .copy k => s.frozen[k]?.map fun file => { s with frozen := s.frozen ++ [file] }
  | .drop k => some { s with frozen := s.frozen.eraseIdx k }
  | .select path =>
    match s.stage, (s.resolve path).bind fun object => s.objects[object]? with
    | .idle, some object => if object.isFile then some { s with stage := .selected path } else none
    | _, _ => none
  | .selectDirectory path =>
    match s.stage, (s.resolve path).bind fun object => s.objects[object]? with
    | .idle, some object =>
      if object.isFile then none else some { s with frozen := s.frozen ++ [⟨⟨path, object.dev, object.ino⟩, none⟩] }
    | _, _ => none
  | .pin =>
    match s.stage with
    | .selected path => (s.resolve path).map fun object => { s with stage := .pinned path object }
    | _ => none
  | .freeze =>
    match s.stage with
    | .pinned path object =>
      s.objects[object]?.map fun source =>
        if source.isFile then
          { s with stage := .idle, frozen := s.frozen ++ [⟨⟨path, source.dev, source.ino⟩, some object⟩] }
        else { s with stage := .idle }
    | _ => none
  | .skip =>
    match s.stage with
    | .selected _ | .pinned _ _ => some { s with stage := .idle }
    | _ => none
  | .startRead k request =>
    match s.stage with
    | .idle => s.frozen[k]?.map fun file => { s with stage := .reading file request }
    | _ => none
  | .openRead =>
    match s.stage with
    | .reading file request =>
      -- a malformed request is refused before the path is opened
      match requestedOperation request, s.resolve file.path with
      | some _, some object => some { s with stage := .opened file request object }
      | _, _ => some (s.answer maxChunkBytes file request none)
    | _ => none
  | .statRead =>
    match s.stage with
    | .opened file request object =>
      s.objects[object]?.map fun source =>
        match requestedOperation request with
        | some (.range _ _) => { s with stage := .checked file request object (fstat source) }
        | _ => s.answer maxChunkBytes file request (some ⟨some (fstat source), fun _ => false, fun _ _ => none⟩)
    | _ => none
  | .answerRead seek count =>
    match s.stage with
    | .checked file request object metadata =>
      match requestedOperation request with
      | some (.range _ _) =>
        s.objects[object]?.map fun source =>
          s.answer maxChunkBytes file request (some ⟨some metadata, fun _ => seek, fun position length =>
            count.map fun count => (source.bytes.drop position).take (min count length)⟩)
      | _ => none
    | _ => none
  | .failRead =>
    match s.stage with
    | .reading file request | .opened file request _ | .checked file request _ _ =>
      some (s.answer maxChunkBytes file request none)
    | _ => none

def runs (maxChunkBytes : Nat) : StepSystem SourceFiles Action := .ofFun init (next maxChunkBytes)

variable {s} {t : SourceFiles} {file : PinnedFile} {object : Nat} {path : List UInt8}

theorem alive_iff : s.Alive object ↔ (∃ path, (path, object) ∈ s.links) ∨ object ∈ s.others ∨
    (∃ file ∈ s.frozen, file.source = some object) ∨ (∃ file, s.stage.file = some file ∧ file.source = some object) ∨
      s.stage.object = some object := by
  unfold Alive held
  simp only [List.mem_append, List.mem_filterMap, Option.mem_toList, List.mem_map, Prod.exists, exists_eq_right,
    Option.bind_eq_some_iff, or_assoc]

theorem resolve_alive (leads : s.resolve path = some object) : s.Alive object := by
  obtain ⟨before, after, split, _⟩ := List.lookup_eq_some_iff.mp leads
  exact alive_iff.mpr (.inl ⟨path, by rw [split]; exact List.mem_append_right _ List.mem_cons_self⟩)

/-- The numbers of the file tell the object that the copy keeps open. -/
def Named (s : SourceFiles) (file : PinnedFile) : Prop :=
  ∀ object, file.source = some object →
    ∃ source, s.objects[object]? = some source ∧ source.dev = file.device ∧ source.ino = file.inode

end SourceFiles

/-- What an answer about a pinned file says is true of the selected object. -/
def ServedRead.Sincere (read : ServedRead) : Prop :=
  match read.contents with
  | .error => True
  | .size bytes => requestedOperation read.request = some .size ∧ ∃ selected, read.selected = some selected ∧ bytes = selected.length
  | .data bytes => ∃ position length selected count, requestedOperation read.request = some (.range position length) ∧
      read.selected = some selected ∧ bytes = (selected.drop position).take count ∧ count ≤ length

namespace SourceFiles

variable {s t : SourceFiles} {file : PinnedFile} {object : Nat} {path : List UInt8}

/-- Objects that exist have their own numbers, and nobody holds one that does not. -/
structure Numbered (s : SourceFiles) : Prop where
  known : ∀ object, s.Alive object → ∃ source, s.objects[object]? = some source
  distinct : ∀ (object other : Nat) (source also : SourceObject), s.Alive object → s.Alive other →
    s.objects[object]? = some source → s.objects[other]? = some also → source.dev = also.dev → source.ino = also.ino →
      object = other

/-- A step after which no object exists that did not before. -/
theorem Numbered.narrow (old : s.Numbered) (objects : t.objects = s.objects) (alive : ∀ object, t.Alive object → s.Alive object) :
    t.Numbered where
  known object isAlive := by
    rw [objects]
    exact old.known object (alive object isAlive)
  distinct object other source also isAlive alsoAlive := by
    rw [objects]
    exact old.distinct object other source also (alive object isAlive) (alive other alsoAlive)

/-- Every copy of a pinned file names the object it pins, and what was read so far was read from that object. -/
structure Faithful (s : SourceFiles) : Prop where
  numbered : s.Numbered
  frozen : ∀ file ∈ s.frozen, s.Named file
  working : ∀ file, s.stage.file = some file → s.Named file
  checked : ∀ file request object metadata, s.stage = .checked file request object metadata → metadata.dev = file.device →
    metadata.ino = file.inode → ∀ source, file.source = some source → object = source
  served : ∀ read ∈ s.served, read.file.source ≠ none → read.Sincere

theorem Named.congr (named : s.Named file) (objects : t.objects = s.objects) : t.Named file := by
  unfold Named
  rw [objects]
  exact named

/-- The object met at the path is the one selected, once its numbers are those of the copy. -/
theorem Faithful.same (old : s.Faithful) (works : s.stage.file = some file) (open_ : s.stage.object = some object)
    {source : SourceObject} (met : s.objects[object]? = some source) (dev : source.dev = file.device)
    (ino : source.ino = file.inode) {pinned : Nat} (pins : file.source = some pinned) : object = pinned := by
  obtain ⟨selected, atPinned, selectedDev, selectedIno⟩ := old.working file works pinned pins
  have alive : s.Alive object := alive_iff.mpr (.inr (.inr (.inr (.inr open_))))
  have alsoAlive : s.Alive pinned := alive_iff.mpr (.inr (.inr (.inr (.inl ⟨file, works, pins⟩))))
  exact old.numbered.distinct object pinned source selected alive alsoAlive met atPinned (dev.trans selectedDev.symm)
    (ino.trans selectedIno.symm)

end SourceFiles

theorem readFrozenFileWithOpen_contents (file : FrozenFile) (request : FileContentsRequest) (maxChunkBytes : Nat)
    (opened : Option OpenedFile) {contents : FileContents}
    (read : (readFrozenFileWithOpen (some file) request maxChunkBytes fun _ => opened).contents = contents) :
    contents = .error ∨ ∃ source metadata, opened = some source ∧ source.metadata = some metadata ∧
      metadata.dev = file.device ∧ metadata.ino = file.inode ∧
        ((requestedOperation request = some .size ∧ contents = .size metadata.len) ∨
          ∃ position length bytes, requestedOperation request = some (.range position length) ∧
            source.read position length = some bytes ∧ contents = .data (bytes.take length)) := by
  unfold readFrozenFileWithOpen FileContentsResponse.newError at read
  subst read
  dsimp only
  split
  · exact .inl rfl
  · exact .inl rfl
  · rename_i operation _ atRequest isFile
    cases isFile
    split
    · exact .inl rfl
    · rename_i source
      split
      · exact .inl rfl
      · rename_i metadata known
        split
        · exact .inl rfl
        · rename_i matches_
          obtain ⟨dev, rest⟩ := not_or.mp matches_
          obtain ⟨ino, _⟩ := not_or.mp rest
          have dev := not_not.mp dev
          have ino := not_not.mp ino
          split
          · exact .inr ⟨source, metadata, rfl, known, dev, ino, .inl ⟨atRequest, rfl⟩⟩
          · rename_i position length
            split
            · exact .inl rfl
            · split
              · exact .inl rfl
              · split
                · rename_i bytes got
                  exact .inr ⟨source, metadata, rfl, known, dev, ino, .inr ⟨position, length, bytes, atRequest, got, rfl⟩⟩
                · exact .inl rfl

namespace SourceFiles

variable {s t : SourceFiles} {file : PinnedFile} {object : Nat} {path : List UInt8}

theorem Faithful.answer (old : s.Faithful) {maxChunkBytes : Nat} {request : FileContentsRequest} {opened : Option OpenedFile}
    (sincere : file.source ≠ none → ServedRead.Sincere
      ⟨file, request, (readFrozenFileWithOpen (some file.toFrozenFile) request maxChunkBytes fun _ => opened).contents,
        (file.source.bind fun object => s.objects[object]?).map SourceObject.bytes⟩) :
    (s.answer maxChunkBytes file request opened).Faithful where
  numbered := by
    refine old.numbered.narrow rfl fun object alive => ?_
    rcases alive_iff.mp alive with leads | other | kept | ⟨_, none, _⟩ | none
    · exact alive_iff.mpr (.inl leads)
    · exact alive_iff.mpr (.inr (.inl other))
    · exact alive_iff.mpr (.inr (.inr (.inl kept)))
    · cases none
    · cases none
  frozen file member := (old.frozen file member).congr rfl
  working _ none := by cases none
  checked _ _ _ _ none := by cases none
  served read member := by
    rcases List.mem_append.mp member with before | new
    · exact old.served read before
    · cases List.mem_singleton.mp new
      exact sincere

/-- What exists keeps its numbers. -/
def Keeps (s t : SourceFiles) : Prop :=
  ∀ (object : Nat) (source : SourceObject), s.objects[object]? = some source →
    ∃ later, t.objects[object]? = some later ∧ later.dev = source.dev ∧ later.ino = source.ino

theorem Named.later (named : s.Named file) (keeps : s.Keeps t) : t.Named file := by
  intro object pins
  obtain ⟨source, member, dev, ino⟩ := named object pins
  obtain ⟨later, after, laterDev, laterIno⟩ := keeps object source member
  exact ⟨later, after, laterDev.trans dev, laterIno.trans ino⟩

/-- A step of somebody else. -/
theorem Faithful.elsewhere (old : s.Faithful) (numbered : t.Numbered) (keeps : s.Keeps t) (frozen : t.frozen = s.frozen)
    (stage : t.stage = s.stage) (served : t.served = s.served) : t.Faithful where
  numbered := numbered
  frozen := by
    rw [frozen]
    exact fun file member => (old.frozen file member).later keeps
  working := by
    rw [stage]
    exact fun file works => (old.working file works).later keeps
  checked := by
    rw [stage]
    exact old.checked
  served := by
    rw [served]
    exact old.served

theorem Keeps.same (objects : t.objects = s.objects) : s.Keeps t := fun object source member =>
  ⟨source, by rw [objects]; exact member, rfl, rfl⟩

/-- A step that only changes who holds which object. -/
theorem Faithful.shift (old : s.Faithful) (objects : t.objects = s.objects) (frozen : t.frozen = s.frozen)
    (stage : t.stage = s.stage) (served : t.served = s.served) (links : ∀ path object, (path, object) ∈ t.links → s.Alive object)
    (others : ∀ object ∈ t.others, s.Alive object) : t.Faithful := by
  refine old.elsewhere (old.numbered.narrow objects fun object alive => ?_) (.same objects) frozen stage served
  rcases alive_iff.mp alive with ⟨path, leads⟩ | other | kept | works | open_
  · exact links path object leads
  · exact others object other
  · exact alive_iff.mpr (.inr (.inr (.inl (by rw [← frozen]; exact kept))))
  · exact alive_iff.mpr (.inr (.inr (.inr (.inl (by rw [← stage]; exact works)))))
  · exact alive_iff.mpr (.inr (.inr (.inr (.inr (by rw [← stage]; exact open_)))))

theorem links_alive (leads : (path, object) ∈ s.links) : s.Alive object := alive_iff.mpr (.inl ⟨path, leads⟩)

theorem others_alive (member : object ∈ s.others) : s.Alive object := alive_iff.mpr (.inr (.inl member))

/-- A step of the worker or of the selections: it leaves the objects, the links and the others alone. -/
theorem Faithful.work (old : s.Faithful) (objects : t.objects = s.objects) (links : t.links = s.links)
    (others : t.others = s.others) (served : t.served = s.served)
    (frozen : ∀ file ∈ t.frozen, s.Named file ∧ ∀ object, file.source = some object → s.Alive object)
    (working : ∀ file, t.stage.file = some file → s.Named file ∧ ∀ object, file.source = some object → s.Alive object)
    (opened : ∀ object, t.stage.object = some object → s.Alive object)
    (checked : ∀ file request object metadata, t.stage = .checked file request object metadata → metadata.dev = file.device →
      metadata.ino = file.inode → ∀ source, file.source = some source → object = source) : t.Faithful where
  numbered := by
    refine old.numbered.narrow objects fun object alive => ?_
    rcases alive_iff.mp alive with ⟨path, leads⟩ | other | ⟨file, member, pins⟩ | ⟨file, works, pins⟩ | open_
    · rw [links] at leads
      exact links_alive leads
    · rw [others] at other
      exact others_alive other
    · exact (frozen file member).2 object pins
    · exact (working file works).2 object pins
    · exact opened object open_
  frozen file member := (frozen file member).1.congr objects
  working file works := (working file works).1.congr objects
  checked := checked
  served := by
    rw [served]
    exact old.served

/-- What a copy in the selections names is alive as long as the copy is. -/
theorem Faithful.kept (old : s.Faithful) (member : file ∈ s.frozen) :
    s.Named file ∧ ∀ object, file.source = some object → s.Alive object :=
  ⟨old.frozen file member, fun _ pins => alive_iff.mpr (.inr (.inr (.inl ⟨file, member, pins⟩)))⟩

theorem Faithful.works (old : s.Faithful) (works : s.stage.file = some file) :
    s.Named file ∧ ∀ object, file.source = some object → s.Alive object :=
  ⟨old.working file works, fun _ pins => alive_iff.mpr (.inr (.inr (.inr (.inl ⟨file, works, pins⟩))))⟩

theorem Faithful.create (old : s.Faithful) {path : List UInt8} {new : SourceObject} (fresh : s.Fresh new.dev new.ino) :
    Faithful { s with
      objects := s.objects ++ [new]
      links := (path, s.objects.length) :: s.links.filter fun entry => entry.1 ≠ path } := by
  have before : ∀ object source, s.objects[object]? = some source → (s.objects ++ [new])[object]? = some source :=
    fun object source member => (List.getElem?_append_left (List.getElem?_eq_some_iff.mp member).1).trans member
  have alive : ∀ object, Alive { s with
      objects := s.objects ++ [new]
      links := (path, s.objects.length) :: s.links.filter fun entry => entry.1 ≠ path } object →
        object = s.objects.length ∨ s.Alive object := by
    intro object alive
    rcases alive_iff.mp alive with ⟨other, leads⟩ | rest
    · rcases List.mem_cons.mp leads with same | older
      · exact .inl (Prod.mk.inj same).2
      · exact .inr (links_alive (List.mem_filter.mp older).1)
    · exact .inr (alive_iff.mpr (.inr rest))
  have apart : ∀ object source, s.Alive object → (s.objects ++ [new])[object]? = some source →
      ¬ (source.dev = new.dev ∧ source.ino = new.ino) := by
    intro object source isAlive member
    obtain ⟨known, at_⟩ := old.numbered.known object isAlive
    cases Option.some.inj ((before object known at_).symm.trans member)
    exact fresh (source, object) (List.mk_mem_zipIdx_iff_getElem?.mpr at_) isAlive
  have last : (s.objects ++ [new])[s.objects.length]? = some new := List.getElem?_concat_length
  refine old.elsewhere ⟨fun object isAlive => ?_, fun object other source also isAlive alsoAlive member second dev ino => ?_⟩
    (fun object source member => ⟨source, before object source member, rfl, rfl⟩) rfl rfl rfl
  · rcases alive object isAlive with rfl | was
    · exact ⟨new, last⟩
    · obtain ⟨source, member⟩ := old.numbered.known object was
      exact ⟨source, before object source member⟩
  · rcases alive object isAlive with rfl | was
    · cases Option.some.inj (last.symm.trans member)
      rcases alive other alsoAlive with rfl | alsoWas
      · rfl
      · exact absurd ⟨dev.symm, ino.symm⟩ (apart other also alsoWas second)
    · rcases alive other alsoAlive with rfl | alsoWas
      · cases Option.some.inj (last.symm.trans second)
        exact absurd ⟨dev, ino⟩ (apart object source was member)
      · obtain ⟨known, at_⟩ := old.numbered.known object was
        obtain ⟨alsoKnown, alsoAt⟩ := old.numbered.known other alsoWas
        cases Option.some.inj ((before object known at_).symm.trans member)
        cases Option.some.inj ((before other alsoKnown alsoAt).symm.trans second)
        exact old.numbered.distinct object other source also was alsoWas at_ alsoAt dev ino

theorem Faithful.write (old : s.Faithful) {bytes : List UInt8} :
    Faithful { s with objects := s.objects.modify object fun old => { old with bytes } } := by
  have after : ∀ other : Nat, (s.objects.modify object fun old => { old with bytes })[other]? =
      s.objects[other]?.map fun source => if object = other then { source with bytes } else source := fun other =>
    List.getElem?_modify _ _ _ _
  have numbers : ∀ (other : Nat) (later : SourceObject), (s.objects.modify object fun old => { old with bytes })[other]? = some later →
      ∃ source, s.objects[other]? = some source ∧ later.dev = source.dev ∧ later.ino = source.ino := by
    intro other later member
    rw [after] at member
    obtain ⟨source, before, rfl⟩ := Option.map_eq_some_iff.mp member
    refine ⟨source, before, ?_⟩
    split
    · exact ⟨rfl, rfl⟩
    · exact ⟨rfl, rfl⟩
  have keeps : s.Keeps { s with objects := s.objects.modify object fun old => { old with bytes } } := by
    intro other source before
    have member := (after other).trans (congrArg (Option.map _) before)
    obtain ⟨same, found, dev, ino⟩ := numbers other _ member
    cases Option.some.inj (before.symm.trans found)
    exact ⟨_, member, dev, ino⟩
  refine old.elsewhere ⟨fun other alive => ?_, fun other also source same alive alsoAlive member second dev ino => ?_⟩ keeps
    rfl rfl rfl
  · obtain ⟨source, before⟩ := old.numbered.known other alive
    obtain ⟨later, member, _⟩ := keeps other source before
    exact ⟨later, member⟩
  · obtain ⟨first, atFirst, firstDev, firstIno⟩ := numbers other source member
    obtain ⟨twin, atTwin, twinDev, twinIno⟩ := numbers also same second
    exact old.numbered.distinct other also first twin alive alsoAlive atFirst atTwin
      (firstDev.symm.trans (dev.trans twinDev)) (firstIno.symm.trans (ino.trans twinIno))

/-- A step of the worker that only changes its place. -/
theorem Faithful.move (old : s.Faithful) {stage : SourceStage}
    (working : ∀ file, stage.file = some file → s.Named file ∧ ∀ object, file.source = some object → s.Alive object)
    (opened : ∀ object, stage.object = some object → s.Alive object)
    (checked : ∀ file request object metadata, stage = .checked file request object metadata → metadata.dev = file.device →
      metadata.ino = file.inode → ∀ source, file.source = some source → object = source) :
    Faithful { s with stage } :=
  old.work rfl rfl rfl rfl (fun _ member => old.kept member) working opened checked

theorem Faithful.rest (old : s.Faithful) : Faithful { s with stage := .idle } :=
  old.move (fun _ none => by cases none) (fun _ none => by cases none) fun _ _ _ _ none => by cases none

/-- The selections get more copies, or lose some. -/
theorem Faithful.copies (old : s.Faithful) {frozen : List PinnedFile}
    (each : ∀ file ∈ frozen, s.Named file ∧ ∀ object, file.source = some object → s.Alive object) :
    Faithful { s with frozen } :=
  old.work rfl rfl rfl rfl each (fun _ works => old.works works)
    (fun _ open_ => alive_iff.mpr (.inr (.inr (.inr (.inr open_))))) old.checked

variable {maxChunkBytes : Nat}

/-- The size that is answered is that of the selected object. -/
theorem Faithful.stat (old : s.Faithful) {request : FileContentsRequest} {source : SourceObject}
    (stage : s.stage = .opened file request object) (member : s.objects[object]? = some source)
    (notRange : ∀ position length, requestedOperation request ≠ some (.range position length)) :
    (s.answer maxChunkBytes file request (some ⟨some (fstat source), fun _ => false, fun _ _ => none⟩)).Faithful := by
  have works : s.stage.file = some file := by rw [stage]; rfl
  have open_ : s.stage.object = some object := by rw [stage]; rfl
  refine old.answer fun pins => ?_
  obtain ⟨pinned, isPinned⟩ := Option.ne_none_iff_exists'.mp pins
  unfold ServedRead.Sincere
  rcases readFrozenFileWithOpen_contents file.toFrozenFile request maxChunkBytes _ rfl with isError | found
  · rw [isError]
    trivial
  · obtain ⟨met, metadata, isMet, isMetadata, dev, ino, size | ⟨position, length, _, range, _⟩⟩ := found
    · cases isMet
      cases isMetadata
      have same := old.same works open_ member dev ino isPinned
      rw [size.2]
      refine ⟨size.1, source.bytes, ?_, rfl⟩
      rw [isPinned, Option.bind_some, ← same, member]
      rfl
    · exact absurd range (notRange position length)

/-- The bytes that are answered are those of the selected object. -/
theorem Faithful.range (old : s.Faithful) {request : FileContentsRequest} {source : SourceObject} {metadata : Metadata}
    {seek : Bool} {count : Option Nat} (stage : s.stage = .checked file request object metadata)
    (member : s.objects[object]? = some source) (notSize : requestedOperation request ≠ some .size) :
    (s.answer maxChunkBytes file request (some ⟨some metadata, fun _ => seek, fun position length =>
      count.map fun count => (source.bytes.drop position).take (min count length)⟩)).Faithful := by
  refine old.answer fun pins => ?_
  obtain ⟨pinned, isPinned⟩ := Option.ne_none_iff_exists'.mp pins
  unfold ServedRead.Sincere
  rcases readFrozenFileWithOpen_contents file.toFrozenFile request maxChunkBytes _ rfl with isError | found
  · rw [isError]
    trivial
  · obtain ⟨met, known, isMet, isKnown, dev, ino, size | ⟨position, length, bytes, range, read, contents⟩⟩ := found
    · exact absurd size.1 notSize
    · cases isMet
      cases isKnown
      have same := old.checked file request object metadata stage dev ino pinned isPinned
      obtain ⟨got, _, rfl⟩ := Option.map_eq_some_iff.mp read
      rw [contents]
      refine ⟨position, length, source.bytes, min length (min got length), range, ?_, List.take_take, by omega⟩
      rw [isPinned, Option.bind_some, ← same, member]
      rfl

theorem Faithful.refuse (old : s.Faithful) {request : FileContentsRequest} :
    (s.answer maxChunkBytes file request none).Faithful := by
  refine old.answer fun _ => ?_
  unfold ServedRead.Sincere
  rcases readFrozenFileWithOpen_contents file.toFrozenFile request maxChunkBytes none rfl with isError | ⟨_, _, none, _⟩
  · rw [isError]
    trivial
  · cases none

theorem Faithful.next (old : s.Faithful) {action : Action} (step : s.next maxChunkBytes action = some t) : t.Faithful := by
  have filtered : ∀ {path other : List UInt8} {object : Nat},
      (other, object) ∈ (s.links.filter fun entry => entry.1 ≠ path) → s.Alive object := fun member =>
    links_alive (List.mem_filter.mp member).1
  cases action with
  | create path new =>
    obtain ⟨fresh, same⟩ := Option.ite_none_right_eq_some.mp step
    cases same
    exact old.create fresh
  | link path object =>
    obtain ⟨alive, same⟩ := Option.ite_none_right_eq_some.mp step
    cases same
    refine old.shift rfl rfl rfl rfl (fun other target leads => ?_) fun _ member => others_alive member
    rcases List.mem_cons.mp leads with here | older
    · rw [(Prod.mk.inj here).2]
      exact alive
    · exact filtered older
  | unlink path =>
    cases step
    exact old.shift rfl rfl rfl rfl (fun _ _ leads => filtered leads) fun _ member => others_alive member
  | write object bytes =>
    cases step
    exact old.write
  | openOther object =>
    obtain ⟨alive, same⟩ := Option.ite_none_right_eq_some.mp step
    cases same
    refine old.shift rfl rfl rfl rfl (fun _ _ leads => links_alive leads) fun other member => ?_
    rcases List.mem_cons.mp member with rfl | older
    · exact alive
    · exact others_alive older
  | closeOther k =>
    cases step
    exact old.shift rfl rfl rfl rfl (fun _ _ leads => links_alive leads) fun _ member =>
      others_alive (List.mem_of_mem_eraseIdx member)
  | copy k =>
    obtain ⟨file, member, rfl⟩ := Option.map_eq_some_iff.mp step
    refine old.copies fun other among => ?_
    rcases List.mem_append.mp among with before | new
    · exact old.kept before
    · rw [List.mem_singleton.mp new]
      exact old.kept (List.mem_of_getElem? member)
  | drop k =>
    cases step
    exact old.copies fun _ among => old.kept (List.mem_of_mem_eraseIdx among)
  | select path =>
    dsimp only [SourceFiles.next] at step
    split at step
    · obtain ⟨_, same⟩ := Option.ite_none_right_eq_some.mp step
      cases same
      exact old.move (fun _ none => by cases none) (fun _ none => by cases none) fun _ _ _ _ none => by cases none
    · cases step
  | selectDirectory path =>
    dsimp only [SourceFiles.next] at step
    split at step
    · obtain ⟨_, same⟩ := Option.ite_none_left_eq_some.mp step
      cases same
      refine old.copies fun other among => ?_
      rcases List.mem_append.mp among with before | new
      · exact old.kept before
      · cases List.mem_singleton.mp new
        exact ⟨fun _ none => (by cases none), fun _ none => by cases none⟩
    · cases step
  | pin =>
    dsimp only [SourceFiles.next] at step
    split at step
    · obtain ⟨object, leads, rfl⟩ := Option.map_eq_some_iff.mp step
      refine old.move (fun _ none => by cases none) (fun other same => ?_) fun _ _ _ _ none => by cases none
      cases same
      exact resolve_alive leads
    · cases step
  | freeze =>
    dsimp only [SourceFiles.next] at step
    split at step
    · rename_i path object stage
      obtain ⟨source, member, rfl⟩ := Option.map_eq_some_iff.mp step
      split
      · have alive : s.Alive object := alive_iff.mpr (.inr (.inr (.inr (.inr (by rw [stage]; rfl)))))
        have named : s.Named ⟨⟨path, source.dev, source.ino⟩, some object⟩ := fun other pins => by
          cases pins
          exact ⟨source, member, rfl, rfl⟩
        refine old.work rfl rfl rfl rfl (fun file among => ?_) (fun _ none => by cases none) (fun _ none => by cases none)
          fun _ _ _ _ none => by cases none
        rcases List.mem_append.mp among with before | new
        · exact old.kept before
        · cases List.mem_singleton.mp new
          exact ⟨named, fun other pins => by cases pins; exact alive⟩
      · exact old.rest
    · cases step
  | skip =>
    dsimp only [SourceFiles.next] at step
    split at step
    · cases step
      exact old.rest
    · cases step
      exact old.rest
    · cases step
  | startRead k request =>
    dsimp only [SourceFiles.next] at step
    split at step
    · obtain ⟨file, member, rfl⟩ := Option.map_eq_some_iff.mp step
      refine old.move (fun other same => ?_) (fun _ none => by cases none) fun _ _ _ _ none => by cases none
      cases same
      exact old.kept (List.mem_of_getElem? member)
    · cases step
  | openRead =>
    dsimp only [SourceFiles.next] at step
    split at step
    · rename_i file request stage
      split at step
      · rename_i leads
        cases step
        refine old.move (fun other same => ?_) (fun other same => ?_) fun _ _ _ _ none => by cases none
        · cases same
          exact old.works (by rw [stage]; rfl)
        · cases same
          exact resolve_alive leads
      · cases step
        exact old.refuse
    · cases step
  | statRead =>
    dsimp only [SourceFiles.next] at step
    split at step
    · rename_i file request object stage
      have works : s.stage.file = some file := by rw [stage]; rfl
      have open_ : s.stage.object = some object := by rw [stage]; rfl
      obtain ⟨source, member, rfl⟩ := Option.map_eq_some_iff.mp step
      split
      · refine old.move (fun other same => ?_) (fun other same => ?_) fun _ _ _ _ same dev ino pinned pins => ?_
        · cases same
          exact old.works works
        · cases same
          exact alive_iff.mpr (.inr (.inr (.inr (.inr open_))))
        · cases same
          exact old.same works open_ member dev ino pins
      · rename_i other
        exact old.stat stage member fun position length isRange => other position length isRange
    · cases step
  | answerRead seek count =>
    dsimp only [SourceFiles.next] at step
    split at step
    · rename_i stage
      split at step
      · rename_i isRange
        obtain ⟨source, member, rfl⟩ := Option.map_eq_some_iff.mp step
        exact old.range stage member fun isSize => by cases isSize.symm.trans isRange
      · cases step
    · cases step
  | failRead =>
    dsimp only [SourceFiles.next] at step
    split at step
    · cases step
      exact old.refuse
    · cases step
      exact old.refuse
    · cases step
      exact old.refuse
    · cases step

theorem init_alive : ¬ init.Alive object := by
  rintro (leads | held)
  · cases leads
  · cases held

theorem faithful_runs : (runs maxChunkBytes).Inductive Faithful where
  base := by
    rintro _ rfl
    refine ⟨⟨fun _ alive => absurd alive init_alive, fun _ _ _ _ alive => absurd alive init_alive⟩, fun _ member => ?_,
      fun _ none => ?_, fun _ _ _ _ none => ?_, fun _ member => ?_⟩
    · cases member
    · cases none
    · cases none
    · cases member
  keep _ _ _ old step := old.next step

/-- Whatever happens to the paths and to the objects behind them, in whatever order with the worker's own calls, a read of
a pinned file answers the length or the bytes of the very object that was selected, or an error. -/
theorem reads_serve_selected (reachable : (runs maxChunkBytes).Reach s) {read : ServedRead} (member : read ∈ s.served)
    (pinned : read.file.source ≠ none) : read.Sincere :=
  (faithful_runs.reach reachable).served read member pinned

/-- A file is selected, replaced while it is read, and read again after it was moved back. -/
def swappedPath : List Action :=
  [.create [97] ⟨1, 5, true, [79, 76, 68]⟩, .select [97], .pin, .freeze,
    .startRead 0 ⟨7, 0, true, false, 0, 8, none⟩, .unlink [97], .create [97] ⟨1, 6, true, [78, 69, 87, 33]⟩, .openRead,
    .statRead, .link [97] 0, .startRead 0 ⟨8, 0, false, true, 1, 64, none⟩, .openRead, .unlink [97], .statRead,
    .answerRead true (some 9)]

theorem reads_serve_selected_swapped : ∃ s, StepSystem.exec (next 64) init swappedPath = some s ∧
    s.served.map ServedRead.contents = [.error, .data [76, 68]] ∧ ∀ read ∈ s.served, read.Sincere := by
  obtain ⟨s, run, contents, pinned⟩ : ∃ s, StepSystem.exec (next 64) init swappedPath = some s ∧
      s.served.map ServedRead.contents = [.error, .data [76, 68]] ∧
        s.served.map (fun read => read.file.source) = [some 0, some 0] := ⟨_, rfl, rfl, rfl⟩
  refine ⟨s, run, contents, fun read member => ?_⟩
  have source : read.file.source ∈ [some 0, some 0] := pinned ▸ List.mem_map_of_mem member
  have isPinned : read.file.source ≠ none := by
    rcases List.mem_cons.mp source with same | same
    · rw [same]
      simp
    · rw [List.mem_singleton.mp same]
      simp
  exact reads_serve_selected (StepSystem.exec_reach swappedPath (.start rfl) run) member isPinned

end SourceFiles

end HyprRdp
