import HyprRdp.Clipboard.WalkSteps

namespace HyprRdp

namespace FileDescriptor

/-- The names of the directories on the way to the entry. -/
def parents (file : FileDescriptor) : List FileName := (file.relativePath.map fun path => path.splitOn '\\').getD []

def components (file : FileDescriptor) : List FileName := file.parents ++ [file.name]

end FileDescriptor

def ListedFile.entry (file : ListedFile) : List FileName × Bool := (file.descriptor.components, file.descriptor.isDirectory)

section Frozen

variable {path : PathBuf} {parent : List FileName} {name : FileName} {metadata : EntryMetadata}
  {attributes : ClipboardFileAttributes}

theorem frozenFile_components (names : ∀ part ∈ parent, WellNamed part) :
    (frozenFile path parent name metadata attributes).descriptor.components = parent ++ [name] := by
  unfold frozenFile FileDescriptor.components FileDescriptor.parents
  dsimp only
  split
  · rename_i empty
    rw [empty]
    rfl
  · rename_i some_parent
    have split : (['\\'].intercalate parent).splitOn '\\' = parent := by
      rw [List.splitOn_eq_splitOnP]
      refine List.splitOnP_intercalate (by decide) some_parent fun part member character inside => ?_
      have := ((names part member).clean character inside).1
      unfold FileDescriptor.isSeparator at this
      simp_all
    rw [Option.map_some, split]
    rfl

/-- The reader of the list finds the components that the walk wrote. -/
theorem frozenFile_pathComponents (names : ∀ part ∈ parent, WellNamed part) (named : WellNamed name)
    (depth : parent.length ≤ maxDirectoryDepth) :
    (frozenFile path parent name metadata attributes).descriptor.pathComponents = some (parent ++ [name]) := by
  have clean : ∀ part, WellNamed part → ∀ character ∈ part, FileDescriptor.isSeparator character = false :=
    fun part wellNamed character inside => (wellNamed.clean character inside).1
  have all : ∀ part ∈ parent ++ [name], WellNamed part := by
    intro part member
    rcases List.mem_append.mp member with above | last
    · exact names part above
    · exact List.mem_singleton.mp last ▸ named
  have kept : (parent ++ [name]).filter (fun component => component ≠ []) = parent ++ [name] :=
    List.filter_eq_self.mpr fun part member => decide_eq_true (all part member).ne_nil
  have parts : ((((if parent = [] then none else some (['\\'].intercalate parent)).getD []).splitOnP
      FileDescriptor.isSeparator) ++ name.splitOnP FileDescriptor.isSeparator).filter (fun component => component ≠ []) =
      parent ++ [name] := by
    rw [List.splitOnP_eq_singleton (clean name named)]
    split
    · rename_i empty
      rw [empty] at kept ⊢
      simpa using kept
    · rename_i some_parent
      rw [Option.getD_some, List.splitOnP_intercalate (by decide) some_parent fun part member => clean part (names part member),
        kept]
  unfold frozenFile FileDescriptor.pathComponents
  dsimp only
  rw [parts, if_pos]
  refine ⟨List.append_ne_nil_of_right_ne_nil _ (List.cons_ne_nil _ _), ?_, List.all_eq_true.mpr fun part member => ?_⟩
  · rw [List.length_append, List.length_singleton]
    exact depth
  · exact (all part member).usable

end Frozen

namespace Walk

variable {upper : Uppercase} {fs : FileSystem} {walk next last : Walk} {parent : List FileName} {name : FileName}

def listing (walk : Walk) : List (List FileName × Bool) := walk.files.map ListedFile.entry

/-- The files listed so far make a list of their own that fits, and each of their names is in use. -/
structure Sound (upper : Uppercase) (walk : Walk) : Prop where
  closed : PathTable.Closed walk.listing
  placed : ∀ file ∈ walk.files, file.descriptor.pathComponents = some file.descriptor.components
  used : ∀ path name directory, (path ++ [name], directory) ∈ walk.listing →
    (path, windowsNameKey upper name) ∈ walk.usedNames
  few : walk.files.length ≤ walk.maxEntries

/-- The selection, or a directory that is listed. -/
structure Reached (walk : Walk) (parent : List FileName) : Prop where
  names : ∀ part ∈ parent, WellNamed part
  listed : parent = [] ∨ (parent, true) ∈ walk.listing

/-- A part of the walk adds to the files. -/
structure Leads (upper : Uppercase) (walk next : Walk) : Prop where
  sound : next.Sound upper
  files : walk.files <+: next.files
  maxEntries : next.maxEntries = walk.maxEntries

theorem Sound.leads (sound : walk.Sound upper) : walk.Leads upper walk := ⟨sound, List.prefix_refl _, rfl⟩

theorem Leads.trans (first : walk.Leads upper next) (second : next.Leads upper last) : walk.Leads upper last :=
  ⟨second.sound, first.files.trans second.files, second.maxEntries.trans first.maxEntries⟩

theorem Reached.after (reached : walk.Reached parent) (leads : walk.Leads upper next) : next.Reached parent :=
  ⟨reached.names, reached.listed.imp_right ((leads.files.map _).subset ·)⟩

/-- The marks of the walk besides its files and their names are its own. -/
theorem Sound.marked (sound : walk.Sound upper) (files : next.files = walk.files) (usedNames : next.usedNames = walk.usedNames)
    (maxEntries : next.maxEntries = walk.maxEntries) : walk.Leads upper next := by
  have listing : next.listing = walk.listing := congrArg (List.map ListedFile.entry) files
  refine ⟨⟨?_, ?_, ?_, ?_⟩, files ▸ List.prefix_refl _, maxEntries⟩
  · exact listing ▸ sound.closed
  · exact files ▸ sound.placed
  · rw [listing, usedNames]
    exact sound.used
  · rw [files, maxEntries]
    exact sound.few

/-- A name that is given out stays in use, whether the entry is listed or not. -/
theorem Sound.use (sound : walk.Sound upper) : walk.Leads upper (walk.use upper parent name) :=
  ⟨⟨sound.closed, sound.placed, fun path name directory member => List.mem_cons_of_mem _ (sound.used path name directory member),
    sound.few⟩, List.prefix_refl _, rfl⟩

/-- An entry under a fresh name in a directory that is listed comes at the end of the list. -/
theorem Sound.push (sound : walk.Sound upper) (reached : walk.Reached parent) (room : walk.isFull = false)
    (depth : parent.length ≤ maxDirectoryDepth) (named : WellNamed name)
    (free : (parent, windowsNameKey upper name) ∉ walk.usedNames) (path : PathBuf) (metadata : EntryMetadata)
    (attributes : ClipboardFileAttributes) :
    walk.Leads upper ((walk.use upper parent name).push (frozenFile path parent name metadata attributes)) := by
  have entry : (frozenFile path parent name metadata attributes).entry = (parent ++ [name], attributes.directory) :=
    Prod.ext (frozenFile_components reached.names) rfl
  have listing : ((walk.use upper parent name).push (frozenFile path parent name metadata attributes)).listing =
      walk.listing ++ [(parent ++ [name], attributes.directory)] := by
    unfold Walk.listing
    rw [← entry]
    exact List.map_append
  have fresh : parent ++ [name] ∉ walk.listing.map Prod.fst := by
    intro member
    obtain ⟨⟨_, directory⟩, listed, rfl⟩ := List.mem_map.mp member
    exact free (sound.used parent name directory listed)
  refine ⟨⟨?_, fun file member => ?_, fun path other directory member => ?_, ?_⟩, List.prefix_append _ _, rfl⟩
  · rw [listing]
    exact sound.closed.concat reached.listed fresh
  · rcases List.mem_append.mp member with old | new
    · exact sound.placed file old
    · rw [List.mem_singleton.mp new, frozenFile_components reached.names]
      exact frozenFile_pathComponents reached.names named depth
  · rw [listing] at member
    rcases List.mem_append.mp member with old | new
    · exact List.mem_cons_of_mem _ (sound.used path other directory old)
    · obtain ⟨rfl, same⟩ := List.append_inj' (Prod.mk.inj (List.mem_singleton.mp new)).1 rfl
      rw [List.singleton_inj.mp same]
      exact List.mem_cons_self
  · have below : walk.files.length < walk.maxEntries := Nat.lt_of_not_le (of_decide_eq_false room)
    have count : (walk.files ++ [frozenFile path parent name metadata attributes]).length = walk.files.length + 1 :=
      List.length_append
    have : (walk.files ++ [frozenFile path parent name metadata attributes]).length ≤ walk.maxEntries := by omega
    exact this

theorem Reached.down (reached : walk.Reached parent) (named : WellNamed name) (path : PathBuf) (metadata : EntryMetadata) :
    ((walk.use upper parent name).push (frozenFile path parent name metadata .directories)).Reached (parent ++ [name]) := by
  have entry : (frozenFile path parent name metadata .directories).entry = (parent ++ [name], true) :=
    Prod.ext (frozenFile_components reached.names) rfl
  refine ⟨fun part member => ?_, .inr (List.mem_map.mpr ⟨_, List.mem_append_right _ List.mem_cons_self, entry⟩)⟩
  rcases List.mem_append.mp member with above | own
  · exact reached.names part above
  · exact List.mem_singleton.mp own ▸ named

end Walk

namespace Visit

variable {upper : Uppercase} {visit next : Visit}

/-- A visit that lists soundly, and has listed each of the directories that it is inside. -/
structure Sound (upper : Uppercase) (visit : Visit) : Prop where
  walk : visit.walk.Sound upper
  reached : ∀ above, above <+: visit.parent → visit.walk.Reached above

theorem Sound.leads (sound : visit.Sound upper) (step : Step upper visit next) : visit.walk.Leads upper next.walk := by
  have here := sound.reached visit.parent (List.prefix_refl _)
  have count : ∀ {visit : Visit}, visit.inside.length ≤ maxDirectoryDepth → visit.parent.length ≤ maxDirectoryDepth :=
    fun depth => Nat.le_trans (Nat.le_of_eq (List.length_map _)) depth
  cases step with
  | count _ _ => exact sound.walk.marked rfl rfl rfl
  | pass _ _ => exact sound.walk.use
  | file path metadata admits =>
    exact sound.walk.push here admits.room (count admits.depth) admits.named.wellNamed admits.free path metadata .plain
  | enter path metadata admits _ =>
    have entered : visit.walk.Leads upper (visit.walk.enter metadata) := sound.walk.marked rfl rfl rfl
    exact entered.trans (entered.sound.push (here.after entered) admits.room (count admits.depth) admits.named.wellNamed
      admits.free path metadata .directories)
  | leave _ _ _ _ => exact sound.walk.marked rfl rfl rfl

theorem Sound.step (sound : visit.Sound upper) (step : Step upper visit next) : next.Sound upper := by
  have leads := sound.leads step
  refine ⟨leads.sound, fun above isAbove => ?_⟩
  cases step with
  | count _ _ => exact (sound.reached above isAbove).after leads
  | pass _ _ => exact (sound.reached above isAbove).after leads
  | file _ _ _ => exact (sound.reached above isAbove).after leads
  | @enter _ name path metadata admits _ =>
    unfold parent at isAbove
    rw [List.map_append, List.map_singleton] at isAbove
    rcases List.prefix_concat_iff.mp isAbove with rfl | outer
    · have here : (visit.walk.enter metadata).Reached visit.parent :=
        let reached := sound.reached visit.parent (List.prefix_refl _)
        ⟨reached.names, reached.listed⟩
      exact here.down admits.named.wellNamed path metadata
    · exact (sound.reached above outer).after leads
  | leave walk inside name metadata =>
    have outer : inside.map Prod.fst <+: (inside ++ [(name, metadata)]).map Prod.fst := (List.prefix_append _ _).map _
    exact (sound.reached above (isAbove.trans outer)).after leads

theorem Sound.run (sound : visit.Sound upper) (run : Run upper visit next) :
    next.Sound upper ∧ visit.walk.Leads upper next.walk :=
  run.keeps (P := fun last => last.Sound upper ∧ visit.walk.Leads upper last.walk)
    (fun step kept => ⟨kept.1.step step, kept.2.trans (kept.1.leads step)⟩) ⟨sound, sound.walk.leads⟩

/-- A walk is sound before it has looked at anything. -/
theorem sound_new (upper : Uppercase) (maxEntries : Nat) (hugeFiles : Bool) :
    Sound upper ⟨{ Walk.new maxEntries with hugeFiles := hugeFiles }, []⟩ := by
  have empty : ({ Walk.new maxEntries with hugeFiles := hugeFiles } : Walk).Sound upper :=
    ⟨.nil, nofun, nofun, Nat.zero_le _⟩
  refine ⟨empty, fun above isAbove => ?_⟩
  obtain rfl : above = [] := List.prefix_nil.mp isAbove
  exact ⟨nofun, .inl rfl⟩

end Visit

/-- What the reader of a list relies on. -/
structure FrozenList (files : List FileDescriptor) (maxEntries : Nat) : Prop where
  closed : PathTable.Closed (files.map fun file => (file.components, file.isDirectory))
  placed : ∀ file ∈ files, file.pathComponents = some file.components
  few : files.length ≤ maxEntries

theorem freezePathsWithLimits_frozenList (fs : FileSystem) (upper : Uppercase) (paths : List PathBuf) (maxEntries : Nat)
    (hugeFiles : Bool) :
    FrozenList ((freezePathsWithLimits fs upper paths maxEntries hugeFiles).map (·.descriptor)) maxEntries := by
  have walked := ((Visit.sound_new upper maxEntries hugeFiles).run (@Visit.freezeSelected_run upper fs _ paths)).2
  refine ⟨?_, fun file member => ?_, ?_⟩
  · rw [List.map_map]
    exact walked.sound.closed
  · obtain ⟨listed, isListed, rfl⟩ := List.mem_map.mp member
    exact walked.sound.placed listed isListed
  · rw [List.length_map]
    exact Nat.le_trans walked.sound.few (Nat.le_of_eq walked.maxEntries)

end HyprRdp
