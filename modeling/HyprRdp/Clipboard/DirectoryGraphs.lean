import HyprRdp.Clipboard.WindowsPaths
import Mathlib.Data.Seq.Basic

namespace HyprRdp

/-- A file system that does not change, as it is read. The reader of a directory gives one
answer after the other, and may go on for ever. -/
structure DirectoryGraph where
  fileName : PathBuf → Option FileName
  metadata : PathBuf → Option EntryMetadata
  openSource : PathBuf → Option (Option EntryMetadata)
  readDir : PathBuf → Option (Stream'.Seq (Option PathBuf))

/-- The graph as far as a walk with so many slots can see it: every directory is
cut off behind the entry that finds no slot. -/
def DirectoryGraph.upTo (graph : DirectoryGraph) (slots : Nat) : FileSystem where
  fileName := graph.fileName
  metadata := graph.metadata
  openSource := graph.openSource
  readDir path := (graph.readDir path).map fun entries => entries.take (slots + 1)

/-- A walk with the number of entries that it looked at, and the directories
whose readers it asked for an entry beyond them. -/
structure Inspection extends Walk where
  inspected : Nat
  probed : List (List FileName)

namespace Inspection

def new (maxEntries : Nat) (hugeFiles : Bool) : Inspection := ⟨{ Walk.new maxEntries with hugeFiles := hugeFiles }, 0, []⟩

def take (inspection : Inspection) : Inspection :=
  { inspection with remaining := inspection.remaining - 1, inspected := inspection.inspected + 1 }

def collectChildren (inspection : Inspection) (directory : List FileName) (entries : Stream'.Seq (Option PathBuf)) :
    Inspection × List PathBuf :=
  match entries.destruct with
  | none => (inspection, [])
  | some (entry, rest) =>
    if inspection.remaining = 0 then
      ({ inspection with truncated := true, probed := directory :: inspection.probed }, [])
    else
      let collected := inspection.take.collectChildren directory rest
      (collected.1, entry.toList ++ collected.2)
termination_by inspection.remaining
decreasing_by
  unfold take
  dsimp only
  omega

def freezeEach (freeze : Inspection → PathBuf → Inspection) (inspection : Inspection) : List PathBuf → Inspection
  | [] => inspection
  | child :: rest =>
    if inspection.isFull then { inspection with truncated := true } else (freeze inspection child).freezeEach freeze rest

def freezeChildren (graph : DirectoryGraph) (freeze : Inspection → PathBuf → List FileName → Inspection)
    (inspection : Inspection) (path : PathBuf) (parent : List FileName) (name : FileName) : Inspection :=
  match graph.readDir path with
  | none => inspection
  | some entries =>
    let collected := inspection.collectChildren (parent ++ [name]) entries
    let children := collected.2.mergeSort PathBuf.before
    let parts := children.partition fun child => (graph.metadata child).any (·.isDir)
    collected.1.freezeEach (fun inspection child => freeze inspection child (parent ++ [name])) (parts.1 ++ parts.2)

/-- Nothing is entered at a depth beyond the limit, so the recursion ends. -/
def freezePath (graph : DirectoryGraph) (upper : Uppercase) (depth : Nat) (inspection : Inspection) (path : PathBuf)
    (parent : List FileName) : Inspection :=
  if inspection.isFull then { inspection with truncated := true }
  else if maxDirectoryDepth < depth then inspection
  else
    match graph.metadata path with
    | none => inspection
    | some metadata =>
      if metadata.isFile then
        { inspection with toWalk := inspection.toWalk.freezeFile (graph.upTo inspection.maxEntries) upper path parent }
      else if metadata.isDir = false then inspection
      else if (metadata.dev, metadata.ino) ∈ inspection.ancestorDirectories then inspection
      else
        let name := uniqueFileName upper parent (graph.fileName path) inspection.usedNames
        let entered := (inspection.enter metadata).use upper parent name
        if wireNameFits parent name then
          let listed := { inspection with toWalk := entered.push (frozenFile path parent name metadata .directories) }
          let walked := listed.freezeChildren graph (freezePath graph upper (depth + 1)) path parent name
          { walked with toWalk := walked.leave metadata }
        else { inspection with toWalk := entered.leave metadata }
termination_by maxDirectoryDepth + 1 - depth

def freezeSelected (graph : DirectoryGraph) (upper : Uppercase) (inspection : Inspection) : List PathBuf → Inspection
  | [] => inspection
  | path :: rest =>
    if inspection.remaining = 0 then { inspection with truncated := true }
    else
      let frozen := freezePath graph upper 0 inspection.take path []
      if frozen.isFull then { frozen with truncated := frozen.truncated || !rest.isEmpty }
      else frozen.freezeSelected graph upper rest

variable {graph : DirectoryGraph} {upper : Uppercase} {slots : Nat} {inspection next : Inspection} {walk : Walk}
  {inside other : List (FileName × EntryMetadata)} {directory : List FileName}

/-- Every entry looked at has its slot, and no reader is asked past them twice. -/
structure Tallied (upper : Uppercase) (slots : Nat) (inspection : Inspection) (inside : List (FileName × EntryMetadata)) :
    Prop where
  sound : Visit.Sound upper ⟨inspection.toWalk, inside⟩
  slots : inspection.inspected + inspection.remaining = slots
  once : inspection.probed.Nodup
  listed : ∀ directory ∈ inspection.probed, (directory, true) ∈ inspection.listing

/-- An inspection that has come as far as a walk, and is in order. -/
structure Follows (upper : Uppercase) (slots : Nat) (inside : List (FileName × EntryMetadata)) (inspection : Inspection)
    (walk : Walk) : Prop where
  walk : inspection.toWalk = walk
  tallied : inspection.Tallied upper slots inside

theorem Tallied.after (tallied : inspection.Tallied upper slots inside)
    (run : Visit.Run upper ⟨inspection.toWalk, inside⟩ ⟨next.toWalk, other⟩)
    (count : next.inspected + next.remaining = inspection.inspected + inspection.remaining)
    (probed : next.probed = inspection.probed) : next.Tallied upper slots other := by
  obtain ⟨sound, leads⟩ := tallied.sound.run run
  refine ⟨sound, count.trans tallied.slots, probed ▸ tallied.once, fun directory member => ?_⟩
  rw [probed] at member
  exact (leads.files.map _).subset (tallied.listed directory member)

theorem Tallied.truncate (tallied : inspection.Tallied upper slots inside) :
    Follows upper slots inside { inspection with truncated := true } { inspection.toWalk with truncated := true } :=
  ⟨rfl, tallied.after Visit.truncate_run rfl rfl⟩

theorem Tallied.take (tallied : inspection.Tallied upper slots inside) (left : inspection.remaining ≠ 0) :
    inspection.take.Tallied upper slots inside := by
  refine tallied.after Visit.take_run ?_ rfl
  unfold Inspection.take
  dsimp only
  omega

theorem collectChildren_follows (tallied : inspection.Tallied upper slots inside) (fresh : directory ∉ inspection.probed)
    (isListed : (directory, true) ∈ inspection.listing) (entries : Stream'.Seq (Option PathBuf)) {enough : Nat}
    (bound : inspection.remaining ≤ enough) :
    Follows upper slots inside (inspection.collectChildren directory entries).1
        (inspection.toWalk.collectChildren (entries.take (enough + 1))).1 ∧
      (inspection.collectChildren directory entries).2 =
        (inspection.toWalk.collectChildren (entries.take (enough + 1))).2 := by
  fun_induction collectChildren inspection directory entries generalizing enough with
  | case1 inspection entries atEnd =>
    rw [Stream'.Seq.destruct_eq_none atEnd, Stream'.Seq.take_nil]
    exact ⟨⟨rfl, tallied⟩, rfl⟩
  | case2 inspection entries entry rest another none_left =>
    rw [Stream'.Seq.destruct_eq_cons another, Stream'.Seq.take_succ_cons, Walk.collectChildren, if_pos none_left]
    have truncated := tallied.truncate.tallied
    refine ⟨⟨rfl, truncated.sound, truncated.slots, tallied.once.cons fresh, fun probed member => ?_⟩, rfl⟩
    rcases List.mem_cons.mp member with rfl | old
    · exact isListed
    · exact tallied.listed probed old
  | case3 inspection entries entry rest another left collected ih =>
    obtain ⟨fewer, rfl⟩ : ∃ fewer, enough = fewer + 1 := ⟨enough - 1, by omega⟩
    have bound : inspection.take.remaining ≤ fewer := by
      unfold Inspection.take
      dsimp only
      omega
    obtain ⟨follows, same⟩ := ih (tallied.take left) fresh isListed bound
    rw [Stream'.Seq.destruct_eq_cons another, Stream'.Seq.take_succ_cons, Walk.collectChildren, if_neg left]
    exact ⟨follows, congrArg _ same⟩

theorem freezeEach_follows {freeze : Inspection → PathBuf → Inspection} {walkOn : Walk → PathBuf → Walk}
    (tallied : inspection.Tallied upper slots inside)
    (each : ∀ inspection : Inspection, inspection.Tallied upper slots inside → ∀ child,
      Follows upper slots inside (freeze inspection child) (walkOn inspection.toWalk child)) (children : List PathBuf) :
    Follows upper slots inside (inspection.freezeEach freeze children) (inspection.toWalk.freezeEach walkOn children) := by
  induction children generalizing inspection with
  | nil => exact ⟨rfl, tallied⟩
  | cons child rest ih =>
    unfold freezeEach Walk.freezeEach
    split
    · exact tallied.truncate
    · obtain ⟨same, first⟩ := each inspection tallied child
      exact same ▸ ih first

theorem freezeChildren_follows {freeze : Inspection → PathBuf → List FileName → Inspection}
    {walkOn : Walk → PathBuf → List FileName → Walk} {parent : List FileName} {name : FileName}
    (tallied : inspection.Tallied upper slots inside) (fresh : parent ++ [name] ∉ inspection.probed)
    (isListed : (parent ++ [name], true) ∈ inspection.listing)
    (each : ∀ inspection : Inspection, inspection.Tallied upper slots inside → ∀ child,
      Follows upper slots inside (freeze inspection child (parent ++ [name])) (walkOn inspection.toWalk child (parent ++ [name])))
    (path : PathBuf) :
    Follows upper slots inside (inspection.freezeChildren graph freeze path parent name)
      (inspection.toWalk.freezeChildren (graph.upTo slots) walkOn path parent name) := by
  unfold freezeChildren Walk.freezeChildren DirectoryGraph.upTo
  dsimp only
  cases graph.readDir path with
  | none => exact ⟨rfl, tallied⟩
  | some entries =>
    have bound : inspection.remaining ≤ slots := tallied.slots ▸ Nat.le_add_left ..
    obtain ⟨⟨same, collected⟩, children⟩ := collectChildren_follows tallied fresh isListed entries bound
    rw [Option.map_some]
    dsimp only
    rw [← same, ← children]
    exact freezeEach_follows collected each _

theorem freezeFile_remaining (fs : FileSystem) (walk : Walk) (path : PathBuf) (parent : List FileName) :
    (walk.freezeFile fs upper path parent).remaining = walk.remaining := by
  unfold Walk.freezeFile
  split
  · rfl
  · rfl
  · split
    · rfl
    · split
      · rfl
      · dsimp only
        split
        · rfl
        · rfl

/-- No reader has been asked past the slots for a directory that is yet to be listed. -/
theorem Tallied.unprobed (tallied : inspection.Tallied upper slots inside) {parent : List FileName} {name : FileName}
    (free : (parent, windowsNameKey upper name) ∉ inspection.usedNames) : parent ++ [name] ∉ inspection.probed := by
  intro member
  exact free (tallied.sound.walk.used parent name true (tallied.listed _ member))

theorem freezePath_follows (levels : Nat) : ∀ {inspection : Inspection} {inside : List (FileName × EntryMetadata)} {depth : Nat},
    depth + levels = maxDirectoryDepth + 1 → inside.length = depth → inspection.Tallied upper slots inside → ∀ path,
      Follows upper slots inside (inspection.freezePath graph upper depth path (inside.map Prod.fst))
        (inspection.toWalk.freezePath (graph.upTo slots) upper levels path (inside.map Prod.fst)) := by
  induction levels with
  | zero =>
    intro inspection inside depth deep _ tallied path
    unfold Inspection.freezePath Walk.freezePath
    split
    · exact tallied.truncate
    · rw [if_pos (by omega)]
      exact ⟨rfl, tallied⟩
  | succ levels ih =>
    intro inspection inside depth deep inDepth tallied path
    unfold Inspection.freezePath Walk.freezePath
    split
    · exact tallied.truncate
    · rename_i full
      rw [if_neg (by omega)]
      have metadata_eq : (graph.upTo slots).metadata = graph.metadata := rfl
      rw [metadata_eq]
      cases graph.metadata path with
      | none => exact ⟨rfl, tallied⟩
      | some metadata =>
        dsimp only
        split
        · have run := @Visit.freezeFile_run upper (graph.upTo slots) inspection.toWalk inside (Bool.eq_false_iff.mpr full)
            (by omega) path
          refine ⟨rfl, tallied.after run ?_ rfl⟩
          exact congrArg _ (freezeFile_remaining (graph.upTo slots) inspection.toWalk path _)
        · split
          · exact ⟨rfl, tallied⟩
          · split
            · exact ⟨rfl, tallied⟩
            · rename_i ancestors
              have name_eq : (graph.upTo slots).fileName = graph.fileName := rfl
              rw [name_eq]
              have named := @uniqueFileName_windowsName upper (inside.map Prod.fst) (graph.fileName path) inspection.usedNames
              have free := @uniqueFileName_free upper (inside.map Prod.fst) (graph.fileName path) inspection.usedNames
              generalize uniqueFileName upper (inside.map Prod.fst) (graph.fileName path) inspection.usedNames = name
                at named free
              split
              · rename_i fits
                have entered := @Visit.Step.enter upper ⟨inspection.toWalk, inside⟩ name path metadata
                  ⟨Bool.eq_false_iff.mpr full, by show inside.length ≤ _; omega, named, free, fits⟩ ancestors
                have listed := @Tallied.after upper slots inspection ⟨_, inspection.inspected, inspection.probed⟩ _ _ tallied
                  entered.run rfl rfl
                have isListed : (inside.map Prod.fst ++ [name], true) ∈ Walk.listing (((inspection.enter metadata).use upper
                    (inside.map Prod.fst) name).push (frozenFile path (inside.map Prod.fst) name metadata .directories)) := by
                  have reached := listed.sound.reached (inside.map Prod.fst ++ [name]) (by simp [Visit.parent])
                  exact reached.listed.resolve_left (List.append_ne_nil_of_right_ne_nil _ (List.cons_ne_nil _ _))
                have below : ∀ next : Inspection, next.Tallied upper slots (inside ++ [(name, metadata)]) → ∀ child,
                    Follows upper slots (inside ++ [(name, metadata)])
                      (next.freezePath graph upper (depth + 1) child (inside.map Prod.fst ++ [name]))
                      (next.toWalk.freezePath (graph.upTo slots) upper levels child (inside.map Prod.fst ++ [name])) := by
                  intro next tallied child
                  have length : (inside ++ [(name, metadata)]).length = depth + 1 := by
                    rw [List.length_append, inDepth, List.length_singleton]
                  have deeper := @ih next _ (depth + 1) (by omega) length tallied child
                  rw [List.map_append, List.map_singleton] at deeper
                  exact deeper
                have children := @freezeChildren_follows graph upper slots _ _ _ _ _ _ listed (tallied.unprobed free) isListed
                  below path
                refine ⟨congrArg (Walk.leave · metadata) children.walk, ?_⟩
                exact children.tallied.after (Visit.Step.leave _ inside name metadata).run rfl rfl
              · exact ⟨rfl, tallied.after (Visit.pass_run name metadata) rfl rfl⟩

theorem freezeSelected_follows (tallied : inspection.Tallied upper slots []) (paths : List PathBuf) :
    Follows upper slots [] (inspection.freezeSelected graph upper paths)
      (inspection.toWalk.freezeSelected (graph.upTo slots) upper paths) := by
  induction paths generalizing inspection with
  | nil => exact ⟨rfl, tallied⟩
  | cons path rest ih =>
    unfold Inspection.freezeSelected Walk.freezeSelected
    split
    · exact tallied.truncate
    · rename_i left
      obtain ⟨same, frozen⟩ := @freezePath_follows graph upper slots (maxDirectoryDepth + 1) _ [] 0 (Nat.zero_add _) rfl
        (tallied.take left) path
      rw [List.map_nil] at same frozen
      dsimp only
      have taken : inspection.take.toWalk = { inspection.toWalk with remaining := inspection.remaining - 1 } := rfl
      rw [← taken, ← same]
      split
      · exact ⟨rfl, frozen.after (Visit.Step.count _ (Nat.le_refl _)).run rfl rfl⟩
      · exact ih frozen

end Inspection

def DirectoryGraph.freezePathsWithLimits (graph : DirectoryGraph) (upper : Uppercase) (paths : List PathBuf)
    (maxEntries : Nat) (hugeFiles : Bool) : Inspection :=
  (Inspection.new maxEntries hugeFiles).freezeSelected graph upper paths

theorem Inspection.tallied_new (upper : Uppercase) (maxEntries : Nat) (hugeFiles : Bool) :
    (Inspection.new maxEntries hugeFiles).Tallied upper maxEntries [] :=
  ⟨Visit.sound_new upper maxEntries hugeFiles, Nat.zero_add _, List.nodup_nil, nofun⟩

/-- A walk does not see more of a directory than its slots and one entry. -/
theorem DirectoryGraph.freezePathsWithLimits_files (graph : DirectoryGraph) (upper : Uppercase) (paths : List PathBuf)
    (maxEntries : Nat) (hugeFiles : Bool) : (graph.freezePathsWithLimits upper paths maxEntries hugeFiles).files =
    HyprRdp.freezePathsWithLimits (graph.upTo maxEntries) upper paths maxEntries hugeFiles :=
  congrArg Walk.files (Inspection.freezeSelected_follows (Inspection.tallied_new upper maxEntries hugeFiles) paths).walk

/-- A walk looks at no more than it may, lists no directory below itself, and gives out
only names that Windows takes and can tell apart. -/
theorem DirectoryGraph.walk_bounded_and_valid (graph : DirectoryGraph) (upper : Uppercase) (paths : List PathBuf)
    (maxEntries : Nat) (hugeFiles : Bool) :
    let walked := graph.freezePathsWithLimits upper paths maxEntries hugeFiles
    walked.files.length ≤ maxEntries ∧ walked.inspected ≤ maxEntries ∧
      (walked.probed.Nodup ∧ ∀ directory ∈ walked.probed,
        ∃ file ∈ walked.files, file.descriptor.isDirectory = true ∧ file.components = directory) ∧
      (∀ above ∈ walked.files, ∀ below ∈ walked.files, below.descriptor.isDirectory = true →
        above.components <+: below.components → above.components ≠ below.components → above.identity ≠ below.identity) ∧
      (∀ (before : List ListedFile) (file : ListedFile) after, walked.files = before ++ file :: after → file.descriptor.parents = [] ∨
        ∃ directory ∈ before, directory.descriptor.isDirectory = true ∧ directory.components = file.descriptor.parents) ∧
      (∀ file ∈ walked.files, ∀ component ∈ file.components, WindowsName component) ∧
      (∀ file ∈ walked.files, utf16Len file.descriptor.fullName < 260) ∧
      (walked.files.map fun file => file.components.map (windowsNameKey upper)).Nodup ∧
      (upper.Separates → (walked.files.map fun file => windowsNameKey upper file.descriptor.fullName).Nodup) ∧
      walked.ancestorDirectories = [] := by
  intro walked
  have start := Inspection.tallied_new upper maxEntries hugeFiles
  obtain ⟨same, tallied⟩ := @Inspection.freezeSelected_follows graph upper maxEntries _ start paths
  have run := @Visit.freezeSelected_run upper (graph.upTo maxEntries) (Inspection.new maxEntries hugeFiles).toWalk paths
  rw [← same] at run
  have empty : Visit.Chained ⟨(Inspection.new maxEntries hugeFiles).toWalk, []⟩ :=
    ⟨rfl, nofun, fun above name metadata none => absurd (List.prefix_nil.mp none) (by simp)⟩
  obtain ⟨sound, chained, valid⟩ := Visit.run_valid start.sound empty ⟨nofun, nofun, nofun, nofun⟩ run
  have slots := tallied.slots
  refine ⟨?_, ?_, ⟨tallied.once, fun directory member => ?_⟩, valid.acyclic, fun before file after => sound.parent_listed,
    valid.named, valid.short, ?_, fun separates => ?_, chained.ancestors⟩
  · exact Nat.le_trans sound.walk.few (Nat.le_of_eq (start.sound.run run).2.maxEntries)
  · exact slots ▸ Nat.le_add_right ..
  · obtain ⟨file, listed, entry⟩ := List.mem_map.mp (tallied.listed directory member)
    exact ⟨file, listed, congrArg Prod.snd entry, congrArg Prod.fst entry⟩
  · exact sound.nodup_map fun one isOne other isOther => valid.components_of_keys sound isOne isOther
  · exact sound.nodup_map fun one isOne other isOther => valid.components_of_fullName sound separates isOne isOther

/-- A directory with a file in it. -/
def smallDirectory : DirectoryGraph where
  fileName path := some (if path = [100] then ['d'] else ['a'])
  metadata path :=
    some (if path = [100] then ⟨⟨1, 2, false, 0⟩, true, none, nofun⟩ else ⟨⟨1, 3, true, 4⟩, false, none, fun _ => rfl⟩)
  openSource _ := some (some ⟨⟨1, 3, true, 4⟩, false, none, fun _ => rfl⟩)
  readDir path := if path = [100] then some (Stream'.Seq.ofList [some [100, 47, 97]]) else none

def plainCapitals : Uppercase := ⟨fun character => [character], fun _ _ => rfl⟩

theorem DirectoryGraph.walk_bounded_and_valid_small :
    let files := (smallDirectory.freezePathsWithLimits plainCapitals [[100]] 3 true).files
    files.map ListedFile.components = [[['d']], [['d'], ['a']]] ∧
      (∃ directory ∈ files, directory.descriptor.isDirectory = true ∧ directory.components = [['d']]) ∧
      (files.map fun file => windowsNameKey plainCapitals file.descriptor.fullName).Nodup := by
  intro files
  obtain ⟨_, _, _, _, listed, _, _, _, distinct, _⟩ := smallDirectory.walk_bounded_and_valid plainCapitals [[100]] 3 true
  have whole : files.map (fun file => (file.components, file.descriptor.parents)) =
      [([['d']], []), ([['d'], ['a']], [['d']])] := by
    unfold files
    rw [freezePathsWithLimits_files]
    with_unfolding_all decide
  obtain ⟨directory, rest, isFiles, first, others⟩ := List.map_eq_cons_iff.mp whole
  obtain ⟨file, none, rfl, second, isNone⟩ := List.map_eq_cons_iff.mp others
  obtain rfl := List.map_eq_nil_iff.mp isNone
  obtain ⟨ofDirectory, _⟩ := Prod.mk.inj first
  obtain ⟨ofFile, parents⟩ := Prod.mk.inj second
  refine ⟨?_, ?_, distinct ⟨rfl, fun _ member => (List.mem_singleton.mp member).symm⟩⟩
  · rw [isFiles, List.map_cons, List.map_cons, ofDirectory, ofFile, List.map_nil]
  · obtain none | ⟨above, member, isDirectory, same⟩ := listed [directory] file [] isFiles
    · cases parents.symm.trans none
    · rw [isFiles]
      exact ⟨above, List.mem_cons.mpr (.inl (List.mem_singleton.mp member)), isDirectory, same.trans parents⟩

end HyprRdp
