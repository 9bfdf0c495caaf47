import HyprRdp.Clipboard.FrozenLists

namespace HyprRdp

/-- The name of an entry in the selection, with the directories that it is in. -/
def FileDescriptor.fullName (file : FileDescriptor) : FileName :=
  (file.relativePath.map fun path => path ++ ['\\']).getD [] ++ file.name

namespace ListedFile

def components (file : ListedFile) : List FileName := file.descriptor.components

/-- What tells a directory from others, however it was come upon. -/
def identity (file : ListedFile) : Nat × Nat := (file.device, file.inode)

end ListedFile

section FullNames

theorem utf16Len_append (one other : FileName) : utf16Len (one ++ other) = utf16Len one + utf16Len other := by
  unfold utf16Len
  rw [List.map_append, List.sum_append]

theorem utf16Len_separator : utf16Len ['\\'] = 1 := by decide

theorem utf16Len_intercalate (parent : List FileName) (name : FileName) :
    utf16Len (['\\'].intercalate (parent ++ [name])) = (parent.map fun part => utf16Len part + 1).sum + utf16Len name := by
  induction parent with
  | nil => simp
  | cons part rest ih =>
    rw [List.cons_append, List.intercalate_cons_of_ne_nil (List.append_ne_nil_of_right_ne_nil _ (List.cons_ne_nil _ _)),
      utf16Len_append, utf16Len_append, ih, utf16Len_separator, List.map_cons, List.sum_cons]
    omega

theorem intercalate_concat {parent : List FileName} (some_parent : parent ≠ []) (name : FileName) :
    ['\\'].intercalate (parent ++ [name]) = (['\\'].intercalate parent ++ ['\\']) ++ name := by
  induction parent with
  | nil => exact absurd rfl some_parent
  | cons part rest ih =>
    rw [List.cons_append, List.intercalate_cons_of_ne_nil (List.append_ne_nil_of_right_ne_nil _ (List.cons_ne_nil _ _))]
    cases rest with
    | nil => simp
    | cons next rest =>
      rw [ih (List.cons_ne_nil _ _), List.intercalate_cons_of_ne_nil (List.cons_ne_nil _ _)]
      simp only [List.append_assoc]

theorem fullName_eq (file : FileDescriptor) : file.fullName = ['\\'].intercalate file.components := by
  unfold FileDescriptor.fullName FileDescriptor.components FileDescriptor.parents
  cases file.relativePath with
  | none => exact (List.intercalate_singleton).symm
  | some path =>
    have some_parent : path.splitOn '\\' ≠ [] := by simp
    rw [Option.map_some, Option.map_some, Option.getD_some, Option.getD_some, intercalate_concat some_parent,
      List.intercalate_splitOn]

/-- No capital but its own is the separator. -/
structure Uppercase.Separates (upper : Uppercase) : Prop where
  self : upper.capitals '\\' = ['\\']
  only : ∀ character, '\\' ∈ upper.capitals character → character = '\\'

theorem windowsNameKey_intercalate {upper : Uppercase} (separates : upper.Separates) (parts : List FileName) :
    windowsNameKey upper (['\\'].intercalate parts) = ['\\'].intercalate (parts.map (windowsNameKey upper)) := by
  have separator : windowsNameKey upper ['\\'] = ['\\'] := by
    unfold windowsNameKey
    rw [List.flatMap_singleton, separates.self]
  induction parts with
  | nil => rfl
  | cons part rest ih =>
    cases rest with
    | nil => simp only [List.map_cons, List.map_nil, List.intercalate_singleton]
    | cons next rest =>
      rw [List.intercalate_cons_cons, windowsNameKey_append, windowsNameKey_append, separator, ih]
      exact List.intercalate_cons_cons.symm

/-- Names that differ by more than their case differ so when they are joined. -/
theorem keys_of_joined {upper : Uppercase} (separates : upper.Separates) {one other : List FileName}
    (some_one : one ≠ []) (some_other : other ≠ []) (names : ∀ part ∈ one ++ other, WindowsName part)
    (same : windowsNameKey upper (['\\'].intercalate one) = windowsNameKey upper (['\\'].intercalate other)) :
    one.map (windowsNameKey upper) = other.map (windowsNameKey upper) := by
  have clean : ∀ part, WindowsName part → '\\' ∉ windowsNameKey upper part := by
    intro part named inside
    obtain ⟨character, member, capital⟩ := List.mem_flatMap.mp inside
    rw [separates.only character capital] at member
    exact named.reserved _ member (by decide)
  have split : ∀ parts : List FileName, parts ≠ [] → (∀ part ∈ parts, WindowsName part) →
      (windowsNameKey upper (['\\'].intercalate parts)).splitOn '\\' = parts.map (windowsNameKey upper) := by
    intro parts some_part names
    rw [windowsNameKey_intercalate separates]
    refine List.splitOn_intercalate '\\' (fun key member => ?_) (fun none => some_part (List.map_eq_nil_iff.mp none))
    obtain ⟨part, isPart, rfl⟩ := List.mem_map.mp member
    exact clean part (names part isPart)
  rw [← split one some_one fun part member => names part (List.mem_append_left _ member),
    ← split other some_other fun part member => names part (List.mem_append_right _ member), same]

end FullNames

namespace Visit

variable {upper : Uppercase} {visit next : Visit}

/-- A step lists one file at most. A directory that it lists is none of those above it. -/
theorem Step.files (step : Step upper visit next) : next.walk.files = visit.walk.files ∨
    ∃ name path metadata attributes, visit.Admits upper name ∧
      (attributes.directory = true → (metadata.dev, metadata.ino) ∉ visit.walk.ancestorDirectories) ∧
      next.walk.files = visit.walk.files ++ [frozenFile path visit.parent name metadata attributes] := by
  cases step with
  | count _ _ => exact .inl rfl
  | pass _ _ => exact .inl rfl
  | file path metadata admits => exact .inr ⟨_, path, metadata, .plain, admits, nofun, rfl⟩
  | enter path metadata admits fresh => exact .inr ⟨_, path, metadata, .directories, admits, fun _ => fresh, rfl⟩
  | leave _ _ _ _ => exact .inl rfl

/-- The directories that the walk is inside are listed, and are those that it remembers. -/
structure Chained (visit : Visit) : Prop where
  ancestors : visit.walk.ancestorDirectories = (visit.inside.map fun entered => (entered.2.dev, entered.2.ino)).reverse
  names : ∀ part ∈ visit.parent, WindowsName part
  entered : ∀ (above : List (FileName × EntryMetadata)) (name : FileName) (metadata : EntryMetadata),
    above ++ [(name, metadata)] <+: visit.inside → ∃ file ∈ visit.walk.files,
    file.components = above.map Prod.fst ++ [name] ∧ file.identity = (metadata.dev, metadata.ino)

theorem Chained.step (chained : visit.Chained) (step : Step upper visit next) : next.Chained := by
  cases step with
  | count _ _ => exact ⟨chained.ancestors, chained.names, chained.entered⟩
  | pass _ _ => exact ⟨chained.ancestors, chained.names, chained.entered⟩
  | file path metadata _ =>
    refine ⟨chained.ancestors, chained.names, fun above name metadata isAbove => ?_⟩
    obtain ⟨file, member, same⟩ := chained.entered above name metadata isAbove
    exact ⟨file, List.mem_append_left _ member, same⟩
  | @enter _ name path metadata admits _ =>
    refine ⟨?_, fun part member => ?_, fun above other outer isAbove => ?_⟩
    · have remembered := chained.ancestors
      simp only [List.map_append, List.map_singleton, List.reverse_append, List.reverse_singleton, List.singleton_append]
      exact congrArg _ remembered
    · unfold parent at member
      rw [List.map_append, List.map_singleton] at member
      rcases List.mem_append.mp member with old | new
      · exact chained.names part old
      · exact List.mem_singleton.mp new ▸ admits.named
    · rcases List.prefix_concat_iff.mp isAbove with whole | old
      · obtain ⟨rfl, last⟩ := List.append_inj' whole rfl
        obtain ⟨rfl, rfl⟩ := Prod.mk.inj (List.singleton_inj.mp last)
        refine ⟨_, List.mem_append_right _ List.mem_cons_self, ?_, rfl⟩
        exact frozenFile_components fun part member => (chained.names part member).wellNamed
      · obtain ⟨file, member, same⟩ := chained.entered above other outer old
        exact ⟨file, List.mem_append_left _ member, same⟩
  | leave walk inside name metadata =>
    have outer : inside <+: inside ++ [(name, metadata)] := List.prefix_append _ _
    refine ⟨?_, fun part member => chained.names part ((outer.map Prod.fst).subset member), fun above other entered isAbove =>
      chained.entered above other entered (isAbove.trans outer)⟩
    have remembered := chained.ancestors
    simp only [List.map_append, List.map_singleton, List.reverse_append, List.reverse_singleton, List.singleton_append]
      at remembered
    unfold Walk.leave
    dsimp only
    rw [remembered, List.erase_cons_head]

/-- The files listed so far have paths that Windows can take, and no directory is its own ancestor. -/
structure Valid (upper : Uppercase) (visit : Visit) : Prop where
  named : ∀ file ∈ visit.walk.files, ∀ component ∈ file.components, WindowsName component
  short : ∀ file ∈ visit.walk.files, utf16Len file.descriptor.fullName < 260
  siblings : ∀ path one other first second, (path ++ [one], first) ∈ visit.walk.listing →
    (path ++ [other], second) ∈ visit.walk.listing → windowsNameKey upper one = windowsNameKey upper other → one = other
  acyclic : ∀ above ∈ visit.walk.files, ∀ below ∈ visit.walk.files, below.descriptor.isDirectory = true →
    above.components <+: below.components → above.components ≠ below.components → above.identity ≠ below.identity

theorem components_nodup (sound : visit.Sound upper) : (visit.walk.files.map ListedFile.components).Nodup := by
  have nodup := sound.walk.closed.nodup
  unfold Walk.listing at nodup
  rw [List.map_map] at nodup
  exact nodup

/-- A directory above the place of the walk is one of those that the walk remembers. -/
theorem Chained.remembers (chained : visit.Chained) (sound : visit.Sound upper) {file : ListedFile}
    (member : file ∈ visit.walk.files) (isAbove : file.components <+: visit.parent) :
    file.identity ∈ visit.walk.ancestorDirectories := by
  obtain ⟨rest, whole⟩ := isAbove
  obtain ⟨above, below, inside, names, _⟩ := List.map_eq_append_iff.mp whole.symm
  obtain ⟨front, ⟨name, metadata⟩, rfl⟩ : ∃ front last, above = front ++ [last] := by
    refine List.eq_nil_or_concat' above |>.resolve_left ?_
    rintro rfl
    exact List.append_ne_nil_of_right_ne_nil _ (List.cons_ne_nil _ _) names.symm
  obtain ⟨listed, isListed, components, identity⟩ := chained.entered front name metadata (inside ▸ List.prefix_append _ _)
  have same : listed = file := by
    refine List.inj_on_of_nodup_map (components_nodup sound) isListed member (components.trans ?_)
    rw [← names, List.map_append, List.map_singleton]
  rw [← same, identity, chained.ancestors, List.mem_reverse, inside]
  exact List.mem_map.mpr ⟨(name, metadata), by simp, rfl⟩

section Listed

variable {file : ListedFile} {name : FileName} {directory : Bool}

theorem Sound.other_key (sound : visit.Sound upper) (free : (visit.parent, windowsNameKey upper name) ∉ visit.walk.usedNames)
    {other : FileName} (member : (visit.parent ++ [other], directory) ∈ visit.walk.listing) :
    windowsNameKey upper other ≠ windowsNameKey upper name :=
  fun same => free (same ▸ sound.walk.used visit.parent other directory member)

theorem Valid.siblings_concat (valid : visit.Valid upper) (sound : visit.Sound upper)
    (free : (visit.parent, windowsNameKey upper name) ∉ visit.walk.usedNames) (path : List FileName) (one other : FileName)
    (first second : Bool) (isOne : (path ++ [one], first) ∈ visit.walk.listing ++ [(visit.parent ++ [name], directory)])
    (isOther : (path ++ [other], second) ∈ visit.walk.listing ++ [(visit.parent ++ [name], directory)])
    (same : windowsNameKey upper one = windowsNameKey upper other) : one = other := by
  rcases List.mem_append.mp isOne with old | new
  · rcases List.mem_append.mp isOther with oldOther | newOther
    · exact valid.siblings path one other first second old oldOther same
    · obtain ⟨rfl, last⟩ := List.append_inj' (Prod.mk.inj (List.mem_singleton.mp newOther)).1 rfl
      exact absurd (List.singleton_inj.mp last ▸ same) (sound.other_key free old)
  · obtain ⟨rfl, last⟩ := List.append_inj' (Prod.mk.inj (List.mem_singleton.mp new)).1 rfl
    rcases List.mem_append.mp isOther with oldOther | newOther
    · exact absurd (List.singleton_inj.mp last ▸ same.symm) (sound.other_key free oldOther)
    · have lastOther := List.append_cancel_left (Prod.mk.inj (List.mem_singleton.mp newOther)).1
      exact (List.singleton_inj.mp last).trans (List.singleton_inj.mp lastOther).symm

theorem Valid.acyclic_concat (valid : visit.Valid upper) (sound : visit.Sound upper) (chained : visit.Chained)
    (free : (visit.parent, windowsNameKey upper name) ∉ visit.walk.usedNames) (components : file.components = visit.parent ++ [name])
    (fresh : file.descriptor.isDirectory = true → file.identity ∉ visit.walk.ancestorDirectories) {above below : ListedFile}
    (isListed : above ∈ visit.walk.files ++ [file]) (isBelow : below ∈ visit.walk.files ++ [file])
    (isDirectory : below.descriptor.isDirectory = true) (isAbove : above.components <+: below.components)
    (different : above.components ≠ below.components) : above.identity ≠ below.identity := by
  rcases List.mem_append.mp isListed with old | new
  · rcases List.mem_append.mp isBelow with oldBelow | newBelow
    · exact valid.acyclic above old below oldBelow isDirectory isAbove different
    · obtain rfl := List.mem_singleton.mp newBelow
      rw [components] at isAbove different
      have outer := (List.prefix_concat_iff.mp isAbove).resolve_left different
      have remembered := chained.remembers sound old outer
      exact fun same => fresh isDirectory (same ▸ remembered)
  · obtain rfl := List.mem_singleton.mp new
    rcases List.mem_append.mp isBelow with oldBelow | newBelow
    · -- nothing listed before it is below the new entry
      have listed := sound.walk.closed.above (List.append_ne_nil_of_right_ne_nil _ (List.cons_ne_nil _ _))
        (List.mem_map.mpr ⟨below, oldBelow, rfl⟩) (components ▸ isAbove) (components ▸ different)
      exact absurd rfl (sound.other_key free listed)
    · exact absurd (List.mem_singleton.mp newBelow ▸ rfl) different

end Listed

theorem Valid.step (valid : visit.Valid upper) (sound : visit.Sound upper) (chained : visit.Chained)
    (step : Step upper visit next) : next.Valid upper := by
  rcases step.files with same | ⟨name, path, metadata, attributes, admits, fresh, files⟩
  · have listing : next.walk.listing = visit.walk.listing := congrArg (List.map ListedFile.entry) same
    exact ⟨same ▸ valid.named, same ▸ valid.short, listing ▸ valid.siblings, same ▸ valid.acyclic⟩
  · generalize isNew : frozenFile path visit.parent name metadata attributes = file at files
    have components : file.components = visit.parent ++ [name] :=
      isNew ▸ frozenFile_components fun part member => (chained.names part member).wellNamed
    have entry : file.entry = (visit.parent ++ [name], attributes.directory) := Prod.ext components (isNew ▸ rfl)
    have listing : next.walk.listing = visit.walk.listing ++ [(visit.parent ++ [name], attributes.directory)] := by
      unfold Walk.listing
      rw [files, List.map_append, List.map_singleton, entry]
    have isFresh : file.descriptor.isDirectory = true → file.identity ∉ visit.walk.ancestorDirectories := by
      subst isNew
      exact fresh
    refine ⟨fun other member => ?_, fun other member => ?_, ?_, ?_⟩
    · rw [files] at member
      rcases List.mem_append.mp member with old | new
      · exact valid.named other old
      · rw [List.mem_singleton.mp new, components]
        intro component inside
        rcases List.mem_append.mp inside with outer | last
        · exact chained.names component outer
        · exact List.mem_singleton.mp last ▸ admits.named
    · rw [files] at member
      rcases List.mem_append.mp member with old | new
      · exact valid.short other old
      · have fits := of_decide_eq_true admits.fits
        have whole : file.descriptor.components = visit.parent ++ [name] := components
        rw [List.mem_singleton.mp new, fullName_eq, whole, utf16Len_intercalate]
        exact fits
    · rw [listing]
      exact valid.siblings_concat sound admits.free
    · rw [files]
      exact fun above isListed below isBelow => valid.acyclic_concat sound chained admits.free components isFresh isListed isBelow

theorem run_valid (sound : visit.Sound upper) (chained : visit.Chained) (valid : visit.Valid upper)
    (run : Run upper visit next) : next.Sound upper ∧ next.Chained ∧ next.Valid upper :=
  run.keeps (P := fun last => last.Sound upper ∧ last.Chained ∧ last.Valid upper)
    (fun step ⟨sound, chained, valid⟩ => ⟨sound.step step, chained.step step, valid.step sound chained step⟩)
    ⟨sound, chained, valid⟩

/-- What tells paths apart tells the files of the list apart. -/
theorem Sound.nodup_map {α : Type} (sound : visit.Sound upper) {f : ListedFile → α}
    (tells : ∀ one ∈ visit.walk.files, ∀ other ∈ visit.walk.files, f one = f other → one.components = other.components) :
    (visit.walk.files.map f).Nodup := by
  have nodup := components_nodup sound
  refine nodup.of_map.map_on fun one isOne other isOther same => ?_
  exact List.inj_on_of_nodup_map nodup isOne isOther (tells one isOne other isOther same)

theorem Valid.components_of_keys (valid : visit.Valid upper) (sound : visit.Sound upper) {one other : ListedFile}
    (isOne : one ∈ visit.walk.files) (isOther : other ∈ visit.walk.files)
    (same : one.components.map (windowsNameKey upper) = other.components.map (windowsNameKey upper)) :
    one.components = other.components :=
  sound.walk.closed.keys_injective valid.siblings (List.mem_map.mpr ⟨one, isOne, rfl⟩) (List.mem_map.mpr ⟨other, isOther, rfl⟩)
    same

theorem components_ne_nil (file : ListedFile) : file.components ≠ [] :=
  List.append_ne_nil_of_right_ne_nil _ (List.cons_ne_nil _ _)

theorem Valid.components_of_fullName (valid : visit.Valid upper) (sound : visit.Sound upper) (separates : upper.Separates)
    {one other : ListedFile} (isOne : one ∈ visit.walk.files) (isOther : other ∈ visit.walk.files)
    (same : windowsNameKey upper one.descriptor.fullName = windowsNameKey upper other.descriptor.fullName) :
    one.components = other.components := by
  rw [fullName_eq, fullName_eq] at same
  refine valid.components_of_keys sound isOne isOther ?_
  refine keys_of_joined separates (components_ne_nil one) (components_ne_nil other) (fun part member => ?_) same
  rcases List.mem_append.mp member with first | second
  · exact valid.named one isOne part first
  · exact valid.named other isOther part second

theorem Sound.parent_listed (sound : visit.Sound upper) {before after : List ListedFile} {file : ListedFile}
    (files : visit.walk.files = before ++ file :: after) : file.descriptor.parents = [] ∨
      ∃ directory ∈ before, directory.descriptor.isDirectory = true ∧ directory.components = file.descriptor.parents := by
  have closed := sound.walk.closed
  unfold Walk.listing at closed
  rw [files, List.append_cons, List.map_append, List.map_append, List.map_singleton] at closed
  obtain ⟨_, _, path, name, here, parent⟩ := (closed.of_append _).of_concat
  obtain ⟨rfl, _⟩ := List.append_inj' (here : file.descriptor.parents ++ [_] = _) rfl
  refine parent.imp_right fun listed => ?_
  obtain ⟨directory, member, entry⟩ := List.mem_map.mp listed
  exact ⟨directory, member, congrArg Prod.snd entry, congrArg Prod.fst entry⟩

end Visit

end HyprRdp
