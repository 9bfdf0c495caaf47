import HyprRdp.Clipboard.ListedTrees

namespace HyprRdp

open PathTable

namespace Listing

variable {maxEntries base : Nat} {listing next : Listing} {path other front rest : List FileName} {name : FileName}
  {kind : RemoteNodeKind} {result : Option Nat}

/-- Neither a node nor an inode is left for another entry. -/
def NoRoom (maxEntries base : Nat) (listing : Listing) : Prop := maxEntries ≤ listing.length ∨ 2 ^ 64 ≤ base + listing.length

theorem NoRoom.later (none : NoRoom maxEntries base listing) (grows : listing <+: next) : NoRoom maxEntries base next := by
  have longer := grows.length_le
  unfold NoRoom at none ⊢
  omega

theorem kind_unique (closed : Closed listing.marks) {other : RemoteNodeKind} (first : (path, kind) ∈ listing)
    (second : (path, other) ∈ listing) : kind = other := by
  have distinct := closed.nodup
  rw [marks_paths] at distinct
  exact (Prod.mk.inj (List.inj_on_of_nodup_map distinct first second rfl)).2

theorem mem_marks (member : (path, kind) ∈ listing) : (path, decide (kind = .directory)) ∈ listing.marks :=
  List.mem_map_of_mem member

theorem ne_nil_of_mem (closed : Closed listing.marks) (member : (path, kind) ∈ listing) : path ≠ [] := by
  rintro rfl
  exact closed.proper (List.mem_map_of_mem (mem_marks member))

/-- What is listed stands below directories only. -/
theorem directory_above (closed : Closed listing.marks) (member : (other, kind) ∈ listing) (named : path ≠ [])
    (above : path <+: other) (apart : path ≠ other) : (path, .directory) ∈ listing :=
  mem_marks_directory.mp (closed.above named (mem_marks member) above apart)

theorem Puts.closed (puts : Puts maxEntries base listing (path ++ [name]) kind next result) (closed : Closed listing.marks)
    (directory : path = [] ∨ (path, .directory) ∈ listing) : Closed next.marks := by
  cases puts with
  | new fresh _ _ => exact closed_concat closed directory fresh kind
  | merged _ _ | taken _ _ | full _ _ => exact closed

theorem Puts.few (puts : Puts maxEntries base listing path kind next result) (few : listing.length ≤ maxEntries) :
    next.length ≤ maxEntries := by
  cases puts with
  | new _ space _ =>
    rw [List.length_append]
    exact space
  | merged _ _ | taken _ _ | full _ _ => exact few

theorem Puts.old (puts : Puts maxEntries base listing path kind next result) {entry : List FileName × RemoteNodeKind}
    (member : entry ∈ next) : entry ∈ listing ∨ entry = (path, kind) := by
  cases puts with
  | new _ _ _ => exact (List.mem_append.mp member).imp_right List.mem_singleton.mp
  | merged _ _ | taken _ _ | full _ _ => exact .inl member

/-- What putting the directories along a path does to a listing. -/
structure Spread (maxEntries base : Nat) (listing : Listing) (path : List FileName) (next : Listing) (result : Option Nat) :
    Prop where
  grows : listing <+: next
  closed : Closed next.marks
  few : listing.length ≤ maxEntries → next.length ≤ maxEntries
  old : ∀ entry ∈ next, entry ∈ listing ∨ (entry.2 = .directory ∧ entry.1 <+: path)
  stands : ∀ inode, result = some inode → path = [] ∨ (path, .directory) ∈ next
  blocked : result = none → (∃ above j, above <+: path ∧ (above, .file j) ∈ next) ∨ NoRoom maxEntries base next

theorem Reaches.spread (reaches : Reaches maxEntries base listing front rest next result) (closed : Closed listing.marks)
    (directory : front = [] ∨ (front, .directory) ∈ listing) : Spread maxEntries base listing (front ++ rest) next result := by
  induction reaches with
  | done inode =>
    rw [List.append_nil]
    exact ⟨List.prefix_rfl, closed, id, fun _ => .inl, fun _ _ => directory, nofun⟩
  | @blocked listing next front rest name puts =>
    have within : front ++ [name] <+: front ++ name :: rest := ⟨rest, List.append_assoc ..⟩
    refine ⟨puts.grows, puts.closed closed directory, puts.few, fun entry member => ?_, nofun, fun _ => ?_⟩
    · refine (puts.old member).imp_right fun same => ?_
      rw [same]
      exact ⟨rfl, within⟩
    · cases puts with
      | @taken other listed apart =>
        cases other with
        | directory => exact absurd apart (by simp)
        | file j => exact .inl ⟨_, j, within, listed⟩
      | full _ none => exact .inr none
  | @next listing more next front rest name inode result puts reaches ih =>
    have spread := ih (puts.closed closed directory) (.inr puts.directory.2)
    rw [List.append_assoc, List.singleton_append] at spread
    have within : front ++ [name] <+: front ++ name :: rest := ⟨rest, List.append_assoc ..⟩
    refine ⟨puts.grows.trans spread.grows, spread.closed, fun few => spread.few (puts.few few), fun entry member => ?_,
      spread.stands, spread.blocked⟩
    rcases spread.old entry member with old | new
    · refine (puts.old old).imp_right fun same => ?_
      rw [same]
      exact ⟨rfl, within⟩
    · exact .inr new

/-- The descriptor names the path, or an entry below it. -/
def Claims (files : List FileDescriptor) (index : Nat) (path : List FileName) : Prop :=
  ∃ file components, files[index]? = some file ∧ file.pathComponents = some components ∧ path <+: components

/-- How a descriptor fares: it stands in the listing, or it is left out for an entry that is there, or for want of room. -/
inductive Fares (files : List FileDescriptor) (maxEntries base : Nat) (listing : Listing) (index : Nat) (file : FileDescriptor)
    (path : List FileName) : Prop
  | stands : (path, if file.isDirectory then RemoteNodeKind.directory else .file index) ∈ listing →
    Fares files maxEntries base listing index file path
  | earlierFile {above : List FileName} {j : Nat} : above <+: path → (above, .file j) ∈ listing → j < index →
    Fares files maxEntries base listing index file path
  | earlierDirectory {j : Nat} : file.isDirectory = false → (path, .directory) ∈ listing → j < index → Claims files j path →
    Fares files maxEntries base listing index file path
  | noRoom : NoRoom maxEntries base listing → Fares files maxEntries base listing index file path

theorem Claims.later {files more : List FileDescriptor} {index : Nat} (claims : Claims files index path) (grows : files <+: more) :
    Claims more index path := by
  obtain ⟨file, components, atFile, isPath, within⟩ := claims
  obtain ⟨rest, rfl⟩ := grows
  obtain ⟨bound, _⟩ := List.getElem?_eq_some_iff.mp atFile
  exact ⟨file, components, (List.getElem?_append_left bound).trans atFile, isPath, within⟩

theorem Claims.before {files : List FileDescriptor} {index : Nat} (claims : Claims files index path) : index < files.length := by
  obtain ⟨file, _, atFile, _⟩ := claims
  exact (List.getElem?_eq_some_iff.mp atFile).1

theorem Fares.later {files more : List FileDescriptor} {index : Nat} {file : FileDescriptor}
    (fares : Fares files maxEntries base listing index file path) (longer : files <+: more) (grows : listing <+: next) :
    Fares more maxEntries base next index file path := by
  cases fares with
  | stands member => exact .stands (grows.subset member)
  | earlierFile above member earlier => exact .earlierFile above (grows.subset member) earlier
  | earlierDirectory plain member earlier claims => exact .earlierDirectory plain (grows.subset member) earlier (claims.later longer)
  | noRoom none => exact .noRoom (none.later grows)

/-- The listing that the descriptors so far have left. -/
structure Settled (files : List FileDescriptor) (maxEntries base : Nat) (listing : Listing) : Prop where
  closed : Closed listing.marks
  few : listing.length ≤ maxEntries
  file : ∀ path index, (path, .file index) ∈ listing → ∃ file, files[index]? = some file ∧ file.pathComponents = some path ∧
    file.isDirectory = false ∧ ∀ j < index, ¬ Claims files j path
  claimed : ∀ path kind, (path, kind) ∈ listing → ∃ j, Claims files j path
  fares : ∀ index file path, files[index]? = some file → file.pathComponents = some path →
    Fares files maxEntries base listing index file path

/-- Every listed path is the path of a descriptor, or lies above one. -/
theorem Settled.plain {done : List FileDescriptor}
    (settled : Settled done maxEntries base listing) (member : (path, kind) ∈ listing) :
    path.length - 1 ≤ maxDirectoryDepth ∧ ∀ component ∈ path, PlainName component := by
  obtain ⟨_, file, components, _, isPath, above⟩ := settled.claimed path kind member
  obtain ⟨_, depth, plain⟩ := FileDescriptor.pathComponents_plain isPath
  have shorter := above.length_le
  exact ⟨by omega, fun component inside => plain component (above.subset inside)⟩

/-- Two prefixes of one path lie on one line. A listed file ends the line that a path below it would need. -/
theorem not_below_file (closed : Closed listing.marks) {j : Nat} (file : (other, .file j) ∈ listing)
    (directory : path = [] ∨ (path, .directory) ∈ listing) : ¬ other <+: path := by
  intro below
  rcases directory with rfl | listed
  · exact ne_nil_of_mem closed file (List.prefix_nil.mp below)
  · by_cases same : other = path
    · subst same
      exact absurd (kind_unique closed file listed) nofun
    · exact absurd (kind_unique closed file (directory_above closed listed (ne_nil_of_mem closed file) below same)) nofun

/-- A path that is not listed yet has not been claimed, unless there has been no room. -/
theorem Fares.unclaimed {files : List FileDescriptor} {index : Nat} {file : FileDescriptor} {components : List FileName}
    (fares : Fares files maxEntries base listing index file components) (closed : Closed listing.marks)
    (directory : path = [] ∨ (path, .directory) ∈ listing) (fresh : path ++ [name] ∉ listing.paths)
    (room : ¬ NoRoom maxEntries base listing) : ¬ path ++ [name] <+: components := by
  intro above
  have unlisted : ∀ {longer : List FileName} {kind : RemoteNodeKind}, (longer, kind) ∈ listing → ¬ path ++ [name] <+: longer := by
    intro longer kind member within
    by_cases same : path ++ [name] = longer
    · exact fresh (same ▸ List.mem_map_of_mem member)
    · exact fresh (List.mem_map_of_mem
        (directory_above closed member (List.append_ne_nil_of_right_ne_nil _ (List.cons_ne_nil _ _)) within same))
  cases fares with
  | stands member => exact unlisted member above
  | earlierDirectory _ member _ _ => exact unlisted member above
  | noRoom none => exact room none
  | earlierFile below member _ =>
    rcases List.prefix_or_prefix_of_prefix below above with shorter | longer
    · rcases List.prefix_concat_iff.mp shorter with same | shorter
      · exact fresh (same ▸ List.mem_map_of_mem member)
      · exact not_below_file closed member directory shorter
    · exact unlisted member longer

/-- One more descriptor: it is enough to say how it fares, and where the new entries come from. -/
theorem Settled.concat {before : List FileDescriptor} {file : FileDescriptor} (settled : Settled before maxEntries base listing)
    (grows : listing <+: next) (closed : Closed next.marks) (few : next.length ≤ maxEntries)
    (claimed : ∀ path kind, (path, kind) ∈ next → (path, kind) ∈ listing ∨ Claims (before ++ [file]) before.length path)
    (isFile : ∀ path index, (path, .file index) ∈ next → (path, .file index) ∈ listing ∨ (index = before.length ∧
      file.pathComponents = some path ∧ file.isDirectory = false ∧ ∀ j < before.length, ¬ Claims before j path))
    (fares : ∀ path, file.pathComponents = some path → Fares (before ++ [file]) maxEntries base next before.length file path) :
    Settled (before ++ [file]) maxEntries base next := by
  have longer : before <+: before ++ [file] := List.prefix_append _ _
  have unclaimed : ∀ {path : List FileName} {bound : Nat}, bound ≤ before.length → (∀ j < bound, ¬ Claims before j path) →
      ∀ j < bound, ¬ Claims (before ++ [file]) j path := by
    intro path bound within first j earlier claims
    obtain ⟨claimer, components, atClaimer, rest⟩ := claims
    rw [List.getElem?_append_left (Nat.lt_of_lt_of_le earlier within)] at atClaimer
    exact first j earlier ⟨claimer, components, atClaimer, rest⟩
  refine ⟨closed, few, fun path index member => ?_, fun path kind member => ?_, fun index other path atIndex isPath => ?_⟩
  · rcases isFile path index member with old | ⟨rfl, isPath, plain, first⟩
    · obtain ⟨other, atOther, isPath, plain, first⟩ := settled.file path index old
      obtain ⟨bound, _⟩ := List.getElem?_eq_some_iff.mp atOther
      exact ⟨other, (List.getElem?_append_left bound).trans atOther, isPath, plain, unclaimed (Nat.le_of_lt bound) first⟩
    · exact ⟨file, List.getElem?_concat_length, isPath, plain, unclaimed le_rfl first⟩
  · rcases claimed path kind member with old | new
    · obtain ⟨j, claims⟩ := settled.claimed path kind old
      exact ⟨j, claims.later longer⟩
    · exact ⟨before.length, new⟩
  · rcases List.getElem?_concat_iff.mp atIndex with old | ⟨rfl, rfl⟩
    · exact (settled.fares index other path old isPath).later longer grows
    · exact fares path isPath

theorem Adds.settled {before : List FileDescriptor} {file : FileDescriptor}
    (adds : Adds maxEntries base before.length file listing next) (settled : Settled before maxEntries base listing) :
    Settled (before ++ [file]) maxEntries base next := by
  have longer : before <+: before ++ [file] := List.prefix_append _ _
  have atFile : (before ++ [file])[before.length]? = some file := List.getElem?_concat_length
  cases adds with
  | unusable unusable =>
    exact settled.concat List.prefix_rfl settled.closed settled.few (fun _ _ => .inl) (fun _ _ => .inl)
      fun path isPath => absurd (unusable.symm.trans isPath) nofun
  | @unreached parents leaf _ isPath reaches =>
    have spread := reaches.spread settled.closed (.inl rfl)
    rw [List.nil_append] at spread
    refine settled.concat spread.grows spread.closed (spread.few settled.few) (fun path kind member => ?_) (fun path index member => ?_)
      fun path isPath' => ?_
    · refine (spread.old _ member).imp_right fun new => ⟨file, _, atFile, isPath, ?_⟩
      exact new.2.trans (List.prefix_append _ _)
    · exact .inl ((spread.old _ member).resolve_right fun new => absurd new.1 nofun)
    · obtain rfl := Option.some.inj (isPath.symm.trans isPath')
      rcases spread.blocked rfl with ⟨above, j, below, member⟩ | none
      · have old := (spread.old _ member).resolve_right fun new => absurd new.1 nofun
        obtain ⟨_, atOther, _⟩ := settled.file above j old
        exact .earlierFile (below.trans (List.prefix_append _ _)) member (List.getElem?_eq_some_iff.mp atOther).1
      · exact .noRoom none
  | @put parents leaf more _ parent result isPath reaches puts =>
    have spread := reaches.spread settled.closed (.inl rfl)
    rw [List.nil_append] at spread
    have directory := spread.stands parent rfl
    have old_of_more : ∀ {kind : RemoteNodeKind}, (parents ++ [leaf], kind) ∈ more → (parents ++ [leaf], kind) ∈ listing := by
      intro kind member
      refine (spread.old _ member).resolve_right fun new => ?_
      have shorter := new.2.length_le
      rw [List.length_append, List.length_singleton] at shorter
      omega
    refine settled.concat (spread.grows.trans puts.grows) (puts.closed spread.closed directory) (puts.few (spread.few settled.few))
      (fun path kind member => ?_) (fun path index member => ?_) fun path isPath' => ?_
    · rcases puts.old member with old | new
      · refine (spread.old _ old).imp_right fun new => ⟨file, _, atFile, isPath, ?_⟩
        exact new.2.trans (List.prefix_append _ _)
      · rw [(Prod.mk.inj new).1]
        exact .inr ⟨file, _, atFile, isPath, List.prefix_rfl⟩
    · cases puts with
      | new fresh space room =>
        rcases List.mem_append.mp member with old | new
        · exact .inl ((spread.old _ old).resolve_right fun new => absurd new.1 nofun)
        · obtain ⟨samePath, sameKind⟩ := Prod.mk.inj (List.mem_singleton.mp new)
          subst samePath
          split at sameKind
          · cases sameKind
          · rename_i plain
            cases sameKind
            refine .inr ⟨rfl, isPath, Bool.eq_false_iff.mpr plain, fun j earlier claims => ?_⟩
            obtain ⟨claimer, components, atClaimer, isComponents, within⟩ := claims
            have fares := (settled.fares j claimer components atClaimer isComponents).later List.prefix_rfl spread.grows
            have open_room : ¬ NoRoom maxEntries base more := by
              unfold NoRoom
              omega
            exact fares.unclaimed spread.closed directory fresh open_room within
      | merged _ _ | taken _ _ | full _ _ =>
        exact .inl ((spread.old _ member).resolve_right fun new => absurd new.1 nofun)
    · obtain rfl := Option.some.inj (isPath.symm.trans isPath')
      cases puts with
      | new _ _ _ => exact .stands (List.mem_append_right _ List.mem_cons_self)
      | merged atEntry isDirectory =>
        refine .stands ?_
        rw [isDirectory]
        exact List.mem_of_getElem? atEntry
      | full _ none => exact .noRoom none
      | @taken other member apart =>
        cases other with
        | file j =>
          obtain ⟨_, atOther, _⟩ := settled.file _ j (old_of_more member)
          exact .earlierFile List.prefix_rfl member (List.getElem?_eq_some_iff.mp atOther).1
        | directory =>
          have plain : file.isDirectory = false := by
            rcases apart with other | other
            · exact absurd rfl other
            · exact Bool.eq_false_iff.mpr fun isDirectory => other (if_pos isDirectory)
          obtain ⟨j, claims⟩ := settled.claimed _ _ (old_of_more member)
          exact .earlierDirectory plain member claims.before (claims.later longer)

theorem settled_nil : Settled [] maxEntries base [] where
  closed := .nil
  few := Nat.zero_le _
  file := nofun
  claimed := nofun
  fares := nofun

end Listing

namespace RemoteTree

open Listing

variable {tree : RemoteTree} {maxEntries : Nat} {listing : Listing} {path : List FileName} {inode : Nat}

/-- The whole list, or as much of it as is looked at. -/
theorem Mirrors.addAll {before : List FileDescriptor} (mirrors : Mirrors listing tree)
    (settled : Settled before maxEntries tree.base listing) (rest : List FileDescriptor) :
    ∃ done next, before <+: done ∧ done <+: before ++ rest ∧ Settled done maxEntries tree.base next ∧
      Mirrors next (tree.addAll maxEntries before.length rest) ∧ (tree.addAll maxEntries before.length rest).base = tree.base ∧
      ∀ i, done.length ≤ i → i < (before ++ rest).length → maxEntries ≤ next.length ∨ maxEntries ≤ i ∨ 2 ^ 31 ≤ i := by
  induction rest generalizing before tree listing with
  | nil =>
    refine ⟨before, listing, List.prefix_rfl, List.prefix_append _ _, settled, mirrors, rfl, fun i above below => ?_⟩
    rw [List.append_nil] at below
    omega
  | cons file rest ih =>
    unfold RemoteTree.addAll
    split
    · rename_i stops
      refine ⟨before, listing, List.prefix_rfl, List.prefix_append _ _, settled, mirrors, rfl, fun i above below => ?_⟩
      rcases stops with isFull | used | beyond
      · exact .inl (mirrors.entries ▸ of_decide_eq_true isFull)
      · exact .inr (.inl (Nat.le_trans used above))
      · exact .inr (.inr (Nat.le_trans beyond above))
    · obtain ⟨more, grown, base, adds⟩ := mirrors.add maxEntries before.length file
      have after := adds.settled settled
      rw [← base] at after
      obtain ⟨done, next, longer, within, final, mirrored, sameBase, left⟩ := ih grown after
      rw [List.length_append, List.length_singleton] at mirrored sameBase
      rw [List.append_assoc, List.singleton_append] at within left
      rw [base] at final sameBase
      exact ⟨done, next, (List.prefix_append _ _).trans longer, within, final, mirrored, sameBase, left⟩

end RemoteTree

end HyprRdp
