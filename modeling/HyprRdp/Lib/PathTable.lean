import HyprRdp.Lib.Table
import Mathlib.Data.List.Induction
import Mathlib.Data.List.Nodup
import Mathlib.Data.List.Perm.Subperm

/-- Separator-free parts are what a joined text splits into. -/
theorem List.splitOnP_intercalate {α : Type*} {p : α → Bool} {separator : α} (separates : p separator = true)
    {parts : List (List α)} (some_part : parts ≠ []) (clean : ∀ part ∈ parts, ∀ x ∈ part, p x = false) :
    ([separator].intercalate parts).splitOnP p = parts := by
  induction parts with
  | nil => exact absurd rfl some_part
  | cons part rest ih =>
    have cleanPart := clean part List.mem_cons_self
    cases rest with
    | nil => rw [List.intercalate_singleton, List.splitOnP_eq_singleton cleanPart]
    | cons next rest =>
      have joined : [separator].intercalate (part :: next :: rest) =
          part ++ separator :: [separator].intercalate (next :: rest) := by
        rw [List.intercalate_cons_cons]
        simp
      rw [joined, List.splitOnP_append_cons_of_forall_mem cleanPart separator separates,
        ih (List.cons_ne_nil _ _) fun part member => clean part (List.mem_cons_of_mem _ member)]

/-- No part of a split text has a separator in it. -/
theorem List.splitOnP_clean {α : Type*} {p : α → Bool} {xs : List α} :
    ∀ {part : List α}, part ∈ xs.splitOnP p → ∀ x ∈ part, p x = false := by
  induction xs with
  | nil =>
    intro part member
    rw [List.splitOnP_nil] at member
    rw [List.mem_singleton.mp member]
    exact fun x inside => absurd inside List.not_mem_nil
  | cons head rest ih =>
    intro part member
    rw [List.splitOnP_cons_eq_if_modifyHead] at member
    split at member
    · rcases List.mem_cons.mp member with rfl | later
      · exact fun x inside => absurd inside List.not_mem_nil
      · exact ih later
    · rename_i keeps
      cases parts : rest.splitOnP p with
      | nil => exact absurd parts (List.splitOnP_ne_nil p rest)
      | cons first others =>
        rw [parts, List.modifyHead_cons] at member
        rcases List.mem_cons.mp member with rfl | later
        · intro x inside
          rcases List.mem_cons.mp inside with rfl | old
          · exact Bool.eq_false_iff.mpr keeps
          · exact ih (parts ▸ List.mem_cons_self) x old
        · exact ih (parts ▸ List.mem_cons_of_mem _ later)

/-- Among different keys, one more than are taken, one is free. -/
theorem List.exists_notMem_of_injective {κ : Type*} (taken : List κ) {key : Nat → κ} (injective : Function.Injective key) :
    ∃ n ≤ taken.length, key n ∉ taken := by
  by_contra all
  push Not at all
  have distinct : ((List.range (taken.length + 1)).map key).Nodup := List.nodup_range.map injective
  have inside : (List.range (taken.length + 1)).map key ⊆ taken := by
    intro used member
    obtain ⟨n, bound, rfl⟩ := List.mem_map.mp member
    exact all n (Nat.le_of_lt_succ (List.mem_range.mp bound))
  have few := (List.subperm_of_subset distinct inside).length_le
  rw [List.length_map, List.length_range] at few
  omega

/-- A row with a new key at the end of an association list. -/
theorem List.lookup_concat_iff {α β : Type*} [BEq α] [LawfulBEq α] {table : List (α × β)} {key other : α} {value found : β}
    (free : table.lookup key = none) :
    (table ++ [(key, value)]).lookup other = some found ↔ table.lookup other = some found ∨ (other = key ∧ found = value) := by
  rw [List.lookup_append, List.lookup_cons, List.lookup_nil]
  by_cases same : other = key
  · subst same
    rw [free, Option.none_or, beq_self_eq_true]
    exact ⟨fun now => .inr ⟨rfl, (Option.some.inj now).symm⟩, fun now => congrArg some (now.resolve_left nofun).2.symm⟩
  · rw [beq_false_of_ne same, Option.or_none]
    exact ⟨.inl, fun now => now.resolve_right fun last => same last.1⟩

/-- The entries of a list with one more at its end. -/
theorem List.getElem?_concat_iff {α : Type*} {xs : List α} {x y : α} {j : Nat} :
    (xs ++ [x])[j]? = some y ↔ xs[j]? = some y ∨ (j = xs.length ∧ y = x) := by
  rcases Nat.lt_trichotomy j xs.length with below | rfl | above
  · rw [List.getElem?_append_left below]
    exact ⟨.inl, fun found => found.resolve_right fun last => absurd last.1 (Nat.ne_of_lt below)⟩
  · rw [List.getElem?_concat_length, List.getElem?_eq_none (Nat.le_refl _)]
    exact ⟨fun same => .inr ⟨rfl, (Option.some.inj same).symm⟩, fun found => congrArg some (found.resolve_left nofun).2.symm⟩
  · rw [List.getElem?_eq_none (by rw [List.length_append]; exact above), List.getElem?_eq_none (Nat.le_of_lt above)]
    exact ⟨nofun, fun found => found.elim nofun fun last => absurd last.1 (Nat.ne_of_gt above)⟩

namespace PathTable

variable {Name : Type*}

/-- Paths with a mark for the directories among them: each is named once, and
stands behind the directory that holds it. -/
inductive Closed : List (List Name × Bool) → Prop
  | nil : Closed []
  | concat {listing : List (List Name × Bool)} {path : List Name} {name : Name} {directory : Bool} :
    Closed listing → (path = [] ∨ (path, true) ∈ listing) → path ++ [name] ∉ listing.map Prod.fst →
      Closed (listing ++ [(path ++ [name], directory)])

theorem Closed.of_concat {before : List (List Name × Bool)} {entry : List Name × Bool}
    (closed : Closed (before ++ [entry])) : Closed before ∧ entry.1 ∉ before.map Prod.fst ∧
      ∃ path name, entry.1 = path ++ [name] ∧ (path = [] ∨ (path, true) ∈ before) := by
  generalize same : before ++ [entry] = listing at closed
  cases closed with
  | nil => exact absurd same (by simp)
  | @concat listing path name directory closed parent fresh =>
    obtain ⟨rfl, last⟩ := List.append_inj' same rfl
    cases last
    exact ⟨closed, fresh, path, name, rfl, parent⟩

theorem Closed.of_append {before : List (List Name × Bool)} (rest : List (List Name × Bool))
    (closed : Closed (before ++ rest)) : Closed before := by
  induction rest using List.reverseRecOn with
  | nil => exact List.append_nil before ▸ closed
  | append_singleton rest entry ih => exact ih (List.append_assoc .. ▸ closed).of_concat.1

theorem Closed.parent {listing : List (List Name × Bool)} (closed : Closed listing) {path : List Name} {name : Name}
    {directory : Bool} (member : (path ++ [name], directory) ∈ listing) : path = [] ∨ (path, true) ∈ listing := by
  induction closed with
  | nil => exact absurd member List.not_mem_nil
  | concat _ parent _ ih =>
    rcases List.mem_append.mp member with old | new
    · exact (ih old).imp_right (List.mem_append_left _)
    · obtain ⟨same, _⟩ := Prod.mk.inj (List.mem_singleton.mp new)
      obtain ⟨rfl, _⟩ := List.append_inj' same rfl
      exact parent.imp_right (List.mem_append_left _)

/-- The directory of an entry stands before it. -/
theorem Closed.parent_before {listing : List (List Name × Bool)} (closed : Closed listing) {path : List Name} {name : Name}
    {directory : Bool} {k : Nat} (atEntry : listing[k]? = some (path ++ [name], directory)) :
    path = [] ∨ ∃ j < k, listing[j]? = some (path, true) := by
  induction closed with
  | nil => cases atEntry
  | concat _ parent _ ih =>
    rcases List.getElem?_concat_iff.mp atEntry with old | ⟨rfl, same⟩
    · refine (ih old).imp_right fun ⟨j, before, atParent⟩ => ⟨j, before, ?_⟩
      exact List.getElem?_concat_iff.mpr (.inl atParent)
    · obtain ⟨rfl, _⟩ := List.append_inj' (Prod.mk.inj same).1 rfl
      refine parent.imp_right fun member => ?_
      obtain ⟨j, atParent⟩ := List.mem_iff_getElem?.mp member
      exact ⟨j, (List.getElem?_eq_some_iff.mp atParent).1, List.getElem?_concat_iff.mpr (.inl atParent)⟩

/-- Every path on the way to a listed one is listed, as a directory. -/
theorem Closed.above {listing : List (List Name × Bool)} (closed : Closed listing) {above path : List Name}
    (some_above : above ≠ []) : ∀ {directory}, (path, directory) ∈ listing → above <+: path → above ≠ path →
      (above, true) ∈ listing := by
  induction path using List.reverseRecOn with
  | nil => exact fun _ isAbove _ => absurd (List.prefix_nil.mp isAbove) some_above
  | append_singleton path name ih =>
    intro directory member isAbove other
    have outer := (List.prefix_concat_iff.mp isAbove).resolve_left other
    rcases closed.parent member with rfl | isDirectory
    · exact absurd (List.prefix_nil.mp outer) some_above
    · by_cases same : above = path
      · exact same ▸ isDirectory
      · exact ih isDirectory outer same

/-- Keys that tell the entries of every directory apart tell all the paths apart. -/
theorem Closed.keys_injective {Key : Type*} {key : Name → Key} {listing : List (List Name × Bool)} (closed : Closed listing)
    (siblings : ∀ path one other first second, (path ++ [one], first) ∈ listing → (path ++ [other], second) ∈ listing →
      key one = key other → one = other) {one : List Name} : ∀ {other : List Name} {first second},
    (one, first) ∈ listing → (other, second) ∈ listing → one.map key = other.map key → one = other := by
  induction one using List.reverseRecOn with
  | nil =>
    intro other _ _ _ _ same
    exact (List.map_eq_nil_iff.mp same.symm).symm
  | append_singleton path name ih =>
    intro other first second member memberOther same
    obtain ⟨front, back, rfl, above, below⟩ := List.map_eq_append_iff.mp (List.map_append ▸ same).symm
    obtain ⟨last, rfl, sameLast⟩ := List.map_eq_singleton_iff.mp below
    have samePath : path = front := by
      rcases closed.parent member with rfl | isDirectory
      · exact (List.map_eq_nil_iff.mp above).symm
      · rcases closed.parent memberOther with rfl | isOther
        · exact List.map_eq_nil_iff.mp above.symm
        · exact ih isDirectory isOther above.symm
    subst samePath
    rw [siblings path name last first second member memberOther sameLast.symm]

theorem Closed.nodup {listing : List (List Name × Bool)} (closed : Closed listing) : (listing.map Prod.fst).Nodup := by
  induction closed with
  | nil => exact List.nodup_nil
  | concat _ _ fresh ih =>
    rw [List.map_append]
    exact ih.append (List.nodup_singleton _) (List.disjoint_singleton.mpr fresh)

theorem Closed.proper {listing : List (List Name × Bool)} (closed : Closed listing) : [] ∉ listing.map Prod.fst := by
  induction closed with
  | nil => exact List.not_mem_nil
  | concat _ _ _ ih =>
    rw [List.map_append, List.mem_append]
    rintro (old | new)
    · exact ih old
    · exact List.append_ne_nil_of_right_ne_nil _ (List.cons_ne_nil _ _) (List.mem_singleton.mp new).symm

variable {root base : Nat} {paths : List (List Name)} {path other : List Name} {name : Name} {inode parent : Nat}

/-- The inode of a path: the first path listed has the inode `base`, and the others follow. -/
def Placed (root base : Nat) (paths : List (List Name)) (path : List Name) (inode : Nat) : Prop :=
  (path = [] ∧ inode = root) ∨ ∃ j, paths[j]? = some path ∧ inode = base + j

theorem placed_concat {new : List Name} : Placed root base (paths ++ [new]) path inode ↔
    Placed root base paths path inode ∨ (path = new ∧ inode = base + paths.length) := by
  unfold Placed
  constructor
  · rintro (top | ⟨j, atPath, rfl⟩)
    · exact .inl (.inl top)
    · rcases List.getElem?_concat_iff.mp atPath with old | ⟨rfl, rfl⟩
      · exact .inl (.inr ⟨j, old, rfl⟩)
      · exact .inr ⟨rfl, rfl⟩
  · rintro ((top | ⟨j, atPath, rfl⟩) | ⟨rfl, rfl⟩)
    · exact .inl top
    · exact .inr ⟨j, List.getElem?_concat_iff.mpr (.inl atPath), rfl⟩
    · exact .inr ⟨paths.length, List.getElem?_concat_length, rfl⟩

/-- The inode of the root is not given out again. -/
def Clear (root base count : Nat) : Prop := ∀ j < count, base + j ≠ root

theorem Placed.path_unique (clear : Clear root base paths.length) (first : Placed root base paths path inode)
    (second : Placed root base paths other inode) : path = other := by
  rcases first with ⟨rfl, rfl⟩ | ⟨j, atPath, rfl⟩
  · rcases second with ⟨rfl, _⟩ | ⟨k, atOther, same⟩
    · rfl
    · obtain ⟨bound, _⟩ := List.getElem?_eq_some_iff.mp atOther
      exact absurd same.symm (clear k bound)
  · rcases second with ⟨rfl, same⟩ | ⟨k, atOther, same⟩
    · obtain ⟨bound, _⟩ := List.getElem?_eq_some_iff.mp atPath
      exact absurd same (clear j bound)
    · obtain rfl : j = k := by omega
      exact Option.some.inj (atPath.symm.trans atOther)

theorem Placed.inode_unique (distinct : paths.Nodup) (proper : [] ∉ paths) (first : Placed root base paths path inode)
    (second : Placed root base paths path parent) : inode = parent := by
  rcases first with ⟨rfl, rfl⟩ | ⟨j, atPath, rfl⟩
  · rcases second with ⟨_, rfl⟩ | ⟨k, atPath, _⟩
    · rfl
    · exact absurd (List.mem_of_getElem? atPath) proper
  · rcases second with ⟨rfl, _⟩ | ⟨k, again, rfl⟩
    · exact absurd (List.mem_of_getElem? atPath) proper
    · obtain ⟨bound, _⟩ := List.getElem?_eq_some_iff.mp atPath
      rw [(List.getElem?_inj bound distinct).mp (atPath.trans again.symm)]

theorem Placed.mem (placed : Placed root base paths path inode) : path = [] ∨ path ∈ paths := by
  rcases placed with ⟨rfl, _⟩ | ⟨j, atPath, _⟩
  · exact .inl rfl
  · exact .inr (List.mem_of_getElem? atPath)

/-- A table of names below inodes that knows the listed paths, and nothing else. -/
structure Indexes [BEq Name] (root base : Nat) (table : List ((Nat × Name) × Nat)) (paths : List (List Name)) :
    Prop where
  finds : ∀ {path parent name inode}, Placed root base paths path parent →
    (table.lookup (parent, name) = some inode ↔ Placed root base paths (path ++ [name]) inode)
  known : ∀ {parent name inode}, table.lookup (parent, name) = some inode → ∃ path, Placed root base paths path parent

variable [BEq Name] {table : List ((Nat × Name) × Nat)}

theorem indexes_nil : @Indexes Name _ root base [] [] := by
  refine ⟨fun {path parent name inode} _ => ⟨nofun, fun placed => ?_⟩, nofun⟩
  rcases placed.mem with empty | listed
  · exact absurd empty (List.append_ne_nil_of_right_ne_nil _ (List.cons_ne_nil _ _))
  · exact absurd listed List.not_mem_nil

/-- The next listed path takes the next inode. -/
theorem Indexes.concat [LawfulBEq Name] {listing : List (List Name × Bool)} {directory : Bool}
    (indexes : Indexes root base table (listing.map Prod.fst)) (clear : Clear root base (listing.length + 1))
    (closed : Closed (listing ++ [(path ++ [name], directory)])) (placed : Placed root base (listing.map Prod.fst) path parent) :
    Indexes root base (table ++ [((parent, name), base + listing.length)])
      ((listing ++ [(path ++ [name], directory)]).map Prod.fst) := by
  obtain ⟨before, fresh, _⟩ := closed.of_concat
  have count : (listing.map Prod.fst).length = listing.length := List.length_map ..
  have old : Clear root base (listing.map Prod.fst).length := fun j bound => clear j (by omega)
  have named : path ++ [name] ≠ [] := List.append_ne_nil_of_right_ne_nil _ (List.cons_ne_nil _ _)
  have free : table.lookup (parent, name) = none := by
    cases found : table.lookup (parent, name) with
    | none => rfl
    | some inode => exact absurd ((indexes.finds placed).mp found).mem (not_or.mpr ⟨named, fresh⟩)
  have unused : ∀ other, ¬ Placed root base (listing.map Prod.fst) other (base + listing.length) := by
    rintro other (⟨_, same⟩ | ⟨j, atOther, same⟩)
    · exact clear _ (Nat.lt_succ_self _) same
    · obtain ⟨bound, _⟩ := List.getElem?_eq_some_iff.mp atOther
      omega
  rw [List.map_append, List.map_singleton, ← count]
  refine ⟨fun {q p n i} isPlaced => ?_, fun {p n i} found => ?_⟩
  · rw [List.lookup_concat_iff free, placed_concat]
    rcases placed_concat.mp isPlaced with isOld | ⟨rfl, rfl⟩
    · rw [indexes.finds isOld]
      refine or_congr_right (and_congr_left fun _ => ⟨fun same => ?_, fun same => ?_⟩)
      · obtain ⟨rfl, rfl⟩ := Prod.mk.inj same
        rw [isOld.path_unique old placed]
      · obtain ⟨rfl, last⟩ := List.append_inj' same rfl
        rw [isOld.inode_unique before.nodup before.proper placed, List.singleton_inj.mp last]
    · rw [count]
      -- nothing can be listed below the new path, nor be known below its inode
      constructor
      · rintro (found | ⟨same, _⟩)
        · obtain ⟨other, isOther⟩ := indexes.known found
          exact absurd isOther (unused other)
        · exact absurd ((Prod.mk.inj same).1 ▸ placed) (unused path)
      · rintro (below | ⟨same, _⟩)
        · rcases below.mem with empty | listed
          · exact absurd empty (List.append_ne_nil_of_right_ne_nil _ (List.cons_ne_nil _ _))
          · obtain ⟨⟨_, kind⟩, member, rfl⟩ := List.mem_map.mp listed
            rcases before.parent member with empty | isDirectory
            · exact absurd empty named
            · exact absurd (List.mem_map_of_mem isDirectory) fresh
        · have := congrArg List.length same
          simp at this
  · rcases (List.lookup_concat_iff free).mp found with known | ⟨same, _⟩
    · obtain ⟨other, isOther⟩ := indexes.known known
      exact ⟨other, placed_concat.mpr (.inl isOther)⟩
    · exact ⟨path, placed_concat.mpr (.inl ((Prod.mk.inj same).1 ▸ placed))⟩

/-- The inode that the names of a path lead to. -/
def follow (table : List ((Nat × Name) × Nat)) (inode : Nat) : List Name → Option Nat
  | [] => some inode
  | name :: rest => (table.lookup (inode, name)).bind fun next => follow table next rest

theorem follow_concat (path : List Name) (inode : Nat) :
    follow table inode (path ++ [name]) = (follow table inode path).bind fun last => table.lookup (last, name) := by
  induction path generalizing inode with
  | nil =>
    unfold follow
    simp [follow]
  | cons first rest ih =>
    rw [List.cons_append]
    unfold follow
    rw [Option.bind_assoc]
    exact congrArg _ (funext ih)

/-- Following the names of a listed path finds its inode. -/
theorem Indexes.follow [LawfulBEq Name] {listing : List (List Name × Bool)} (indexes : Indexes root base table (listing.map Prod.fst))
    (closed : Closed listing) (path : List Name) :
    ∀ {inode}, Placed root base (listing.map Prod.fst) path inode → PathTable.follow table root path = some inode := by
  induction path using List.reverseRecOn with
  | nil =>
    rintro inode (⟨_, rfl⟩ | ⟨j, atPath, _⟩)
    · rfl
    · exact absurd (List.mem_of_getElem? atPath) closed.proper
  | append_singleton path name ih =>
    intro inode placed
    rcases placed.mem with empty | listed
    · exact absurd empty (List.append_ne_nil_of_right_ne_nil _ (List.cons_ne_nil _ _))
    · obtain ⟨⟨_, kind⟩, member, rfl⟩ := List.mem_map.mp listed
      obtain ⟨parent, isParent⟩ : ∃ parent, Placed root base (listing.map Prod.fst) path parent := by
        rcases closed.parent member with rfl | isDirectory
        · exact ⟨root, .inl ⟨rfl, rfl⟩⟩
        · obtain ⟨j, atPath⟩ := List.mem_iff_getElem?.mp (List.mem_map_of_mem (f := Prod.fst) isDirectory)
          exact ⟨base + j, .inr ⟨j, atPath, rfl⟩⟩
      rw [follow_concat, ih isParent]
      exact (indexes.finds isParent).mpr placed

end PathTable
