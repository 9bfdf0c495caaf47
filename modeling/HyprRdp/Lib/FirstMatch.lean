import Mathlib.Data.List.Basic

/-- A table that is put together from parts is looked up part by part. -/
theorem lookup_flatMap {α κ ν : Type*} [BEq κ] (parts : List α) (rows : α → List (κ × ν)) (key : κ) :
    (parts.flatMap rows).lookup key = parts.findSome? fun part => (rows part).lookup key := by
  induction parts with
  | nil => rfl
  | cons part rest ih =>
    rw [List.flatMap_cons, List.lookup_append, ih, List.findSome?_cons]
    cases (rows part).lookup key <;> rfl

/-- A table that gives all its keys the same value. -/
theorem lookup_const {κ ν : Type*} [DecidableEq κ] (keys : List κ) (value : ν) (key : κ) :
    (keys.map fun other => (other, value)).lookup key = if key ∈ keys then some value else none := by
  induction keys with
  | nil => rfl
  | cons first rest ih =>
    rw [List.map_cons, List.lookup_cons, ih]
    by_cases same : key = first
    · simp [same]
    · have differs : (key == first) = false := beq_false_of_ne same
      rw [differs]
      simp [same]

/-- The first hit of a scan with positions, and that nothing before it is one. -/
theorem findSome_zipIdx {α β : Type*} {items : List α} {hit : α × Nat → Option β} {found : β}
    (first : items.zipIdx.findSome? hit = some found) :
    ∃ index item, items[index]? = some item ∧ hit (item, index) = some found ∧
      ∀ earlier < index, ∀ other, items[earlier]? = some other → hit (other, earlier) = none := by
  obtain ⟨before, ⟨item, index⟩, after, split, isHit, none⟩ := List.findSome?_eq_some_iff.mp first
  have atHit : items.zipIdx[before.length]? = some (item, index) := by
    rw [split, List.getElem?_append_right (Nat.le_refl _), Nat.sub_self, List.getElem?_cons_zero]
  have there := List.mk_mem_zipIdx_iff_getElem?.mp (List.mem_of_getElem? atHit)
  have position : index = before.length := by
    rw [List.getElem?_zipIdx] at atHit
    cases inItems : items[before.length]? with
    | none =>
      rw [inItems] at atHit
      cases atHit
    | some value =>
      rw [inItems, Option.map_some] at atHit
      cases atHit
      omega
  refine ⟨index, item, there, isHit, fun earlier less other atEarlier => none _ ?_⟩
  have listed : items.zipIdx[earlier]? = some (other, earlier) := by
    rw [List.getElem?_zipIdx, atEarlier, Option.map_some, Nat.zero_add]
  rw [split, List.getElem?_append_left (by omega)] at listed
  exact List.mem_of_getElem? listed

/-- A scan that does not ask for the positions. -/
theorem findSome_zipIdx_fst {α β : Type*} (items : List α) (hit : α → Option β) :
    (items.zipIdx.findSome? fun row => hit row.1) = items.findSome? hit := by
  conv_rhs => rw [← List.zipIdx_map_fst 0 items, List.findSome?_map]
  rfl
