import Mathlib.Data.List.Pairwise

/-- Counting in a table whose rows are rewritten in place: the row that goes
and the row that comes are the whole difference. -/
theorem List.countP_set_balance {α : Type*} {table : List α} {i : Nat} {row : α}
    (atRow : table[i]? = some row) (keep : α → Bool) (new : α) :
    (table.set i new).countP keep + (if keep row then 1 else 0) =
      table.countP keep + (if keep new then 1 else 0) := by
  obtain ⟨bound, value⟩ := List.getElem?_eq_some_iff.mp atRow
  have counted : (if keep table[i] then 1 else 0) ≤ table.countP keep :=
    List.boole_getElem_le_countP bound
  have updated := List.countP_set (p := keep) (a := new) bound
  rw [value] at counted updated
  omega

theorem List.countP_set_same {α : Type*} {table : List α} {i : Nat} {row new : α}
    (atRow : table[i]? = some row) {keep : α → Bool} (same : keep new = keep row) :
    (table.set i new).countP keep = table.countP keep := by
  have balance := List.countP_set_balance atRow keep new
  rw [same] at balance
  omega

/-- What holds of every row and of the row that comes holds afterwards. -/
theorem List.forall_mem_set {α : Type*} {table : List α} {i : Nat} {new : α} {good : α → Prop}
    (rows : ∀ row ∈ table, good row) (fresh : good new) : ∀ row ∈ table.set i new, good row := by
  intro row member
  rcases List.mem_or_eq_of_mem_set member with old | same
  · exact rows row old
  · exact same ▸ fresh

/-- A row of a table in which one row was rewritten. -/
theorem List.getElem?_set_cases {α : Type*} {table : List α} {i j : Nat} {row new : α}
    (atRow : (table.set i new)[j]? = some row) : (j = i ∧ row = new) ∨ (j ≠ i ∧ table[j]? = some row) := by
  by_cases here : i = j
  · subst here
    rw [List.getElem?_set_self'] at atRow
    obtain ⟨_, _, same⟩ := Option.map_eq_some_iff.mp atRow
    exact .inl ⟨rfl, same.symm⟩
  · rw [List.getElem?_set_ne here] at atRow
    exact .inr ⟨Ne.symm here, atRow⟩

/-- What a lookup in an association list finds is one of its rows. -/
theorem List.mem_of_lookup {α β : Type*} [BEq α] [LawfulBEq α] {table : List (α × β)} {key : α} {value : β}
    (found : table.lookup key = some value) : (key, value) ∈ table := by
  obtain ⟨before, after, rfl, _⟩ := List.lookup_eq_some_iff.mp found
  exact List.mem_append_right _ List.mem_cons_self

/-- A row is known by its key where the keys are distinct. -/
theorem List.eq_of_key_eq {α β : Type*} {key : α → β} {table : List α}
    (distinct : table.Pairwise fun row other => key row ≠ key other) {row other : α} (first : row ∈ table)
    (second : other ∈ table) (same : key row = key other) : row = other := by
  have : Std.Symm fun row other => key row ≠ key other := ⟨fun _ _ => Ne.symm⟩
  by_contra apart
  exact distinct.forall first second apart same
