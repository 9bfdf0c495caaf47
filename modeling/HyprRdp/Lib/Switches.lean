import Mathlib.Data.List.Basic
import Mathlib.Data.List.Induction

/-- A log of switches thrown, the oldest first: each entry names its switch and where it was put. -/
abbrev SwitchLog (κ : Type*) := List (κ × Bool)

namespace SwitchLog

variable {κ : Type*} [DecidableEq κ] {log : SwitchLog κ} {key other : κ} {on : Bool}

/-- Where a switch stands after the log; all of them start off. -/
def level (log : SwitchLog κ) (key : κ) : Bool := log.foldl (fun on entry => if entry.1 = key then entry.2 else on) false

/-- Every entry of the switch moves it. -/
def Alternates (log : SwitchLog κ) (key : κ) : Prop :=
  ∀ before on after, log = before ++ (key, on) :: after → level before key = !on

theorem level_concat (log : SwitchLog κ) (key other : κ) (on : Bool) :
    level (log ++ [(key, on)]) other = if key = other then on else level log other := by
  unfold level
  rw [List.foldl_concat]

theorem alternates_nil (key : κ) : Alternates [] key := by
  intro before on after split
  exact absurd split.symm (List.append_ne_nil_of_right_ne_nil _ (List.cons_ne_nil _ _))

theorem Alternates.concat (alternates : Alternates log other) (moves : key = other → level log other = !on) :
    Alternates (log ++ [(key, on)]) other := by
  intro before last after split
  rcases List.eq_nil_or_concat after with rfl | ⟨rest, final, rfl⟩
  · obtain ⟨rfl, same⟩ := List.append_inj' split rfl
    cases same
    exact moves rfl
  · rw [List.concat_eq_append, ← List.cons_append, ← List.append_assoc] at split
    obtain ⟨old, _⟩ := List.append_inj' split rfl
    exact alternates before last rest old

/-- Several switches are put off, one after the other. -/
def offs (keys : List κ) : SwitchLog κ := keys.map fun key => (key, false)

theorem level_offs (log : SwitchLog κ) (keys : List κ) (key : κ) :
    level (log ++ offs keys) key = if key ∈ keys then false else level log key := by
  induction keys generalizing log with
  | nil => simp [offs]
  | cons first rest ih =>
    have tail := ih (log ++ [(first, false)])
    rw [List.append_assoc, level_concat] at tail
    show level (log ++ ([(first, false)] ++ offs rest)) key = _
    rw [tail]
    by_cases same : first = key
    · simp [same]
    · simp [same, Ne.symm same]

theorem Alternates.offs {keys : List κ} (alternates : Alternates log key) (distinct : keys.Nodup)
    (on : key ∈ keys → level log key = true) : Alternates (log ++ offs keys) key := by
  induction keys generalizing log with
  | nil =>
    rw [SwitchLog.offs, List.map_nil, List.append_nil]
    exact alternates
  | cons first rest ih =>
    have step : Alternates (log ++ [(first, false)]) key :=
      alternates.concat fun same => on (same ▸ List.mem_cons_self)
    show Alternates (log ++ ([(first, false)] ++ SwitchLog.offs rest)) key
    rw [← List.append_assoc]
    refine ih step distinct.of_cons fun member => ?_
    rw [level_concat, if_neg fun same : first = key => (List.nodup_cons.mp distinct).1 (same ▸ member)]
    exact on (List.mem_cons_of_mem _ member)

/-- The entries of the switches that another panel has, under their names there. -/
def rename {ι : Type*} (name : κ → Option ι) (log : SwitchLog κ) : SwitchLog ι :=
  log.filterMap fun entry => (name entry.1).map fun there => (there, entry.2)

theorem level_rename {ι : Type*} [DecidableEq ι] {name : κ → Option ι} (log : SwitchLog κ) {there : ι}
    (alone : ∀ key other, name key = some there → name other = some there → key = other) :
    level (rename name log) there = true ↔ ∃ key, name key = some there ∧ level log key = true := by
  induction log using List.reverseRecOn with
  | nil => exact ⟨nofun, fun ⟨_, _, on⟩ => nomatch on⟩
  | append_singleton log entry ih =>
    obtain ⟨key, on⟩ := entry
    cases named : name key with
    | none =>
      have same : rename name (log ++ [(key, on)]) = rename name log := by simp [rename, named]
      rw [same, ih]
      refine exists_congr fun other => and_congr_right fun isThere => ?_
      rw [level_concat, if_neg]
      rintro rfl
      cases named.symm.trans isThere
    | some code =>
      have last : rename name (log ++ [(key, on)]) = rename name log ++ [(code, on)] := by simp [rename, named]
      rw [last, level_concat]
      by_cases here : code = there
      · subst here
        rw [if_pos rfl]
        refine ⟨fun isOn => ⟨key, named, ?_⟩, fun ⟨other, isThere, isOn⟩ => ?_⟩
        · rw [level_concat, if_pos rfl, isOn]
        · rw [level_concat, if_pos (alone key other named isThere)] at isOn
          exact isOn
      · rw [if_neg here, ih]
        refine exists_congr fun other => and_congr_right fun isThere => ?_
        rw [level_concat, if_neg]
        rintro rfl
        exact here (Option.some.inj (named.symm.trans isThere))

end SwitchLog
