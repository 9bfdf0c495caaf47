import HyprRdp.Clipboard.FrozenNames
import Mathlib.Logic.Relation

namespace HyprRdp

/-- A walk and the directories it is inside, the outermost first. -/
structure Visit where
  walk : Walk
  inside : List (FileName × EntryMetadata)

namespace Visit

def parent (visit : Visit) : List FileName := visit.inside.map Prod.fst

/-- The directory that is visited can list an entry under the name. -/
structure Admits (upper : Uppercase) (visit : Visit) (name : FileName) : Prop where
  room : visit.walk.isFull = false
  depth : visit.inside.length ≤ maxDirectoryDepth
  named : WindowsName name
  free : (visit.parent, windowsNameKey upper name) ∉ visit.walk.usedNames
  fits : wireNameFits visit.parent name = true

/-- What a walk does, one thing at a time. -/
inductive Step (upper : Uppercase) : Visit → Visit → Prop
  | count {visit : Visit} {remaining : Nat} (truncated : Bool) : remaining ≤ visit.walk.remaining →
    Step upper visit ⟨{ visit.walk with remaining := remaining, truncated := truncated }, visit.inside⟩
  | pass (visit : Visit) (name : FileName) : Step upper visit ⟨visit.walk.use upper visit.parent name, visit.inside⟩
  | file {visit : Visit} {name : FileName} (path : PathBuf) (metadata : EntryMetadata) : visit.Admits upper name →
    Step upper visit
      ⟨(visit.walk.use upper visit.parent name).push (frozenFile path visit.parent name metadata .plain), visit.inside⟩
  | enter {visit : Visit} {name : FileName} (path : PathBuf) (metadata : EntryMetadata) : visit.Admits upper name →
    (metadata.dev, metadata.ino) ∉ visit.walk.ancestorDirectories →
      Step upper visit ⟨((visit.walk.enter metadata).use upper visit.parent name).push
        (frozenFile path visit.parent name metadata .directories), visit.inside ++ [(name, metadata)]⟩
  | leave (walk : Walk) (inside : List (FileName × EntryMetadata)) (name : FileName) (metadata : EntryMetadata) :
    Step upper ⟨walk, inside ++ [(name, metadata)]⟩ ⟨walk.leave metadata, inside⟩

/-- Whatever a walk does is a run of such steps. -/
def Run (upper : Uppercase) : Visit → Visit → Prop := Relation.ReflTransGen (Step upper)

variable {upper : Uppercase} {fs : FileSystem} {walk : Walk} {inside : List (FileName × EntryMetadata)} {visit next last : Visit}

theorem Run.refl (visit : Visit) : Run upper visit visit := Relation.ReflTransGen.refl

theorem Run.trans (first : Run upper visit next) (second : Run upper next last) : Run upper visit last :=
  Relation.ReflTransGen.trans first second

theorem Step.run (step : Step upper visit next) : Run upper visit next := .single step

/-- A property that every step keeps holds to the end of a run. -/
theorem Run.keeps {P : Visit → Prop} (run : Run upper visit next)
    (kept : ∀ {visit next : Visit}, Step upper visit next → P visit → P next) (start : P visit) : P next := by
  induction run with
  | refl => exact start
  | tail _ step ih => exact kept step ih

theorem truncate_run : Run upper ⟨walk, inside⟩ ⟨{ walk with truncated := true }, inside⟩ :=
  (Step.count true (Nat.le_refl _)).run

theorem take_run : Run upper ⟨walk, inside⟩ ⟨{ walk with remaining := walk.remaining - 1 }, inside⟩ :=
  (Step.count walk.truncated (Nat.sub_le ..)).run

/-- A directory without a name that fits is left again at once. -/
theorem pass_run (name : FileName) (metadata : EntryMetadata) : Run upper ⟨walk, inside⟩
    ⟨((walk.enter metadata).use upper (inside.map Prod.fst) name).leave metadata, inside⟩ := by
  have passed : ((walk.enter metadata).use upper (inside.map Prod.fst) name).leave metadata =
      walk.use upper (inside.map Prod.fst) name := by
    unfold Walk.leave Walk.use Walk.enter
    dsimp only
    rw [List.erase_cons_head]
  rw [passed]
  exact (Step.pass ⟨walk, inside⟩ name).run

theorem collectChildren_run (entries : List (Option PathBuf)) :
    Run upper ⟨walk, inside⟩ ⟨(walk.collectChildren entries).1, inside⟩ := by
  induction entries generalizing walk with
  | nil => exact .refl _
  | cons entry rest ih =>
    unfold Walk.collectChildren
    split
    · exact truncate_run
    · exact take_run.trans ih

theorem freezeEach_run {freeze : Walk → PathBuf → Walk}
    (each : ∀ walk child, Run upper ⟨walk, inside⟩ ⟨freeze walk child, inside⟩) (children : List PathBuf) :
    Run upper ⟨walk, inside⟩ ⟨walk.freezeEach freeze children, inside⟩ := by
  induction children generalizing walk with
  | nil => exact .refl _
  | cons child rest ih =>
    unfold Walk.freezeEach
    split
    · exact truncate_run
    · exact (each walk child).trans ih

theorem freezeChildren_run {freeze : Walk → PathBuf → List FileName → Walk} {parent : List FileName} {name : FileName}
    (each : ∀ walk child, Run upper ⟨walk, inside⟩ ⟨freeze walk child (parent ++ [name]), inside⟩) (path : PathBuf) :
    Run upper ⟨walk, inside⟩ ⟨walk.freezeChildren fs freeze path parent name, inside⟩ := by
  unfold Walk.freezeChildren
  split
  · exact .refl _
  · exact (collectChildren_run _).trans (freezeEach_run each _)

theorem freezeFile_run (room : walk.isFull = false) (depth : inside.length ≤ maxDirectoryDepth) (path : PathBuf) :
    Run upper ⟨walk, inside⟩ ⟨walk.freezeFile fs upper path (inside.map Prod.fst), inside⟩ := by
  unfold Walk.freezeFile
  split
  · exact .refl _
  · exact .refl _
  · rename_i metadata _
    split
    · exact .refl _
    · split
      · exact .refl _
      · dsimp only
        split
        · rename_i fits
          exact (@Step.file upper ⟨walk, inside⟩ _ path metadata
            ⟨room, depth, uniqueFileName_windowsName, uniqueFileName_free, fits⟩).run
        · exact (Step.pass ⟨walk, inside⟩ _).run

/-- The walk of an entry ends inside the directory that it was started in. -/
theorem freezePath_run (levels : Nat) : ∀ {walk : Walk} {inside : List (FileName × EntryMetadata)},
    inside.length + levels ≤ maxDirectoryDepth + 1 → ∀ path,
      Run upper ⟨walk, inside⟩ ⟨walk.freezePath fs upper levels path (inside.map Prod.fst), inside⟩ := by
  induction levels with
  | zero =>
    intro walk inside _ path
    unfold Walk.freezePath
    split
    · exact truncate_run
    · exact .refl _
  | succ levels ih =>
    intro walk inside depth path
    unfold Walk.freezePath
    split
    · exact truncate_run
    · rename_i full
      have room := Bool.eq_false_iff.mpr full
      have shallow : inside.length ≤ maxDirectoryDepth := by omega
      split
      · exact .refl _
      · rename_i metadata _
        split
        · exact freezeFile_run room shallow path
        · split
          · exact .refl _
          · split
            · exact .refl _
            · rename_i ancestors
              dsimp only
              split
              · rename_i fits
                -- in, through the children, and out again
                have entered := @Step.enter upper ⟨walk, inside⟩ _ path metadata
                  ⟨room, shallow, uniqueFileName_windowsName, uniqueFileName_free, fits⟩ ancestors
                refine entered.run.trans (.trans (freezeChildren_run (fun next child => ?_) path) (Step.leave _ _ _ _).run)
                have deeper : (inside ++ [(uniqueFileName upper (inside.map Prod.fst) (fs.fileName path) walk.usedNames,
                    metadata)]).length + levels ≤ maxDirectoryDepth + 1 := by
                  rw [List.length_append, List.length_singleton]
                  omega
                have below := @ih next _ deeper child
                rw [List.map_append, List.map_singleton] at below
                exact below
              · exact pass_run _ metadata

theorem freezeSelected_run (paths : List PathBuf) :
    Run upper ⟨walk, []⟩ ⟨walk.freezeSelected fs upper paths, []⟩ := by
  induction paths generalizing walk with
  | nil => exact .refl _
  | cons path rest ih =>
    unfold Walk.freezeSelected
    split
    · exact truncate_run
    · have frozen := @freezePath_run upper fs (maxDirectoryDepth + 1) { walk with remaining := walk.remaining - 1 } []
        (by rw [List.length_nil, Nat.zero_add]) path
      have soFar := take_run.trans frozen
      dsimp only
      split
      · exact soFar.trans (Step.count _ (Nat.le_refl _)).run
      · exact soFar.trans ih

end Visit

end HyprRdp
