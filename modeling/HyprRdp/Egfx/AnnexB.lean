import HyprRdp.Lib.StartCodes
import Mathlib.Algebra.Ring.Nat

namespace HyprRdp.AnnexB

open StartCodes

/-- The bytes of the code stand at index `i`. -/
def Matches (pattern data : List UInt8) (i : Nat) : Prop :=
  i + pattern.length ≤ data.length ∧ (data.drop i).take pattern.length = pattern

instance (pattern data : List UInt8) (i : Nat) : Decidable (Matches pattern data i) := inferInstanceAs (Decidable (_ ∧ _))

def startCodeLen (data : List UInt8) (i : Nat) : Option Nat :=
  if Matches [0, 0, 0, 1] data i then some 4
  else if Matches [0, 0, 1] data i then some 3
  else none

def nalType (header : UInt8) : UInt8 := header &&& 0x1F

def annexBNalTypesFrom (data : List UInt8) (i : Nat) : List UInt8 :=
  if i < data.length then
    match startCodeLen data i with
    | none => annexBNalTypesFrom data (i + 1)
    | some startCodeLen =>
      let nalStart := i + startCodeLen
      match data[nalStart]? with
      | none => []
      | some header => nalType header :: annexBNalTypesFrom data (nalStart + 1)
  else []
termination_by data.length - i

def annexBNalTypes (data : List UInt8) : List UInt8 := annexBNalTypesFrom data 0

/-- The search for the next start code: the end of the NAL whose rest begins at `j`. -/
def nalEnd (data : List UInt8) (j : Nat) : Nat :=
  if j + 2 < data.length then
    if Matches [0, 0, 1] data j ∨ Matches [0, 0, 0, 1] data j then
      if 0 < j ∧ data[j - 1]? = some 0 then j - 1 else j
    else nalEnd data (j + 1)
  else data.length
termination_by data.length - j

theorem le_nalEnd (data : List UInt8) (j : Nat) (inside : j ≤ data.length) : j ≤ nalEnd data j + 1 := by
  fun_induction nalEnd data j with
  | case1 => omega
  | case2 => omega
  | case3 j more other ih => exact (Nat.le_succ j).trans (ih (by omega))
  | case4 => omega

theorem startCodeLen_le {data : List UInt8} {i len : Nat} (found : startCodeLen data i = some len) : 3 ≤ len := by
  unfold startCodeLen at found
  split at found
  · cases found
    decide
  split at found
  · cases found
    exact le_refl _
  · cases found

/-- The parameter sets from index `i` on. -/
def extractSpsPpsFrom (data : List UInt8) (i : Nat) : List UInt8 :=
  if i < data.length then
    match found : startCodeLen data i with
    | none => extractSpsPpsFrom data (i + 1)
    | some startCodeLen =>
      match _atStart : data[i + startCodeLen]? with
      | none => []
      | some header =>
        let stop := nalEnd data (i + startCodeLen + 1)
        (if nalType header = 7 ∨ nalType header = 8 then (data.take stop).drop i else []) ++ extractSpsPpsFrom data stop
  else []
termination_by data.length - i
decreasing_by
  · omega
  · obtain ⟨inside, _⟩ := List.getElem?_eq_some_iff.mp _atStart
    have len := startCodeLen_le found
    have back := le_nalEnd data (i + startCodeLen + 1) inside
    omega

def extractSpsPps (data : List UInt8) : Option (List UInt8) :=
  let spsPps := extractSpsPpsFrom data 0
  if spsPps = [] then none else some spsPps

section Scanning

variable {data : List UInt8} {i : Nat}

theorem matches_iff {pattern : List UInt8} (positive : 0 < pattern.length) :
    Matches pattern data i ↔ pattern <+: data.drop i := by
  unfold Matches
  rw [List.prefix_iff_eq_take]
  constructor
  · exact fun ⟨_, same⟩ => same.symm
  · intro same
    have long := congrArg List.length same
    rw [List.length_take, List.length_drop] at long
    exact ⟨by omega, same.symm⟩

theorem drop_of_prefix {pattern : List UInt8} (here : pattern <+: data.drop i) :
    data.drop i = pattern ++ data.drop (i + pattern.length) := by
  obtain ⟨tail, same⟩ := here
  rw [← List.drop_drop, ← same, List.drop_left]

theorem startCodeLen_cases (data : List UInt8) (i : Nat) :
    (startCodeLen data i = none ∧ ¬ code <+: data.drop i ∧ ¬ 0 :: code <+: data.drop i) ∨
    (startCodeLen data i = some 3 ∧ data.drop i = code ++ data.drop (i + 3)) ∨
    startCodeLen data i = some 4 ∧ data.drop i = 0 :: (code ++ data.drop (i + 4)) := by
  have fourIff := @matches_iff data i [0, 0, 0, 1] (by decide)
  have threeIff := @matches_iff data i [0, 0, 1] (by decide)
  unfold startCodeLen
  by_cases four : Matches [0, 0, 0, 1] data i
  · exact .inr (.inr ⟨if_pos four, drop_of_prefix (fourIff.mp four)⟩)
  · rw [if_neg four]
    by_cases three : Matches [0, 0, 1] data i
    · exact .inr (.inl ⟨if_pos three, drop_of_prefix (threeIff.mp three)⟩)
    · exact .inl ⟨if_neg three, fun here => three (threeIff.mpr here), fun here => four (fourIff.mpr here)⟩

/-- Where a start code is found, the data goes on with its bytes. -/
theorem startCodeLen_some {len : Nat} (found : startCodeLen data i = some len) :
    ∃ long : Bool, len = (zeroIf long).length + 3 ∧ data.drop i = zeroIf long ++ (code ++ data.drop (i + len)) := by
  rcases startCodeLen_cases data i with ⟨none, _⟩ | ⟨three, here⟩ | ⟨four, here⟩
  · cases none.symm.trans found
  · cases three.symm.trans found
    exact ⟨false, rfl, here⟩
  · cases four.symm.trans found
    exact ⟨true, rfl, here⟩

theorem startCodeLen_none (none : startCodeLen data i = none) : ¬ code <+: data.drop i ∧ ¬ 0 :: code <+: data.drop i := by
  rcases startCodeLen_cases data i with ⟨_, away⟩ | ⟨three, _⟩ | ⟨four, _⟩
  · exact away
  · cases none.symm.trans three
  · cases none.symm.trans four

/-- The units of any bytes; the byte before the first start code decides whether that code is a long one. -/
def units (xs : List UInt8) : List Nal := nals (decide ([0] <:+ (cut xs).1)) (cut xs).2

/-- Where no start code of either length stands, the scan goes on by one byte. -/
theorem units_step {b : UInt8} {rest : List UInt8} (three : ¬ code <+: b :: rest) (four : ¬ 0 :: code <+: b :: rest) :
    units (b :: rest) = units rest := by
  unfold units
  rw [cut, if_neg three]
  dsimp only
  rcases cut_rest rest with none | found
  · rw [none, nals_nil, nals_nil]
  · congr 1
    rw [decide_eq_decide, List.suffix_cons_iff]
    refine or_iff_right fun whole => four ?_
    obtain ⟨rfl, before⟩ := List.cons.inj whole
    have all := cut_append rest
    rw [← before, List.nil_append] at all
    rw [all] at found
    exact List.cons_prefix_cons.mpr ⟨rfl, found⟩

theorem headers_step {b : UInt8} {rest : List UInt8} (three : ¬ code <+: b :: rest) : (cut (b :: rest)).2 = (cut rest).2 := by
  rw [cut, if_neg three]

theorem cut_three (tail : List UInt8) : cut (code ++ tail) = ([], code ++ tail) := cut_code Free.nil tail

theorem cut_four (tail : List UInt8) : cut (0 :: (code ++ tail)) = ([0], code ++ tail) := @cut_code [0] (by decide) tail

theorem cut_long (long : Bool) (tail : List UInt8) : cut (zeroIf long ++ (code ++ tail)) = (zeroIf long, code ++ tail) :=
  cut_code (Free.nil.append_zeroIf long) tail

/-- The scan of the types finds the first bytes of the units. -/
theorem annexBNalTypesFrom_eq (data : List UInt8) (i : Nat) :
    annexBNalTypesFrom data i = (headers (cut (data.drop i)).2).map nalType := by
  fun_induction annexBNalTypesFrom data i with
  | case1 i inside none ih =>
    have three := (startCodeLen_none none).1
    rw [List.drop_eq_getElem_cons inside] at three ⊢
    rw [ih, headers_step three]
  | case2 i inside len found nalStart outside =>
    have past : data.drop (i + len) = [] := List.drop_eq_nil_of_le (List.getElem?_eq_none_iff.mp outside)
    obtain ⟨long, _, here⟩ := startCodeLen_some found
    rw [here, past, cut_long, headers_code]
    rfl
  | case3 i inside len found nalStart header atStart ih =>
    obtain ⟨more, same⟩ := List.getElem?_eq_some_iff.mp atStart
    have next : data.drop (i + len) = header :: data.drop (i + len + 1) := by
      rw [List.drop_eq_getElem_cons more, same]
    obtain ⟨long, _, here⟩ := startCodeLen_some found
    rw [here, next, cut_long, headers_code_cons, List.map_cons, ih]
  | case4 i outside =>
    rw [List.drop_eq_nil_of_le (by omega)]
    exact (congrArg (List.map nalType) headers_nil).symm

theorem cut_matches {j : Nat} (here : Matches [0, 0, 1] data j ∨ Matches [0, 0, 0, 1] data j) :
    (cut (data.drop j)).2 ≠ [] ∧ ((cut (data.drop j)).1 = [] ∨ (cut (data.drop j)).1 = [0]) := by
  have nonempty (tail : List UInt8) : code ++ tail ≠ [] := List.append_ne_nil_of_left_ne_nil (List.cons_ne_nil _ _) _
  rcases here with three | four
  · have found : data.drop j = code ++ data.drop (j + 3) := drop_of_prefix ((matches_iff (by decide)).mp three)
    rw [found, cut_three]
    exact ⟨nonempty _, .inl rfl⟩
  · have found : data.drop j = 0 :: (code ++ data.drop (j + 4)) := drop_of_prefix ((matches_iff (by decide)).mp four)
    rw [found, cut_four]
    exact ⟨nonempty _, .inr rfl⟩

theorem slack_step {prev b : UInt8} {rest : List UInt8} (four : ¬ 0 :: code <+: b :: rest) (found : (cut rest).2 ≠ []) :
    slack (prev :: b :: (cut rest).1) = slack (b :: (cut rest).1) := by
  have all := cut_append rest
  cases body : (cut rest).1 with
  | nil =>
    refine slack_pair fun zeros => four ?_
    rw [body, List.nil_append] at all
    have start := (cut_rest rest).resolve_left found
    rw [all] at start
    exact List.cons_prefix_cons.mpr ⟨zeros.2.symm, start⟩
  | cons c body => exact slack_cons prev (by simp)

/-- A NAL ends where the next start code takes over, or at the end of the data. -/
theorem nalEnd_eq {j : Nat} {prev : UInt8} (positive : 0 < j) (before : data[j - 1]? = some prev) :
    nalEnd data j = if (cut (data.drop j)).2 = [] then data.length
      else j + (cut (data.drop j)).1.length - slack (prev :: (cut (data.drop j)).1) := by
  fun_induction nalEnd data j generalizing prev with
  | case1 j more here atZero =>
    cases Option.some.inj (before.symm.trans atZero.2)
    obtain ⟨found, which⟩ := cut_matches here
    rw [if_neg found]
    rcases which with same | same <;> rw [same] <;> rfl
  | case2 j more here notZero =>
    have nonzero : ¬ prev = 0 := fun zero => notZero ⟨positive, zero ▸ before⟩
    have ends : ¬ [0] <:+ [prev] := by
      rw [List.singleton_suffix_iff_getLast?_eq_some]
      exact fun same => nonzero (Option.some.inj same)
    obtain ⟨found, which⟩ := cut_matches here
    rw [if_neg found]
    rcases which with same | same
    · rw [same, slack_zero ends]
      rfl
    · rw [same]
      exact (congrArg (j + 1 - ·) (slack_append_zero ends)).symm
  | case3 j more other ih =>
    have inside : j < data.length := by omega
    have next := ih (Nat.succ_pos j) (by rw [Nat.add_sub_cancel]; exact List.getElem?_eq_getElem inside)
    have here := List.drop_eq_getElem_cons inside
    have three : ¬ code <+: data[j] :: data.drop (j + 1) := fun start =>
      other (.inl ((matches_iff (by decide)).mpr (here ▸ start)))
    have four : ¬ 0 :: code <+: data[j] :: data.drop (j + 1) := fun start =>
      other (.inr ((matches_iff (by decide)).mpr (here ▸ start)))
    rw [next, here, cut, if_neg three]
    dsimp only
    by_cases none : (cut (data.drop (j + 1))).2 = []
    · rw [if_pos none, if_pos none]
    · rw [if_neg none, if_neg none, slack_step four none, List.length_cons]
      omega
  | case4 j few =>
    have free : Free (data.drop j) := fun here => by
      have long := here.length_le
      rw [List.length_drop] at long
      simp only [code, List.length_cons, List.length_nil] at long
      omega
    rw [cut_of_free free, if_pos rfl]

/-- The slice of a NAL is its start code and what it keeps; the scan goes on with what it leaves to the next start code. -/
theorem nal_slice {lead tail : List UInt8} {header : UInt8} (here : data.drop i = lead ++ (code ++ header :: tail)) :
    let unit := header :: (cut tail).1
    let kept := keptLength unit (cut tail).2
    let stop := nalEnd data (i + (lead.length + 3) + 1)
    (data.take stop).drop i = lead ++ (code ++ unit.take kept) ∧ data.drop stop = unit.drop kept ++ (cut tail).2 := by
  intro unit kept stop
  have whole : unit ++ (cut tail).2 = header :: tail := congrArg (header :: ·) (cut_append tail)
  have front : (lead ++ code).length = lead.length + 3 := by
    rw [List.length_append]
    rfl
  have parts : data.drop i = (lead ++ code) ++ (unit ++ (cut tail).2) := by
    rw [here, whole, List.append_assoc]
  have bound : kept ≤ unit.length := by
    dsimp only [kept]
    unfold keptLength
    split <;> omega
  have atTail : data.drop (i + (lead.length + 3) + 1) = tail := by
    rw [Nat.add_assoc, ← List.drop_drop, parts, whole, ← front]
    exact List.drop_length_add_append 1
  have atHeader : data[i + (lead.length + 3) + 1 - 1]? = some header := by
    rw [Nat.add_sub_cancel, ← List.getElem?_drop, parts, whole, ← front, List.getElem?_append_right (le_refl _),
      Nat.sub_self]
    rfl
  have inside := (List.getElem?_eq_some_iff.mp atHeader).1
  have length := congrArg List.length atTail
  have stopEq : stop = i + (lead.length + 3 + kept) := by
    have ends := nalEnd_eq (Nat.succ_pos _) atHeader
    have tailLength := congrArg List.length whole
    have few := slack_le unit
    rw [atTail] at ends
    rw [List.length_drop] at length
    simp only [List.length_append, List.length_cons, unit] at tailLength few
    refine ends.trans ?_
    dsimp only [kept]
    unfold keptLength
    split
    · rename_i none
      rw [none, List.length_nil] at tailLength
      simp only [unit, List.length_cons]
      omega
    · simp only [unit, List.length_cons]
      omega
  rw [stopEq]
  constructor
  · rw [List.drop_take, Nat.add_sub_cancel_left, parts, ← front, List.take_length_add_append,
      List.take_append_of_le_length bound, List.append_assoc]
  · rw [← List.drop_drop, parts, ← front, List.drop_length_add_append, List.drop_append_of_le_length bound]

theorem units_code {zeros : List UInt8} (free : Free zeros) (tail : List UInt8) :
    units (zeros ++ (code ++ tail)) = nals (decide ([0] <:+ zeros)) (code ++ tail) := by
  unfold units
  rw [cut_code free]

theorem units_long (long : Bool) (tail : List UInt8) : units (zeroIf long ++ (code ++ tail)) = nals long (code ++ tail) := by
  cases long with
  | false => exact units_code Free.nil tail
  | true => exact @units_code [0] (by decide) tail

@[simp] theorem units_nil : units [] = [] := nals_nil _

/-- What a NAL leaves over is taken over by the next one, or dropped. -/
theorem units_left (unit : List UInt8) {rest : List UInt8} (start : rest = [] ∨ code <+: rest) :
    units (unit.drop (keptLength unit rest) ++ rest) = nals (decide (keptLength unit rest < unit.length)) rest := by
  rcases start with rfl | ⟨tail, rfl⟩
  · rw [nals_nil, keptLength, if_pos rfl, List.drop_length]
    exact nals_nil _
  · have nonempty : code ++ tail ≠ [] := List.append_ne_nil_of_left_ne_nil (List.cons_ne_nil _ _) _
    rw [keptLength, if_neg nonempty]
    unfold slack
    by_cases two : [0, 0] <:+ unit
    · have zeros : unit.drop (unit.length - 2) = [0, 0] := (List.suffix_iff_eq_drop.mp two).symm
      have long : 2 ≤ unit.length := two.length_le
      rw [if_pos two, zeros, units_code (by decide), decide_eq_true (by omega : unit.length - 2 < unit.length)]
      rfl
    · rw [if_neg two]
      by_cases one : [0] <:+ unit
      · have zeros : unit.drop (unit.length - 1) = [0] := (List.suffix_iff_eq_drop.mp one).symm
        have long : 1 ≤ unit.length := one.length_le
        rw [if_pos one, zeros, units_code (by decide), decide_eq_true (by omega : unit.length - 1 < unit.length)]
        rfl
      · rw [if_neg one, Nat.sub_zero, List.drop_length, units_code Free.nil, decide_eq_false (Nat.lt_irrefl _)]
        rfl

def isParameterSet (n : Nal) : Bool := decide (nalType n.header = 7 ∨ nalType n.header = 8)

theorem isParameterSet_header {n : Nal} (parameter : isParameterSet n = true) : n.header ≠ 0 := by
  intro zero
  unfold isParameterSet at parameter
  rw [zero] at parameter
  exact absurd parameter (by decide)

/-- The extraction gives the bytes of the units that are parameter sets. -/
theorem extractSpsPpsFrom_eq (data : List UInt8) (i : Nat) :
    extractSpsPpsFrom data i = ((units (data.drop i)).filter isParameterSet).flatMap Nal.bytes := by
  fun_induction extractSpsPpsFrom data i with
  | case1 i inside none ih =>
    obtain ⟨three, four⟩ := startCodeLen_none none
    rw [List.drop_eq_getElem_cons inside] at three four ⊢
    rw [ih, units_step three four]
  | case2 i inside len found outside =>
    have past : data.drop (i + len) = [] := List.drop_eq_nil_of_le (List.getElem?_eq_none_iff.mp outside)
    obtain ⟨long, _, here⟩ := startCodeLen_some found
    rw [here, past, units_long, nals_code]
    rfl
  | case3 i inside len found header atStart stop ih =>
    obtain ⟨more, same⟩ := List.getElem?_eq_some_iff.mp atStart
    have next : data.drop (i + len) = header :: data.drop (i + len + 1) := by
      rw [List.drop_eq_getElem_cons more, same]
    obtain ⟨long, length, here⟩ := startCodeLen_some found
    rw [next] at here
    obtain ⟨slice, left⟩ := nal_slice here
    rw [← length] at slice left
    rw [ih, slice, here, units_long, nals_code_cons, left, units_left _ (cut_rest _)]
    generalize nals _ _ = later
    generalize bodyEq : (List.take (keptLength _ _) _).tail = body
    have isSet : isParameterSet ⟨long, header, body⟩ = decide (nalType header = 7 ∨ nalType header = 8) := rfl
    by_cases parameter : nalType header = 7 ∨ nalType header = 8
    · rw [decide_eq_true parameter] at isSet
      rw [if_pos parameter, List.filter_cons_of_pos isSet, List.flatMap_cons, Nal.bytes, ← bodyEq]
      dsimp only
      rw [take_keptLength (isParameterSet_header isSet)]
    · rw [decide_eq_false parameter] at isSet
      rw [if_neg parameter, List.filter_cons_of_neg (Bool.eq_false_iff.mp isSet), List.nil_append]
  | case4 i outside =>
    rw [List.drop_eq_nil_of_le (by omega), units_nil]
    rfl

end Scanning

theorem annexBNalTypes_eq (data : List UInt8) : annexBNalTypes data = (units data).map fun n => nalType n.header := by
  have scan := annexBNalTypesFrom_eq data 0
  rw [List.drop_zero] at scan
  unfold annexBNalTypes units
  rw [scan, ← nals_header, List.map_map]
  rfl

theorem extractSpsPps_eq (data : List UInt8) : extractSpsPps data =
    let sets := ((units data).filter isParameterSet).flatMap Nal.bytes
    if sets = [] then none else some sets := by
  have scan := extractSpsPpsFrom_eq data 0
  rw [List.drop_zero] at scan
  unfold extractSpsPps
  rw [scan]

theorem flatMap_bytes_eq_nil (ns : List Nal) : ns.flatMap Nal.bytes = [] ↔ ns = [] := by
  cases ns with
  | nil => simp
  | cons n ns =>
    rw [flatMap_bytes]
    exact ⟨fun none => absurd (List.append_eq_nil_iff.mp none).2 (restOf_ne_nil n ns), fun none => absurd none (List.cons_ne_nil _ _)⟩

theorem units_flatMap {n : Nal} {ns : List Nal} : units ((n :: ns).flatMap Nal.bytes) = nals n.long (restOf (n :: ns)) := by
  rw [flatMap_bytes]
  exact units_long n.long _

theorem squeeze_zeroIf (long : Bool) (n : Nal) (ns : List Nal) :
    squeeze (zeroIf long ++ restOf (n :: ns)) = zeroIf long ++ squeeze (restOf (n :: ns)) := by
  cases long with
  | false => rfl
  | true =>
    show squeeze (0 :: (code ++ _)) = 0 :: squeeze (code ++ _)
    rw [squeeze, if_neg (by simp [code])]

/-- A second extraction only drops a zero from padding of four zeros or more before a start code. -/
theorem extractSpsPps_again {n : Nal} {ns : List Nal} (free : ∀ m ∈ n :: ns, Free m.body)
    (parameter : ∀ m ∈ n :: ns, isParameterSet m = true) :
    extractSpsPps ((n :: ns).flatMap Nal.bytes) = some (squeeze ((n :: ns).flatMap Nal.bytes)) := by
  have heads := (nals_header n.long (restOf (n :: ns))).trans (headers_units free)
  have all : ∀ m ∈ nals n.long (restOf (n :: ns)), isParameterSet m = true := by
    intro m member
    have header : m.header ∈ (n :: ns).map Nal.header := heads ▸ List.mem_map_of_mem member
    obtain ⟨original, isOriginal, same⟩ := List.mem_map.mp header
    have found := parameter original isOriginal
    unfold isParameterSet at found ⊢
    rwa [← same]
  have some : nals n.long (restOf (n :: ns)) ≠ [] := fun none => by
    rw [none] at heads
    exact absurd heads (List.cons_ne_nil _ _).symm
  rw [extractSpsPps_eq, units_flatMap, List.filter_eq_self.mpr all]
  dsimp only
  rw [if_neg fun none => some ((flatMap_bytes_eq_nil _).mp none), flatMap_bytes (n :: ns), leadOf, squeeze_zeroIf,
    nals_squeeze free fun m member => isParameterSet_header (parameter m member)]

/-- The two scanners agree on every byte string. -/
theorem annexB_scanners_agree (data : List UInt8) :
    (extractSpsPps data = none ↔ ∀ t ∈ annexBNalTypes data, t ≠ 7 ∧ t ≠ 8) ∧
    (∀ found, extractSpsPps data = some found →
      annexBNalTypes found = (annexBNalTypes data).filter (fun t => decide (t = 7 ∨ t = 8)) ∧
      extractSpsPps found = some (squeeze found) ∧
      (extractSpsPps found = some found ↔ ¬ [0, 0, 0, 0, 1] <:+: found)) ∧
    ∀ stream : List Nal, (∀ n ∈ stream, Free n.body ∧ ¬ [0] <:+ n.header :: n.body) →
      extractSpsPps (stream.flatMap Nal.bytes) =
        let sets := (stream.filter isParameterSet).flatMap Nal.bytes
        if sets = [] then none else some sets := by
  refine ⟨?_, fun found run => ?_, fun stream clean => ?_⟩
  · rw [extractSpsPps_eq, annexBNalTypes_eq]
    simp only [ite_eq_left_iff, reduceCtorEq, imp_false, not_not, flatMap_bytes_eq_nil, List.filter_eq_nil_iff,
      isParameterSet, decide_eq_true_eq, not_or, List.forall_mem_map, ne_eq]
  · rw [extractSpsPps_eq] at run
    obtain ⟨nonempty, same⟩ := Option.ite_none_left_eq_some.mp run
    have free : ∀ m ∈ (units data).filter isParameterSet, Free m.body := fun m member =>
      nals_free _ _ m (List.mem_filter.mp member).1
    have parameter : ∀ m ∈ (units data).filter isParameterSet, isParameterSet m = true := fun m member =>
      (List.mem_filter.mp member).2
    have types : ((units data).filter isParameterSet).map (fun n => nalType n.header) =
        (annexBNalTypes data).filter fun t => decide (t = 7 ∨ t = 8) := by
      rw [annexBNalTypes_eq, List.filter_map]
      rfl
    rw [← types, ← Option.some.inj same]
    generalize (units data).filter isParameterSet = sets at *
    obtain ⟨n, ns, rfl⟩ := List.exists_cons_of_ne_nil fun none => nonempty ((flatMap_bytes_eq_nil sets).mpr none)
    have again := extractSpsPps_again free parameter
    have heads := (nals_header n.long (restOf (n :: ns))).trans (headers_units free)
    refine ⟨?_, again, ?_⟩
    · rw [annexBNalTypes_eq, units_flatMap]
      have mapped := congrArg (List.map nalType) heads
      rwa [List.map_map, List.map_map] at mapped
    · rw [again, Option.some.injEq]
      exact squeeze_eq_self_iff _
  · cases stream with
    | nil =>
      rw [List.flatMap_nil, extractSpsPps_eq, units_nil]
    | cons n ns =>
      rw [extractSpsPps_eq, units_flatMap, nals_units (fun m member => (clean m member).1) fun m member => (clean m member).2]

/-- Two parameter sets with a slice between them. -/
theorem annexB_scanners_agree_once :
    extractSpsPps [0, 0, 1, 0x67, 0xaa, 0, 0, 1, 0x68, 0xcc] = some [0, 0, 1, 0x67, 0xaa, 0, 0, 1, 0x68, 0xcc] ∧
      extractSpsPps [0, 0, 0, 1, 0x67, 0xaa, 0, 0, 1, 0x65, 0xbb, 0, 0, 1, 0x68, 0xcc] =
        some [0, 0, 0, 1, 0x67, 0xaa, 0, 0, 1, 0x68, 0xcc] := by
  obtain ⟨_, kept, _⟩ := annexB_scanners_agree [0, 0, 1, 0x67, 0xaa, 0, 0, 1, 0x68, 0xcc]
  obtain ⟨_, _, joined⟩ := annexB_scanners_agree []
  exact ⟨(kept _ (by with_unfolding_all decide)).2.2.mpr (by decide),
    joined [⟨true, 0x67, [0xaa]⟩, ⟨false, 0x65, [0xbb]⟩, ⟨false, 0x68, [0xcc]⟩] (by decide)⟩

/-- Five zeros before the second start code: the padding is kept once and shortened the next time. A first
byte that is zero, with nothing after it, goes to the next start code. -/
theorem padding_not_kept :
    (extractSpsPps [0, 0, 1, 0x67, 0xaa, 0, 0, 0, 0, 0, 1, 0x68, 0xcc] =
        some [0, 0, 1, 0x67, 0xaa, 0, 0, 0, 0, 1, 0x68, 0xcc] ∧
      extractSpsPps [0, 0, 1, 0x67, 0xaa, 0, 0, 0, 0, 1, 0x68, 0xcc] ≠
        some [0, 0, 1, 0x67, 0xaa, 0, 0, 0, 0, 1, 0x68, 0xcc]) ∧
    extractSpsPps ([⟨false, 0, []⟩, ⟨false, 0x67, []⟩].flatMap Nal.bytes) ≠ some (Nal.bytes ⟨false, 0x67, []⟩) := by
  with_unfolding_all decide

end HyprRdp.AnnexB
