import Mathlib.Data.List.Basic
import Mathlib.Data.List.Infix

/-! Byte strings in which units are told apart by start codes, two zeros and a one. A third zero before the code counts as
part of it. -/

namespace StartCodes

def code : List UInt8 := [0, 0, 1]

/-- The bytes before the first start code, and those from it on. -/
def cut : List UInt8 → List UInt8 × List UInt8
  | [] => ([], [])
  | b :: rest => if code <+: b :: rest then ([], b :: rest) else (b :: (cut rest).1, (cut rest).2)

/-- No start code lies inside the bytes. -/
def Free (xs : List UInt8) : Prop := ¬ code <:+: xs

instance (xs : List UInt8) : Decidable (Free xs) := inferInstanceAs (Decidable (¬ _))

/-- A unit: a start code of four or three bytes, its first byte and the rest. -/
structure Nal where
  long : Bool
  header : UInt8
  body : List UInt8
  deriving DecidableEq, Repr

def zeroIf (long : Bool) : List UInt8 := if long then [0] else []

def Nal.bytes (n : Nal) : List UInt8 := zeroIf n.long ++ (code ++ n.header :: n.body)

/-- The zeros at the end of a unit that go to the next start code, two at most. -/
def slack (unit : List UInt8) : Nat := if [0, 0] <:+ unit then 2 else if [0] <:+ unit then 1 else 0

/-- What a unit keeps of its bytes when `rest` comes after it. -/
def keptLength (unit rest : List UInt8) : Nat := if rest = [] then unit.length else unit.length - slack unit

theorem cut_append (xs : List UInt8) : (cut xs).1 ++ (cut xs).2 = xs := by
  induction xs with
  | nil => rfl
  | cons b rest ih =>
    rw [cut]
    split
    · rfl
    · exact congrArg (b :: ·) ih

theorem cut_rest_length (xs : List UInt8) : (cut xs).2.length ≤ xs.length := by
  have whole := congrArg List.length (cut_append xs)
  rw [List.length_append] at whole
  omega

/-- The units of a string that begins with a start code. -/
def nals (long : Bool) : List UInt8 → List Nal
  | _ :: _ :: _ :: header :: tail =>
    let unit := header :: (cut tail).1
    let rest := (cut tail).2
    ⟨long, header, (unit.take (keptLength unit rest)).tail⟩ :: nals (decide (keptLength unit rest < unit.length)) rest
  | _ => []
termination_by xs => xs.length
decreasing_by
  have := cut_rest_length tail
  simp only [List.length_cons]
  omega

/-- The first bytes of these units. -/
def headers : List UInt8 → List UInt8
  | _ :: _ :: _ :: header :: tail => header :: headers (cut tail).2
  | _ => []
termination_by xs => xs.length
decreasing_by
  have := cut_rest_length tail
  simp only [List.length_cons]
  omega

@[simp] theorem headers_nil : headers [] = [] := by
  unfold headers
  rfl

@[simp] theorem nals_nil (long : Bool) : nals long [] = [] := by
  unfold nals
  rfl

/-- A start code at the end of the string starts no unit. -/
theorem headers_code : headers (code ++ []) = [] := by
  unfold headers
  rfl

theorem nals_code (long : Bool) : nals long (code ++ []) = [] := by
  unfold nals
  rfl

theorem headers_code_cons (header : UInt8) (tail : List UInt8) :
    headers (code ++ header :: tail) = header :: headers (cut tail).2 := by
  show headers (0 :: 0 :: 1 :: header :: tail) = _
  rw [headers]

theorem nals_code_cons (long : Bool) (header : UInt8) (tail : List UInt8) :
    let unit := header :: (cut tail).1
    let kept := keptLength unit (cut tail).2
    nals long (code ++ header :: tail) =
      ⟨long, header, (unit.take kept).tail⟩ :: nals (decide (kept < unit.length)) (cut tail).2 := by
  show nals long (0 :: 0 :: 1 :: header :: tail) = _
  rw [nals]

theorem nals_header (long : Bool) (xs : List UInt8) : (nals long xs).map Nal.header = headers xs := by
  induction xs using headers.induct generalizing long with
  | case1 a b c header tail ih =>
    rw [nals, headers, List.map_cons, ih]
  | case2 xs short =>
    unfold nals headers
    split
    · exact absurd rfl (short _ _ _ _ _)
    · rfl

theorem Free.nil : Free [] := by decide

theorem Free.within {xs ys : List UInt8} (free : Free ys) (within : xs <:+: ys) : Free xs :=
  fun inside => free (inside.trans within)

theorem cut_free (xs : List UInt8) : Free (cut xs).1 := by
  induction xs with
  | nil => exact Free.nil
  | cons b rest ih =>
    rw [cut]
    split
    · exact Free.nil
    · rename_i other
      intro inside
      rcases List.infix_cons_iff.mp inside with first | later
      · refine other (first.trans ?_)
        exact (List.prefix_append (b :: (cut rest).1) (cut rest).2).trans (by rw [List.cons_append, cut_append])
      · exact ih later

theorem cut_of_free {xs : List UInt8} (free : Free xs) : cut xs = (xs, []) := by
  induction xs with
  | nil => rfl
  | cons b rest ih =>
    rw [cut, if_neg fun first => free first.isInfix, ih (free.within (List.suffix_cons b rest).isInfix)]

/-- What follows the first bytes begins with a start code, or is nothing. -/
theorem cut_rest (xs : List UInt8) : (cut xs).2 = [] ∨ code <+: (cut xs).2 := by
  induction xs with
  | nil => exact .inl rfl
  | cons b rest ih =>
    rw [cut]
    split
    · rename_i first
      exact .inr first
    · exact ih

/-- A start code after bytes without one is the first one. -/
theorem cut_code {xs : List UInt8} (free : Free xs) (tail : List UInt8) : cut (xs ++ (code ++ tail)) = (xs, code ++ tail) := by
  induction xs with
  | nil => rfl
  | cons b rest ih =>
    have later := free.within (List.suffix_cons b rest).isInfix
    have other : ¬ code <+: b :: (rest ++ (code ++ tail)) := by
      intro first
      rcases rest with _ | ⟨c, _ | ⟨d, rest⟩⟩
      · simp [code] at first
      · simp [code] at first
      · refine free ((?_ : code <+: b :: c :: d :: rest).isInfix)
        simpa [code] using first
    rw [List.cons_append, cut, if_neg other, ih later]

theorem nals_free (long : Bool) (xs : List UInt8) : ∀ n ∈ nals long xs, Free n.body := by
  induction xs using headers.induct generalizing long with
  | case1 a b c header tail ih =>
    rw [nals, List.forall_mem_cons]
    refine ⟨?_, ih _⟩
    cases keptLength (header :: (cut tail).1) (cut tail).2 with
    | zero => exact Free.nil
    | succ kept => exact (cut_free tail).within (List.take_prefix kept _).isInfix
  | case2 xs short =>
    intro n member
    unfold nals at member
    split at member
    · exact absurd rfl (short _ _ _ _ _)
    · cases member

/-! Strings put together from units. -/

def leadOf : List Nal → List UInt8
  | [] => []
  | n :: _ => zeroIf n.long

/-- The units from the three bytes of the first start code on. -/
def restOf : List Nal → List UInt8
  | [] => []
  | n :: ns => code ++ n.header :: (n.body ++ ns.flatMap Nal.bytes)

theorem flatMap_bytes (ns : List Nal) : ns.flatMap Nal.bytes = leadOf ns ++ restOf ns := by
  cases ns with
  | nil => rfl
  | cons n ns => simp only [List.flatMap_cons, Nal.bytes, leadOf, restOf, List.append_assoc, List.cons_append]

theorem Free.append_zeroIf {xs : List UInt8} (free : Free xs) (long : Bool) : Free (xs ++ zeroIf long) := by
  cases long with
  | false => rwa [zeroIf, if_neg Bool.false_ne_true, List.append_nil]
  | true =>
    intro inside
    rcases List.infix_concat_iff.mp inside with last | before
    · obtain ⟨front, whole⟩ := last
      have ends := congrArg List.getLast? whole
      simp [code] at ends
    · exact free before

theorem cut_units {b : List UInt8} (free : Free b) (ns : List Nal) :
    cut (b ++ ns.flatMap Nal.bytes) = (b ++ leadOf ns, restOf ns) := by
  cases ns with
  | nil =>
    simp only [List.flatMap_nil, List.append_nil, leadOf, restOf]
    exact cut_of_free free
  | cons n ns =>
    rw [flatMap_bytes, ← List.append_assoc]
    exact cut_code (free.append_zeroIf n.long) _

theorem headers_units {ns : List Nal} (free : ∀ n ∈ ns, Free n.body) : headers (restOf ns) = ns.map Nal.header := by
  induction ns with
  | nil => exact headers_nil
  | cons n ns ih =>
    have cutTail := cut_units (free n List.mem_cons_self) ns
    rw [restOf, headers_code_cons, cutTail, ih fun n member => free n (List.mem_cons_of_mem _ member), List.map_cons]

theorem slack_zero {unit : List UInt8} (ends : ¬ [0] <:+ unit) : slack unit = 0 := by
  unfold slack
  rw [if_neg fun two => ends ((List.suffix_cons 0 [0]).trans two), if_neg ends]

theorem slack_le (unit : List UInt8) : slack unit ≤ unit.length := by
  unfold slack
  split
  · rename_i two
    exact two.length_le
  split
  · rename_i one
    exact one.length_le
  · exact Nat.zero_le _

theorem slack_append_zero {unit : List UInt8} (ends : ¬ [0] <:+ unit) : slack (unit ++ [0]) = 1 := by
  unfold slack
  rw [if_neg, if_pos (List.suffix_append unit [0])]
  intro two
  obtain ⟨before, same, inside⟩ := List.suffix_concat_iff.mp two |>.resolve_left (by simp)
  exact ends (List.append_cancel_right (show [0] ++ [0] = before ++ [0] from same) ▸ inside)

theorem nals_restOf (long : Bool) {n : Nal} (free : Free n.body) (ns : List Nal) :
    let unit := n.header :: (n.body ++ leadOf ns)
    nals long (restOf (n :: ns)) = ⟨long, n.header, (unit.take (keptLength unit (restOf ns))).tail⟩ ::
      nals (decide (keptLength unit (restOf ns) < unit.length)) (restOf ns) := by
  rw [restOf, nals_code_cons, cut_units free ns]

theorem restOf_ne_nil (n : Nal) (ns : List Nal) : restOf (n :: ns) ≠ [] := by
  unfold restOf code
  exact List.cons_ne_nil _ _

/-- Units that do not end in a zero come back as they were. -/
theorem nals_units {n : Nal} {ns : List Nal} (free : ∀ m ∈ n :: ns, Free m.body)
    (ends : ∀ m ∈ n :: ns, ¬ [0] <:+ m.header :: m.body) : nals n.long (restOf (n :: ns)) = n :: ns := by
  induction ns generalizing n with
  | nil =>
    rw [nals_restOf _ (free n List.mem_cons_self)]
    simp only [leadOf, restOf, List.append_nil, keptLength, if_true, List.take_length, List.tail_cons, nals_nil]
  | cons m ns ih =>
    have here := ends n List.mem_cons_self
    have later := ih (fun k member => free k (List.mem_cons_of_mem _ member)) fun k member => ends k (List.mem_cons_of_mem _ member)
    rw [nals_restOf _ (free n List.mem_cons_self)]
    unfold keptLength
    rw [if_neg (restOf_ne_nil m ns), leadOf]
    cases long : m.long with
    | false =>
      rw [long] at later
      simp only [zeroIf, Bool.false_eq_true, if_false, List.append_nil, slack_zero here, Nat.sub_zero, List.take_length,
        List.tail_cons, lt_irrefl, decide_false, later]
    | true =>
      rw [long] at later
      simp only [zeroIf, if_true, ← List.cons_append, slack_append_zero here, List.length_append, List.length_singleton,
        Nat.add_sub_cancel, List.take_left, List.tail_cons, Nat.lt_succ_self, decide_true, later]

/-- Drops each zero that comes before three zeros and a one. -/
def squeeze : List UInt8 → List UInt8
  | [] => []
  | b :: rest => if [0, 0, 0, 0, 1] <+: b :: rest then squeeze rest else b :: squeeze rest

theorem squeeze_length_le (xs : List UInt8) : (squeeze xs).length ≤ xs.length := by
  induction xs with
  | nil => exact le_refl _
  | cons b rest ih =>
    rw [squeeze]
    split
    · exact ih.trans (Nat.le_succ _)
    · exact Nat.succ_le_succ ih

theorem squeeze_eq_self_iff (xs : List UInt8) : squeeze xs = xs ↔ ¬ [0, 0, 0, 0, 1] <:+: xs := by
  induction xs with
  | nil => decide
  | cons b rest ih =>
    rw [squeeze, List.infix_cons_iff]
    split
    · rename_i first
      refine ⟨fun same => absurd (congrArg List.length same) ?_, fun none => absurd (.inl first) none⟩
      have := squeeze_length_le rest
      rw [List.length_cons]
      omega
    · rename_i other
      rw [List.cons.injEq, ih]
      simp only [true_and, other, false_or]

theorem slack_cons (b : UInt8) {rest : List UInt8} (long : 2 ≤ rest.length) : slack (b :: rest) = slack rest := by
  have shorter : ∀ zeros : List UInt8, zeros.length ≤ 2 → (zeros <:+ b :: rest ↔ zeros <:+ rest) := by
    intro zeros bound
    rw [List.suffix_cons_iff, or_iff_right]
    rintro rfl
    rw [List.length_cons] at bound
    omega
  simp only [slack, shorter [0, 0] (le_refl _), shorter [0] (by decide)]

theorem slack_pair {b c : UInt8} (ends : ¬ (b = 0 ∧ c = 0)) : slack [b, c] = slack [c] := by
  by_cases zero : c = 0
  · subst zero
    have first : ¬ [0] <:+ [b] := by
      rw [List.singleton_suffix_iff_getLast?_eq_some]
      exact fun same => ends ⟨Option.some.inj same, rfl⟩
    exact slack_append_zero first
  · have last (xs : List UInt8) : ¬ [0] <:+ xs ++ [c] := by
      rw [List.singleton_suffix_iff_getLast?_eq_some, List.getLast?_concat]
      exact fun same => zero (Option.some.inj same)
    exact (slack_zero (last [b])).trans (slack_zero (last [])).symm

/-- Squeezing gives what is kept, then the start code with the one zero that it may take over. -/
theorem squeeze_code {xs : List UInt8} (free : Free xs) (tail : List UInt8) :
    squeeze (xs ++ (code ++ tail)) =
      xs.take (xs.length - slack xs) ++ (zeroIf (decide (xs.length - slack xs < xs.length)) ++ squeeze (code ++ tail)) := by
  induction xs with
  | nil => rfl
  | cons b rest ih =>
    have later := ih (free.within (List.suffix_cons b rest).isInfix)
    have step (other : ¬ [0, 0, 0, 0, 1] <+: b :: (rest ++ (code ++ tail))) (same : slack (b :: rest) = slack rest) :
        squeeze (b :: rest ++ (code ++ tail)) = (b :: rest).take ((b :: rest).length - slack (b :: rest)) ++
          (zeroIf (decide ((b :: rest).length - slack (b :: rest) < (b :: rest).length)) ++ squeeze (code ++ tail)) := by
      have bound := slack_le rest
      have kept : rest.length + 1 - slack rest = rest.length - slack rest + 1 := by omega
      rw [List.cons_append, squeeze, if_neg other, later, same, List.length_cons, kept, List.take_succ_cons, List.cons_append]
      simp only [Nat.add_lt_add_iff_right]
    rcases rest with _ | ⟨c, _ | ⟨d, more⟩⟩
    · have other : ¬ [0, 0, 0, 0, 1] <+: b :: (code ++ tail) := by simp [code]
      by_cases zero : b = 0
      · subst zero
        rw [List.cons_append, squeeze, List.nil_append, if_neg other]
        rfl
      · refine step other (slack_zero ?_)
        rw [List.singleton_suffix_iff_getLast?_eq_some]
        exact fun same => zero (Option.some.inj same)
    · by_cases zeros : b = 0 ∧ c = 0
      · obtain ⟨rfl, rfl⟩ := zeros
        have first : [0, 0, 0, 0, 1] <+: 0 :: ([0] ++ (code ++ tail)) := by simp [code]
        rw [List.cons_append, squeeze, if_pos first, later]
        rfl
      · refine step (fun first => zeros ?_) (slack_pair zeros)
        simp [code] at first
        exact ⟨first.1.symm, first.2.symm⟩
    · refine step (fun first => ?_) (slack_cons b (by simp))
      -- The one of the longer pattern would be inside the bytes, with two zeros before it.
      rcases more with _ | ⟨e, _ | ⟨f, more⟩⟩
      · simp [code] at first
      · simp [code] at first
      · refine free ⟨[b, c], more, ?_⟩
        simp [code] at first ⊢
        exact ⟨first.2.2.1, first.2.2.2.1, first.2.2.2.2⟩

theorem squeeze_code_append (xs : List UInt8) : squeeze (code ++ xs) = code ++ squeeze xs := by
  show squeeze (0 :: 0 :: 1 :: xs) = 0 :: 0 :: 1 :: squeeze xs
  rw [squeeze, if_neg (by simp), squeeze, if_neg (by simp), squeeze, if_neg (by simp)]

theorem Free.squeeze {xs : List UInt8} (free : Free xs) : squeeze xs = xs :=
  (squeeze_eq_self_iff xs).mpr fun inside => free (List.IsInfix.trans ⟨[0, 0], [], rfl⟩ inside)

theorem Free.cons {xs : List UInt8} (free : Free xs) {header : UInt8} (nonzero : header ≠ 0) : Free (header :: xs) := by
  intro inside
  rcases List.infix_cons_iff.mp inside with first | later
  · exact nonzero (List.cons_prefix_cons.mp first).1.symm
  · exact free later

theorem slack_lt {header : UInt8} (nonzero : header ≠ 0) (xs : List UInt8) : slack (header :: xs) < (header :: xs).length := by
  unfold slack
  split
  · rename_i two
    rcases List.suffix_cons_iff.mp two with whole | later
    · exact absurd (List.cons.inj whole).1.symm nonzero
    · exact Nat.lt_succ_of_le later.length_le
  split
  · rename_i one
    rcases List.suffix_cons_iff.mp one with whole | later
    · exact absurd (List.cons.inj whole).1.symm nonzero
    · exact Nat.lt_succ_of_le later.length_le
  · exact Nat.zero_lt_succ _

theorem keptLength_pos {header : UInt8} (nonzero : header ≠ 0) (xs rest : List UInt8) :
    0 < keptLength (header :: xs) rest := by
  have := slack_lt nonzero xs
  unfold keptLength
  split
  · exact Nat.zero_lt_succ _
  · omega

/-- A unit with a first byte other than zero keeps that byte. -/
theorem take_keptLength {header : UInt8} (nonzero : header ≠ 0) (xs rest : List UInt8) :
    header :: ((header :: xs).take (keptLength (header :: xs) rest)).tail = (header :: xs).take (keptLength (header :: xs) rest) := by
  obtain ⟨k, same⟩ := Nat.exists_eq_add_one.mpr (keptLength_pos nonzero xs rest)
  rw [same, List.take_succ_cons, List.tail_cons]

/-- Taking a string of units apart and putting the parts together again squeezes it. -/
theorem nals_squeeze {n : Nal} {ns : List Nal} (free : ∀ m ∈ n :: ns, Free m.body) (nonzero : ∀ m ∈ n :: ns, m.header ≠ 0)
    (long : Bool) : (nals long (restOf (n :: ns))).flatMap Nal.bytes = zeroIf long ++ squeeze (restOf (n :: ns)) := by
  induction ns generalizing n long with
  | nil =>
    have unit := ((free n List.mem_cons_self).cons (nonzero n List.mem_cons_self)).squeeze
    rw [nals_restOf _ (free n List.mem_cons_self)]
    simp only [leadOf, restOf, List.append_nil, keptLength, if_true, List.take_length, List.tail_cons, nals_nil,
      List.flatMap_cons, List.flatMap_nil, Nal.bytes, squeeze_code_append, unit]
  | cons m ns ih =>
    have header := nonzero n List.mem_cons_self
    have body := (free n List.mem_cons_self).append_zeroIf m.long
    have later := fun l => ih (fun k member => free k (List.mem_cons_of_mem _ member))
      (fun k member => nonzero k (List.mem_cons_of_mem _ member)) l
    have whole : restOf (n :: m :: ns) = code ++ ((n.header :: (n.body ++ zeroIf m.long)) ++ restOf (m :: ns)) := by
      show code ++ n.header :: (n.body ++ (m :: ns).flatMap Nal.bytes) = _
      rw [flatMap_bytes, leadOf, List.cons_append, List.append_assoc]
    have squeezed := squeeze_code (body.cons header) (m.header :: (m.body ++ ns.flatMap Nal.bytes))
    have kept : keptLength (n.header :: (n.body ++ zeroIf m.long)) (restOf (m :: ns)) =
        (n.header :: (n.body ++ zeroIf m.long)).length - slack (n.header :: (n.body ++ zeroIf m.long)) :=
      if_neg (restOf_ne_nil m ns)
    have unit := take_keptLength header (n.body ++ zeroIf m.long) (restOf (m :: ns))
    rw [← kept] at squeezed
    rw [nals_restOf _ (free n List.mem_cons_self), List.flatMap_cons, later, whole, squeeze_code_append]
    refine Eq.trans ?_ (congrArg (fun xs => zeroIf long ++ (code ++ xs)) squeezed.symm)
    show zeroIf long ++ (code ++ n.header :: (List.take _ _).tail) ++ _ = _
    rw [show leadOf (m :: ns) = zeroIf m.long from rfl, unit, List.append_assoc, List.append_assoc]
    rfl

end StartCodes
