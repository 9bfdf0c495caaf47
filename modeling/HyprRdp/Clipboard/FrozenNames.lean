import HyprRdp.Clipboard.FrozenPaths
import HyprRdp.Lib.PathTable

namespace HyprRdp

/-- A name that a path can have as one of its components. -/
structure WellNamed (name : FileName) : Prop where
  marked : ∃ character ∈ name, character ≠ '.'
  clean : ∀ character ∈ name, FileDescriptor.isSeparator character = false ∧ character ≠ Char.ofNat 0

theorem WellNamed.ne_nil {name : FileName} (named : WellNamed name) : name ≠ [] := by
  rintro rfl
  obtain ⟨_, member, _⟩ := named.marked
  exact absurd member List.not_mem_nil

theorem WellNamed.usable {name : FileName} (named : WellNamed name) :
    (name ≠ ['.'] && name ≠ ['.', '.'] && !name.contains (Char.ofNat 0)) = true := by
  obtain ⟨character, member, other⟩ := named.marked
  have dot : name ≠ ['.'] := by
    rintro rfl
    simp_all
  have dots : name ≠ ['.', '.'] := by
    rintro rfl
    simp_all
  have null : Char.ofNat 0 ∉ name := fun member => (named.clean _ member).2 rfl
  simp [dot, dots, null]

/-- What takes the place of a forbidden character can be in a name. -/
theorem clean_of_allowed {character : Char} (allowed : isForbidden character = false) :
    FileDescriptor.isSeparator character = false ∧ character ≠ Char.ofNat 0 := by
  unfold isForbidden at allowed
  obtain ⟨listed, high⟩ := Bool.or_eq_false_iff.mp allowed
  simp only [decide_eq_false_iff_not, List.mem_cons, not_or] at listed high
  refine ⟨?_, fun null => ?_⟩
  · unfold FileDescriptor.isSeparator
    simp [listed]
  · subst null
    exact high (by decide)

/-- The names that Windows keeps for devices, in capitals. -/
def deviceNames : List FileName :=
  [['C', 'O', 'N'], ['P', 'R', 'N'], ['A', 'U', 'X'], ['N', 'U', 'L']] ++
    [['C', 'O', 'M'], ['L', 'P', 'T']].flatMap fun port =>
      ['1', '2', '3', '4', '5', '6', '7', '8', '9', '¹', '²', '³'].map fun number => port ++ [number]

/-- What stands at the end of a name is neither a dot nor a space. -/
def Ends (name : FileName) : Prop := ∀ last, name.getLast? = some last → last ≠ '.' ∧ last ≠ ' '

/-- What Windows asks of a name. Its control characters are those below the space,
and a device keeps its name under every extension. -/
structure WindowsName (name : FileName) : Prop where
  nonempty : name ≠ []
  reserved : ∀ character ∈ name, character ∉ ['<', '>', ':', Char.ofNat 0x22, '/', '\\', '|', '?', '*']
  control : ∀ character ∈ name, ' ' ≤ character
  ending : Ends name
  device : (name.takeWhile (· ≠ '.')).map Char.toUpper ∉ deviceNames

theorem WindowsName.of_allowed {name : FileName} (nonempty : name ≠ [])
    (allowed : ∀ character ∈ name, isForbidden character = false) (ending : Ends name)
    (device : (name.takeWhile (· ≠ '.')).map Char.toUpper ∉ deviceNames) : WindowsName name := by
  refine ⟨nonempty, fun character member => ?_, fun character member => ?_, ending, device⟩
  · exact of_decide_eq_false (Bool.or_eq_false_iff.mp (allowed character member)).1
  · have high := of_decide_eq_false (Bool.or_eq_false_iff.mp (allowed character member)).2
    have : (' ').toNat ≤ character.toNat := Nat.lt_of_not_le high
    exact this

theorem WindowsName.allowed {name : FileName} (named : WindowsName name) :
    ∀ character ∈ name, isForbidden character = false := by
  intro character member
  have high : ¬ character.toNat ≤ 0x1f := Nat.not_le.mpr (named.control character member)
  exact Bool.or_eq_false_iff.mpr ⟨decide_eq_false (named.reserved character member), decide_eq_false high⟩

theorem WindowsName.wellNamed {name : FileName} (named : WindowsName name) : WellNamed name := by
  obtain ⟨last, atEnd⟩ := Option.isSome_iff_exists.mp (List.getLast?_isSome.mpr named.nonempty)
  refine ⟨⟨last, List.mem_of_getLast? atEnd, (named.ending last atEnd).1⟩, fun character member => ?_⟩
  exact clean_of_allowed (named.allowed character member)

theorem allowed_of_all {name : FileName} (all : name.all (fun character => !isForbidden character) = true) :
    ∀ character ∈ name, isForbidden character = false :=
  fun character member => (Bool.not_eq_true' _).mp (List.all_eq_true.mp all character member)

section Inserted

variable {before middle after : FileName}

/-- Characters put into a name do not change how it ends, or are its end. -/
theorem Ends.insert (whole : Ends (before ++ after)) (ends : Ends middle) (some_middle : middle ≠ []) :
    Ends (before ++ (middle ++ after)) := by
  intro last atEnd
  rw [List.getLast?_append_of_ne_nil _ (List.append_ne_nil_of_left_ne_nil some_middle _)] at atEnd
  cases after with
  | nil => exact ends last (by rwa [List.append_nil] at atEnd)
  | cons first rest =>
    rw [List.getLast?_append_of_ne_nil _ (List.cons_ne_nil _ _)] at atEnd
    exact whole last (by rwa [List.getLast?_append_of_ne_nil _ (List.cons_ne_nil _ _)])

theorem allowed_insert (whole : ∀ character ∈ before ++ after, isForbidden character = false)
    (allowed : ∀ character ∈ middle, isForbidden character = false) :
    ∀ character ∈ before ++ (middle ++ after), isForbidden character = false := by
  intro character member
  simp only [List.mem_append] at member whole
  rcases member with front | new | back
  · exact whole character (.inl front)
  · exact allowed character new
  · exact whole character (.inr back)

/-- No device has a mark such as this in its name. -/
theorem noDevice_of_mem {name : FileName} {mark : Char} (plain : mark.toUpper = mark)
    (foreign : ∀ device ∈ deviceNames, mark ∉ device) (member : mark ∈ name.takeWhile (· ≠ '.')) :
    (name.takeWhile (· ≠ '.')).map Char.toUpper ∉ deviceNames :=
  fun device => foreign _ device (List.mem_map.mpr ⟨mark, member, plain⟩)

end Inserted

theorem isWindowsDeviceName_of_mem {name : FileName} (device : (name.takeWhile (· ≠ '.')).map Char.toUpper ∈ deviceNames) :
    isWindowsDeviceName name = true := by
  have each : ∀ device ∈ deviceNames,
      (device ∈ [['C', 'O', 'N'], ['P', 'R', 'N'], ['A', 'U', 'X'], ['N', 'U', 'L']] ||
        (device.take 3 ∈ [['C', 'O', 'M'], ['L', 'P', 'T']] &&
          device.drop 3 ∈ [['1'], ['2'], ['3'], ['4'], ['5'], ['6'], ['7'], ['8'], ['9'], ['¹'], ['²'], ['³']])) = true := by
    decide
  exact each _ device

/-- What is left of a name without the dots and the spaces at its end, or the name for none. -/
theorem trimmed_plain {wide trimmed sane : FileName} (allowed : ∀ character ∈ wide, isForbidden character = false)
    (isTrimmed : trimmed = wide.rdropWhile fun character => character = '.' || character = ' ')
    (isSane : sane = if trimmed = [] ∨ trimmed = ['.'] ∨ trimmed = ['.', '.'] then unnamed else trimmed) :
    sane ≠ [] ∧ (∀ character ∈ sane, isForbidden character = false) ∧ Ends sane := by
  subst isSane
  split
  · refine ⟨List.cons_ne_nil _ _, allowed_of_all (by rfl), fun last atEnd => ?_⟩
    cases Option.some.inj atEnd
    decide
  · rename_i kept
    have some_left := fun empty => kept (.inl empty)
    refine ⟨some_left, fun character member => ?_, fun last atEnd => ?_⟩
    · exact allowed character ((List.rdropWhile_prefix _ _).subset (isTrimmed ▸ member))
    · subst isTrimmed
      have other := List.rdropWhile_last_not _ _ some_left
      rw [List.getLast?_eq_some_getLast some_left] at atEnd
      rw [Option.some.inj atEnd] at other
      simpa using other

theorem sanitizeFileName_plain (name : FileName) : ∃ sane,
    (sane ≠ [] ∧ (∀ character ∈ sane, isForbidden character = false) ∧ Ends sane) ∧
      sanitizeFileName name = if isWindowsDeviceName sane then
        sane.takeWhile (· ≠ '.') ++ '_' :: sane.dropWhile (· ≠ '.') else sane := by
  have replaced : ∀ character ∈ name.map fun character => if isForbidden character then '_' else character,
      isForbidden character = false := by
    intro character member
    obtain ⟨original, _, rfl⟩ := List.mem_map.mp member
    split
    · decide
    · rename_i allowed
      exact Bool.eq_false_iff.mpr allowed
  exact ⟨_, trimmed_plain replaced rfl rfl, rfl⟩

theorem sanitizeFileName_windowsName (name : FileName) : WindowsName (sanitizeFileName name) := by
  obtain ⟨sane, ⟨nonempty, allowed, ending⟩, same⟩ := sanitizeFileName_plain name
  rw [same]
  split
  · -- a device, marked before its extension
    have whole : sane.takeWhile (· ≠ '.') ++ sane.dropWhile (· ≠ '.') = sane := List.takeWhile_append_dropWhile
    have marked : '_' ∈ (sane.takeWhile (· ≠ '.') ++ (['_'] ++ sane.dropWhile (· ≠ '.'))).takeWhile (· ≠ '.') := by
      rw [List.takeWhile_append_of_pos fun _ => List.mem_takeWhile_imp]
      exact List.mem_append_right _ (by simp)
    have underscore : Ends ['_'] := by
      intro last atEnd
      cases Option.some.inj atEnd
      decide
    refine .of_allowed (List.append_ne_nil_of_right_ne_nil _ (List.cons_ne_nil _ _)) ?_ ?_
      (noDevice_of_mem rfl (by decide) marked)
    · exact @allowed_insert _ ['_'] _ (whole.symm ▸ allowed) (allowed_of_all (by rfl))
    · exact @Ends.insert _ ['_'] _ (whole.symm ▸ ending) underscore (List.cons_ne_nil _ _)
  · rename_i noDevice
    exact .of_allowed nonempty allowed ending fun device => noDevice (isWindowsDeviceName_of_mem device)

theorem splitExtension_append (name : FileName) : (splitExtension name).1 ++ (splitExtension name).2 = name := by
  unfold splitExtension
  dsimp only
  split
  · exact List.take_append_drop _ _
  · exact List.append_nil _

section Candidates

variable {upper : Uppercase} {stem extension first : FileName}

/-- The candidates for a name, in the order in which they are tried. -/
def attempt (stem extension first : FileName) : Nat → FileName
  | 0 => first
  | n + 1 => numbered stem extension (n + 2)

theorem freeName_eq (taken : FileName → Bool) (fuel : Nat) : ∀ start,
    ∃ n, freeName taken stem extension fuel (start + 2) (attempt stem extension first start) = attempt stem extension first n := by
  induction fuel with
  | zero => exact fun start => ⟨start, rfl⟩
  | succ fuel ih =>
    intro start
    unfold freeName
    split
    · exact ih (start + 1)
    · exact ⟨start, rfl⟩

/-- A free candidate within reach of the fuel ends the search. -/
theorem freeName_free {taken : FileName → Bool} (fuel : Nat) : ∀ start,
    (∃ n, start ≤ n ∧ n < start + fuel ∧ taken (attempt stem extension first n) = false) →
    taken (freeName taken stem extension fuel (start + 2) (attempt stem extension first start)) = false := by
  induction fuel with
  | zero =>
    rintro start ⟨n, low, high, _⟩
    omega
  | succ fuel ih =>
    rintro start ⟨n, low, high, free⟩
    unfold freeName
    split
    · rename_i isTaken
      refine ih (start + 1) ⟨n, ?_, by omega, free⟩
      rcases Nat.eq_or_lt_of_le low with rfl | later
      · rw [free] at isTaken
        exact absurd isTaken Bool.false_ne_true
      · exact later
    · rename_i isFree
      exact Bool.eq_false_iff.mpr isFree

theorem windowsNameKey_append (one other : FileName) :
    windowsNameKey upper (one ++ other) = windowsNameKey upper one ++ windowsNameKey upper other := List.flatMap_append

theorem windowsNameKey_digits {digits : FileName} (all : ∀ digit ∈ digits, digit.isDigit = true) :
    windowsNameKey upper digits = digits := by
  induction digits with
  | nil => rfl
  | cons digit rest ih =>
    unfold windowsNameKey at ih ⊢
    rw [List.flatMap_cons, upper.digit digit (all digit List.mem_cons_self),
      ih fun digit member => all digit (List.mem_cons_of_mem _ member)]
    rfl

theorem toDigits_injective {n m : Nat} (same : Nat.toDigits 10 n = Nat.toDigits 10 m) : n = m := by
  have read := congrArg (fun digits => Nat.ofDigitChars 10 digits 0) same
  simpa only [Nat.ofDigitChars_ten_toDigits] using read

theorem windowsNameKey_numbered (suffix : Nat) : windowsNameKey upper (numbered stem extension suffix) =
    windowsNameKey upper (stem ++ [' ', '(']) ++ (Nat.toDigits 10 suffix ++ windowsNameKey upper (')' :: extension)) := by
  have digits := @windowsNameKey_digits upper (Nat.toDigits 10 suffix) fun digit member =>
    Nat.isDigit_of_mem_toDigits (by decide) (by decide) member
  have shape : numbered stem extension suffix =
      (stem ++ [' ', '(']) ++ (Nat.toDigits 10 suffix ++ ')' :: extension) := by
    unfold numbered
    simp
  rw [shape, windowsNameKey_append, windowsNameKey_append (Nat.toDigits 10 suffix), digits]

/-- No two candidates are the same name to Windows. -/
theorem attempt_injective (whole : stem ++ extension = first) :
    Function.Injective fun n => windowsNameKey upper (attempt stem extension first n) := by
  have longer : ∀ n, (windowsNameKey upper first).length < (windowsNameKey upper (numbered stem extension n)).length := by
    intro n
    have digits := @Nat.length_toDigits_pos 10 n
    have tail : windowsNameKey upper (')' :: extension) = windowsNameKey upper [')'] ++ windowsNameKey upper extension :=
      windowsNameKey_append [')'] extension
    rw [windowsNameKey_numbered, ← whole, tail]
    simp only [windowsNameKey_append, List.length_append]
    omega
  intro n m same
  dsimp only at same
  cases n with
  | zero =>
    cases m with
    | zero => rfl
    | succ m => exact absurd (congrArg List.length same) (Nat.ne_of_lt (longer (m + 2)))
  | succ n =>
    cases m with
    | zero => exact absurd (congrArg List.length same) (Nat.ne_of_gt (longer (n + 2)))
    | succ m =>
      unfold attempt at same
      rw [windowsNameKey_numbered, windowsNameKey_numbered, List.append_cancel_left_eq, List.append_cancel_right_eq] at same
      have := toDigits_injective same
      omega

theorem allowed_of_isDigit {digit : Char} (isDigit : digit.isDigit = true) : isForbidden digit = false := by
  refine Bool.eq_false_iff.mpr fun forbidden => ?_
  rcases Bool.or_eq_true_iff.mp forbidden with listed | low
  · have none_listed : ['<', '>', ':', Char.ofNat 0x22, '/', '\\', '|', '?', '*'].all (fun character => !character.isDigit) =
        true := by rfl
    have noDigit := List.all_eq_true.mp none_listed digit (of_decide_eq_true listed)
    rw [isDigit] at noDigit
    exact Bool.noConfusion noDigit
  · have low := of_decide_eq_true low
    simp [Char.isDigit, UInt32.le_iff_toNat_le] at isDigit
    omega

/-- A name that is cut behind a dot is the same device as the whole. -/
theorem takeWhile_dotted (rest : FileName) (dotted : '.' ∈ stem) :
    (stem ++ rest).takeWhile (· ≠ '.') = stem.takeWhile (· ≠ '.') := by
  rw [List.takeWhile_append, if_neg]
  intro all
  have whole := (List.takeWhile_prefix (fun character : Char => decide (character ≠ '.'))).eq_of_length all
  have undotted := List.mem_takeWhile_imp (whole.symm ▸ dotted)
  exact absurd rfl (of_decide_eq_true undotted)

/-- A number before the extension makes no device of a name that is none. -/
theorem attempt_windowsName (whole : stem ++ extension = first) (named : WindowsName first) (n : Nat) :
    WindowsName (attempt stem extension first n) := by
  cases n with
  | zero => exact named
  | succ n =>
    have shape : attempt stem extension first (n + 1) =
        stem ++ (([' ', '('] ++ Nat.toDigits 10 (n + 2) ++ [')']) ++ extension) := by
      unfold attempt numbered
      simp
    rw [shape]
    have allowed : ∀ character ∈ [' ', '('] ++ Nat.toDigits 10 (n + 2) ++ [')'], isForbidden character = false := by
      intro character member
      simp only [List.mem_append, List.mem_cons, List.not_mem_nil, or_false] at member
      rcases member with ((rfl | rfl) | digit) | rfl
      · decide
      · decide
      · exact allowed_of_isDigit (Nat.isDigit_of_mem_toDigits (by decide) (by decide) digit)
      · decide
    have closed : Ends ([' ', '('] ++ Nat.toDigits 10 (n + 2) ++ [')']) := by
      intro last atEnd
      rw [List.getLast?_concat] at atEnd
      cases Option.some.inj atEnd
      decide
    have some_middle : [' ', '('] ++ Nat.toDigits 10 (n + 2) ++ [')'] ≠ [] :=
      List.append_ne_nil_of_right_ne_nil _ (List.cons_ne_nil _ _)
    subst whole
    refine .of_allowed (List.append_ne_nil_of_right_ne_nil _ (List.append_ne_nil_of_left_ne_nil some_middle _))
      (allowed_insert named.allowed allowed) (named.ending.insert closed some_middle) ?_
    by_cases dotted : '.' ∈ stem
    · have same := named.device
      rw [takeWhile_dotted _ dotted] at same ⊢
      exact same
    · refine @noDevice_of_mem _ '(' rfl (by decide) ?_
      have undotted : ∀ character ∈ stem, decide (character ≠ '.') = true := by
        intro character member
        exact decide_eq_true fun dot => dotted (dot ▸ member)
      rw [List.takeWhile_append_of_pos undotted]
      exact List.mem_append_right _ (by simp)

end Candidates

section UniqueNames

variable {upper : Uppercase} {parent : List FileName} {fileName : Option FileName}
  {usedNames : List (List FileName × FileName)}

theorem uniqueFileName_search (upper : Uppercase) (parent : List FileName) (fileName : Option FileName)
    (usedNames : List (List FileName × FileName)) : ∃ first, WindowsName first ∧
      uniqueFileName upper parent fileName usedNames =
        freeName (fun candidate => (parent, windowsNameKey upper candidate) ∈ usedNames) (splitExtension first).1
          (splitExtension first).2 (usedNames.length + 1) 2 first :=
  ⟨_, sanitizeFileName_windowsName (fileName.getD unnamed), rfl⟩

/-- A name that is given out is not in use among its neighbours. -/
theorem uniqueFileName_free :
    (parent, windowsNameKey upper (uniqueFileName upper parent fileName usedNames)) ∉ usedNames := by
  obtain ⟨first, _, same⟩ := uniqueFileName_search upper parent fileName usedNames
  have injective := @attempt_injective upper _ _ _ (splitExtension_append first)
  obtain ⟨n, bound, free⟩ := @List.exists_notMem_of_injective _ usedNames
    (fun n => (parent, windowsNameKey upper (attempt (splitExtension first).1 (splitExtension first).2 first n)))
    fun n m same => injective (Prod.mk.inj same).2
  have found := @freeName_free (splitExtension first).1 (splitExtension first).2 first
    (fun candidate => (parent, windowsNameKey upper candidate) ∈ usedNames) (usedNames.length + 1) 0
    ⟨n, Nat.zero_le _, by omega, decide_eq_false free⟩
  rw [same]
  exact of_decide_eq_false found

theorem uniqueFileName_windowsName : WindowsName (uniqueFileName upper parent fileName usedNames) := by
  obtain ⟨first, named, same⟩ := uniqueFileName_search upper parent fileName usedNames
  obtain ⟨n, found⟩ := @freeName_eq (splitExtension first).1 (splitExtension first).2 first
    (fun candidate => (parent, windowsNameKey upper candidate) ∈ usedNames) (usedNames.length + 1) 0
  have tried := attempt_windowsName (splitExtension_append first) named n
  rw [← found] at tried
  exact same ▸ tried

end UniqueNames

end HyprRdp
