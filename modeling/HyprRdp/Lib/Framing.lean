import Mathlib.Data.List.Basic

/-! Frames that end with a separator, read from a stream that comes in pieces of any length. -/

namespace Framing

variable {β ε : Type*} [DecidableEq β] (sep : β)

/-- The frames that are closed, and the one that is still open. -/
def cut : List β → List (List β) × List β
  | [] => ([], [])
  | b :: rest =>
    if b = sep then ([] :: (cut rest).1, (cut rest).2)
    else
      match cut rest with
      | ([], last) => ([], b :: last)
      | (frame :: frames, last) => ((b :: frame) :: frames, last)

/-- The first frame and what follows its separator. -/
def takeFrame (buf : List β) : Option (List β × List β) :=
  (buf.findIdx? fun b => b = sep).map fun i => (buf.take i, buf.drop (i + 1))

variable {sep}

theorem cut_open {frame : List β} (free : sep ∉ frame) : cut sep frame = ([], frame) := by
  induction frame with
  | nil => rfl
  | cons b rest ih =>
    have first : b ≠ sep := (List.ne_of_not_mem_cons free).symm
    rw [cut, if_neg first, ih (List.not_mem_of_not_mem_cons free)]

theorem cut_frame {frame : List β} (free : sep ∉ frame) (rest : List β) :
    cut sep (frame ++ sep :: rest) = (frame :: (cut sep rest).1, (cut sep rest).2) := by
  induction frame with
  | nil => rw [List.nil_append, cut, if_pos rfl]
  | cons b frame ih =>
    have first : b ≠ sep := (List.ne_of_not_mem_cons free).symm
    rw [List.cons_append, cut, if_neg first, ih (List.not_mem_of_not_mem_cons free)]

/-- What comes later is cut as if it followed the open frame. -/
theorem cut_append (buf more : List β) :
    cut sep (buf ++ more) = ((cut sep buf).1 ++ (cut sep ((cut sep buf).2 ++ more)).1, (cut sep ((cut sep buf).2 ++ more)).2) := by
  induction buf with
  | nil => simp [cut]
  | cons b rest ih =>
    by_cases same : b = sep
    · rw [List.cons_append, cut, cut, if_pos same, if_pos same, ih]
      rfl
    · rw [List.cons_append, cut, cut, if_neg same, if_neg same, ih]
      cases closed : cut sep rest with
      | mk frames last =>
        cases frames with
        | cons frame frames => rfl
        | nil =>
          simp only [List.nil_append, List.cons_append]
          rw [cut, if_neg same]

theorem takeFrame_some {buf frame rest : List β} (taken : takeFrame sep buf = some (frame, rest)) :
    buf = frame ++ sep :: rest ∧ sep ∉ frame := by
  obtain ⟨i, found, parts⟩ := Option.map_eq_some_iff.mp taken
  obtain ⟨bound, here, before⟩ := List.findIdx?_eq_some_iff_getElem.mp found
  cases parts
  have at' : buf[i] = sep := of_decide_eq_true here
  refine ⟨?_, fun listed => ?_⟩
  · rw [← at', List.getElem_cons_drop, List.take_append_drop]
  · obtain ⟨j, there, same⟩ := List.mem_iff_getElem.mp listed
    have early : j < i := by
      rw [List.length_take] at there
      omega
    rw [List.getElem_take] at same
    exact before j early (decide_eq_true same)

theorem takeFrame_none {buf : List β} (missing : takeFrame sep buf = none) : sep ∉ buf := by
  have found := List.findIdx?_eq_none_iff.mp (Option.map_eq_none_iff.mp missing)
  exact fun listed => Bool.false_ne_true ((found sep listed).symm.trans (decide_eq_true rfl))

theorem takeFrame_shorter {buf frame rest : List β} (taken : takeFrame sep buf = some (frame, rest)) :
    rest.length < buf.length := by
  rw [(takeFrame_some taken).1, List.length_append, List.length_cons]
  omega

variable (sep) (parse : List β → Option ε)

/-- Drops frames until one says something. -/
def takeParsed (buf : List β) : Option ε × List β :=
  match _taken : takeFrame sep buf with
  | none => (none, buf)
  | some (frame, rest) =>
    match parse frame with
    | some e => (some e, rest)
    | none => takeParsed rest
termination_by buf.length
decreasing_by exact takeFrame_shorter _taken

/-- What the closed frames say. -/
def parsed (buf : List β) : List ε := (cut sep buf).1.filterMap parse

variable {sep} {parse}

theorem parsed_frame {frame : List β} (free : sep ∉ frame) (rest : List β) :
    parsed sep parse (frame ++ sep :: rest) = (parse frame).toList ++ parsed sep parse rest := by
  rw [parsed, cut_frame free, List.filterMap_cons]
  cases parse frame with
  | none => rfl
  | some e => rfl

theorem parsed_append (buf more : List β) :
    parsed sep parse (buf ++ more) = parsed sep parse buf ++ parsed sep parse ((cut sep buf).2 ++ more) := by
  rw [parsed, cut_append, List.filterMap_append]
  rfl

theorem takeFrame_frame {frame : List β} (free : sep ∉ frame) (rest : List β) :
    takeFrame sep (frame ++ sep :: rest) = some (frame, rest) := by
  have found : (frame ++ sep :: rest).findIdx? (fun b => b = sep) = some frame.length := by
    refine List.findIdx?_eq_some_iff_getElem.mpr ⟨by simp, by simp, fun j before => ?_⟩
    rw [List.getElem_append_left before]
    exact fun same => free (of_decide_eq_true same ▸ List.getElem_mem before)
  rw [takeFrame, found, Option.map_some, List.take_left, List.drop_length_add_append]
  rfl

theorem takeFrame_open {buf : List β} (free : sep ∉ buf) : takeFrame sep buf = none := by
  refine Option.map_eq_none_iff.mpr (List.findIdx?_eq_none_iff.mpr fun b listed => ?_)
  exact decide_eq_false fun same => free (same ▸ listed)

theorem takeParsed_open {buf : List β} (free : sep ∉ buf) : takeParsed sep parse buf = (none, buf) := by
  rw [takeParsed]
  split
  · rfl
  next taken => exact absurd ((takeFrame_open free).symm.trans taken) (Option.some_ne_none _).symm

theorem takeParsed_frame {frame : List β} (free : sep ∉ frame) (rest : List β) :
    takeParsed sep parse (frame ++ sep :: rest) =
      match parse frame with
      | some e => (some e, rest)
      | none => takeParsed sep parse rest := by
  have first := takeFrame_frame free rest
  rw [takeParsed]
  split
  next missing => exact absurd (missing.symm.trans first) (Option.some_ne_none _).symm
  next taken =>
    cases taken.symm.trans first
    rfl

/-- Nothing that was said is lost, and what is taken comes first. -/
theorem takeParsed_parsed (buf : List β) :
    parsed sep parse buf = (takeParsed sep parse buf).1.toList ++ parsed sep parse (takeParsed sep parse buf).2 ∧
      (cut sep buf).2 = (cut sep (takeParsed sep parse buf).2).2 := by
  induction buf using takeParsed.induct sep parse with
  | case1 buf missing =>
    rw [takeParsed_open (takeFrame_none missing)]
    exact ⟨rfl, rfl⟩
  | case2 buf frame rest taken e reads =>
    obtain ⟨same, free⟩ := takeFrame_some taken
    rw [same, takeParsed_frame free, parsed_frame free, reads, cut_frame free]
    exact ⟨rfl, rfl⟩
  | case3 buf frame rest taken silent ih =>
    obtain ⟨same, free⟩ := takeFrame_some taken
    rw [same, takeParsed_frame free, parsed_frame free, silent, cut_frame free]
    exact ih

end Framing
