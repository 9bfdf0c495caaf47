import HyprRdp.Clipboard.Formats
import HyprRdp.Lib.Fields
import HyprRdp.Lib.Framing
import HyprRdp.Lib.Utf

namespace HyprRdp

section Lossy

theorem utf8LossyFrom_byte (byte : UInt8) (rest : List UInt8) : utf8LossyFrom [] (byte :: rest) =
    if utf8Width byte = 0 then replacement ++ utf8LossyFrom [] rest
    else if utf8Width byte = 1 then byte :: utf8LossyFrom [] rest
    else utf8LossyFrom [byte] rest := by
  rw [utf8LossyFrom, if_neg (by simp)]
  rfl

theorem utf8LossyFrom_lead {byte : UInt8} (long : 1 < utf8Width byte) (rest : List UInt8) :
    utf8LossyFrom [] (byte :: rest) = utf8LossyFrom [byte] rest := by
  rw [utf8LossyFrom_byte, if_neg (by omega), if_neg (by omega)]

theorem utf8LossyFrom_more {sequence : List UInt8} {byte : UInt8} (begun : sequence ≠ [])
    (follows : utf8Continues sequence byte = true) (short : sequence.length + 1 ≠ utf8Width (sequence.headD 0))
    (rest : List UInt8) : utf8LossyFrom sequence (byte :: rest) = utf8LossyFrom (sequence ++ [byte]) rest := by
  rw [utf8LossyFrom, if_pos ⟨by simpa using begun, follows⟩, if_neg short]

theorem utf8LossyFrom_last {sequence : List UInt8} {byte : UInt8} (begun : sequence ≠ [])
    (follows : utf8Continues sequence byte = true) (full : sequence.length + 1 = utf8Width (sequence.headD 0))
    (rest : List UInt8) : utf8LossyFrom sequence (byte :: rest) = sequence ++ byte :: utf8LossyFrom [] rest := by
  rw [utf8LossyFrom, if_pos ⟨by simpa using begun, follows⟩, if_pos full]

theorem utf8Width_lead {byte : UInt8} {width : Nat} (lead : (byte.toNat < 0x80 ∧ width = 1) ∨
    (0xC2 ≤ byte.toNat ∧ byte.toNat < 0xE0 ∧ width = 2) ∨ (0xE0 ≤ byte.toNat ∧ byte.toNat < 0xF0 ∧ width = 3) ∨
    (0xF0 ≤ byte.toNat ∧ byte.toNat < 0xF5 ∧ width = 4)) : utf8Width byte = width := by
  simp only [utf8Width, UInt8.lt_iff_toNat_lt, UInt8.reduceToNat]
  repeat' split
  all_goals omega

theorem utf8Continues_lead {first byte : UInt8} (tail : 0x80 ≤ byte.toNat ∧ byte.toNat ≤ 0xBF)
    (wide : first.toNat = 0xE0 → 0xA0 ≤ byte.toNat) (scalar : first.toNat = 0xED → byte.toNat ≤ 0x9F)
    (long : first.toNat = 0xF0 → 0x90 ≤ byte.toNat) (last : first.toNat = 0xF4 → byte.toNat ≤ 0x8F) :
    utf8Continues [first] byte = true := by
  have whole : ∀ value : UInt8, first = value ↔ first.toNat = value.toNat := fun _ => UInt8.toNat_inj.symm
  simp only [utf8Continues, List.length_singleton, List.headD_cons, true_and, Bool.and_eq_true, decide_eq_true_eq,
    UInt8.le_iff_toNat_le, whole, apply_ite UInt8.toNat, UInt8.reduceToNat]
  repeat' split
  all_goals omega

theorem utf8Continues_tail {sequence : List UInt8} {byte : UInt8} (later : sequence.length ≠ 1)
    (tail : 0x80 ≤ byte.toNat ∧ byte.toNat ≤ 0xBF) : utf8Continues sequence byte = true := by
  simpa only [utf8Continues, later, false_and, if_false, Bool.and_eq_true, decide_eq_true_eq, UInt8.le_iff_toNat_le,
    UInt8.reduceToNat] using tail

/-- A character in UTF-8 is what the decoder takes for one. -/
theorem utf8Lossy_character (character : Char) (rest : List UInt8) :
    utf8LossyFrom [] (String.utf8EncodeChar character ++ rest) = String.utf8EncodeChar character ++ utf8LossyFrom [] rest := by
  have bound := Utf.char_bound character
  have toNat : ∀ {n : Nat}, n < 256 → (UInt8.ofNat n).toNat = n := Utf.toNat_byte
  by_cases one : character.toNat < 0x80
  · have width : utf8Width (UInt8.ofNat character.toNat) = 1 := utf8Width_lead (by rw [toNat (by omega)]; omega)
    rw [Utf.encode_one one, List.singleton_append, utf8LossyFrom_byte, width, if_neg (by omega), if_pos rfl]
    rfl
  · by_cases two : character.toNat < 0x800
    · rw [Utf.encode_two (by omega) two]
      have lead := toNat (n := character.toNat / 64 % 32 + 0xC0) (by omega)
      have tail := toNat (n := character.toNat % 64 + 0x80) (by omega)
      generalize UInt8.ofNat (character.toNat / 64 % 32 + 0xC0) = first at lead ⊢
      generalize UInt8.ofNat (character.toNat % 64 + 0x80) = second at tail ⊢
      have width : utf8Width first = 2 := utf8Width_lead (by omega)
      have follows : utf8Continues [first] second = true :=
        utf8Continues_lead (by omega) (by omega) (by omega) (by omega) (by omega)
      calc
        utf8LossyFrom [] (first :: second :: rest) = utf8LossyFrom [first] (second :: rest) :=
          utf8LossyFrom_lead (by omega) _
        _ = [first] ++ second :: utf8LossyFrom [] rest := utf8LossyFrom_last (List.cons_ne_nil _ _) follows width.symm _
    · by_cases three : character.toNat < 0x10000
      · rw [Utf.encode_three (by omega) three]
        have lead := toNat (n := character.toNat / 4096 % 16 + 0xE0) (by omega)
        have next := toNat (n := character.toNat / 64 % 64 + 0x80) (by omega)
        have tail := toNat (n := character.toNat % 64 + 0x80) (by omega)
        generalize UInt8.ofNat (character.toNat / 4096 % 16 + 0xE0) = first at lead ⊢
        generalize UInt8.ofNat (character.toNat / 64 % 64 + 0x80) = second at next ⊢
        generalize UInt8.ofNat (character.toNat % 64 + 0x80) = third at tail ⊢
        have width : utf8Width first = 3 := utf8Width_lead (by omega)
        have follows : utf8Continues [first] second = true :=
          utf8Continues_lead (by omega) (by omega) (by omega) (by omega) (by omega)
        have ends : utf8Continues [first, second] third = true := utf8Continues_tail (by simp) (by omega)
        calc
          utf8LossyFrom [] (first :: second :: third :: rest) = utf8LossyFrom [first] (second :: third :: rest) :=
            utf8LossyFrom_lead (by omega) _
          _ = utf8LossyFrom [first, second] (third :: rest) :=
            utf8LossyFrom_more (List.cons_ne_nil _ _) follows (by simp [width]) _
          _ = [first, second] ++ third :: utf8LossyFrom [] rest :=
            utf8LossyFrom_last (List.cons_ne_nil _ _) ends width.symm _
      · rw [Utf.encode_four (by omega)]
        have lead := toNat (n := character.toNat / 262144 % 8 + 0xF0) (by omega)
        have next := toNat (n := character.toNat / 4096 % 64 + 0x80) (by omega)
        have more := toNat (n := character.toNat / 64 % 64 + 0x80) (by omega)
        have tail := toNat (n := character.toNat % 64 + 0x80) (by omega)
        generalize UInt8.ofNat (character.toNat / 262144 % 8 + 0xF0) = first at lead ⊢
        generalize UInt8.ofNat (character.toNat / 4096 % 64 + 0x80) = second at next ⊢
        generalize UInt8.ofNat (character.toNat / 64 % 64 + 0x80) = third at more ⊢
        generalize UInt8.ofNat (character.toNat % 64 + 0x80) = fourth at tail ⊢
        have width : utf8Width first = 4 := utf8Width_lead (by omega)
        have follows : utf8Continues [first] second = true :=
          utf8Continues_lead (by omega) (by omega) (by omega) (by omega) (by omega)
        have goes : utf8Continues [first, second] third = true := utf8Continues_tail (by simp) (by omega)
        have ends : utf8Continues [first, second, third] fourth = true := utf8Continues_tail (by simp) (by omega)
        calc
          utf8LossyFrom [] (first :: second :: third :: fourth :: rest) =
              utf8LossyFrom [first] (second :: third :: fourth :: rest) := utf8LossyFrom_lead (by omega) _
          _ = utf8LossyFrom [first, second] (third :: fourth :: rest) :=
            utf8LossyFrom_more (List.cons_ne_nil _ _) follows (by simp [width]) _
          _ = utf8LossyFrom [first, second, third] (fourth :: rest) :=
            utf8LossyFrom_more (List.cons_ne_nil _ _) goes (by simp [width]) _
          _ = [first, second, third] ++ fourth :: utf8LossyFrom [] rest :=
            utf8LossyFrom_last (List.cons_ne_nil _ _) ends width.symm _

theorem utf8Lossy_encode (text : List Char) : utf8Lossy (Utf.encode text) = Utf.encode text := by
  induction text with
  | nil => rfl
  | cons character text ih =>
    rw [utf8Lossy] at ih
    rw [Utf.encode_cons, utf8Lossy, utf8Lossy_character, ih]

end Lossy

structure HyprlandEvent where
  event : List Char
  data : List Char
  deriving DecidableEq

/-- A line of the event socket. -/
def HyprlandEvent.parse (line : List UInt8) : Option HyprlandEvent :=
  (Fields.splitOnce ['>', '>'] (Fields.trim (Utf.chars (utf8Lossy line)))).map fun parts => ⟨parts.1, parts.2⟩

/-- What one pass of a loop over the socket meets: its time is over, or a read. -/
inductive SocketTurn
  | expired
  | data (bytes : List UInt8)
  | again
  | closed
  | failed

structure EventStream where
  buf : List UInt8

namespace EventStream

variable (s : EventStream)

def newline : UInt8 := 10

/-- One pass of the loop of `next_event`, with the result when it returns. -/
def nextEvent (turn : SocketTurn) : EventStream × Option (Except String (Option HyprlandEvent)) :=
  match Framing.takeParsed newline HyprlandEvent.parse s.buf with
  | (some event, rest) => (⟨rest⟩, some (.ok (some event)))
  | (none, rest) =>
    match turn with
    | .expired => (⟨rest⟩, some (.ok none))
    | .data bytes => (⟨rest ++ bytes⟩, none)
    | .again => (⟨rest⟩, none)
    | .closed => (⟨rest⟩, some (.error "Hyprland event socket closed"))
    | .failed => (⟨rest⟩, some (.error "failed to read Hyprland event"))

end EventStream

def SocketTurn.bytes : SocketTurn → List UInt8
  | .data bytes => bytes
  | _ => []

/-- An event that a line can carry: the name ends at the first arrow, and nothing is trimmed. -/
structure LineEvent extends HyprlandEvent where
  name : '>' ∉ event
  line : '\n' ∉ event ++ ['>', '>'] ++ data
  trimmed : Fields.Trimmed (event ++ ['>', '>'] ++ data)

/-- The line that announces an event. -/
def LineEvent.announce (e : LineEvent) : List UInt8 :=
  Utf.encode (e.event ++ ['>', '>'] ++ e.data) ++ [EventStream.newline]

theorem newline_free {text : List Char} (free : '\n' ∉ text) : EventStream.newline ∉ Utf.encode text := by
  intro listed
  obtain ⟨character, there, byte⟩ := List.mem_flatMap.mp listed
  by_cases ascii : character.toNat < 0x80
  · rw [Utf.encode_one ascii, List.mem_singleton] at byte
    have value : (10 : Nat) = character.toNat := by
      have same := congrArg UInt8.toNat byte
      rw [Utf.toNat_byte (by omega)] at same
      exact same
    have newline : character = '\n' := Char.ext (UInt32.toNat_inj.mp value.symm)
    exact free (newline ▸ there)
  · have high := Utf.high_bytes (by omega) byte
    exact absurd high (by decide)

theorem LineEvent.parse_line (e : LineEvent) :
    HyprlandEvent.parse (Utf.encode (e.event ++ ['>', '>'] ++ e.data)) = some e.toHyprlandEvent := by
  rw [HyprlandEvent.parse, utf8Lossy_encode, Utf.chars_encode, Fields.trim_trimmed e.trimmed,
    Fields.splitOnce_first e.name]
  rfl

theorem takeParsed_announce (e : LineEvent) (rest : List UInt8) :
    Framing.takeParsed EventStream.newline HyprlandEvent.parse (e.announce ++ rest) = (some e.toHyprlandEvent, rest) := by
  rw [LineEvent.announce, List.append_assoc, List.singleton_append, Framing.takeParsed_frame (newline_free e.line),
    e.parse_line]

/-- What the lines of some events say are these events. -/
theorem parsed_announce (events : List LineEvent) :
    Framing.parsed EventStream.newline HyprlandEvent.parse (events.flatMap LineEvent.announce) =
      events.map LineEvent.toHyprlandEvent := by
  induction events with
  | nil => rfl
  | cons e events ih =>
    rw [List.flatMap_cons, LineEvent.announce, List.append_assoc, List.singleton_append,
      Framing.parsed_frame (newline_free e.line), e.parse_line, ih]
    rfl

end HyprRdp
