import HyprRdp.Lib.Fields
import HyprRdp.Lib.LuaTokens
import Mathlib.Algebra.Ring.Nat

namespace HyprRdp

open Lua (Token Lexes Decimal readDecimal readDigits quoting)

/-- The control characters of Unicode. -/
def isControl (ch : Char) : Bool := ch.toNat < 0x20 ∨ (0x7F ≤ ch.toNat ∧ ch.toNat < 0xA0)

def luaCharacter (ch : Char) : Except String (List Char) :=
  if ch = '\\' then .ok ['\\', '\\']
  else if ch = '"' then .ok ['\\', '"']
  else if ch = '\n' then .ok ['\\', 'n']
  else if ch = '\r' then .ok ['\\', 'r']
  else if ch = '\t' then .ok ['\\', 't']
  else if isControl ch then .error "cannot encode control character in Lua string"
  else .ok [ch]

def luaCharacters : List Char → Except String (List Char)
  | [] => .ok []
  | ch :: value => do
    let escaped ← luaCharacter ch
    let rest ← luaCharacters value
    .ok (escaped ++ rest)

def luaString (value : List Char) : Except String (List Char) := do
  let escaped ← luaCharacters value
  .ok ('"' :: escaped ++ ['"'])

/-- The first number that is rounded to infinity. -/
def f64Limit : Nat := 2 ^ 1024 - 2 ^ 970

def finiteDecimal (d : Decimal) : Bool :=
  let digits := readDigits (d.whole ++ d.frac)
  let power := d.power - d.frac.length
  if 0 ≤ power then digits * 10 ^ power.toNat < f64Limit else digits < f64Limit * 10 ^ (-power).toNat

/-- The sign of a number and what stands behind it. -/
def splitSign : List Char → Option Char × List Char
  | '+' :: text => (some '+', text)
  | '-' :: text => (some '-', text)
  | text => (none, text)

/-- Whether the text is parsed as a finite `f64`. -/
def parsesFinite (text : List Char) : Bool := (readDecimal (splitSign text).2).any finiteDecimal

def monitorScaleToLua (scale : List Char) : Except String (List Char) :=
  if scale = [] then .error "cannot translate monitor rule to Lua with empty scale"
  else if parsesFinite scale then .ok scale
  else luaString scale

def monitorRuleToLua (rule : List Char) : Except String (List Char) :=
  match (Fields.splitn [','] 4 rule).map Fields.trim with
  | [output, mode, position, scale] => do
    let output ← luaString output
    let mode ← luaString mode
    let position ← luaString position
    let scale ← monitorScaleToLua scale
    .ok ("hl.monitor(\x7b output = ".toList ++ output ++ ", mode = ".toList ++ mode ++ ", position = ".toList ++ position ++
      ", scale = ".toList ++ scale ++ " \x7d)".toList)
  | _ => .error ("cannot translate monitor rule to Lua (expected 4 fields): " ++ String.ofList rule)

/-- The scale as Lua reads it. -/
def scaleTokens (scale : List Char) : List Token :=
  if parsesFinite scale then (splitSign scale).1.toList.map .sign ++ [Token.numeral (splitSign scale).2] else [.text scale]

/-- The call with one table whose fields are the texts of the rule. -/
def ruleTokens (output mode position scale : List Char) : List Token :=
  [Token.name "hl".toList, .sign '.', .name "monitor".toList, .sign '(', .sign '{',
    .name "output".toList, .sign '=', .text output, .sign ',', .name "mode".toList, .sign '=', .text mode, .sign ',',
    .name "position".toList, .sign '=', .text position, .sign ',', .name "scale".toList, .sign '='] ++
    scaleTokens scale ++ [Token.sign '}', .sign ')']

theorem bind_ok {α β ε : Type} {x : Except ε α} {f : α → Except ε β} {b : β} (made : (x >>= f) = .ok b) :
    ∃ a, x = .ok a ∧ f a = .ok b := by
  cases x with
  | error e => cases made
  | ok a => exact ⟨a, rfl, made⟩

theorem luaCharacter_escaped {ch : Char} {escaped : List Char} (made : luaCharacter ch = .ok escaped) :
    escaped = quoting.character ch := by
  unfold luaCharacter at made
  split at made
  next same => cases made; rw [same]; rfl
  next slash =>
    split at made
    next same => cases made; rw [same]; rfl
    next quote =>
      split at made
      next same => cases made; rw [same]; rfl
      next line =>
        split at made
        next same => cases made; rw [same]; rfl
        next carriage =>
          split at made
          next same => cases made; rw [same]; rfl
          next tab =>
            split at made
            · cases made
            · cases made
              have none : quoting.letter ch = none := by
                simp [quoting, Lua.letterOf, slash, quote, line, carriage, tab]
              rw [Quoting.character, none]

theorem luaCharacters_escaped {value escaped : List Char} (made : luaCharacters value = .ok escaped) :
    escaped = value.flatMap quoting.character := by
  induction value generalizing escaped with
  | nil =>
    cases made
    rfl
  | cons ch value ih =>
    obtain ⟨first, one, made⟩ := bind_ok made
    obtain ⟨rest, more, made⟩ := bind_ok made
    cases made
    rw [luaCharacter_escaped one, ih more, List.flatMap_cons]

theorem luaString_quoted {value text : List Char} (made : luaString value = .ok text) :
    text = '"' :: quoting.body value := by
  obtain ⟨escaped, one, made⟩ := bind_ok made
  cases made
  rw [luaCharacters_escaped one]
  rfl

section Tokens

variable {rest scale lua : List Char} {ts : List Token}

theorem luaString_lexes {value text : List Char} (made : luaString value = .ok text) (later : Lexes rest ts) :
    Lexes (text ++ rest) (.text value :: ts) := by
  rw [luaString_quoted made, List.cons_append]
  exact .text value later

theorem splitSign_append (text : List Char) : (splitSign text).1.toList ++ (splitSign text).2 = text := by
  unfold splitSign
  split <;> rfl

theorem splitSign_sign (text : List Char) :
    (splitSign text).1 = none ∨ (splitSign text).1 = some '+' ∨ (splitSign text).1 = some '-' := by
  unfold splitSign
  split
  · exact Or.inr (Or.inl rfl)
  · exact Or.inr (Or.inr rfl)
  · exact Or.inl rfl

/-- A scale that is written as a number is one numeral, behind its sign. -/
theorem lexes_scale (finite : parsesFinite scale = true) (stops : Lua.Stops rest) (later : Lexes rest ts) :
    Lexes (scale ++ rest) (scaleTokens scale ++ ts) := by
  have reads : (readDecimal (splitSign scale).2).isSome := by
    unfold parsesFinite at finite
    cases value : readDecimal (splitSign scale).2 with
    | none =>
      rw [value] at finite
      cases finite
    | some d => rfl
  have number := Lexes.numeral reads stops later
  have parts := splitSign_append scale
  rw [scaleTokens, if_pos finite, ← parts, List.append_assoc]
  rw [parts]
  rcases splitSign_sign scale with plain | plus | minus
  · rw [plain]
    exact number
  · rw [plus]
    exact .cons rfl number
  · rw [minus]
    exact .cons rfl number

theorem monitorScaleToLua_lexes {text : List Char} (made : monitorScaleToLua scale = .ok text) (stops : Lua.Stops rest)
    (later : Lexes rest ts) : Lexes (text ++ rest) (scaleTokens scale ++ ts) := by
  unfold monitorScaleToLua at made
  split at made
  · cases made
  · split at made
    next finite =>
      cases made
      exact lexes_scale finite stops later
    next other =>
      rw [scaleTokens, if_neg other]
      exact luaString_lexes made later

/-- Whatever the four fields are, Lua reads the rule as one call with these four texts: no field ends early, and none
becomes part of the program. -/
theorem monitor_rule_lexes {rule : List Char} (made : monitorRuleToLua rule = .ok lua) :
    ∃ output mode position scale, (Fields.splitn [','] 4 rule).map Fields.trim = [output, mode, position, scale] ∧
      ∀ ts, Lexes lua ts ↔ ts = ruleTokens output mode position scale := by
  unfold monitorRuleToLua at made
  split at made
  next output mode position scale fields =>
    refine ⟨output, mode, position, scale, fields, fun ts => ?_⟩
    obtain ⟨outputText, one, made⟩ := bind_ok made
    obtain ⟨modeText, two, made⟩ := bind_ok made
    obtain ⟨positionText, three, made⟩ := bind_ok made
    obtain ⟨scaleText, four, made⟩ := bind_ok made
    cases made
    have closed : Lexes " \x7d)".toList [.sign '}', .sign ')'] := .cons rfl (.cons rfl (.nil rfl))
    have stops : Lua.Stops " \x7d)".toList := fun c first => Option.some.inj first ▸ ⟨rfl, by decide⟩
    have scaled : Lexes (", scale = ".toList ++ (scaleText ++ " \x7d)".toList)) _ :=
      .cons rfl (.cons rfl (.cons rfl (monitorScaleToLua_lexes four stops closed).blank))
    have placed : Lexes (", position = ".toList ++ (positionText ++ _)) _ :=
      .cons rfl (.cons rfl (.cons rfl (luaString_lexes three scaled).blank))
    have moded : Lexes (", mode = ".toList ++ (modeText ++ _)) _ :=
      .cons rfl (.cons rfl (.cons rfl (luaString_lexes two placed).blank))
    have whole : Lexes ("hl.monitor(\x7b output = ".toList ++ (outputText ++ _)) _ :=
      .cons rfl (.cons rfl (.cons rfl (.cons rfl (.cons rfl (.cons rfl (.cons rfl (luaString_lexes one moded).blank))))))
    have reads : Lexes ("hl.monitor(\x7b output = ".toList ++ outputText ++ ", mode = ".toList ++ modeText ++
        ", position = ".toList ++ positionText ++ ", scale = ".toList ++ scaleText ++ " \x7d)".toList)
        (ruleTokens output mode position scale) := by
      simp only [List.append_assoc]
      exact whole
    exact ⟨fun other => other.unique reads, fun same => same ▸ reads⟩
  next => cases made

end Tokens

/-- An output whose name has a quote in it. -/
theorem monitor_rule_lexes_quote : ∃ lua, monitorRuleToLua "a\"b,1920x1080@60, -9999x0,auto".toList = .ok lua ∧
    ∀ ts, Lexes lua ts ↔ ts = ruleTokens "a\"b".toList "1920x1080@60".toList "-9999x0".toList "auto".toList := by
  obtain ⟨lua, made⟩ : ∃ lua, monitorRuleToLua "a\"b,1920x1080@60, -9999x0,auto".toList = .ok lua := ⟨_, rfl⟩
  obtain ⟨output, mode, position, scale, fields, lexes⟩ := monitor_rule_lexes made
  have same : (Fields.splitn [','] 4 "a\"b,1920x1080@60, -9999x0,auto".toList).map Fields.trim =
      ["a\"b".toList, "1920x1080@60".toList, "-9999x0".toList, "auto".toList] := rfl
  cases same.symm.trans fields
  exact ⟨lua, made, lexes⟩

end HyprRdp
