import Mathlib.Data.List.Basic

namespace HyprRdp

def maxClipboardSize : Nat := 100 * 1024 * 1024

def textMime : String := "text/plain;charset=utf-8"

def utf8Mime : String := "UTF8_STRING"

def textPlainMime : String := "text/plain"

def latin1StringMime : String := "STRING"

def imagePngMime : String := "image/png"

def fileUriListMime : String := "text/uri-list"

def gnomeCopiedFilesMime : String := "x-special/gnome-copied-files"

namespace ClipboardFormatId

def cfDib : Nat := 8

def cfUnicodeText : Nat := 13

def cfDibV5 : Nat := 17

end ClipboardFormatId

/-- The name under which a client registers its list of file descriptors. -/
def fileListName : String := "FileGroupDescriptorW"

structure ClipboardFormat where
  id : Nat
  name : Option String
  deriving DecidableEq, Repr

/-- The answer to a request for a format, as an error or with its bytes. -/
structure FormatDataResponse where
  isError : Bool
  data : List UInt8
  deriving DecidableEq, Repr

def FormatDataResponse.error : FormatDataResponse := ⟨true, []⟩

inductive SelectionKind
  | text
  | image
  | files
  deriving DecidableEq, Repr

namespace SelectionKind

def all : List SelectionKind := [.text, .image, .files]

/-- The order in which one of several remote formats is chosen. -/
def remotePreference : List SelectionKind := [.text, .image, .files]

def acceptsWaylandMime (kind : SelectionKind) (mime : String) : Bool :=
  match kind with
  | .text => mime == textMime || mime == utf8Mime || mime == textPlainMime
  | .image => mime == imagePngMime
  | .files => mime == fileUriListMime || mime == gnomeCopiedFilesMime

/-- Text that is offered as a Latin-1 string alone is read as a fallback. -/
def offeredWaylandMime (kind : SelectionKind) (mimes : List String) : Option String :=
  (mimes.find? kind.acceptsWaylandMime).or
    (if kind = .text then mimes.find? fun mime => mime == latin1StringMime else none)

def remoteFormat (kind : SelectionKind) (formats : List ClipboardFormat) : Option Nat :=
  let hasFormat := fun id => formats.any fun format => format.id == id
  match kind with
  | .text => if hasFormat ClipboardFormatId.cfUnicodeText then some ClipboardFormatId.cfUnicodeText else none
  | .image =>
    if hasFormat ClipboardFormatId.cfDibV5 then some ClipboardFormatId.cfDibV5
    else if hasFormat ClipboardFormatId.cfDib then some ClipboardFormatId.cfDib
    else none
  | .files => none

def localFormat : SelectionKind → Option Nat
  | .text => some ClipboardFormatId.cfUnicodeText
  | .image => some ClipboardFormatId.cfDib
  | .files => none

def ofLocalFormat (format : Nat) : Option SelectionKind :=
  if format = ClipboardFormatId.cfUnicodeText then some .text
  else if format = ClipboardFormatId.cfDib then some .image
  else none

end SelectionKind

/-- The bitmap conversions that the protocol library offers; each of them may refuse its bytes. -/
structure BitmapApi where
  dibV5ToPng : List UInt8 → Option (List UInt8)
  dibToPng : List UInt8 → Option (List UInt8)
  pngToCfDib : List UInt8 → Option (List UInt8)

section Text

/-- The line endings of the Wayland side. -/
def normalizeLf : List UInt8 → List UInt8
  | [] => []
  | 13 :: 10 :: rest => 10 :: normalizeLf rest
  | byte :: rest => (if byte = 13 then 10 else byte) :: normalizeLf rest

theorem normalizeLf_nil : normalizeLf [] = [] := by rw [normalizeLf]

/-- The line endings of the RDP side. -/
def toCrlf : List UInt8 → List UInt8
  | [] => []
  | 13 :: 10 :: rest => 13 :: 10 :: toCrlf rest
  | byte :: rest => (if byte = 13 ∨ byte = 10 then [13, 10] else [byte]) ++ toCrlf rest

theorem toCrlf_nil : toCrlf [] = [] := by rw [toCrlf]

/-- U+FFFD, which stands for what cannot be decoded. -/
def replacement : List UInt8 := [0xEF, 0xBF, 0xBD]

/-- How many bytes the sequence has that starts with this one; none does when it is 0. -/
def utf8Width (byte : UInt8) : Nat :=
  if byte < 0x80 then 1
  else if byte < 0xC2 then 0
  else if byte < 0xE0 then 2
  else if byte < 0xF0 then 3
  else if byte < 0xF5 then 4
  else 0

/-- A byte that may follow the bytes of a sequence read so far. -/
def utf8Continues (sequence : List UInt8) (byte : UInt8) : Bool :=
  let first := sequence.headD 0
  let low : UInt8 := if sequence.length = 1 ∧ first = 0xE0 then 0xA0 else if sequence.length = 1 ∧ first = 0xF0 then 0x90 else 0x80
  let high : UInt8 := if sequence.length = 1 ∧ first = 0xED then 0x9F else if sequence.length = 1 ∧ first = 0xF4 then 0x8F else 0xBF
  low ≤ byte && byte ≤ high

/-- `sequence` are the bytes of a sequence that is not complete yet. One that
breaks off is replaced as a whole, and the byte that broke it is read anew. -/
def utf8LossyFrom : List UInt8 → List UInt8 → List UInt8
  | sequence, [] => if sequence.isEmpty then [] else replacement
  | sequence, byte :: rest =>
    if sequence.isEmpty = false ∧ utf8Continues sequence byte = true then
      if sequence.length + 1 = utf8Width (sequence.headD 0) then sequence ++ byte :: utf8LossyFrom [] rest
      else utf8LossyFrom (sequence ++ [byte]) rest
    else
      (if sequence.isEmpty then [] else replacement) ++
        if utf8Width byte = 0 then replacement ++ utf8LossyFrom [] rest
        else if utf8Width byte = 1 then byte :: utf8LossyFrom [] rest
        else utf8LossyFrom [byte] rest

def utf8Lossy (bytes : List UInt8) : List UInt8 := utf8LossyFrom [] bytes

def utf16Units : List UInt8 → List Nat
  | low :: high :: rest => (low.toNat + 256 * high.toNat) :: utf16Units rest
  | _ => []

/-- Surrogates without their other half are replaced. -/
def utf16Lossy : List Nat → List UInt8
  | [] => []
  | [unit] => if 0xD800 ≤ unit ∧ unit ≤ 0xDFFF then replacement else String.utf8EncodeChar (Char.ofNat unit)
  | unit :: low :: rest =>
    if 0xD800 ≤ unit ∧ unit ≤ 0xDBFF then
      if 0xDC00 ≤ low ∧ low ≤ 0xDFFF then
        String.utf8EncodeChar (Char.ofNat (0x10000 + (unit - 0xD800) * 0x400 + (low - 0xDC00))) ++ utf16Lossy rest
      else replacement ++ utf16Lossy (low :: rest)
    else if 0xDC00 ≤ unit ∧ unit ≤ 0xDFFF then replacement ++ utf16Lossy (low :: rest)
    else String.utf8EncodeChar (Char.ofNat unit) ++ utf16Lossy (low :: rest)

/-- The text up to its terminator. -/
def utf16leToUtf8 (data : List UInt8) : List UInt8 := utf16Lossy ((utf16Units data).takeWhile (· ≠ 0))

end Text

/-- A bitmap with colour masks, rewritten to one without. -/
def fixBitfieldsDib (data : List UInt8) : Option (List UInt8) :=
  if data.length < 52 ∨ data.take 4 ≠ [40, 0, 0, 0] ∨ (data.drop 14).take 2 ≠ [32, 0] ∨ (data.drop 16).take 4 ≠ [3, 0, 0, 0]
  then none
  else some (data.take 16 ++ [0, 0, 0, 0] ++ (data.drop 20).take 20 ++ data.drop 52)

/-- The text of an offer in UTF-8, unless it is too large. -/
def decodeWaylandTextOffer (mime : String) (bytes : List UInt8) (limit : Nat) : Option (List UInt8) :=
  if limit < bytes.length then none
  else if mime = textMime ∨ mime = utf8Mime ∨ mime = textPlainMime then some bytes
  else if mime = latin1StringMime then
    if limit < bytes.length + (bytes.filter fun byte => 0x80 ≤ byte).length then none
    else some (bytes.flatMap fun byte => String.utf8EncodeChar (Char.ofNat byte.toNat))
  else none

example : normalizeLf [13, 10, 97, 13, 98, 10, 13] = [10, 97, 10, 98, 10, 10] := by decide

end HyprRdp
