/-!
# Texts and bytes

How bytes become a text, and how many bytes a text takes. Each well-formed sequence
of UTF-8 gives its character. Where a sequence breaks off, the longest part of it that
could have become one gives a single replacement character, and so does a byte that
can start none.
-/

set_option autoImplicit false

namespace PipelineWaves.Text

def replacement : Char := '\uFFFD'

def isBetween (low high : Nat) (byte : UInt8) : Bool :=
  low ≤ byte.toNat && byte.toNat ≤ high

/-- For a first byte, the ranges of the bytes that must follow it. -/
def followers (first : UInt8) : Option (List (Nat × Nat)) :=
  let tail := (0x80, 0xBF)
  if isBetween 0x00 0x7F first then some []
  else if isBetween 0xC2 0xDF first then some [tail]
  else if first = 0xE0 then some [(0xA0, 0xBF), tail]
  else if first = 0xED then some [(0x80, 0x9F), tail]
  else if isBetween 0xE1 0xEF first then some [tail, tail]
  else if first = 0xF0 then some [(0x90, 0xBF), tail, tail]
  else if isBetween 0xF1 0xF3 first then some [tail, tail, tail]
  else if first = 0xF4 then some [(0x80, 0x8F), tail, tail]
  else none

def firstPayload (followerCount : Nat) (first : UInt8) : Nat :=
  match followerCount with
  | 0 => first.toNat
  | 1 => first.toNat % 0x20
  | 2 => first.toNat % 0x10
  | _ => first.toNat % 0x08

def fitting : List (Nat × Nat) → List UInt8 → List UInt8
  | range :: ranges, byte :: bytes =>
      if isBetween range.1 range.2 byte then byte :: fitting ranges bytes else []
  | _, _ => []

/-- The character at the front and the number of bytes it takes after the first one. -/
def decodeFront (first : UInt8) (rest : List UInt8) : Char × Nat :=
  match followers first with
  | none => (replacement, 0)
  | some ranges =>
      let found := fitting ranges rest
      if found.length = ranges.length then
        let point := found.foldl (fun point byte => point * 0x40 + byte.toNat % 0x40)
          (firstPayload ranges.length first)
        (Char.ofNat point, found.length)
      else (replacement, found.length)

/-- Decodes bytes; `skip` of them belong to a character that is decoded already. -/
def decodeFrom (skip : Nat) : List UInt8 → List Char
  | [] => []
  | first :: rest =>
      match skip with
      | skip + 1 => decodeFrom skip rest
      | 0 =>
          let (character, used) := decodeFront first rest
          character :: decodeFrom used rest

def byteLength : List Char → Nat
  | [] => 0
  | first :: rest => first.utf8Size + byteLength rest

theorem byte_length_append (left right : List Char) :
    byteLength (left ++ right) = byteLength left + byteLength right := by
  induction left with
  | nil => simp [byteLength]
  | cons first left induction => simp [byteLength, induction, Nat.add_assoc]

theorem byte_size_of_list (characters : List Char) :
    (String.ofList characters).utf8ByteSize = byteLength characters := by
  induction characters with
  | nil => rfl
  | cons first characters induction => simp [byteLength, ← induction, String.ofList_cons]

def ofBytes (bytes : ByteArray) : String :=
  match String.fromUTF8? bytes with
  | some text => text
  | none => String.ofList (decodeFrom 0 bytes.toList)

end PipelineWaves.Text
