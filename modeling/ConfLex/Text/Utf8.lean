/-!
# UTF-8 bytes

Source text is scanned as UTF-8 bytes, so spans, columns and positions are byte offsets and a
position may fall inside a multi-byte character. This module turns strings into bytes and bytes
back into characters.

Decoding is strict: a character is accepted only in its shortest form, never as a surrogate and
never above `U+10FFFF`. A continuation byte (`10xxxxxx`) starts no character, so an
offset into valid text is a character boundary exactly when the byte there is not one.
-/

namespace ConfLex.Utf8

/-- A continuation byte, `10xxxxxx`: the second, third or fourth byte of a character. -/
def isContinuation (b : UInt8) : Bool := b &&& 0xC0 == 0x80

/-- The six payload bits of a continuation byte. -/
def payload (b : UInt8) : Nat := b.toNat % 64

/-- The bytes of a string. -/
def encode (s : String) : List UInt8 := s.toList.flatMap String.utf8EncodeChar

/-- The character that starts `bytes` and its width in bytes, if the bytes start with a
well-formed character. -/
def first? : List UInt8 → Option (Char × Nat)
  | [] => none
  | b0 :: rest =>
    let n0 := b0.toNat
    if n0 < 0x80 then some (Char.ofNat n0, 1)
    else if n0 < 0xC2 then none
    else if n0 < 0xE0 then
      match rest with
      | b1 :: _ =>
        if isContinuation b1 then some (Char.ofNat ((n0 % 32) * 64 + payload b1), 2) else none
      | [] => none
    else if n0 < 0xF0 then
      match rest with
      | b1 :: b2 :: _ =>
        let v := (n0 % 16) * 4096 + payload b1 * 64 + payload b2
        if isContinuation b1 && isContinuation b2 && 0x800 ≤ v && !(0xD800 ≤ v && v < 0xE000) then
          some (Char.ofNat v, 3)
        else none
      | _ => none
    else if n0 < 0xF5 then
      match rest with
      | b1 :: b2 :: b3 :: _ =>
        let v := (n0 % 8) * 262144 + payload b1 * 4096 + payload b2 * 64 + payload b3
        if isContinuation b1 && isContinuation b2 && isContinuation b3 &&
            0x10000 ≤ v && v < 0x110000 then
          some (Char.ofNat v, 4)
        else none
      | _ => none
    else none

/-- The characters of `bytes`; a byte that starts no well-formed character reads as
`U+FFFD`. On the bytes of a string this gives back its characters. -/
def chars : List UInt8 → List Char
  | [] => []
  | b :: rest =>
    match first? (b :: rest) with
    | some (c, width) => c :: chars (rest.drop (width - 1))
    | none => '\uFFFD' :: chars rest
termination_by bytes => bytes.length
decreasing_by
  all_goals simp only [List.length_drop, List.length_cons]
  all_goals omega

/-- The text that `bytes` spell. -/
def decode (bytes : List UInt8) : String := String.ofList (chars bytes)

/-- The characters that `bytes` spell, if all of them are well-formed UTF-8. -/
def strictChars : List UInt8 → Option (List Char)
  | [] => some []
  | b :: rest =>
    match first? (b :: rest) with
    | some (c, width) => (strictChars (rest.drop (width - 1))).map (c :: ·)
    | none => none
termination_by bytes => bytes.length
decreasing_by
  simp only [List.length_drop, List.length_cons]
  omega

/-- The text that `bytes` spell, if they are well-formed UTF-8. -/
def decode? (bytes : List UInt8) : Option String := (strictChars bytes).map String.ofList

/-- Whether a character can start at the front of `bytes`: the list is empty or its first byte
is not a continuation byte. -/
def startsChar : List UInt8 → Bool
  | [] => true
  | b :: _ => !isContinuation b

/-- The character at the front of `bytes`, if one starts there: none when the bytes are empty
or start inside a character. -/
def leadingChar? (bytes : List UInt8) : Option Char :=
  if startsChar bytes then (first? bytes).map Prod.fst else none

/-- Whether `offset` is a character boundary of `bytes`: the start, or a position within the
bytes at which a character starts. -/
def isBoundary (bytes : List UInt8) (offset : Nat) : Bool :=
  offset == 0 || (offset ≤ bytes.length && startsChar (bytes.drop offset))

/-- The bytes from `start` to `stop`, if that range is ordered, within the bytes, and on
character boundaries at both ends. -/
def slice? (bytes : List UInt8) (start stop : Nat) : Option (List UInt8) :=
  if start ≤ stop && stop ≤ bytes.length && isBoundary bytes start && isBoundary bytes stop then
    some ((bytes.drop start).take (stop - start))
  else none

@[simp] theorem startsChar_nil : startsChar [] = true := rfl

@[simp] theorem chars_nil : chars [] = [] := by simp [chars]

end ConfLex.Utf8
