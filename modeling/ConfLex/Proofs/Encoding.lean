import ConfLex.Text.Utf8

/-!
# Well-formed UTF-8

A source text reaches the lexer as the UTF-8 bytes of its characters. `Valid` says that a list of
bytes is such an encoding: the encodings of zero or more characters, one after another.

Two facts about one character's bytes carry everything here. The decoder `first?` reads a
character back from its bytes, whatever follows them; and in the bytes of one character only
the first is not a continuation byte, while an ASCII byte is a character on its own. So the
bytes after a prefix of a valid text are valid again when they start a character, in particular
when the prefix ends in an ASCII byte.
-/

namespace ConfLex.Utf8

/-- Bytes that spell a sequence of characters in UTF-8. -/
inductive Valid : List UInt8 → Prop where
  /-- No character. -/
  | nil : Valid []
  /-- A character's bytes, then more. -/
  | cons (c : Char) {rest : List UInt8} : Valid rest → Valid (String.utf8EncodeChar c ++ rest)

theorem valid_flatMap (cs : List Char) : Valid (cs.flatMap String.utf8EncodeChar) := by
  induction cs with
  | nil => exact .nil
  | cons c cs ih => exact .cons c ih

/-- The bytes of a string are valid. -/
theorem valid_encode (s : String) : Valid (encode s) := valid_flatMap s.toList

/-- Different strings have different bytes. -/
theorem encode_inj {s t : String} (h : encode s = encode t) : s = t := by
  rw [← String.toByteArray_inj, ← String.utf8Encode_toList, ← String.utf8Encode_toList]
  unfold List.utf8Encode
  unfold encode at h
  rw [h]

/-! ## The bytes of one character -/

theorem isContinuation_iff {b : UInt8} : isContinuation b ↔ 128 ≤ b.toNat ∧ b.toNat < 192 := by
  have key : ∀ n : Fin 256, (n.val &&& 192 = 128) ↔ (128 ≤ n.val ∧ n.val < 192) := by
    decide +kernel
  simpa [isContinuation, ← UInt8.toNat_inj, UInt8.toNat_and] using key ⟨b.toNat, b.toNat_lt⟩

theorem not_isContinuation_of_ascii {b : UInt8} (h : b.toNat < 128) : ¬ isContinuation b := by
  rw [isContinuation_iff]
  omega

theorem toNat_char_valid (c : Char) :
    c.toNat < 0xd800 ∨ (0xdfff < c.toNat ∧ c.toNat < 0x110000) := by
  have h := c.valid
  unfold UInt32.isValidChar Nat.isValidChar at h
  exact h

/-- The decoder reads a character back from its bytes, whatever follows them: the first byte
selects the width, and the payloads add up to the code point again. -/
theorem first?_encodeChar_append (c : Char) (rest : List UInt8) :
    first? (String.utf8EncodeChar c ++ rest) = some (c, c.utf8Size) := by
  have hv := toNat_char_valid c
  have hc := Char.ofNat_toNat c
  unfold String.utf8EncodeChar Char.utf8Size
  simp only [UInt32.le_iff_toNat_le, UInt32.toNat_ofNatLT]
  simp only [Char.toNat] at hv hc
  generalize c.val.toNat = v at hv hc ⊢
  rw [← hc]
  by_cases h1 : v ≤ 127
  · simp (disch := omega) only [first?, if_pos, List.cons_append, List.nil_append,
      UInt8.toNat_ofNat', Nat.reducePow]
    rw [Nat.mod_eq_of_lt (by omega)]
  by_cases h2 : v ≤ 2047
  · simp (disch := omega) only [first?, if_pos, if_neg, List.cons_append, List.nil_append,
      UInt8.toNat_ofNat', Nat.reducePow, isContinuation_iff, payload]
    congr 3
    omega
  by_cases h3 : v ≤ 65535
  · simp (disch := omega) only [first?, if_pos, if_neg, List.cons_append, List.nil_append,
      UInt8.toNat_ofNat', Nat.reducePow, Bool.and_eq_true, Bool.not_and, Bool.or_eq_true,
      Bool.not_eq_true', decide_eq_true_eq, decide_eq_false_iff_not, isContinuation_iff, payload]
    congr 3
    omega
  · simp (disch := omega) only [first?, if_pos, if_neg, List.cons_append, List.nil_append,
      UInt8.toNat_ofNat', Nat.reducePow, Bool.and_eq_true, decide_eq_true_eq, isContinuation_iff,
      payload]
    congr 3
    omega

/-- A character's bytes: a lead byte that is no continuation byte, then continuation bytes only;
an ASCII lead stands alone. The lead byte is below `0x80` or at least `0xC0`, the others lie in
`0x80`–`0xBF`. -/
theorem encodeChar_eq_cons (c : Char) : ∃ b t, String.utf8EncodeChar c = b :: t ∧
    ¬ isContinuation b ∧ (∀ x ∈ t, isContinuation x) ∧ (b.toNat < 128 → t = []) := by
  have hv := toNat_char_valid c
  unfold String.utf8EncodeChar
  simp only [Char.toNat] at hv
  generalize c.val.toNat = v at hv ⊢
  by_cases h1 : v ≤ 127
  · rw [if_pos h1]
    refine ⟨_, _, rfl, ?_, by simp, fun _ => rfl⟩
    simp [isContinuation_iff]
    omega
  by_cases h2 : v ≤ 2047
  · rw [if_neg h1, if_pos h2]
    refine ⟨_, _, rfl, ?_, ?_, ?_⟩ <;> simp [isContinuation_iff] <;> omega
  by_cases h3 : v ≤ 65535
  · rw [if_neg h1, if_neg h2, if_pos h3]
    refine ⟨_, _, rfl, ?_, ?_, ?_⟩ <;> simp [isContinuation_iff] <;> omega
  · rw [if_neg h1, if_neg h2, if_neg h3]
    refine ⟨_, _, rfl, ?_, ?_, ?_⟩ <;> simp [isContinuation_iff] <;> omega

theorem startsChar_encodeChar_append (c : Char) (rest : List UInt8) :
    startsChar (String.utf8EncodeChar c ++ rest) := by
  obtain ⟨b, t, he, hb, -, -⟩ := encodeChar_eq_cons c
  simp [he, startsChar, hb]

/-- The character that starts at the front of a character's bytes is that character. -/
theorem leadingChar?_encodeChar_append (c : Char) (rest : List UInt8) :
    leadingChar? (String.utf8EncodeChar c ++ rest) = some c := by
  simp [leadingChar?, startsChar_encodeChar_append, first?_encodeChar_append]

/-! ## Valid suffixes -/

namespace Valid

/-- The bytes after a prefix of a valid text are valid when a character can start there: within
the bytes of a character, one can start only at its first byte. -/
theorem of_append {u r : List UInt8} (h : Valid (u ++ r)) (hr : startsChar r) : Valid r := by
  generalize hl : u ++ r = l at h
  induction h generalizing u with
  | nil =>
    rw [(List.append_eq_nil_iff.mp hl).2]
    exact .nil
  | cons c hrest ih =>
    rcases List.append_eq_append_iff.mp hl with ⟨a, he, rfl⟩ | ⟨a, rfl, hs⟩
    · obtain ⟨b, t, hbt, -, ht, -⟩ := encodeChar_eq_cons c
      cases u with
      | nil =>
        rw [List.nil_append] at he
        rw [← he]
        exact .cons c hrest
      | cons x u =>
        rw [hbt, List.cons_append, List.cons.injEq] at he
        cases a with
        | nil => simpa using hrest
        | cons y a =>
          have hy : isContinuation y := ht y (by rw [he.2]; simp)
          simp [startsChar, hy] at hr
    · exact ih hs.symm

/-- The bytes after an ASCII byte of a valid text are valid. -/
theorem of_cons_ascii {a : UInt8} {r : List UInt8} (h : Valid (a :: r)) (ha : a.toNat < 128) :
    Valid r := by
  generalize hl : a :: r = l at h
  cases h with
  | nil => cases hl
  | cons c hrest =>
    obtain ⟨b, t, hbt, -, -, hone⟩ := encodeChar_eq_cons c
    rw [hbt, List.cons_append, List.cons.injEq] at hl
    obtain ⟨rfl, hr⟩ := hl
    rw [hr, hone ha, List.nil_append]
    exact hrest

theorem of_append_ascii {u r : List UInt8} {a : UInt8} (h : Valid (u ++ a :: r))
    (ha : a.toNat < 128) : Valid r :=
  of_cons_ascii (of_append h (by simp [startsChar, not_isContinuation_of_ascii ha])) ha

/-- The bytes before a place of a valid text where a character can start are valid: within the
bytes of a character, one can start only at its first byte or right after its last. -/
theorem of_append_left {u r : List UInt8} (h : Valid (u ++ r)) (hr : startsChar r) : Valid u := by
  generalize hl : u ++ r = l at h
  induction h generalizing u with
  | nil =>
    rw [(List.append_eq_nil_iff.mp hl).1]
    exact .nil
  | cons c hrest ih =>
    rcases List.append_eq_append_iff.mp hl with ⟨a, he, rfl⟩ | ⟨a, rfl, hs⟩
    · cases u with
      | nil => exact .nil
      | cons x u =>
        cases a with
        | nil =>
          rw [List.append_nil] at he
          rw [← he, ← List.append_nil (String.utf8EncodeChar c)]
          exact .cons c .nil
        | cons y a =>
          obtain ⟨b, t, hbt, -, ht, -⟩ := encodeChar_eq_cons c
          rw [hbt, List.cons_append, List.cons.injEq] at he
          have hy : isContinuation y := ht y (by rw [he.2]; simp)
          simp [startsChar, hy] at hr
    · exact .cons c (ih hs.symm)

/-- Valid bytes are the bytes of their characters. -/
theorem eq_flatMap {bytes : List UInt8} (h : Valid bytes) :
    ∃ cs : List Char, bytes = cs.flatMap String.utf8EncodeChar := by
  induction h with
  | nil => exact ⟨[], rfl⟩
  | cons c _ ih =>
    obtain ⟨cs, rfl⟩ := ih
    exact ⟨c :: cs, by rw [List.flatMap_cons]⟩

/-- The first character of valid bytes. -/
theorem exists_char {b : UInt8} {t : List UInt8} (h : Valid (b :: t)) :
    ∃ c rest, b :: t = String.utf8EncodeChar c ++ rest ∧ Valid rest := by
  generalize hl : b :: t = l at h
  cases h with
  | nil => cases hl
  | cons c hrest => exact ⟨c, _, rfl, hrest⟩

end Valid

/-! ## Reading text back -/

/-- Both decoders read a character's bytes as the character, whatever follows them, and go on
right after them. -/
theorem first?_encodeChar_cons (c : Char) (rest : List UInt8) :
    ∃ b t, String.utf8EncodeChar c = b :: t ∧
      first? (b :: (t ++ rest)) = some (c, c.utf8Size) ∧
      (t ++ rest).drop (c.utf8Size - 1) = rest := by
  obtain ⟨b, t, he, -, -, -⟩ := encodeChar_eq_cons c
  have hfirst := first?_encodeChar_append c rest
  have hlen : t.length = c.utf8Size - 1 := by
    have := String.length_utf8EncodeChar c
    rw [he, List.length_cons] at this
    omega
  rw [he, List.cons_append] at hfirst
  exact ⟨b, t, he, hfirst, by rw [← hlen, List.drop_left]⟩

/-- The strict decoder reads back every character of an encoding. -/
theorem strictChars_flatMap (cs : List Char) :
    strictChars (cs.flatMap String.utf8EncodeChar) = some cs := by
  induction cs with
  | nil => simp [strictChars]
  | cons c cs ih =>
    obtain ⟨b, t, he, hfirst, hdrop⟩ :=
      first?_encodeChar_cons c (cs.flatMap String.utf8EncodeChar)
    rw [List.flatMap_cons, he, List.cons_append, strictChars, hfirst]
    simp [hdrop, ih]

/-- The lenient decoder reads back every character of an encoding too. -/
theorem chars_flatMap (cs : List Char) : chars (cs.flatMap String.utf8EncodeChar) = cs := by
  induction cs with
  | nil => simp
  | cons c cs ih =>
    obtain ⟨b, t, he, hfirst, hdrop⟩ :=
      first?_encodeChar_cons c (cs.flatMap String.utf8EncodeChar)
    rw [List.flatMap_cons, he, List.cons_append, chars, hfirst]
    simp [hdrop, ih]

/-- The lenient decoder reads at most one character per byte. -/
theorem length_chars_le (bytes : List UInt8) : (chars bytes).length ≤ bytes.length := by
  fun_induction chars bytes with
  | case1 => simp
  | case2 b rest c width _ ih =>
    simp only [List.length_cons, List.length_drop] at ih ⊢
    omega
  | case3 b rest _ ih =>
    simp only [List.length_cons]
    omega

/-- Valid bytes decode to a text whose bytes they are. -/
theorem encode_decode {bytes : List UInt8} (h : Valid bytes) : encode (decode bytes) = bytes := by
  obtain ⟨cs, rfl⟩ := h.eq_flatMap
  rw [decode, chars_flatMap, encode, String.toList_ofList]

/-- A text's bytes decode strictly to the text. -/
theorem decode?_encode (s : String) : decode? (encode s) = some s := by
  rw [decode?, encode, strictChars_flatMap, Option.map_some, String.ofList_toList]

end ConfLex.Utf8
