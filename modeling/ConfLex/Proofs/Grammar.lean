import ConfLex.Lex.Scan
import ConfLex.Proofs.Encoding

/-!
# The lexical grammar

The texts of the units of the language, stated as a grammar over bytes and apart from the
scanner. Writing `A` for the word bytes (letters, digits and `$ _ . @`):

* an identifier is a letter or one of `$ _ @`, or `%` and a word byte, followed by word bytes;
* an integer is decimal digits, or `0x` or `0X` and hexadecimal digits;
* a float is digits, a point and digits that may be absent, or a point and digits, followed by
  an exponent that may be absent: `e` or `E`, a sign that may be absent, and digits;
* a string is a double quote, then bytes other than a quote, a backslash or a line feed, each
  backslash followed by a byte other than a line feed, then a double quote;
* a comment is `//` and bytes other than a line feed, or `/*`, bytes in which `*/` does not
  occur, and `*/`;
* an operator is the bytes of its spelling, and an end of line is one line feed.

A scanner reads the longest unit at the front of its input: `LongestUnit input k n` says that
the first `n` bytes of `input` are a unit of kind `k` and that no text of any kind at the front
of `input` is longer.

The rest of the module inverts the grammar by the first byte of a text. The lexer dispatches on
that byte, and each of its branches meets only the kinds of unit listed here for it.
-/

namespace ConfLex

open ByteClass

/-- A byte that begins an identifier: a letter or one of `$ _ @`. The point is a word byte
too, but a text that begins with it is a float or an operator. -/
def isIdentLead (b : UInt8) : Bool := isLetter b || b = 36 || b = 95 || b = 64

/-- What may end a float: nothing, or `e` or `E`, a sign that may be absent, and digits. -/
inductive Exponent : List UInt8 → Prop where
  | none : Exponent []
  | unsigned {e a : UInt8} {d : List UInt8} : (e = 101 ∨ e = 69) → isDecDigit a →
      (∀ x ∈ d, isDecDigit x) → Exponent (e :: a :: d)
  | signed {e s a : UInt8} {d : List UInt8} : (e = 101 ∨ e = 69) → (s = 43 ∨ s = 45) →
      isDecDigit a → (∀ x ∈ d, isDecDigit x) → Exponent (e :: s :: a :: d)

/-- The body of a string literal between its quotes. -/
inductive StringBody : List UInt8 → Prop where
  | nil : StringBody []
  /-- A byte other than a quote, a backslash or a line feed. -/
  | plain {b : UInt8} {w : List UInt8} : b ≠ 34 → b ≠ 92 → b ≠ 10 → StringBody w →
      StringBody (b :: w)
  /-- A backslash and the byte it escapes, which may be anything but a line feed. -/
  | escape {c : UInt8} {w : List UInt8} : c ≠ 10 → StringBody w → StringBody (92 :: c :: w)

/-- `Lexical k text`: `text` is a unit of kind `k`. -/
inductive Lexical : TokenKind → List UInt8 → Prop where
  | ident {b : UInt8} {w : List UInt8} : isIdentLead b → (∀ x ∈ w, isAlnum x) →
      Lexical .identifier (b :: w)
  | percentIdent {a : UInt8} {w : List UInt8} : isAlnum a → (∀ x ∈ w, isAlnum x) →
      Lexical .identifier (37 :: a :: w)
  | decimal {a : UInt8} {w : List UInt8} : isDecDigit a → (∀ x ∈ w, isDecDigit x) →
      Lexical .integer (a :: w)
  | hex {x a : UInt8} {w : List UInt8} : (x = 120 ∨ x = 88) → isHexDigit a →
      (∀ y ∈ w, isHexDigit y) → Lexical .integer (48 :: x :: a :: w)
  /-- Digits, a point, digits that may be absent, and an exponent. -/
  | wholeFloat {a : UInt8} {d f e : List UInt8} : isDecDigit a → (∀ x ∈ d, isDecDigit x) →
      (∀ x ∈ f, isDecDigit x) → Exponent e → Lexical .float (a :: (d ++ 46 :: (f ++ e)))
  /-- A point, digits, and an exponent. -/
  | pointFloat {a : UInt8} {f e : List UInt8} : isDecDigit a → (∀ x ∈ f, isDecDigit x) →
      Exponent e → Lexical .float (46 :: a :: (f ++ e))
  | string {body : List UInt8} : StringBody body → Lexical .string (34 :: (body ++ [34]))
  | lineComment {w : List UInt8} : (∀ x ∈ w, x ≠ 10) → Lexical .comment (47 :: 47 :: w)
  | blockComment {w : List UInt8} : ¬ [42, 47] <:+: w →
      Lexical .comment (47 :: 42 :: (w ++ [42, 47]))
  | operator (op : Operator) : Lexical (.operator op) (Utf8.encode op.spelling)
  | eol : Lexical .eol [10]

/-- The first `n` bytes of `input` are a unit of kind `k`, and no unit at the front of `input`
is longer. -/
structure LongestUnit (input : List UInt8) (k : TokenKind) (n : Nat) : Prop where
  le_length : n ≤ input.length
  lexical : Lexical k (input.take n)
  longest : ∀ k' v, Lexical k' v → v <+: input → v.length ≤ n

/-! ## Byte classes as arithmetic

The classes are comparisons of a byte with constants; read as statements about `toNat`, facts
such as "a digit is not a letter" are left to `omega`. -/

section Classes

variable {b : UInt8}

theorem isDecDigit_iff : isDecDigit b ↔ 48 ≤ b.toNat ∧ b.toNat ≤ 57 := by
  simp [isDecDigit, UInt8.le_iff_toNat_le]

theorem isLetter_iff :
    isLetter b ↔ (65 ≤ b.toNat ∧ b.toNat ≤ 90) ∨ (97 ≤ b.toNat ∧ b.toNat ≤ 122) := by
  simp [isLetter, UInt8.le_iff_toNat_le]

theorem isHexDigit_iff : isHexDigit b ↔ (48 ≤ b.toNat ∧ b.toNat ≤ 57) ∨
    (65 ≤ b.toNat ∧ b.toNat ≤ 70) ∨ (97 ≤ b.toNat ∧ b.toNat ≤ 102) := by
  simp [isHexDigit, isDecDigit, UInt8.le_iff_toNat_le, or_assoc]

theorem eq_iff_toNat_eq {n : UInt8} : b = n ↔ b.toNat = n.toNat := UInt8.toNat_inj.symm

theorem isIdentLead_iff : isIdentLead b ↔ (65 ≤ b.toNat ∧ b.toNat ≤ 90) ∨
    (97 ≤ b.toNat ∧ b.toNat ≤ 122) ∨ b.toNat = 36 ∨ b.toNat = 95 ∨ b.toNat = 64 := by
  simp [isIdentLead, isLetter_iff, eq_iff_toNat_eq, or_assoc]

theorem isAlnum_iff : isAlnum b ↔ isIdentLead b ∨ b.toNat = 46 ∨ isDecDigit b := by
  simp only [isAlnum, isIdentContinue, isIdentStart, isIdentLead, Bool.or_eq_true,
    decide_eq_true_eq, eq_iff_toNat_eq]
  constructor
  · rintro (((((h | h) | h) | h) | h) | h) <;> simp_all
  · rintro ((((h | h) | h) | h) | h | h) <;> simp_all

theorem isIdentStart_iff : isIdentStart b ↔ isIdentLead b ∨ b = 46 := by
  simp only [isIdentStart, isIdentLead, Bool.or_eq_true, decide_eq_true_eq]
  constructor
  · rintro ((((h | h) | h) | h) | h) <;> simp_all
  · rintro ((((h | h) | h) | h) | h) <;> simp_all

theorem isBlank_iff : isBlank b ↔ b.toNat = 32 ∨ b.toNat = 9 ∨ b.toNat = 13 := by
  simp [isBlank, eq_iff_toNat_eq, or_assoc]

end Classes

/-! ## Operator spellings -/

namespace Operator

theorem encode_spelling_ne_nil (op : Operator) : Utf8.encode op.spelling ≠ [] := by
  cases op <;> decide

/-- A spelling is the byte of an operator read on its own, that byte extended by a second one,
or one of `/ . %`, which the lexer reads before it looks for operators. -/
theorem encode_spelling_eq_cons {op : Operator} {x : UInt8} {r : List UInt8}
    (h : Utf8.encode op.spelling = x :: r) :
    (ofByte? x = some op ∧ r = []) ∨
      (∃ o y, ofByte? x = some o ∧ o.extend? y = some op ∧ r = [y]) ∨
      (x = 47 ∧ op = .slash ∧ r = []) ∨ (x = 46 ∧ op = .dot ∧ r = []) ∨
      (x = 37 ∧ op = .percent ∧ r = []) := by
  cases op <;> simp [spelling, Utf8.encode, String.utf8EncodeChar] at h <;>
    obtain ⟨rfl, rfl⟩ := h <;> simp [ofByte?, extend?]

/-- The spelling of the operator a byte reads as on its own is that byte. -/
theorem encode_spelling_of_ofByte? {x : UInt8} {op : Operator} (h : ofByte? x = some op) :
    Utf8.encode op.spelling = [x] := by
  unfold ofByte? at h
  split at h <;> cases h <;> decide

/-- An operator extended by a byte is spelled with that byte after it. -/
theorem encode_spelling_of_extend? {op o : Operator} {y : UInt8} (h : op.extend? y = some o) :
    Utf8.encode o.spelling = Utf8.encode op.spelling ++ [y] := by
  unfold extend? at h
  split at h <;> cases h <;> decide

/-- Different operators have different spellings. -/
theorem encode_spelling_inj {op op' : Operator}
    (h : Utf8.encode op.spelling = Utf8.encode op'.spelling) : op = op' := by
  have hs := ofSpelling?_spelling op
  rw [Utf8.encode_inj h, ofSpelling?_spelling] at hs
  exact (Option.some.inj hs).symm

/-- A byte that reads as an operator is none of the bytes that begin other units. -/
theorem ofByte?_isSome {x : UInt8} (h : (ofByte? x).isSome) :
    ¬ isIdentLead x ∧ ¬ isDecDigit x ∧ ¬ isBlank x ∧ x ≠ 47 ∧ x ≠ 46 ∧ x ≠ 37 ∧ x ≠ 34 ∧
      x ≠ 10 := by
  unfold ofByte? at h
  split at h <;> simp_all [isIdentLead, isLetter, isDecDigit, isBlank]

end Operator

/-! ## Inverting the grammar by the first byte -/

namespace Lexical

variable {k : TokenKind} {b : UInt8} {v : List UInt8}

theorem ne_nil {u : List UInt8} (h : Lexical k u) : u ≠ [] := by
  cases h with
  | operator op => exact Operator.encode_spelling_ne_nil op
  | _ => simp

/-- A unit at the front of `b :: t` begins with `b` and goes on with a prefix of `t`. -/
theorem prefix_cons {u t : List UInt8} (h : Lexical k u) (hp : u <+: b :: t) :
    ∃ v, u = b :: v ∧ v <+: t ∧ Lexical k (b :: v) := by
  obtain ⟨x, v, rfl⟩ := List.exists_cons_of_ne_nil h.ne_nil
  obtain ⟨rfl, hv⟩ := List.cons_prefix_cons.mp hp
  exact ⟨v, rfl, hv, h⟩

/-- The grammar again, with every text written as its first byte and the rest. -/
theorem cons_cases (h : Lexical k (b :: v)) :
    (k = .identifier ∧ isIdentLead b ∧ ∀ x ∈ v, isAlnum x) ∨
    (k = .identifier ∧ b = 37 ∧ ∃ a w, v = a :: w ∧ isAlnum a ∧ ∀ x ∈ w, isAlnum x) ∨
    (k = .integer ∧ isDecDigit b ∧ ∀ x ∈ v, isDecDigit x) ∨
    (k = .integer ∧ b = 48 ∧ ∃ x a w, v = x :: a :: w ∧ (x = 120 ∨ x = 88) ∧ isHexDigit a ∧
      ∀ y ∈ w, isHexDigit y) ∨
    (k = .float ∧ isDecDigit b ∧ ∃ d f e, v = d ++ 46 :: (f ++ e) ∧ (∀ x ∈ d, isDecDigit x) ∧
      (∀ x ∈ f, isDecDigit x) ∧ Exponent e) ∨
    (k = .float ∧ b = 46 ∧ ∃ a f e, v = a :: (f ++ e) ∧ isDecDigit a ∧
      (∀ x ∈ f, isDecDigit x) ∧ Exponent e) ∨
    (k = .string ∧ b = 34 ∧ ∃ body, v = body ++ [34] ∧ StringBody body) ∨
    (k = .comment ∧ b = 47 ∧ ∃ w, v = 47 :: w ∧ ∀ x ∈ w, x ≠ 10) ∨
    (k = .comment ∧ b = 47 ∧ ∃ w, v = 42 :: (w ++ [42, 47]) ∧ ¬ [42, 47] <:+: w) ∨
    (∃ op, k = .operator op ∧ Utf8.encode op.spelling = b :: v) ∨
    (k = .eol ∧ b = 10 ∧ v = []) := by
  generalize hu : b :: v = u at h
  cases h with
  | ident hb hw =>
    obtain ⟨rfl, rfl⟩ := List.cons.inj hu
    exact .inl ⟨rfl, hb, hw⟩
  | percentIdent ha hw =>
    obtain ⟨rfl, rfl⟩ := List.cons.inj hu
    exact .inr <| .inl ⟨rfl, rfl, _, _, rfl, ha, hw⟩
  | decimal ha hw =>
    obtain ⟨rfl, rfl⟩ := List.cons.inj hu
    exact .inr <| .inr <| .inl ⟨rfl, ha, hw⟩
  | hex hx ha hw =>
    obtain ⟨rfl, rfl⟩ := List.cons.inj hu
    exact .inr <| .inr <| .inr <| .inl ⟨rfl, rfl, _, _, _, rfl, hx, ha, hw⟩
  | wholeFloat ha hd hf he =>
    obtain ⟨rfl, rfl⟩ := List.cons.inj hu
    exact .inr <| .inr <| .inr <| .inr <| .inl ⟨rfl, ha, _, _, _, rfl, hd, hf, he⟩
  | pointFloat ha hf he =>
    obtain ⟨rfl, rfl⟩ := List.cons.inj hu
    exact .inr <| .inr <| .inr <| .inr <| .inr <| .inl ⟨rfl, rfl, _, _, _, rfl, ha, hf, he⟩
  | string hs =>
    obtain ⟨rfl, rfl⟩ := List.cons.inj hu
    exact .inr <| .inr <| .inr <| .inr <| .inr <| .inr <| .inl ⟨rfl, rfl, _, rfl, hs⟩
  | lineComment hw =>
    obtain ⟨rfl, rfl⟩ := List.cons.inj hu
    exact .inr <| .inr <| .inr <| .inr <| .inr <| .inr <| .inr <| .inl ⟨rfl, rfl, _, rfl, hw⟩
  | blockComment hw =>
    obtain ⟨rfl, rfl⟩ := List.cons.inj hu
    exact .inr <| .inr <| .inr <| .inr <| .inr <| .inr <| .inr <| .inr <| .inl
      ⟨rfl, rfl, _, rfl, hw⟩
  | operator op =>
    exact .inr <| .inr <| .inr <| .inr <| .inr <| .inr <| .inr <| .inr <| .inr <| .inl
      ⟨op, rfl, rfl⟩
  | eol =>
    obtain ⟨rfl, rfl⟩ := List.cons.inj hu
    exact .inr <| .inr <| .inr <| .inr <| .inr <| .inr <| .inr <| .inr <| .inr <| .inr
      ⟨rfl, rfl, rfl⟩

/-- An operator that begins with a byte of another kind of unit is one of `/ . %`, on its own. -/
theorem operator_lead {op : Operator} (h : Utf8.encode op.spelling = b :: v)
    (hb : isIdentLead b ∨ isDecDigit b ∨ isBlank b ∨ b = 47 ∨ b = 46 ∨ b = 37 ∨ b = 34 ∨
      b = 10) :
    (b = 47 ∧ op = .slash ∨ b = 46 ∧ op = .dot ∨ b = 37 ∧ op = .percent) ∧ v = [] := by
  rcases Operator.encode_spelling_eq_cons h with ⟨hx, -⟩ | ⟨o, y, hx, -, -⟩ | h | h | h
  · have hs : (Operator.ofByte? b).isSome := by simp [hx]
    have := Operator.ofByte?_isSome hs
    simp_all
  · have hs : (Operator.ofByte? b).isSome := by simp [hx]
    have := Operator.ofByte?_isSome hs
    simp_all
  all_goals simp_all

/-- A unit that begins with a slash is a comment or the slash on its own. -/
theorem slash_cases (h : Lexical k (47 :: v)) :
    (k = .comment ∧ ((∃ w, v = 47 :: w ∧ ∀ x ∈ w, x ≠ 10) ∨
      ∃ w, v = 42 :: (w ++ [42, 47]) ∧ ¬ [42, 47] <:+: w)) ∨ (k = .operator .slash ∧ v = []) := by
  rcases cons_cases h with ⟨-, hb, -⟩ | ⟨-, hb, -⟩ | ⟨-, hb, -⟩ | ⟨-, hb, -⟩ | ⟨-, hb, -⟩ |
    ⟨-, hb, -⟩ | ⟨-, hb, -⟩ | ⟨rfl, -, hw⟩ | ⟨rfl, -, hw⟩ | ⟨op, rfl, hop⟩ | ⟨-, hb, -⟩
  · simp [isIdentLead, isLetter] at hb
  · simp at hb
  · simp [isDecDigit] at hb
  · simp at hb
  · simp [isDecDigit] at hb
  · simp at hb
  · simp at hb
  · exact .inl ⟨rfl, .inl hw⟩
  · exact .inl ⟨rfl, .inr hw⟩
  · obtain ⟨⟨-, rfl⟩ | ⟨hb, -⟩ | ⟨hb, -⟩, rfl⟩ := operator_lead hop (by simp)
    · exact .inr ⟨rfl, rfl⟩
    · simp at hb
    · simp at hb
  · simp at hb

/-- A unit that begins with a point is a float or the point on its own. -/
theorem point_cases (h : Lexical k (46 :: v)) :
    (k = .float ∧ ∃ a f e, v = a :: (f ++ e) ∧ isDecDigit a ∧ (∀ x ∈ f, isDecDigit x) ∧
      Exponent e) ∨ (k = .operator .dot ∧ v = []) := by
  rcases cons_cases h with ⟨-, hb, -⟩ | ⟨-, hb, -⟩ | ⟨-, hb, -⟩ | ⟨-, hb, -⟩ | ⟨-, hb, -⟩ |
    ⟨rfl, -, hv⟩ | ⟨-, hb, -⟩ | ⟨-, hb, -⟩ | ⟨-, hb, -⟩ | ⟨op, rfl, hop⟩ | ⟨-, hb, -⟩
  · simp [isIdentLead, isLetter] at hb
  · simp at hb
  · simp [isDecDigit] at hb
  · simp at hb
  · simp [isDecDigit] at hb
  · exact .inl ⟨rfl, hv⟩
  · simp at hb
  · simp at hb
  · simp at hb
  · obtain ⟨⟨hb, -⟩ | ⟨-, rfl⟩ | ⟨hb, -⟩, rfl⟩ := operator_lead hop (by simp)
    · simp at hb
    · exact .inr ⟨rfl, rfl⟩
    · simp at hb
  · simp at hb

/-- A unit that begins with `%` is an identifier or `%` on its own. -/
theorem percent_cases (h : Lexical k (37 :: v)) :
    (k = .identifier ∧ ∃ a w, v = a :: w ∧ isAlnum a ∧ ∀ x ∈ w, isAlnum x) ∨
      (k = .operator .percent ∧ v = []) := by
  rcases cons_cases h with ⟨-, hb, -⟩ | ⟨rfl, -, hv⟩ | ⟨-, hb, -⟩ | ⟨-, hb, -⟩ | ⟨-, hb, -⟩ |
    ⟨-, hb, -⟩ | ⟨-, hb, -⟩ | ⟨-, hb, -⟩ | ⟨-, hb, -⟩ | ⟨op, rfl, hop⟩ | ⟨-, hb, -⟩
  · simp [isIdentLead, isLetter] at hb
  · exact .inl ⟨rfl, hv⟩
  · simp [isDecDigit] at hb
  · simp at hb
  · simp [isDecDigit] at hb
  · simp at hb
  · simp at hb
  · simp at hb
  · simp at hb
  · obtain ⟨⟨hb, -⟩ | ⟨hb, -⟩ | ⟨-, rfl⟩, rfl⟩ := operator_lead hop (by simp)
    · simp at hb
    · simp at hb
    · exact .inr ⟨rfl, rfl⟩
  · simp at hb

/-- A unit that begins with a double quote is a string. -/
theorem quote_cases (h : Lexical k (34 :: v)) :
    k = .string ∧ ∃ body, v = body ++ [34] ∧ StringBody body := by
  rcases cons_cases h with ⟨-, hb, -⟩ | ⟨-, hb, -⟩ | ⟨-, hb, -⟩ | ⟨-, hb, -⟩ | ⟨-, hb, -⟩ |
    ⟨-, hb, -⟩ | ⟨rfl, -, hv⟩ | ⟨-, hb, -⟩ | ⟨-, hb, -⟩ | ⟨op, rfl, hop⟩ | ⟨-, hb, -⟩
  · simp [isIdentLead, isLetter] at hb
  · simp at hb
  · simp [isDecDigit] at hb
  · simp at hb
  · simp [isDecDigit] at hb
  · simp at hb
  · exact ⟨rfl, hv⟩
  · simp at hb
  · simp at hb
  · obtain ⟨⟨hb, -⟩ | ⟨hb, -⟩ | ⟨hb, -⟩, -⟩ := operator_lead hop (by simp) <;> simp at hb
  · simp at hb

/-- A unit that begins with a line feed is that line feed, an end of line. -/
theorem newline_cases (h : Lexical k (10 :: v)) : k = .eol ∧ v = [] := by
  rcases cons_cases h with ⟨-, hb, -⟩ | ⟨-, hb, -⟩ | ⟨-, hb, -⟩ | ⟨-, hb, -⟩ | ⟨-, hb, -⟩ |
    ⟨-, hb, -⟩ | ⟨-, hb, -⟩ | ⟨-, hb, -⟩ | ⟨-, hb, -⟩ | ⟨op, rfl, hop⟩ | ⟨rfl, -, hv⟩
  · simp [isIdentLead, isLetter] at hb
  · simp at hb
  · simp [isDecDigit] at hb
  · simp at hb
  · simp [isDecDigit] at hb
  · simp at hb
  · simp at hb
  · simp at hb
  · simp at hb
  · obtain ⟨⟨hb, -⟩ | ⟨hb, -⟩ | ⟨hb, -⟩, -⟩ := operator_lead hop (by simp) <;> simp at hb
  · exact ⟨rfl, hv⟩

/-- A unit that begins with a digit is an integer, decimal or hexadecimal, or a float with
digits before its point. -/
theorem digit_cases (hb : isDecDigit b) (h : Lexical k (b :: v)) :
    (k = .integer ∧ ∀ x ∈ v, isDecDigit x) ∨
    (k = .integer ∧ b = 48 ∧ ∃ x a w, v = x :: a :: w ∧ (x = 120 ∨ x = 88) ∧ isHexDigit a ∧
      ∀ y ∈ w, isHexDigit y) ∨
    (k = .float ∧ ∃ d f e, v = d ++ 46 :: (f ++ e) ∧ (∀ x ∈ d, isDecDigit x) ∧
      (∀ x ∈ f, isDecDigit x) ∧ Exponent e) := by
  have hd := isDecDigit_iff.mp hb
  rcases cons_cases h with ⟨-, hl, -⟩ | ⟨-, rfl, -⟩ | ⟨rfl, -, hv⟩ | ⟨rfl, rfl, hv⟩ |
    ⟨rfl, -, hv⟩ | ⟨-, rfl, -⟩ | ⟨-, rfl, -⟩ | ⟨-, rfl, -⟩ | ⟨-, rfl, -⟩ | ⟨op, rfl, hop⟩ |
    ⟨-, rfl, -⟩
  · rw [isIdentLead_iff] at hl
    omega
  · simp at hd
  · exact .inl ⟨rfl, hv⟩
  · exact .inr <| .inl ⟨rfl, rfl, hv⟩
  · exact .inr <| .inr ⟨rfl, hv⟩
  · simp at hd
  · simp at hd
  · simp at hd
  · simp at hd
  · obtain ⟨⟨rfl, -⟩ | ⟨rfl, -⟩ | ⟨rfl, -⟩, -⟩ := operator_lead hop (.inr <| .inl hb) <;>
      simp at hd
  · simp at hd

/-- A unit that begins with a letter or one of `$ _ @` is an identifier. -/
theorem identLead_cases (hb : isIdentLead b) (h : Lexical k (b :: v)) :
    k = .identifier ∧ ∀ x ∈ v, isAlnum x := by
  have hl := isIdentLead_iff.mp hb
  rcases cons_cases h with ⟨rfl, -, hv⟩ | ⟨-, rfl, -⟩ | ⟨-, hd, -⟩ | ⟨-, rfl, -⟩ |
    ⟨-, hd, -⟩ | ⟨-, rfl, -⟩ | ⟨-, rfl, -⟩ | ⟨-, rfl, -⟩ | ⟨-, rfl, -⟩ | ⟨op, rfl, hop⟩ |
    ⟨-, rfl, -⟩
  · exact ⟨rfl, hv⟩
  · simp at hl
  · rw [isDecDigit_iff] at hd
    omega
  · simp at hl
  · rw [isDecDigit_iff] at hd
    omega
  · simp at hl
  · simp at hl
  · simp at hl
  · simp at hl
  · obtain ⟨⟨rfl, -⟩ | ⟨rfl, -⟩ | ⟨rfl, -⟩, -⟩ := operator_lead hop (.inl hb) <;> simp at hl
  · simp at hl

/-- No unit begins with a space, a tab or a carriage return. -/
theorem not_blank (hb : isBlank b) : ¬ Lexical k (b :: v) := by
  intro h
  have hs := isBlank_iff.mp hb
  rcases cons_cases h with ⟨-, hl, -⟩ | ⟨-, rfl, -⟩ | ⟨-, hd, -⟩ | ⟨-, rfl, -⟩ |
    ⟨-, hd, -⟩ | ⟨-, rfl, -⟩ | ⟨-, rfl, -⟩ | ⟨-, rfl, -⟩ | ⟨-, rfl, -⟩ | ⟨op, -, hop⟩ |
    ⟨-, rfl, -⟩
  · rw [isIdentLead_iff] at hl
    omega
  · simp at hs
  · rw [isDecDigit_iff] at hd
    omega
  · simp at hs
  · rw [isDecDigit_iff] at hd
    omega
  · simp at hs
  · simp at hs
  · simp at hs
  · simp at hs
  · obtain ⟨⟨rfl, -⟩ | ⟨rfl, -⟩ | ⟨rfl, -⟩, -⟩ := operator_lead hop (.inr <| .inr <| .inl hb) <;>
      simp at hs
  · simp at hs

/-- A unit that begins with none of the bytes that begin identifiers, numbers, strings,
comments and ends of line is an operator. -/
theorem operator_cases (hl : ¬ isIdentLead b) (hd : ¬ isDecDigit b) (h47 : b ≠ 47)
    (h46 : b ≠ 46) (h37 : b ≠ 37) (h34 : b ≠ 34) (h10 : b ≠ 10) (h : Lexical k (b :: v)) :
    ∃ op, k = .operator op ∧ Utf8.encode op.spelling = b :: v := by
  rcases cons_cases h with ⟨-, hb, -⟩ | ⟨-, hb, -⟩ | ⟨-, hb, -⟩ | ⟨-, hb, -⟩ | ⟨-, hb, -⟩ |
    ⟨-, hb, -⟩ | ⟨-, hb, -⟩ | ⟨-, hb, -⟩ | ⟨-, hb, -⟩ | hop | ⟨-, hb, -⟩
  · exact absurd hb hl
  · exact absurd hb h37
  · exact absurd hb hd
  · subst hb
    exact absurd (by decide) hd
  · exact absurd hb hd
  · exact absurd hb h46
  · exact absurd hb h34
  · exact absurd hb h47
  · exact absurd hb h47
  · exact hop
  · exact absurd hb h10

/-- A text is a unit of one kind only. Its first byte leaves the kinds of one branch of the
dispatch, which the rest of the text tells apart: an integer holds no point, and neither a float
nor a decimal integer an `x`. -/
theorem kind_unique {k' : TokenKind} {u : List UInt8} (h : Lexical k u) (h' : Lexical k' u) :
    k = k' := by
  obtain ⟨b, v, rfl⟩ := List.exists_cons_of_ne_nil h.ne_nil
  by_cases h47 : b = 47
  · subst h47
    rcases slash_cases h with ⟨rfl, hv⟩ | ⟨rfl, rfl⟩ <;>
      rcases slash_cases h' with ⟨rfl, hv'⟩ | ⟨rfl, hnil⟩
    · rfl
    · simp [hnil] at hv
    · simp at hv'
    · rfl
  by_cases h46 : b = 46
  · subst h46
    rcases point_cases h with ⟨rfl, hv⟩ | ⟨rfl, rfl⟩ <;>
      rcases point_cases h' with ⟨rfl, hv'⟩ | ⟨rfl, hnil⟩
    · rfl
    · simp [hnil] at hv
    · simp at hv'
    · rfl
  by_cases h37 : b = 37
  · subst h37
    rcases percent_cases h with ⟨rfl, hv⟩ | ⟨rfl, rfl⟩ <;>
      rcases percent_cases h' with ⟨rfl, hv'⟩ | ⟨rfl, hnil⟩
    · rfl
    · simp [hnil] at hv
    · simp at hv'
    · rfl
  by_cases h34 : b = 34
  · subst h34
    rw [(quote_cases h).1, (quote_cases h').1]
  by_cases h10 : b = 10
  · subst h10
    rw [(newline_cases h).1, (newline_cases h').1]
  by_cases hd : isDecDigit b
  · have hpoint : ¬ isDecDigit 46 := by decide
    have hhex : ∀ {x a : UInt8} {w d l : List UInt8}, (x = 120 ∨ x = 88) →
        (∀ y ∈ d, isDecDigit y) → x :: a :: w ≠ d ++ 46 :: l := by
      intro x a w d l hx hd' he
      cases d with
      | nil =>
        obtain ⟨rfl, -⟩ := List.cons.inj he
        rcases hx with h | h <;> cases h
      | cons y d =>
        obtain ⟨rfl, -⟩ := List.cons.inj he
        have hy := hd' x (by simp)
        rcases hx with rfl | rfl <;> exact absurd hy (by decide)
    rcases digit_cases hd h with ⟨rfl, hv⟩ | ⟨rfl, -, x, a, w, rfl, hx, -⟩ |
        ⟨rfl, d, f, e, rfl, hdd, -⟩ <;>
      rcases digit_cases hd h' with ⟨rfl, hv'⟩ | ⟨rfl, -, x', a', w', hv', hx', -⟩ |
        ⟨rfl, d', f', e', hv', hdd', -⟩
    · rfl
    · rfl
    · exact absurd (hv 46 (by simp [hv'])) hpoint
    · rfl
    · rfl
    · exact absurd hv' (hhex hx hdd')
    · exact absurd (hv' 46 (by simp)) hpoint
    · exact absurd hv'.symm (hhex hx' hdd)
    · rfl
  by_cases hl : isIdentLead b
  · rw [(identLead_cases hl h).1, (identLead_cases hl h').1]
  obtain ⟨op, rfl, hop⟩ := operator_cases hl hd h47 h46 h37 h34 h10 h
  obtain ⟨op', rfl, hop'⟩ := operator_cases hl hd h47 h46 h37 h34 h10 h'
  rw [Operator.encode_spelling_inj (hop.trans hop'.symm)]

end Lexical

/-- The longest unit at the front of an input is unique, in length and in kind. -/
theorem LongestUnit.unique {input : List UInt8} {k k' : TokenKind} {n n' : Nat}
    (h : LongestUnit input k n) (h' : LongestUnit input k' n') : k = k' ∧ n = n' := by
  have hle : n' ≤ n := by
    have := h.longest k' _ h'.lexical (List.take_prefix n' input)
    rwa [List.length_take, Nat.min_eq_left h'.le_length] at this
  have hge : n ≤ n' := by
    have := h'.longest k _ h.lexical (List.take_prefix n input)
    rwa [List.length_take, Nat.min_eq_left h.le_length] at this
  obtain rfl : n = n' := Nat.le_antisymm hge hle
  exact ⟨h.lexical.kind_unique h'.lexical, rfl⟩

end ConfLex
