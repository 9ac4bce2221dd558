import ConfLex.Proofs.Longest
import ConfLex.Proofs.Encoding

/-!
# Where the scanner stops with an error

The lexer stops at the first remaining input from which no unit can be read. `Broken r k o`
lists those inputs in the terms of the grammar, with the kind of the error and the offset within
`r` at which it is found:

* a character that no unit begins with (`Opener` lists the bytes that do begin one);
* a string whose body, read with every backslash escaping the byte after it, meets a line feed,
  escaped or not, or the end of the input; when the input ends right after an escaping
  backslash, the escaped byte is missing;
* `/*` with no `*/` after it;
* `0x` or `0X` without a hexadecimal digit;
* the digits and point of a float (`Mantissa`), then `e` or `E`, then nothing, or a sign that
  may be absent and no digit.

Where an error names the character it found, `Found` gives it: the character whose bytes come
next, or none at the end of the input.

On valid UTF-8 the scanner fails exactly on these inputs, with these errors:
`Scan.next_eq_fault_iff`. Every other input begins with a blank or with a unit.
-/

namespace ConfLex

open ByteClass

/-! ## Broken inputs -/

/-- The character at the front of some bytes, or none at the end of the input. -/
inductive Found : List UInt8 → Option Char → Prop where
  | none : Found [] none
  | some (c : Char) (rest : List UInt8) : Found (String.utf8EncodeChar c ++ rest) (some c)

/-- A byte that some unit begins with, or a blank: a letter, a digit, one of `$ _ @ . % / "`, a
line feed, the first byte of an operator's spelling, a space, a tab or a carriage return. -/
def Opener (b : UInt8) : Prop :=
  isLetter b ∨ isDecDigit b ∨ b = 36 ∨ b = 95 ∨ b = 64 ∨ b = 46 ∨ b = 37 ∨ b = 47 ∨ b = 34 ∨
    b = 10 ∨ (∃ (op : Operator) (v : List UInt8), Utf8.encode op.spelling = b :: v) ∨ isBlank b

/-- The digits and point that begin a float, up to its exponent. -/
inductive Mantissa : List UInt8 → Prop where
  /-- Digits, a point, and digits that may be absent. -/
  | whole {a : UInt8} {d f : List UInt8} : isDecDigit a → (∀ x ∈ d, isDecDigit x) →
      (∀ x ∈ f, isDecDigit x) → Mantissa (a :: (d ++ 46 :: f))
  /-- A point and digits. -/
  | point {a : UInt8} {f : List UInt8} : isDecDigit a → (∀ x ∈ f, isDecDigit x) →
      Mantissa (46 :: a :: f)

/-- `Broken r k o`: no unit can be read at the front of `r`; the error has kind `k` and is found
`o` bytes into `r`. -/
inductive Broken : List UInt8 → LexErrorKind → Nat → Prop where
  /-- A character whose first byte begins no unit. -/
  | invalid {c : Char} {b : UInt8} {t : List UInt8} (rest : List UInt8) :
      String.utf8EncodeChar c = b :: t → ¬ Opener b →
      Broken (b :: (t ++ rest)) (.invalidCharacter c) 0
  /-- A line feed in a string. -/
  | lineBreak {w : List UInt8} (rest : List UInt8) : StringBody w →
      Broken (34 :: (w ++ 10 :: rest)) .lineBreakInString (w.length + 1)
  /-- A line feed escaped in a string. -/
  | escapedLineBreak {w : List UInt8} (rest : List UInt8) : StringBody w →
      Broken (34 :: (w ++ 92 :: 10 :: rest)) .lineBreakInString (w.length + 2)
  /-- The end of the input inside a string. -/
  | unclosedString {w : List UInt8} : StringBody w →
      Broken (34 :: w) .eofInString (w.length + 1)
  /-- The end of the input right after an escaping backslash. -/
  | danglingEscape {w : List UInt8} : StringBody w →
      Broken (34 :: (w ++ [92])) .unexpectedEof (w.length + 2)
  /-- A block comment that is never closed. -/
  | unclosedComment {w : List UInt8} : ¬ [42, 47] <:+: w →
      Broken (47 :: 42 :: w) .unexpectedEof (w.length + 2)
  /-- `0x` or `0X` without a hexadecimal digit. -/
  | hexDigitMissing {x : UInt8} {rest : List UInt8} {found : Option Char} :
      (x = 120 ∨ x = 88) → (∀ y ∈ rest.head?, ¬ isHexDigit y) → Found rest found →
      Broken (48 :: x :: rest) (.malformedHexLiteral found) 2
  /-- An exponent mark at the end of the input. -/
  | exponentCut {m : List UInt8} {x : UInt8} : Mantissa m → (x = 101 ∨ x = 69) →
      Broken (m ++ [x]) .unexpectedEof (m.length + 1)
  /-- An exponent mark and a sign without a digit. -/
  | signedExponentDigitMissing {m rest : List UInt8} {x s : UInt8} {found : Option Char} :
      Mantissa m → (x = 101 ∨ x = 69) → (s = 43 ∨ s = 45) → (∀ y ∈ rest.head?, ¬ isDecDigit y) →
      Found rest found → Broken (m ++ x :: s :: rest) (.malformedExponent found) (m.length + 2)
  /-- An exponent mark followed by a byte that is neither a sign nor a digit. -/
  | exponentDigitMissing {m rest : List UInt8} {x y : UInt8} {found : Option Char} :
      Mantissa m → (x = 101 ∨ x = 69) → ¬ (y = 43 ∨ y = 45) → ¬ isDecDigit y →
      Found (y :: rest) found →
      Broken (m ++ x :: y :: rest) (.malformedExponent found) (m.length + 1)

/-- An error is found within the input, at its end at the latest. -/
theorem Broken.le_length {r : List UInt8} {k : LexErrorKind} {o : Nat} (h : Broken r k o) :
    o ≤ r.length := by
  cases h <;> simp

/-! ## Characters found -/

theorem Found.leadingChar?_eq {r : List UInt8} {found : Option Char} (h : Found r found) :
    Utf8.leadingChar? r = found := by
  cases h with
  | none => rfl
  | some c rest => exact Utf8.leadingChar?_encodeChar_append c rest

/-- In valid UTF-8 the decoder finds the character that comes next. -/
theorem Utf8.Valid.found {r : List UInt8} (h : Utf8.Valid r) : Found r (Utf8.leadingChar? r) := by
  cases h with
  | nil => exact .none
  | cons c _ =>
    rw [Utf8.leadingChar?_encodeChar_append]
    exact .some c _

theorem ascii_of_mark {x : UInt8} (hx : x = 101 ∨ x = 69) : x.toNat < 128 := by
  rcases hx with rfl | rfl <;> decide

theorem not_digit_of_mark {x : UInt8} (hx : x = 101 ∨ x = 69) : ¬ isDecDigit x := by
  rcases hx with rfl | rfl <;> decide

namespace Scan

variable {k : LexErrorKind} {o : Nat}

/-! ## Scanners that fail -/

/-- An exponent fails at a mark with nothing after it, or with a byte after the mark, and a
sign that may be absent, that is no digit. -/
theorem exponent_eq_fault {r : List UInt8} (h : exponent r = fault k o) :
    ∃ x rest, r = x :: rest ∧ (x = 101 ∨ x = 69) ∧
      ((rest = [] ∧ k = .unexpectedEof ∧ o = 1) ∨
        (∃ s d, rest = s :: d ∧ (s = 43 ∨ s = 45) ∧ (∀ y ∈ d.head?, ¬ isDecDigit y) ∧
          k = .malformedExponent (Utf8.leadingChar? d) ∧ o = 2) ∨
        (∃ y d, rest = y :: d ∧ ¬ (y = 43 ∨ y = 45) ∧ ¬ isDecDigit y ∧
          k = .malformedExponent (Utf8.leadingChar? (y :: d)) ∧ o = 1)) := by
  match r, h with
  | [], h =>
    rw [exponent_nil] at h
    cases h
  | x :: rest, h =>
    by_cases hx : x = 101 ∨ x = 69
    · refine ⟨x, rest, rfl, hx, ?_⟩
      cases rest with
      | nil =>
        rw [exponent_mark_nil hx] at h
        obtain ⟨rfl, rfl⟩ := fault.inj h
        exact .inl ⟨rfl, rfl, rfl⟩
      | cons s d =>
        by_cases hs : s = 43 ∨ s = 45
        · rw [exponent_signed hx hs] at h
          split at h
          · cases h
          · next hd =>
            obtain ⟨rfl, rfl⟩ := fault.inj h
            refine .inr (.inl ⟨s, d, rfl, hs, fun y hy => ?_, rfl, rfl⟩)
            cases d <;> simp_all
        · rw [exponent_unsigned hx hs] at h
          split at h
          · cases h
          · next hd =>
            obtain ⟨rfl, rfl⟩ := fault.inj h
            exact .inr (.inr ⟨s, d, rfl, hs, hd, rfl, rfl⟩)
    · rw [exponent_of_not_mark hx] at h
      cases h

/-- A number fails only in the exponent of a float: after its digits, a point, and more
digits. -/
theorem number_eq_fault {bytes : List UInt8} (h : number bytes = fault k o) :
    ∃ tail o', bytes.dropWhile isDecDigit = 46 :: tail ∧
      exponent (tail.dropWhile isDecDigit) = fault k o' ∧
      o = (bytes.takeWhile isDecDigit).length + 1 + ((tail.takeWhile isDecDigit).length + o') := by
  unfold number at h
  split at h
  · next tail hR =>
    obtain ⟨m, hm, rfl⟩ := shift_eq_fault.mp h
    rw [fraction] at hm
    obtain ⟨o', ho', rfl⟩ := shift_eq_fault.mp hm
    exact ⟨tail, o', hR, ho', rfl⟩
  · cases h

/-- A block comment body fails exactly when it holds no `*/`, at the end of the input. -/
theorem blockBody_eq_fault {w : List UInt8} (h : blockBody w = fault k o) :
    k = .unexpectedEof ∧ o = w.length ∧ ¬ [42, 47] <:+: w := by
  induction w generalizing o with
  | nil =>
    obtain ⟨rfl, rfl⟩ := fault.inj h
    exact ⟨rfl, rfl, fun hi => by simpa using hi.length_le⟩
  | cons b rest ih =>
    unfold blockBody at h
    split at h
    · obtain ⟨rfl, rfl⟩ := fault.inj h
      exact ⟨rfl, rfl, fun hi => by simpa using hi.length_le⟩
    · next d r =>
      split at h
      · cases h
      · next hc =>
        obtain ⟨m, hm, rfl⟩ := shift_eq_fault.mp h
        obtain ⟨rfl, rfl, hfree⟩ := ih hm
        refine ⟨rfl, by simp [Nat.add_comm], fun hi => ?_⟩
        rcases List.infix_cons_iff.mp hi with hopen | hinner
        · obtain ⟨rfl, h47⟩ := List.cons_prefix_cons.mp hopen
          obtain ⟨rfl, -⟩ := List.cons_prefix_cons.mp h47
          simp at hc
        · exact hfree hinner

/-- A block comment body without `*/` runs to the end of the input. -/
theorem blockBody_of_free {w : List UInt8} (h : ¬ [42, 47] <:+: w) :
    blockBody w = fault .unexpectedEof w.length := by
  induction w with
  | nil => rfl
  | cons b w ih =>
    have hw : ¬ [42, 47] <:+: w := fun hi => h (List.infix_cons hi)
    cases w with
    | nil => rfl
    | cons y w =>
      have hopen : ¬ (b = 42 ∧ y = 47) := by
        rintro ⟨rfl, rfl⟩
        exact h (List.prefix_append [42, 47] w).isInfix
      rw [blockBody]
      simp only [Bool.and_eq_true, decide_eq_true_eq, hopen, if_false]
      rw [ih hw]
      simp only [shift, List.length_cons, fault.injEq, true_and]
      omega

/-- The scanner walks over a string body of the grammar without stopping. -/
theorem stringBody_walk {w : List UInt8} (hw : StringBody w) (r : List UInt8) :
    stringBody false (w ++ r) = (stringBody false r).shift w.length := by
  induction hw with
  | nil => simp
  | @plain b w hq hb h10 _ ih =>
    have hstep : stringBody false (b :: (w ++ r)) = (stringBody false (w ++ r)).shift 1 := by
      simp [stringBody, hq, hb, h10]
    rw [List.cons_append, hstep, ih, shift_shift, List.length_cons, Nat.add_comm]
  | @escape c w hc _ ih =>
    have hstep : stringBody false (92 :: c :: (w ++ r)) =
        (stringBody false (w ++ r)).shift 2 := by
      simp [stringBody, hc]
    rw [List.cons_append, List.cons_append, hstep, ih, shift_shift, List.length_cons,
      List.length_cons, Nat.add_comm]

/-- How the body of a string, after its opening quote, fails after a well-formed part `w`: at
a line feed, at an escaped line feed, at the end of the input, or at the end of the input right
after an escaping backslash. The offset is that of the byte where the body breaks. -/
inductive BodyFault : List UInt8 → LexErrorKind → Nat → Prop where
  | lineBreak {w : List UInt8} (rest : List UInt8) : StringBody w →
      BodyFault (w ++ 10 :: rest) .lineBreakInString w.length
  | escapedLineBreak {w : List UInt8} (rest : List UInt8) : StringBody w →
      BodyFault (w ++ 92 :: 10 :: rest) .lineBreakInString (w.length + 1)
  | unclosed {w : List UInt8} : StringBody w → BodyFault w .eofInString w.length
  | danglingEscape {w : List UInt8} : StringBody w →
      BodyFault (w ++ [92]) .unexpectedEof (w.length + 1)

/-- A body fails in the same way behind a well-formed piece. -/
theorem BodyFault.prepend {p t : List UInt8} {e : LexErrorKind} {n : Nat}
    (hp : ∀ w, StringBody w → StringBody (p ++ w)) (h : BodyFault t e n) :
    BodyFault (p ++ t) e (p.length + n) := by
  cases h with
  | lineBreak rest hw =>
    rw [← List.append_assoc, ← List.length_append]
    exact .lineBreak rest (hp _ hw)
  | escapedLineBreak rest hw =>
    rw [← List.append_assoc, ← Nat.add_assoc, ← List.length_append]
    exact .escapedLineBreak rest (hp _ hw)
  | unclosed hw =>
    rw [← List.length_append]
    exact .unclosed (hp _ hw)
  | danglingEscape hw =>
    rw [← List.append_assoc, ← Nat.add_assoc, ← List.length_append]
    exact .danglingEscape (hp _ hw)

/-- A string body fails only in the ways `BodyFault` lists. The induction is on the length of the
body, since an escape pair is read as a whole. -/
theorem stringBody_eq_fault {t : List UInt8} {e : LexErrorKind} {n : Nat}
    (h : stringBody false t = fault e n) : BodyFault t e n := by
  generalize hl : t.length = len
  induction len using Nat.strongRecOn generalizing t e n with
  | ind len ih =>
  cases t with
  | nil =>
    obtain ⟨rfl, rfl⟩ := fault.inj h
    exact .unclosed .nil
  | cons b rest =>
    by_cases h10 : b = 10
    · subst h10
      obtain ⟨rfl, rfl⟩ := fault.inj h
      exact .lineBreak (w := []) rest .nil
    by_cases h34 : b = 34
    · subst h34
      simp [stringBody] at h
    by_cases h92 : b = 92
    · subst h92
      cases rest with
      | nil =>
        obtain ⟨rfl, rfl⟩ := fault.inj h
        exact .danglingEscape (w := []) .nil
      | cons c r =>
        by_cases hc : c = 10
        · subst hc
          obtain ⟨rfl, rfl⟩ := fault.inj h
          exact .escapedLineBreak (w := []) r .nil
        · have hstep : stringBody false (92 :: c :: r) = (stringBody false r).shift 2 := by
            simp [stringBody, hc]
          rw [hstep] at h
          obtain ⟨m, hm, rfl⟩ := shift_eq_fault.mp h
          have hr : r.length < len := by
            rw [← hl]
            simp only [List.length_cons]
            omega
          exact (ih r.length hr hm rfl).prepend (p := [92, c]) fun w hw => .escape hc hw
    · have hstep : stringBody false (b :: rest) = (stringBody false rest).shift 1 := by
        simp [stringBody, h10, h34, h92]
      rw [hstep] at h
      obtain ⟨m, hm, rfl⟩ := shift_eq_fault.mp h
      have hr : rest.length < len := by
        rw [← hl]
        simp
      exact (ih rest.length hr hm rfl).prepend (p := [b]) fun w hw => .plain h34 h92 h10 hw

theorem operator_eq_fault {b : UInt8} {t : List UInt8} (h : operator b t = fault k o) :
    Operator.ofByte? b = none ∧
      k = .invalidCharacter ((Utf8.leadingChar? (b :: t)).getD (Char.ofNat b.toNat)) ∧ o = 0 := by
  unfold operator at h
  split at h
  · split at h <;> cases h
  · next hnone =>
    obtain ⟨rfl, rfl⟩ := fault.inj h
    exact ⟨hnone, rfl, rfl⟩

/-! ## Each failing branch meets a broken shape -/

section Branches

variable {b : UInt8} {t : List UInt8}

/-- A mantissa followed by an exponent that fails is broken where the exponent fails. -/
theorem broken_of_exponent {m r input : List UInt8} (hm : Mantissa m) (hin : input = m ++ r)
    (hv : Utf8.Valid input) (h : exponent r = fault k o) : Broken input k (m.length + o) := by
  subst hin
  obtain ⟨x, rest, rfl, hx, hcut | ⟨s, d, rfl, hs, hd, rfl, rfl⟩ | ⟨y, d, rfl, hy, hyd, rfl, rfl⟩⟩ :=
    exponent_eq_fault h
  · obtain ⟨rfl, rfl, rfl⟩ := hcut
    exact .exponentCut hm hx
  · have hs' : s.toNat < 128 := by rcases hs with rfl | rfl <;> decide
    have hvd : Utf8.Valid d := (hv.of_append_ascii (ascii_of_mark hx)).of_cons_ascii hs'
    exact .signedExponentDigitMissing hm hx hs hd hvd.found
  · have hvy : Utf8.Valid (y :: d) := hv.of_append_ascii (ascii_of_mark hx)
    exact .exponentDigitMissing hm hx hy hyd hvy.found

theorem broken_pointFloat {a : UInt8} {r : List UInt8} (ha : isDecDigit a)
    (hv : Utf8.Valid (46 :: a :: r)) (h : fraction (a :: r) = fault k o) :
    Broken (46 :: a :: r) k (1 + o) := by
  rw [fraction, List.takeWhile_cons_of_pos ha, List.dropWhile_cons_of_pos ha] at h
  obtain ⟨o', he, rfl⟩ := shift_eq_fault.mp h
  have hm : Mantissa (46 :: a :: r.takeWhile isDecDigit) :=
    .point ha fun x hx => mem_takeWhile hx
  have hin : 46 :: a :: r = 46 :: a :: r.takeWhile isDecDigit ++ r.dropWhile isDecDigit := by
    simp [List.takeWhile_append_dropWhile]
  have hb := broken_of_exponent hm hin hv he
  simp only [List.length_cons] at hb ⊢
  rwa [show 1 + ((r.takeWhile isDecDigit).length + 1 + o') =
    (r.takeWhile isDecDigit).length + 1 + 1 + o' by omega]

theorem broken_number (hb : isDecDigit b) (hv : Utf8.Valid (b :: t)) (h : number t = fault k o) :
    Broken (b :: t) k (1 + o) := by
  obtain ⟨tail, o', hR, he, rfl⟩ := number_eq_fault h
  have hm : Mantissa (b :: (t.takeWhile isDecDigit ++ 46 :: tail.takeWhile isDecDigit)) :=
    .whole hb (fun x hx => mem_takeWhile hx) (fun x hx => mem_takeWhile hx)
  have ht : t = t.takeWhile isDecDigit ++ 46 :: (tail.takeWhile isDecDigit ++
      tail.dropWhile isDecDigit) := by
    rw [List.takeWhile_append_dropWhile, ← hR, List.takeWhile_append_dropWhile]
  have hin : b :: t = b :: (t.takeWhile isDecDigit ++ 46 :: tail.takeWhile isDecDigit) ++
      tail.dropWhile isDecDigit := by
    rw [List.cons_append, List.append_assoc, List.cons_append]
    exact congrArg (b :: ·) ht
  have hbroken := broken_of_exponent hm hin hv he
  simp only [List.length_cons, List.length_append] at hbroken
  rwa [show 1 + ((t.takeWhile isDecDigit).length + 1 + ((tail.takeWhile isDecDigit).length + o'))
    = (t.takeWhile isDecDigit).length + ((tail.takeWhile isDecDigit).length + 1) + 1 + o' by
    omega]

theorem broken_hex {x : UInt8} {digits : List UInt8} (hx : x = 120 ∨ x = 88)
    (hv : Utf8.Valid (48 :: x :: digits)) (hd : digits.head?.map isHexDigit ≠ some true) :
    Broken (48 :: x :: digits) (.malformedHexLiteral (Utf8.leadingChar? digits)) 2 := by
  have hx' : x.toNat < 128 := by rcases hx with rfl | rfl <;> decide
  have hvd : Utf8.Valid digits := (hv.of_cons_ascii (by decide)).of_cons_ascii hx'
  refine .hexDigitMissing hx (fun y hy => ?_) hvd.found
  cases digits <;> simp_all

theorem broken_string (h : stringBody false t = fault k o) : Broken (34 :: t) k (1 + o) := by
  cases stringBody_eq_fault h with
  | lineBreak rest hw =>
    rw [Nat.add_comm]
    exact .lineBreak rest hw
  | @escapedLineBreak w rest hw =>
    rw [show 1 + (w.length + 1) = w.length + 2 by omega]
    exact .escapedLineBreak rest hw
  | unclosed hw =>
    rw [Nat.add_comm]
    exact .unclosedString hw
  | @danglingEscape w hw =>
    rw [show 1 + (w.length + 1) = w.length + 2 by omega]
    exact .danglingEscape hw

/-- A byte that the dispatch hands to the operators and that spells none begins no unit. -/
theorem not_opener (hl : ¬ isIdentStart b) (hd : ¬ isDecDigit b) (hblank : ¬ isBlank b)
    (h47 : ¬ b = 47) (h46 : ¬ b = 46) (h37 : ¬ b = 37) (h34 : ¬ b = 34) (h10 : ¬ b = 10)
    (hnone : Operator.ofByte? b = none) : ¬ Opener b := by
  have hlead : ¬ isIdentLead b := fun h => hl (isIdentStart_iff.mpr (.inl h))
  simp only [isIdentLead, Bool.or_eq_true, decide_eq_true_eq, not_or] at hlead
  obtain ⟨⟨⟨hletter, h36⟩, h95⟩, h64⟩ := hlead
  rintro (h | h | h | h | h | h | h | h | h | h | ⟨op, v, hop⟩ | h)
  all_goals first
    | contradiction
    | (rcases Operator.encode_spelling_eq_cons hop with ⟨ho, -⟩ | ⟨o, y, ho, -⟩ | h | h | h <;>
        simp_all)

theorem broken_operator (hl : ¬ isIdentStart b) (hd : ¬ isDecDigit b) (hblank : ¬ isBlank b)
    (h47 : ¬ b = 47) (h46 : ¬ b = 46) (h37 : ¬ b = 37) (h34 : ¬ b = 34) (h10 : ¬ b = 10)
    (hv : Utf8.Valid (b :: t)) (h : operator b t = fault k o) : Broken (b :: t) k o := by
  obtain ⟨hnone, rfl, rfl⟩ := operator_eq_fault h
  obtain ⟨c, rest, hct, -⟩ := hv.exists_char
  obtain ⟨b', t', hc, -⟩ := Utf8.encodeChar_eq_cons c
  rw [hc, List.cons_append, List.cons.injEq] at hct
  obtain ⟨rfl, rfl⟩ := hct
  have hchar : Utf8.leadingChar? (b :: (t' ++ rest)) = some c := by
    rw [← List.cons_append, ← hc]
    exact Utf8.leadingChar?_encodeChar_append c rest
  rw [hchar]
  exact .invalid rest hc (not_opener hl hd hblank h47 h46 h37 h34 h10 hnone)

end Branches

/-! ## The scanner fails exactly on broken inputs -/

/-- On valid UTF-8, every error the scanner stops with is a broken shape of the grammar. -/
theorem next_eq_fault {b : UInt8} {t : List UInt8} (hv : Utf8.Valid (b :: t))
    (h : next b t = fault k o) : Broken (b :: t) k o := by
  unfold next at h
  split at h
  · next h47 =>
    subst h47
    split at h
    · cases h
    · next body =>
      split at h
      · obtain ⟨rfl, rfl⟩ := fault.inj h
        exact (Broken.unclosedComment (by simp) : Broken [47, 42] _ ([].length + 2))
      · obtain ⟨m, hm, rfl⟩ := shift_eq_fault.mp h
        obtain ⟨rfl, rfl, hfree⟩ := blockBody_eq_fault hm
        rw [Nat.add_comm]
        exact .unclosedComment hfree
    · cases h
  split at h
  · next h46 =>
    subst h46
    split at h
    · next hd =>
      obtain ⟨m, hm, rfl⟩ := shift_eq_fault.mp h
      obtain ⟨a, r, rfl, ha⟩ : ∃ a r, t = a :: r ∧ isDecDigit a := by
        cases t with
        | nil => simp at hd
        | cons a r => exact ⟨a, r, rfl, by simpa using hd⟩
      exact broken_pointFloat ha hv hm
    · cases h
  split at h
  · split at h <;> cases h
  split at h
  · next h48 =>
    subst h48
    split at h
    · next x digits =>
      split at h
      · next hx =>
        have hx : x = 120 ∨ x = 88 := by simpa using hx
        split at h
        · cases h
        · next hd =>
          obtain ⟨rfl, rfl⟩ := fault.inj h
          exact broken_hex hx hv hd
      · obtain ⟨m, hm, rfl⟩ := shift_eq_fault.mp h
        exact broken_number (by decide) hv hm
    · cases h
  split at h
  · next h34 =>
    subst h34
    obtain ⟨m, hm, rfl⟩ := shift_eq_fault.mp h
    exact broken_string hm
  split at h
  · cases h
  split at h
  · cases h
  split at h
  · next hd =>
    obtain ⟨m, hm, rfl⟩ := shift_eq_fault.mp h
    exact broken_number hd hv hm
  split at h
  · cases h
  · next h47 h46 h37 h48 h34 h10 hblank hd hs =>
    exact broken_operator hs hd hblank h47 h46 h37 h34 h10 hv h

/-! ## Broken inputs make the scanner fail -/

section Dispatch

variable {b : UInt8} {t : List UInt8}

theorem next_digit (hb : isDecDigit b) (ht : ∀ x ∈ t.head?, ¬ (x = 120 ∨ x = 88)) :
    next b t = (number t).shift 1 := by
  have hne : ∀ c : UInt8, c.toNat < 48 → b ≠ c := by
    rintro c hc rfl
    rw [isDecDigit_iff] at hb
    omega
  have hblank : ¬ isBlank b := by
    rw [isBlank_iff]
    rw [isDecDigit_iff] at hb
    omega
  unfold next
  rw [if_neg (hne 47 (by decide)), if_neg (hne 46 (by decide)), if_neg (hne 37 (by decide))]
  by_cases h48 : b = 48
  · subst h48
    rw [if_pos rfl]
    cases t with
    | nil => rfl
    | cons x r =>
      have hx : ¬ (x = 120 ∨ x = 88) := ht x rfl
      simp only [Bool.or_eq_true, decide_eq_true_eq, hx, if_false]
  · simp [h48, hne 34 (by decide), hne 10 (by decide), hblank, hb]

theorem next_quote : next 34 t = (stringBody false t).shift 1 := by
  simp [next]

/-- A mantissa is read through to its exponent. -/
theorem next_mantissa {m r : List UInt8} (hm : Mantissa m) (hr : ∀ y ∈ r.head?, ¬ isDecDigit y) :
    ∃ b t, m ++ r = b :: t ∧ next b t = (exponent r).shift m.length := by
  cases hm with
  | @whole a d f ha hd hf =>
    obtain ⟨hf1, hf2⟩ := takeWhile_append_stop hf hr
    have hpoint : ∀ y ∈ (46 :: (f ++ r)).head?, ¬ isDecDigit y := by simp; decide
    obtain ⟨hd1, hd2⟩ := takeWhile_append_stop hd hpoint
    have hnum : number (d ++ 46 :: (f ++ r)) = (exponent r).shift (d.length + 1 + f.length) := by
      simp only [number, hd2, fraction, hf1, hf2, hd1, shift_shift]
    have hx : ∀ x ∈ (d ++ 46 :: (f ++ r)).head?, ¬ (x = 120 ∨ x = 88) := by
      cases d with
      | nil => simp
      | cons y d =>
        have hy := isDecDigit_iff.mp (hd y (by simp))
        simp only [List.cons_append, List.head?_cons, Option.mem_def, Option.some.injEq]
        rintro x rfl (rfl | rfl) <;> simp at hy
    refine ⟨a, d ++ 46 :: (f ++ r), by simp, ?_⟩
    rw [next_digit ha hx, hnum, shift_shift]
    congr 1
    simp only [List.length_cons, List.length_append]
    omega
  | @point a f ha hf =>
    obtain ⟨hf1, hf2⟩ := takeWhile_append_stop (List.forall_mem_cons.mpr ⟨ha, hf⟩) hr
    rw [List.cons_append] at hf1 hf2
    refine ⟨46, a :: (f ++ r), by simp, ?_⟩
    have hhead : (a :: (f ++ r)).head?.map isDecDigit = some true := by simp [ha]
    simp only [next, if_pos, hhead, fraction, hf1, hf2, shift_shift, List.length_cons]
    rw [if_neg (by decide)]
    congr 1
    omega

/-- A byte that begins no unit is an invalid character. -/
theorem next_of_not_opener (hb : ¬ Opener b) :
    next b t = fault (.invalidCharacter ((Utf8.leadingChar? (b :: t)).getD (Char.ofNat b.toNat)))
      0 := by
  simp only [Opener, not_or] at hb
  obtain ⟨hletter, hd, h36, h95, h64, h46, h37, h47, h34, h10, hop, hblank⟩ := hb
  have hs : ¬ isIdentStart b := by
    simp [isIdentStart, hletter, h36, h95, h46, h64]
  have hnone : Operator.ofByte? b = none := by
    cases ho : Operator.ofByte? b with
    | none => rfl
    | some op => exact absurd ⟨op, [], Operator.encode_spelling_of_ofByte? ho⟩ hop
  have h48 : b ≠ 48 := by
    rintro rfl
    exact hd (by decide)
  simp [next, operator, h47, h46, h37, h48, h34, h10, hblank, hd, hs, hnone]

end Dispatch

/-- The scanner fails on every broken input, with its error. -/
theorem next_of_broken {r : List UInt8} (h : Broken r k o) :
    ∃ b t, r = b :: t ∧ next b t = fault k o := by
  cases h with
  | @invalid c b t rest hc hb =>
    refine ⟨b, t ++ rest, rfl, ?_⟩
    have hchar : Utf8.leadingChar? (b :: (t ++ rest)) = some c := by
      rw [← List.cons_append, ← hc]
      exact Utf8.leadingChar?_encodeChar_append c rest
    rw [next_of_not_opener hb, hchar]
    rfl
  | @lineBreak w rest hw =>
    refine ⟨34, _, rfl, ?_⟩
    rw [next_quote, stringBody_walk hw]
    simp [stringBody, shift, Nat.add_comm]
  | @escapedLineBreak w rest hw =>
    refine ⟨34, _, rfl, ?_⟩
    rw [next_quote, stringBody_walk hw]
    simp [stringBody, shift]
    omega
  | @unclosedString w hw =>
    refine ⟨34, _, rfl, ?_⟩
    rw [next_quote, show w = w ++ [] by simp, stringBody_walk hw]
    simp [stringBody, shift, Nat.add_comm]
  | @danglingEscape w hw =>
    refine ⟨34, _, rfl, ?_⟩
    rw [next_quote, stringBody_walk hw]
    simp [stringBody, shift]
    omega
  | @unclosedComment w hfree =>
    refine ⟨47, 42 :: w, rfl, ?_⟩
    cases w with
    | nil => rfl
    | cons y w =>
      simp only [next, if_true]
      rw [blockBody_of_free hfree]
      simp [shift, Nat.add_comm]
  | @hexDigitMissing x rest found hx hd hfound =>
    refine ⟨48, x :: rest, rfl, ?_⟩
    have hd' : ¬ rest.head?.map isHexDigit = some true := by
      cases rest <;> simp_all
    simp [next, hx, hd', hfound.leadingChar?_eq]
  | @exponentCut m x hm hx =>
    obtain ⟨b, t, hbt, hnext⟩ := next_mantissa hm
      (show ∀ y ∈ [x].head?, ¬ isDecDigit y by simpa using not_digit_of_mark hx)
    refine ⟨b, t, hbt, ?_⟩
    rw [hnext, exponent_mark_nil hx, shift, Nat.add_comm]
  | @signedExponentDigitMissing m rest x s found hm hx hs hd hfound =>
    obtain ⟨b, t, hbt, hnext⟩ :=
      next_mantissa hm
        (show ∀ y ∈ (x :: s :: rest).head?, ¬ isDecDigit y by simpa using not_digit_of_mark hx)
    have hd' : ¬ rest.head?.map isDecDigit = some true := by
      cases rest <;> simp_all
    refine ⟨b, t, hbt, ?_⟩
    rw [hnext, exponent_signed hx hs, if_neg hd', hfound.leadingChar?_eq, shift, Nat.add_comm]
  | @exponentDigitMissing m rest x y found hm hx hy hyd hfound =>
    obtain ⟨b, t, hbt, hnext⟩ :=
      next_mantissa hm
        (show ∀ z ∈ (x :: y :: rest).head?, ¬ isDecDigit z by simpa using not_digit_of_mark hx)
    refine ⟨b, t, hbt, ?_⟩
    rw [hnext, exponent_unsigned hx hy, if_neg hyd, hfound.leadingChar?_eq, shift, Nat.add_comm]

/-- On valid UTF-8 the scanner fails exactly on the broken inputs, with their errors. -/
theorem next_eq_fault_iff {b : UInt8} {t : List UInt8} (hv : Utf8.Valid (b :: t)) :
    next b t = fault k o ↔ Broken (b :: t) k o := by
  refine ⟨next_eq_fault hv, fun h => ?_⟩
  obtain ⟨b', t', hbt, hnext⟩ := next_of_broken h
  obtain ⟨rfl, rfl⟩ := List.cons.inj hbt
  exact hnext

end Scan

end ConfLex
