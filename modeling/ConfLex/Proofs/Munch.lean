import ConfLex.Proofs.Faults

/-!
# Reading a whole input by maximal munch

`Scan.read` applies the scanner to a whole input, unit after unit, with no listener: it skips
blanks, collects every unit with its kind, text and span, and stops at the end of the input or
at the first lexical error. The lexer's runs are this reading handed to a listener.

`Munch` describes the same reading in the terms of the grammar. From the remaining input it
skips a space, a tab or a carriage return, or takes the longest unit at the front, as long as the
input is not broken; it ends at the end of the input, or at the first broken input. On valid UTF-8
the two agree (`Scan.read_eq_iff`), and since the longest unit is unique in kind and length, the
decomposition is unique.

That the bytes after every unit are valid UTF-8 again rests on how units end: all but line
comments end in an ASCII byte, and a line comment is followed by a line feed or by nothing.
-/

namespace ConfLex

open ByteClass

/-- How a reading of the input ends. -/
inductive Ending where
  /-- At the end of the input. -/
  | done
  /-- At a lexical error of `kind`, found at `offset` in the text. -/
  | fault (kind : LexErrorKind) (offset : Nat)
  deriving DecidableEq, Repr

/-- `Munch input pos units ending`: reading `input`, which begins at offset `pos` of the text,
by skipping a blank or taking the longest unit at the front of what remains, gives `units` and
ends as `ending` says: at the end of the input, or at the first input that is broken. Each unit
comes with its kind, its text and its span. -/
inductive Munch : List UInt8 → Nat → List (TokenKind × Token) → Ending → Prop where
  | done {pos : Nat} : Munch [] pos [] .done
  | broken {input : List UInt8} {pos : Nat} {k : LexErrorKind} {o : Nat} :
      Broken input k o → Munch input pos [] (.fault k (pos + o))
  | blank {b : UInt8} {t : List UInt8} {pos : Nat} {units : List (TokenKind × Token)}
      {ending : Ending} :
      isBlank b → Munch t (pos + 1) units ending → Munch (b :: t) pos units ending
  | unit {input : List UInt8} {pos : Nat} {k : TokenKind} {n : Nat}
      {units : List (TokenKind × Token)} {ending : Ending} :
      (∀ k' o', ¬ Broken input k' o') → LongestUnit input k n →
      Munch (input.drop n) (pos + n) units ending →
      Munch input pos ((k, ⟨input.take n, ⟨pos, pos + n⟩⟩) :: units) ending

/-! ## Where units end

In valid UTF-8 an ASCII byte is a character of its own, so the bytes after a unit that ends in
one are valid again. Only a line comment may end inside a multi-byte character, and the longest
one is followed by a line feed or by nothing. -/

section Ascii

variable {b : UInt8}

theorem ascii_of_isDecDigit (h : isDecDigit b) : b.toNat < 128 := by
  rw [isDecDigit_iff] at h
  omega

theorem ascii_of_isHexDigit (h : isHexDigit b) : b.toNat < 128 := by
  rw [isHexDigit_iff] at h
  omega

theorem ascii_of_isIdentLead (h : isIdentLead b) : b.toNat < 128 := by
  rw [isIdentLead_iff] at h
  omega

theorem ascii_of_isAlnum (h : isAlnum b) : b.toNat < 128 := by
  rcases isAlnum_iff.mp h with h | h | h
  · exact ascii_of_isIdentLead h
  · omega
  · exact ascii_of_isDecDigit h

theorem ascii_of_isBlank (h : isBlank b) : b.toNat < 128 := by
  rw [isBlank_iff] at h
  omega

theorem Exponent.ascii {e : List UInt8} (h : Exponent e) : ∀ x ∈ e, x.toNat < 128 := by
  have hmark : ∀ x : UInt8, (x = 101 ∨ x = 69) → x.toNat < 128 := by
    rintro x (rfl | rfl) <;> decide
  cases h with
  | none => simp
  | unsigned hx ha hd =>
    intro x hx'
    rcases List.mem_cons.mp hx' with rfl | hx'
    · exact hmark x hx
    rcases List.mem_cons.mp hx' with rfl | hx'
    · exact ascii_of_isDecDigit ha
    · exact ascii_of_isDecDigit (hd x hx')
  | signed hx hs ha hd =>
    intro x hx'
    rcases List.mem_cons.mp hx' with rfl | hx'
    · exact hmark x hx
    rcases List.mem_cons.mp hx' with rfl | hx'
    · rcases hs with rfl | rfl <;> decide
    rcases List.mem_cons.mp hx' with rfl | hx'
    · exact ascii_of_isDecDigit ha
    · exact ascii_of_isDecDigit (hd x hx')

theorem Operator.ascii (op : Operator) : ∀ x ∈ Utf8.encode op.spelling, x.toNat < 128 := by
  cases op <;> simp [Operator.spelling, Utf8.encode, String.utf8EncodeChar]

/-- A non-empty text of ASCII bytes ends in an ASCII byte. -/
theorem exists_ascii_last {u : List UInt8} (hne : u ≠ []) (h : ∀ x ∈ u, x.toNat < 128) :
    ∃ v a, u = v ++ [a] ∧ a.toNat < 128 := by
  obtain ⟨v, a, rfl⟩ := (List.eq_nil_or_concat u).resolve_left hne
  exact ⟨v, a, List.concat_eq_append, h a (by simp)⟩

/-- Every unit but a line comment ends in an ASCII byte. -/
theorem Lexical.last_ascii {k : TokenKind} {u : List UInt8} (h : Lexical k u) :
    (∃ v a, u = v ++ [a] ∧ a.toNat < 128) ∨ ∃ w, u = 47 :: 47 :: w ∧ ∀ x ∈ w, x ≠ 10 := by
  have hdigits : ∀ {d : List UInt8}, (∀ x ∈ d, isDecDigit x) → ∀ x ∈ d, x.toNat < 128 :=
    fun hd x hx => ascii_of_isDecDigit (hd x hx)
  cases h with
  | ident hb hw =>
    refine .inl (exists_ascii_last (by simp) ?_)
    simpa [ascii_of_isIdentLead hb] using fun x hx => ascii_of_isAlnum (hw x hx)
  | percentIdent ha hw =>
    refine .inl (exists_ascii_last (by simp) ?_)
    simpa [ascii_of_isAlnum ha] using fun x hx => ascii_of_isAlnum (hw x hx)
  | decimal ha hw =>
    refine .inl (exists_ascii_last (by simp) ?_)
    simpa [ascii_of_isDecDigit ha] using hdigits hw
  | hex hx ha hw =>
    refine .inl (exists_ascii_last (by simp) ?_)
    have hx' : _ := hx
    simp only [List.mem_cons, forall_eq_or_imp]
    refine ⟨by decide, by rcases hx' with rfl | rfl <;> decide, ascii_of_isHexDigit ha,
      fun x hx => ascii_of_isHexDigit (hw x hx)⟩
  | wholeFloat ha hd hf he =>
    refine .inl (exists_ascii_last (by simp) ?_)
    simp only [List.mem_cons, List.mem_append, forall_eq_or_imp]
    exact ⟨ascii_of_isDecDigit ha, fun x hx => hx.elim (hdigits hd x)
      (fun hx => hx.elim (fun h46 => by rw [h46]; decide)
        (fun hx => hx.elim (hdigits hf x) (he.ascii x)))⟩
  | pointFloat ha hf he =>
    refine .inl (exists_ascii_last (by simp) ?_)
    simp only [List.mem_cons, List.mem_append, forall_eq_or_imp]
    exact ⟨by decide, ascii_of_isDecDigit ha, fun x hx => hx.elim (hdigits hf x) (he.ascii x)⟩
  | @string body _ => exact .inl ⟨34 :: body, 34, by simp, by decide⟩
  | lineComment hw => exact .inr ⟨_, rfl, hw⟩
  | @blockComment w _ => exact .inl ⟨47 :: 42 :: (w ++ [42]), 47, by simp, by decide⟩
  | operator op =>
    exact .inl (exists_ascii_last (Operator.encode_spelling_ne_nil op) (Operator.ascii op))
  | eol => exact .inl ⟨[], 10, rfl, by decide⟩

/-- The bytes after the longest unit of a valid text are valid. A comment stops only at a line
feed, since any other byte would make it longer. -/
theorem LongestUnit.valid_drop {input : List UInt8} {k : TokenKind} {n : Nat}
    (h : LongestUnit input k n) (hv : Utf8.Valid input) : Utf8.Valid (input.drop n) := by
  have hsplit : input.take n ++ input.drop n = input := List.take_append_drop n input
  rcases h.lexical.last_ascii with ⟨v, a, hva, ha⟩ | ⟨w, hw, hline⟩
  · rw [← hsplit, hva, List.append_assoc, List.singleton_append] at hv
    exact hv.of_append_ascii ha
  · have hv' : Utf8.Valid (input.take n ++ input.drop n) := by
      rw [hsplit]
      exact hv
    refine hv'.of_append ?_
    cases hd : input.drop n with
    | nil => rfl
    | cons y r =>
      by_cases hy : y = 10
      · rw [hy]
        rfl
      · have hfree : ∀ x ∈ w ++ [y], x ≠ 10 := by
          intro x hx
          rcases List.mem_append.mp hx with hx | hx
          · exact hline x hx
          · rw [List.mem_singleton.mp hx]
            exact hy
        have hlong := h.longest .comment (47 :: 47 :: (w ++ [y])) (.lineComment hfree)
          ⟨r, by rw [← hsplit, hw, hd]; simp⟩
        have hn : (input.take n).length = n := List.length_take_of_le h.le_length
        rw [hw] at hn
        simp only [List.length_cons, List.length_append] at hlong hn
        omega

/-- No longest unit begins with a blank. -/
theorem LongestUnit.not_blank {b : UInt8} {t : List UInt8} {k : TokenKind} {n : Nat}
    (h : LongestUnit (b :: t) k n) : ¬ isBlank b := by
  intro hb
  cases n with
  | zero => exact h.lexical.ne_nil rfl
  | succ n => exact Lexical.not_blank hb h.lexical

end Ascii

namespace Scan

/-- The units read from `bytes`, which begin at offset `pos` of the text, each with its kind,
text and span, and how the reading ends. -/
def read (bytes : List UInt8) (pos : Nat) : List (TokenKind × Token) × Ending :=
  match bytes with
  | [] => ([], .done)
  | b :: t =>
    match hs : next b t with
    | .blank => read t (pos + 1)
    | .unit kind n =>
      let rest := read ((b :: t).drop n) (pos + n)
      ((kind, ⟨(b :: t).take n, ⟨pos, pos + n⟩⟩) :: rest.1, rest.2)
    | .fault kind o => ([], .fault kind (pos + o))
termination_by bytes.length
decreasing_by
  · simp
  · have := pos_of_next_eq_unit hs
    simp only [List.length_drop, List.length_cons]
    omega

section Read

variable {b : UInt8} {t : List UInt8} {pos : Nat}

@[simp] theorem read_nil (pos : Nat) : read [] pos = ([], .done) := by
  rw [read]

theorem read_blank (hs : next b t = blank) : read (b :: t) pos = read t (pos + 1) := by
  rw [read]
  split <;> simp_all

theorem read_unit {k : TokenKind} {n : Nat} (hs : next b t = unit k n) :
    read (b :: t) pos = ((k, ⟨(b :: t).take n, ⟨pos, pos + n⟩⟩) ::
      (read ((b :: t).drop n) (pos + n)).1, (read ((b :: t).drop n) (pos + n)).2) := by
  rw [read]
  split <;> simp_all

theorem read_fault {k : LexErrorKind} {o : Nat} (hs : next b t = fault k o) :
    read (b :: t) pos = ([], .fault k (pos + o)) := by
  rw [read]
  split <;> simp_all

end Read

/-! ## The reading is the maximal-munch decomposition -/

/-- On valid UTF-8, the scanner's reading is a maximal-munch decomposition. -/
theorem munch_read {input : List UInt8} {pos : Nat} (hv : Utf8.Valid input) :
    Munch input pos (read input pos).1 (read input pos).2 := by
  fun_induction read input pos with
  | case1 pos => exact .done
  | case2 pos b t hs ih =>
    have hb := next_eq_blank_iff.mp hs
    exact .blank hb (ih (hv.of_cons_ascii (ascii_of_isBlank hb)))
  | case3 pos b t k n hs rest ih =>
    have hl := next_eq_unit hs
    refine .unit (fun k' o' hbroken => ?_) hl (ih (hl.valid_drop hv))
    rw [(next_eq_fault_iff hv).mpr hbroken] at hs
    cases hs
  | case4 pos b t k o hs => exact .broken (next_eq_fault hv hs)

/-- The scanner reads every maximal-munch decomposition of valid UTF-8, since at every step it
reads the longest unit, which is unique. -/
theorem read_of_munch {input : List UInt8} {pos : Nat} {units : List (TokenKind × Token)}
    {ending : Ending} (h : Munch input pos units ending) (hv : Utf8.Valid input) :
    read input pos = (units, ending) := by
  induction h with
  | done => exact read_nil _
  | broken hbroken =>
    obtain ⟨b, t, rfl, hs⟩ := next_of_broken hbroken
    exact read_fault hs
  | blank hb _ ih =>
    rw [read_blank (next_eq_blank_iff.mpr hb)]
    exact ih (hv.of_cons_ascii (ascii_of_isBlank hb))
  | @unit input pos k n units ending hnb hl _ ih =>
    obtain ⟨b, t, rfl⟩ : ∃ b t, input = b :: t := by
      cases input with
      | nil => exact absurd List.take_nil hl.lexical.ne_nil
      | cons b t => exact ⟨b, t, rfl⟩
    have hs : next b t = unit k n := by
      cases hs : next b t with
      | blank => exact absurd (next_eq_blank_iff.mp hs) hl.not_blank
      | unit k' n' =>
        obtain ⟨rfl, rfl⟩ := (next_eq_unit hs).unique hl
        rfl
      | fault k' o' => exact absurd ((next_eq_fault_iff hv).mp hs) (hnb k' o')
    rw [read_unit hs, ih (hl.valid_drop hv)]

/-- On valid UTF-8 the scanner reads exactly the maximal-munch decomposition, which is
therefore unique. -/
theorem read_eq_iff {input : List UInt8} {pos : Nat} {units : List (TokenKind × Token)}
    {ending : Ending} (hv : Utf8.Valid input) :
    read input pos = (units, ending) ↔ Munch input pos units ending := by
  constructor
  · intro h
    have hm : Munch input pos (read input pos).1 (read input pos).2 := munch_read hv
    rwa [h] at hm
  · intro h
    exact read_of_munch h hv

end Scan

end ConfLex
