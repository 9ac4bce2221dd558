import ConfLex.Proofs.Grammar

/-!
# The scanner reads the longest unit

`Scan.next b t` reads one unit from the front of `b :: t`. Every unit it reads is a text of the
grammar, of the kind it reports, and no text of any kind at the front of the input is longer:
`Scan.next_eq_unit` gives `LongestUnit (b :: t) k n`.

The proof follows the scanner's dispatch on the first byte. For each branch, the grammar inverted
by that byte (`Lexical.slash_cases` and its siblings) lists the units that can stand at the front,
and each of them is bounded by what the branch reads. Runs of one byte class are bounded by
`takeWhile`; strings and block comments end at the first closing delimiter, so their texts are
the only ones of their kind at the front and the scanner reads exactly them.
-/

namespace ConfLex

open ByteClass

/-! ## Runs of a byte class -/

section Runs

variable {α : Type} {p : α → Bool}

/-- A run of a class at the front of a list is no longer than the longest one. -/
theorem length_le_takeWhile {w t : List α} (hw : ∀ x ∈ w, p x) (h : w <+: t) :
    w.length ≤ (t.takeWhile p).length := by
  obtain ⟨r, rfl⟩ := h
  rw [List.takeWhile_append_of_pos hw, List.length_append]
  omega

/-- A run of a class followed by an element outside it is the longest run. -/
theorem takeWhile_eq_of_prefix {w r t : List α} {y : α} (hw : ∀ x ∈ w, p x) (hy : p y = false)
    (h : w ++ y :: r <+: t) : t.takeWhile p = w ∧ y :: r <+: t.dropWhile p := by
  obtain ⟨s, rfl⟩ := h
  rw [List.append_assoc, List.takeWhile_append_of_pos hw, List.dropWhile_append_of_pos hw]
  simp [hy]

/-- The longest run of a class, as a prefix of the list. -/
theorem take_length_takeWhile (t : List α) : t.take (t.takeWhile p).length = t.takeWhile p :=
  (List.prefix_iff_eq_take.mp (List.takeWhile_prefix p)).symm

theorem mem_takeWhile {t : List α} {x : α} (h : x ∈ t.takeWhile p) : p x :=
  List.all_eq_true.mp List.all_takeWhile x h

/-- A run of a class followed by something that does not begin with the class is split off
exactly. -/
theorem takeWhile_append_stop {f r : List α} (hf : ∀ x ∈ f, p x) (hr : ∀ y ∈ r.head?, ¬ p y) :
    (f ++ r).takeWhile p = f ∧ (f ++ r).dropWhile p = r := by
  rw [List.takeWhile_append_of_pos hf, List.dropWhile_append_of_pos hf]
  cases r with
  | nil => simp
  | cons y r => simp_all

end Runs

/-- An exponent is empty or begins with `e` or `E`, which is not a digit. -/
theorem Exponent.eq_nil_or_mark {e : List UInt8} (he : Exponent e) :
    e = [] ∨ ∃ y r, e = y :: r ∧ isDecDigit y = false := by
  cases he with
  | none => exact .inl rfl
  | unsigned hx => exact .inr ⟨_, _, rfl, by rcases hx with rfl | rfl <;> rfl⟩
  | signed hx => exact .inr ⟨_, _, rfl, by rcases hx with rfl | rfl <;> rfl⟩

namespace Scan

/-! ## Shifted endings -/

theorem shift_eq_unit {j : Nat} {s : Scan} {k : TokenKind} {n : Nat} :
    s.shift j = unit k n ↔ ∃ m, s = unit k m ∧ n = j + m := by
  cases s with
  | blank => simp [shift]
  | unit kind m =>
    simp only [shift, unit.injEq]
    constructor
    · rintro ⟨rfl, rfl⟩
      exact ⟨m, ⟨rfl, rfl⟩, rfl⟩
    · rintro ⟨m', ⟨rfl, rfl⟩, rfl⟩
      exact ⟨rfl, rfl⟩
  | fault e m => simp [shift]

theorem shift_eq_fault {j : Nat} {s : Scan} {e : LexErrorKind} {o : Nat} :
    s.shift j = fault e o ↔ ∃ m, s = fault e m ∧ o = j + m := by
  cases s with
  | blank => simp [shift]
  | unit kind m => simp [shift]
  | fault e' m =>
    simp only [shift, fault.injEq]
    constructor
    · rintro ⟨rfl, rfl⟩
      exact ⟨m, ⟨rfl, rfl⟩, rfl⟩
    · rintro ⟨m', ⟨rfl, rfl⟩, rfl⟩
      exact ⟨rfl, rfl⟩

@[simp] theorem shift_zero (s : Scan) : s.shift 0 = s := by
  cases s <;> simp [shift]

@[simp] theorem shift_shift (i j : Nat) (s : Scan) : (s.shift i).shift j = s.shift (j + i) := by
  cases s <;> simp [shift, Nat.add_assoc]

/-! ## Exponents -/

section Exponent

variable {x s : UInt8} {r : List UInt8}

theorem exponent_nil : exponent [] = unit .float 0 := rfl

theorem exponent_of_not_mark (hx : ¬ (x = 101 ∨ x = 69)) : exponent (x :: r) = unit .float 0 := by
  simp_all [exponent]

theorem exponent_mark_nil (hx : x = 101 ∨ x = 69) : exponent [x] = fault .unexpectedEof 1 := by
  simp [exponent, hx]

theorem exponent_signed (hx : x = 101 ∨ x = 69) (hs : s = 43 ∨ s = 45) :
    exponent (x :: s :: r) = if r.head?.map isDecDigit = some true
      then unit .float (1 + 1 + (r.takeWhile isDecDigit).length)
      else fault (.malformedExponent (Utf8.leadingChar? r)) (1 + 1) := by
  simp [exponent, hx, hs]

theorem exponent_unsigned (hx : x = 101 ∨ x = 69) (hs : ¬ (s = 43 ∨ s = 45)) :
    exponent (x :: s :: r) = if isDecDigit s
      then unit .float (1 + 0 + ((s :: r).takeWhile isDecDigit).length)
      else fault (.malformedExponent (Utf8.leadingChar? (s :: r))) (1 + 0) := by
  simp_all [exponent]

/-- An exponent the scanner reads is one of the grammar, and no exponent at the front of the
input is longer. -/
theorem exponent_eq_unit {k : TokenKind} {n : Nat} (h : exponent r = unit k n) :
    k = .float ∧ n ≤ r.length ∧ Exponent (r.take n) ∧
      ∀ e, Exponent e → e <+: r → e.length ≤ n := by
  match r, h with
  | [], h =>
    rw [exponent_nil] at h
    obtain ⟨rfl, rfl⟩ := unit.inj h
    refine ⟨rfl, Nat.le_refl 0, .none, fun e _ he => ?_⟩
    simp [List.prefix_nil.mp he]
  | x :: r, h =>
    by_cases hx : x = 101 ∨ x = 69
    · cases r with
      | nil =>
        rw [exponent_mark_nil hx] at h
        cases h
      | cons s r =>
        by_cases hs : s = 43 ∨ s = 45
        · rw [exponent_signed hx hs] at h
          split at h
          · next hd =>
            obtain ⟨rfl, rfl⟩ := unit.inj h
            obtain ⟨a, ds, rfl, ha⟩ : ∃ a ds, r = a :: ds ∧ isDecDigit a := by
              cases r with
              | nil => simp at hd
              | cons a ds => exact ⟨a, ds, rfl, by simpa using hd⟩
            refine ⟨rfl, ?_, ?_, ?_⟩
            · have : ((a :: ds).takeWhile isDecDigit).length ≤ (a :: ds).length :=
                (List.takeWhile_sublist _).length_le
              simp only [List.length_cons] at this ⊢
              omega
            · rw [show 1 + 1 + ((a :: ds).takeWhile isDecDigit).length =
                ((a :: ds).takeWhile isDecDigit).length + 1 + 1 by omega, List.take_succ_cons,
                List.take_succ_cons, take_length_takeWhile, List.takeWhile_cons_of_pos ha]
              exact .signed hx hs ha fun y hy => mem_takeWhile hy
            · intro e he hp
              cases he with
              | none => simp
              | unsigned _ ha' _ =>
                obtain ⟨-, rfl, -⟩ := by simpa using hp
                rcases hs with rfl | rfl <;> simp [isDecDigit] at ha'
              | @signed _ _ a' d' _ _ ha' hd' =>
                have hp' : a' :: d' <+: a :: ds :=
                  (List.cons_prefix_cons.mp (List.cons_prefix_cons.mp hp).2).2
                have : (a' :: d').length ≤ ((a :: ds).takeWhile isDecDigit).length :=
                  length_le_takeWhile (List.forall_mem_cons.mpr ⟨ha', hd'⟩) hp'
                simp only [List.length_cons] at this ⊢
                omega
          · cases h
        · rw [exponent_unsigned hx hs] at h
          split at h
          · next hd =>
            obtain ⟨rfl, rfl⟩ := unit.inj h
            refine ⟨rfl, ?_, ?_, ?_⟩
            · have : ((s :: r).takeWhile isDecDigit).length ≤ (s :: r).length :=
                (List.takeWhile_sublist _).length_le
              simp only [List.length_cons] at this ⊢
              omega
            · rw [show 1 + 0 + ((s :: r).takeWhile isDecDigit).length =
                ((s :: r).takeWhile isDecDigit).length + 1 by omega, List.take_succ_cons,
                take_length_takeWhile, List.takeWhile_cons_of_pos hd]
              exact .unsigned hx hd fun y hy => mem_takeWhile hy
            · intro e he hp
              cases he with
              | none => simp
              | @unsigned _ a' d' _ ha' hd' =>
                have hp' : a' :: d' <+: s :: r := (List.cons_prefix_cons.mp hp).2
                have : (a' :: d').length ≤ ((s :: r).takeWhile isDecDigit).length :=
                  length_le_takeWhile (List.forall_mem_cons.mpr ⟨ha', hd'⟩) hp'
                simp only [List.length_cons] at this ⊢
                omega
              | signed _ hs' _ _ =>
                obtain ⟨-, rfl, -⟩ := by simpa using hp
                exact absurd hs' hs
          · cases h
    · rw [exponent_of_not_mark hx] at h
      obtain ⟨rfl, rfl⟩ := unit.inj h
      refine ⟨rfl, Nat.zero_le _, .none, fun e he hp => ?_⟩
      cases he with
      | none => simp
      | unsigned hx' =>
        obtain ⟨rfl, -⟩ := by simpa using hp
        exact absurd hx' hx
      | signed hx' =>
        obtain ⟨rfl, -⟩ := by simpa using hp
        exact absurd hx' hx

end Exponent

/-! ## Fractions and decimal numbers -/

section Number

variable {bytes : List UInt8} {k : TokenKind} {n : Nat}

/-- Digits followed by an exponent, read as long as the exponent allows. -/
theorem fraction_eq_unit (h : fraction bytes = unit k n) :
    k = .float ∧ n ≤ bytes.length ∧
      (∃ e, bytes.take n = bytes.takeWhile isDecDigit ++ e ∧ Exponent e) ∧
      ∀ f e, (∀ x ∈ f, isDecDigit x) → Exponent e → f ++ e <+: bytes →
        (f ++ e).length ≤ n := by
  obtain ⟨m, hm, rfl⟩ := shift_eq_unit.mp h
  obtain ⟨rfl, hle, hexp, hlong⟩ := exponent_eq_unit hm
  have hsplit : bytes.takeWhile isDecDigit ++ bytes.dropWhile isDecDigit = bytes :=
    List.takeWhile_append_dropWhile
  refine ⟨rfl, ?_, ⟨_, ?_, hexp⟩, ?_⟩
  · have := congrArg List.length hsplit
    rw [List.length_append] at this
    omega
  · have key : (bytes.takeWhile isDecDigit ++ bytes.dropWhile isDecDigit).take
        ((bytes.takeWhile isDecDigit).length + m) =
          bytes.takeWhile isDecDigit ++ (bytes.dropWhile isDecDigit).take m :=
      List.take_length_add_append m
    rwa [hsplit] at key
  · intro f e hf he hp
    rcases he.eq_nil_or_mark with rfl | ⟨y, r, rfl, hy⟩
    · have := length_le_takeWhile hf (by simpa using hp)
      simp only [List.append_nil]
      omega
    · obtain ⟨hD, hR⟩ := takeWhile_eq_of_prefix hf hy hp
      have := hlong (y :: r) he hR
      rw [List.length_append, ← hD]
      omega

/-- A decimal number read from its digits on: the longest run of digits, then a fraction when
a point follows the run. -/
theorem number_eq_unit (h : number bytes = unit k n) :
    n ≤ bytes.length ∧
      ((k = .integer ∧ ∀ x ∈ bytes.take n, isDecDigit x) ∨
        (k = .float ∧ ∃ d f e, bytes.take n = d ++ 46 :: (f ++ e) ∧ (∀ x ∈ d, isDecDigit x) ∧
          (∀ x ∈ f, isDecDigit x) ∧ Exponent e)) ∧
      (∀ w, (∀ x ∈ w, isDecDigit x) → w <+: bytes → w.length ≤ n) ∧
      (∀ d f e, (∀ x ∈ d, isDecDigit x) → (∀ x ∈ f, isDecDigit x) → Exponent e →
        d ++ 46 :: (f ++ e) <+: bytes → (d ++ 46 :: (f ++ e)).length ≤ n) := by
  have hsplit : bytes.takeWhile isDecDigit ++ bytes.dropWhile isDecDigit = bytes :=
    List.takeWhile_append_dropWhile
  have hdigits : ∀ x ∈ bytes.takeWhile isDecDigit, isDecDigit x := fun x hx => mem_takeWhile hx
  have hrun : ∀ w, (∀ x ∈ w, isDecDigit x) → w <+: bytes →
      w.length ≤ (bytes.takeWhile isDecDigit).length := fun w hw hp => length_le_takeWhile hw hp
  unfold number at h
  split at h
  · next tail hR =>
    obtain ⟨m, hm, rfl⟩ := shift_eq_unit.mp h
    obtain ⟨rfl, hle, ⟨e, hfe, he⟩, hlong⟩ := fraction_eq_unit hm
    rw [hR] at hsplit
    refine ⟨?_, .inr ⟨rfl, bytes.takeWhile isDecDigit, tail.takeWhile isDecDigit, e, ?_, hdigits,
      fun x hx => mem_takeWhile hx, he⟩,
      fun w hw hp => by have := hrun w hw hp; omega, ?_⟩
    · have := congrArg List.length hsplit
      simp only [List.length_append, List.length_cons] at this
      omega
    · have key : (bytes.takeWhile isDecDigit ++ 46 :: tail).take
          ((bytes.takeWhile isDecDigit).length + (m + 1)) =
            bytes.takeWhile isDecDigit ++ (46 :: tail).take (m + 1) :=
        List.take_length_add_append (m + 1)
      rw [hsplit, List.take_succ_cons, hfe] at key
      rw [show (bytes.takeWhile isDecDigit).length + 1 + m =
        (bytes.takeWhile isDecDigit).length + (m + 1) by omega]
      exact key
    · intro d f' e' hd hf' he' hp
      obtain ⟨hD, hpoint⟩ := takeWhile_eq_of_prefix hd (by rfl) hp
      rw [← hsplit, List.dropWhile_append_of_pos hdigits] at hpoint
      simp only [List.dropWhile_cons_of_neg (show ¬ isDecDigit 46 = true by decide),
        List.cons_prefix_cons, true_and] at hpoint
      have := hlong f' e' hf' he' hpoint
      simp only [List.length_append, List.length_cons] at this ⊢
      rw [← hD]
      omega
  · next hR =>
    obtain ⟨rfl, rfl⟩ := unit.inj h
    refine ⟨(List.takeWhile_sublist _).length_le, .inl ⟨rfl, ?_⟩, hrun, ?_⟩
    · rw [take_length_takeWhile]
      exact hdigits
    · intro d f e hd _ _ hp
      obtain ⟨-, hpoint⟩ := takeWhile_eq_of_prefix hd (by rfl) hp
      obtain ⟨rest, hrest⟩ := hpoint
      exact absurd hrest.symm (hR _)

end Number

/-! ## Strings and block comments

Both end at their first closing delimiter, so the scanner reads every body of the grammar in
full (`stringBody_append`, `blockBody_append`) and reads nothing else (`stringBody_eq_unit`,
`blockBody_eq_unit`). -/

section Delimited

variable {k : TokenKind} {n : Nat}

theorem stringBody_escaped_cons {c : UInt8} {r : List UInt8} (hc : c ≠ 10) :
    stringBody true (c :: r) = (stringBody false r).shift 1 := by
  simp [stringBody, hc]

/-- A string body the scanner reads ends with its first unescaped quote, and what comes before
that quote is a body of the grammar. With `escaped`, the byte before the input was an escaping
backslash, whose escape the input goes on with. -/
theorem stringBody_eq_unit {escaped : Bool} {t : List UInt8}
    (h : stringBody escaped t = unit k n) :
    k = .string ∧ ∃ body, t.take n = body ++ [34] ∧
      StringBody (if escaped then 92 :: body else body) := by
  induction t generalizing escaped n with
  | nil => simp [stringBody] at h
  | cons b rest ih =>
    unfold stringBody at h
    split at h
    · cases h
    split at h
    · next hq =>
      obtain ⟨rfl, rfl⟩ := unit.inj h
      simp only [Bool.and_eq_true, decide_eq_true_eq, Bool.not_eq_eq_eq_not, Bool.not_true] at hq
      obtain ⟨rfl, rfl⟩ := hq
      exact ⟨rfl, [], rfl, .nil⟩
    split at h
    · next hbs =>
      simp only [Bool.and_eq_true, decide_eq_true_eq, Bool.not_eq_eq_eq_not, Bool.not_true] at hbs
      obtain ⟨rfl, rfl⟩ := hbs
      split at h
      · cases h
      · next c r =>
        obtain ⟨m, hm, rfl⟩ := shift_eq_unit.mp h
        obtain ⟨rfl, body, hbody, hvalid⟩ := ih hm
        refine ⟨rfl, 92 :: body, ?_, by simpa using hvalid⟩
        rw [Nat.add_comm, List.take_succ_cons, hbody]
        rfl
    · next h10 hq hbs =>
      obtain ⟨m, hm, rfl⟩ := shift_eq_unit.mp h
      obtain ⟨rfl, body, hbody, hvalid⟩ := ih hm
      refine ⟨rfl, b :: body, ?_, ?_⟩
      · rw [Nat.add_comm, List.take_succ_cons, hbody]
        rfl
      · have hvalid : StringBody body := by simpa using hvalid
        cases escaped with
        | true => exact .escape h10 hvalid
        | false =>
          simp only [Bool.not_false, Bool.and_true, decide_eq_true_eq] at hq hbs
          exact .plain hq hbs h10 hvalid

/-- The scanner reads a string body of the grammar up to and including its closing quote. -/
theorem stringBody_append {body : List UInt8} (h : StringBody body) (rest : List UInt8) :
    stringBody false (body ++ 34 :: rest) = unit .string (body.length + 1) := by
  induction h with
  | nil => simp [stringBody]
  | @plain b w hq hb h10 _ ih =>
    have hstep : stringBody false (b :: (w ++ 34 :: rest)) =
        (stringBody false (w ++ 34 :: rest)).shift 1 := by
      simp [stringBody, hq, hb, h10]
    rw [List.cons_append, hstep, ih, shift, List.length_cons]
    congr 1
    omega
  | @escape c w hc _ ih =>
    have hstep : stringBody false (92 :: c :: (w ++ 34 :: rest)) =
        (stringBody true (c :: (w ++ 34 :: rest))).shift 1 := by
      simp [stringBody]
    rw [List.cons_append, List.cons_append, hstep, stringBody_escaped_cons hc, ih, shift, shift,
      List.length_cons, List.length_cons]
    congr 1
    omega

/-- A block comment body the scanner reads ends with the first `*/`, which does not occur
before it. -/
theorem blockBody_eq_unit {t : List UInt8} (h : blockBody t = unit k n) :
    k = .comment ∧ ∃ w, t.take n = w ++ [42, 47] ∧ ¬ [42, 47] <:+: w := by
  induction t generalizing n with
  | nil => simp [blockBody] at h
  | cons b rest ih =>
    unfold blockBody at h
    split at h
    · cases h
    · next d r =>
      split at h
      · next hc =>
        obtain ⟨rfl, rfl⟩ := unit.inj h
        simp only [Bool.and_eq_true, decide_eq_true_eq] at hc
        obtain ⟨rfl, rfl⟩ := hc
        exact ⟨rfl, [], rfl, fun hi => by simpa using hi.length_le⟩
      · next hc =>
        obtain ⟨m, hm, rfl⟩ := shift_eq_unit.mp h
        obtain ⟨rfl, w, hw, hfree⟩ := ih hm
        refine ⟨rfl, b :: w, ?_, ?_⟩
        · rw [Nat.add_comm, List.take_succ_cons, hw]
          rfl
        · intro hi
          rcases List.infix_cons_iff.mp hi with hopen | hinner
          · obtain ⟨rfl, h47⟩ := List.cons_prefix_cons.mp hopen
            cases w with
            | nil => simp at h47
            | cons y w =>
              obtain ⟨rfl, -⟩ := List.cons_prefix_cons.mp h47
              have hd : d = 47 := by
                have := congrArg List.head? hw
                cases m with
                | zero => simp at this
                | succ m => simpa using this
              simp [hd] at hc
          · exact hfree hinner

/-- The scanner reads a block comment body of the grammar up to and including its `*/`. -/
theorem blockBody_append {w : List UInt8} (h : ¬ [42, 47] <:+: w) (rest : List UInt8) :
    blockBody (w ++ 42 :: 47 :: rest) = unit .comment (w.length + 2) := by
  induction w with
  | nil => simp [blockBody]
  | cons b w ih =>
    have hw : ¬ [42, 47] <:+: w := fun hi => h (List.infix_cons hi)
    have hstep : blockBody (b :: (w ++ 42 :: 47 :: rest)) =
        (blockBody (w ++ 42 :: 47 :: rest)).shift 1 := by
      cases w with
      | nil => simp [blockBody]
      | cons y w =>
        have hopen : ¬ (b = 42 ∧ y = 47) := by
          rintro ⟨rfl, rfl⟩
          exact h (List.prefix_append [42, 47] w).isInfix
        simp only [List.cons_append, blockBody]
        simp only [Bool.and_eq_true, decide_eq_true_eq, hopen, if_false]
    rw [List.cons_append, hstep, ih hw, shift, List.length_cons]
    congr 1
    omega

end Delimited

/-! ## The branches of the scanner

One lemma for each way `next` can read a unit. -/

section Branches

variable {b : UInt8} {t : List UInt8} {k : TokenKind} {n m : Nat}

/-- `//` and the rest of the line, without its line feed. -/
theorem longest_lineComment (t : List UInt8) :
    LongestUnit (47 :: 47 :: t) .comment (1 + ((47 :: t).takeWhile (· ≠ 10)).length) := by
  have hrun : (47 :: t).takeWhile (· ≠ 10) = 47 :: t.takeWhile (· ≠ 10) :=
    List.takeWhile_cons_of_pos (by decide)
  have hle : (t.takeWhile (· ≠ 10)).length ≤ t.length := (List.takeWhile_sublist _).length_le
  rw [hrun, List.length_cons]
  refine ⟨by simp only [List.length_cons]; omega, ?_, ?_⟩
  · rw [show 1 + ((t.takeWhile (· ≠ 10)).length + 1) = (t.takeWhile (· ≠ 10)).length + 1 + 1
      by omega, List.take_succ_cons, List.take_succ_cons, take_length_takeWhile]
    exact .lineComment fun x hx => by simpa using mem_takeWhile hx
  · intro k' u hu hp
    obtain ⟨v, rfl, hvt, hv⟩ := hu.prefix_cons hp
    rcases Lexical.slash_cases hv with ⟨-, ⟨w, rfl, hw⟩ | ⟨w, rfl, -⟩⟩ | ⟨-, rfl⟩
    · have : w.length ≤ (t.takeWhile (· ≠ 10)).length :=
        length_le_takeWhile (fun x hx => by simpa using hw x hx) (List.cons_prefix_cons.mp hvt).2
      simp only [List.length_cons]
      omega
    · simp at hvt
    · simp

/-- `/*` and its body, up to the first `*/`. -/
theorem longest_blockComment {body : List UInt8} (h : blockBody body = unit k m) :
    LongestUnit (47 :: 42 :: body) k (2 + m) := by
  obtain ⟨rfl, w, hw, hfree⟩ := blockBody_eq_unit h
  have hbody : body = w ++ 42 :: 47 :: body.drop m :=
    calc body = body.take m ++ body.drop m := (List.take_append_drop m body).symm
      _ = w ++ 42 :: 47 :: body.drop m := by rw [hw]; simp
  have hm : m = w.length + 2 := by
    have := blockBody_append hfree (body.drop m)
    rw [← hbody, h] at this
    exact (unit.inj this).2
  refine ⟨?_, ?_, ?_⟩
  · have := congrArg List.length hbody
    simp only [List.length_append, List.length_cons] at this ⊢
    omega
  · rw [show 2 + m = m + 1 + 1 by omega, List.take_succ_cons, List.take_succ_cons, hw]
    exact .blockComment hfree
  · intro k' u hu hp
    obtain ⟨v, rfl, hvt, hv⟩ := hu.prefix_cons hp
    rcases Lexical.slash_cases hv with ⟨-, ⟨w', rfl, -⟩ | ⟨w', rfl, hfree'⟩⟩ | ⟨-, rfl⟩
    · simp at hvt
    · obtain ⟨rest, hrest⟩ := (List.cons_prefix_cons.mp hvt).2
      have := blockBody_append hfree' rest
      rw [show w' ++ 42 :: 47 :: rest = body by rw [← hrest]; simp, h] at this
      have hm' := (unit.inj this).2
      simp only [List.length_cons, List.length_append, List.length_nil]
      omega
    · simp only [List.length_cons, List.length_nil]
      omega

/-- The slash on its own, when no comment follows. -/
theorem longest_slash (h47 : t.head? ≠ some 47) (h42 : t.head? ≠ some 42) :
    LongestUnit (47 :: t) (.operator .slash) 1 := by
  refine ⟨by simp, ?_, ?_⟩
  · have hslash := Lexical.operator .slash
    rwa [show Utf8.encode Operator.slash.spelling = [47] by decide] at hslash
  · intro k' u hu hp
    obtain ⟨v, rfl, hvt, hv⟩ := hu.prefix_cons hp
    rcases Lexical.slash_cases hv with ⟨-, ⟨w, rfl, -⟩ | ⟨w, rfl, -⟩⟩ | ⟨-, rfl⟩
    · obtain ⟨r, rfl⟩ := hvt
      simp at h47
    · obtain ⟨r, rfl⟩ := hvt
      simp at h42
    · simp

/-- A point followed by a digit begins a float. -/
theorem longest_pointFloat {a : UInt8} {r : List UInt8} (ha : isDecDigit a)
    (h : fraction (a :: r) = unit k m) : LongestUnit (46 :: a :: r) k (1 + m) := by
  obtain ⟨rfl, hle, ⟨e, hfe, he⟩, hlong⟩ := fraction_eq_unit h
  refine ⟨by simp only [List.length_cons] at hle ⊢; omega, ?_, ?_⟩
  · rw [Nat.add_comm, List.take_succ_cons, hfe, List.takeWhile_cons_of_pos ha]
    exact .pointFloat ha (fun x hx => mem_takeWhile hx) he
  · intro k' u hu hp
    obtain ⟨v, rfl, hvt, hv⟩ := hu.prefix_cons hp
    rcases Lexical.point_cases hv with ⟨-, a', f, e', rfl, ha', hf, he'⟩ | ⟨-, rfl⟩
    · have := hlong (a' :: f) e' (List.forall_mem_cons.mpr ⟨ha', hf⟩) he' hvt
      simp only [List.length_cons, List.cons_append, List.length_append] at this ⊢
      omega
    · simp only [List.length_cons, List.length_nil]
      omega

/-- The point on its own, when no digit follows. -/
theorem longest_dot (ht : t.head?.map isDecDigit ≠ some true) :
    LongestUnit (46 :: t) (.operator .dot) 1 := by
  refine ⟨by simp, ?_, ?_⟩
  · have hdot := Lexical.operator .dot
    rwa [show Utf8.encode Operator.dot.spelling = [46] by decide] at hdot
  · intro k' u hu hp
    obtain ⟨v, rfl, hvt, hv⟩ := hu.prefix_cons hp
    rcases Lexical.point_cases hv with ⟨-, a, f, e, rfl, ha, -⟩ | ⟨-, rfl⟩
    · obtain ⟨r, rfl⟩ := hvt
      simp [ha] at ht
    · simp

/-- `%` followed by a word byte begins an identifier. -/
theorem longest_percentIdent (ht : t.head?.map isAlnum = some true) :
    LongestUnit (37 :: t) .identifier (1 + (t.takeWhile isAlnum).length) := by
  obtain ⟨a, r, rfl, ha⟩ : ∃ a r, t = a :: r ∧ isAlnum a := by
    cases t with
    | nil => simp at ht
    | cons a r => exact ⟨a, r, rfl, by simpa using ht⟩
  have hle : ((a :: r).takeWhile isAlnum).length ≤ (a :: r).length :=
    (List.takeWhile_sublist _).length_le
  refine ⟨by simp only [List.length_cons] at hle ⊢; omega, ?_, ?_⟩
  · rw [Nat.add_comm, List.take_succ_cons, take_length_takeWhile, List.takeWhile_cons_of_pos ha]
    exact .percentIdent ha fun x hx => mem_takeWhile hx
  · intro k' u hu hp
    obtain ⟨v, rfl, hvt, hv⟩ := hu.prefix_cons hp
    rcases Lexical.percent_cases hv with ⟨-, a', w, rfl, ha', hw⟩ | ⟨-, rfl⟩
    · have := length_le_takeWhile (List.forall_mem_cons.mpr ⟨ha', hw⟩) hvt
      simp only [List.length_cons] at this ⊢
      omega
    · simp only [List.length_cons, List.length_nil]
      omega

/-- `%` on its own, when no word byte follows. -/
theorem longest_percent (ht : t.head?.map isAlnum ≠ some true) :
    LongestUnit (37 :: t) (.operator .percent) 1 := by
  refine ⟨by simp, ?_, ?_⟩
  · have hpercent := Lexical.operator .percent
    rwa [show Utf8.encode Operator.percent.spelling = [37] by decide] at hpercent
  · intro k' u hu hp
    obtain ⟨v, rfl, hvt, hv⟩ := hu.prefix_cons hp
    rcases Lexical.percent_cases hv with ⟨-, a, w, rfl, ha, -⟩ | ⟨-, rfl⟩
    · obtain ⟨r, rfl⟩ := hvt
      simp [ha] at ht
    · simp

/-- `0x` or `0X` followed by a hexadecimal digit begins a hexadecimal integer. -/
theorem longest_hex {x : UInt8} {r : List UInt8} (hx : x = 120 ∨ x = 88)
    (hr : r.head?.map isHexDigit = some true) :
    LongestUnit (48 :: x :: r) .integer (2 + (r.takeWhile isHexDigit).length) := by
  obtain ⟨a, r, rfl, ha⟩ : ∃ a r', r = a :: r' ∧ isHexDigit a := by
    cases r with
    | nil => simp at hr
    | cons a r => exact ⟨a, r, rfl, by simpa using hr⟩
  have hxd : isDecDigit x = false := by rcases hx with rfl | rfl <;> rfl
  have hle : ((a :: r).takeWhile isHexDigit).length ≤ (a :: r).length :=
    (List.takeWhile_sublist _).length_le
  refine ⟨by simp only [List.length_cons] at hle ⊢; omega, ?_, ?_⟩
  · rw [show 2 + ((a :: r).takeWhile isHexDigit).length =
      ((a :: r).takeWhile isHexDigit).length + 1 + 1 by omega, List.take_succ_cons,
      List.take_succ_cons, take_length_takeWhile, List.takeWhile_cons_of_pos ha]
    exact .hex hx ha fun y hy => mem_takeWhile hy
  · intro k' u hu hp
    obtain ⟨v, rfl, hvt, hv⟩ := hu.prefix_cons hp
    rcases Lexical.digit_cases (by decide) hv with ⟨-, hd⟩ | ⟨-, -, x', a', w, rfl, -, ha', hw⟩ |
      ⟨-, d, f, e, rfl, hd, -⟩
    · cases v with
      | nil =>
        simp only [List.length_cons, List.length_nil]
        omega
      | cons y v =>
        obtain ⟨rfl, -⟩ := List.cons_prefix_cons.mp hvt
        simp [hd y (by simp)] at hxd
    · have hp' := (List.cons_prefix_cons.mp hvt).2
      have := length_le_takeWhile (List.forall_mem_cons.mpr ⟨ha', hw⟩) hp'
      simp only [List.length_cons] at this ⊢
      omega
    · cases d with
      | nil =>
        rcases hx with rfl | rfl <;> simp at hvt
      | cons y d =>
        obtain ⟨rfl, -⟩ := List.cons_prefix_cons.mp hvt
        simp [hd y (by simp)] at hxd

/-- A digit begins a decimal number, unless it is a `0` before `x` or `X`. -/
theorem longest_number (hb : isDecDigit b)
    (hx : ∀ x r, b = 48 → t = x :: r → ¬ (x = 120 ∨ x = 88)) (h : number t = unit k m) :
    LongestUnit (b :: t) k (1 + m) := by
  obtain ⟨hle, hshape, hdec, hfloat⟩ := number_eq_unit h
  refine ⟨by simp only [List.length_cons]; omega, ?_, ?_⟩
  · rw [Nat.add_comm, List.take_succ_cons]
    rcases hshape with ⟨rfl, hd⟩ | ⟨rfl, d, f, e, hdfe, hd, hf, he⟩
    · exact .decimal hb hd
    · rw [hdfe]
      exact .wholeFloat hb hd hf he
  · intro k' u hu hp
    obtain ⟨v, rfl, hvt, hv⟩ := hu.prefix_cons hp
    rcases Lexical.digit_cases hb hv with ⟨-, hd⟩ | ⟨-, h48, x, a, w, rfl, hx', -⟩ |
      ⟨-, d, f, e, rfl, hd, hf, he⟩
    · have := hdec v hd hvt
      simp only [List.length_cons]
      omega
    · obtain ⟨r, rfl⟩ := hvt
      exact absurd hx' (hx x _ h48 rfl)
    · have := hfloat d f e hd hf he hvt
      simp only [List.length_cons]
      omega

/-- A double quote begins a string, which ends at its first unescaped quote. -/
theorem longest_string (h : stringBody false t = unit k m) :
    LongestUnit (34 :: t) k (1 + m) := by
  obtain ⟨rfl, body, hbody, hvalid⟩ := stringBody_eq_unit h
  simp only [Bool.false_eq_true, if_false] at hvalid
  have ht : t = body ++ 34 :: t.drop m :=
    calc t = t.take m ++ t.drop m := (List.take_append_drop m t).symm
      _ = body ++ 34 :: t.drop m := by rw [hbody]; simp
  have hm : m = body.length + 1 := by
    have := stringBody_append hvalid (t.drop m)
    rw [← ht, h] at this
    exact (unit.inj this).2
  refine ⟨?_, ?_, ?_⟩
  · have := congrArg List.length ht
    simp only [List.length_append, List.length_cons] at this ⊢
    omega
  · rw [Nat.add_comm, List.take_succ_cons, hbody]
    exact .string hvalid
  · intro k' u hu hp
    obtain ⟨v, rfl, hvt, hv⟩ := hu.prefix_cons hp
    obtain ⟨-, body', rfl, hvalid'⟩ := Lexical.quote_cases hv
    obtain ⟨rest, hrest⟩ := hvt
    have := stringBody_append hvalid' rest
    rw [show body' ++ 34 :: rest = t by rw [← hrest]; simp, h] at this
    have hm' := (unit.inj this).2
    simp only [List.length_cons, List.length_append, List.length_nil]
    omega

/-- A line feed is an end of line on its own. -/
theorem longest_eol (t : List UInt8) : LongestUnit (10 :: t) .eol 1 := by
  refine ⟨by simp, .eol, ?_⟩
  intro k' u hu hp
  obtain ⟨v, rfl, -, hv⟩ := hu.prefix_cons hp
  obtain ⟨-, rfl⟩ := Lexical.newline_cases hv
  simp

/-- A letter or one of `$ _ @` begins an identifier, which runs over word bytes. -/
theorem longest_ident (hb : isIdentLead b) :
    LongestUnit (b :: t) .identifier (1 + (t.takeWhile isAlnum).length) := by
  have hle : (t.takeWhile isAlnum).length ≤ t.length := (List.takeWhile_sublist _).length_le
  refine ⟨by simp only [List.length_cons]; omega, ?_, ?_⟩
  · rw [Nat.add_comm, List.take_succ_cons, take_length_takeWhile]
    exact .ident hb fun x hx => mem_takeWhile hx
  · intro k' u hu hp
    obtain ⟨v, rfl, hvt, hv⟩ := hu.prefix_cons hp
    obtain ⟨-, hw⟩ := Lexical.identLead_cases hb hv
    have := length_le_takeWhile hw hvt
    simp only [List.length_cons]
    omega

/-- Any other byte is an operator, of two bytes when the pair spells one. -/
theorem longest_operator (hl : ¬ isIdentLead b) (hd : ¬ isDecDigit b) (h47 : b ≠ 47)
    (h46 : b ≠ 46) (h37 : b ≠ 37) (h34 : b ≠ 34) (h10 : b ≠ 10) (h : operator b t = unit k n) :
    LongestUnit (b :: t) k n := by
  have hbound : ∀ k' u, Lexical k' u → u <+: b :: t →
      u.length ≤ 1 ∨ u.length = 2 ∧ ∃ o y op, Operator.ofByte? b = some o ∧
        t.head? = some y ∧ o.extend? y = some op := by
    intro k' u hu hp
    obtain ⟨v, rfl, hvt, hv⟩ := hu.prefix_cons hp
    obtain ⟨op, -, hop⟩ := Lexical.operator_cases hl hd h47 h46 h37 h34 h10 hv
    rcases Operator.encode_spelling_eq_cons hop with ⟨-, rfl⟩ | ⟨o, y, ho, hy, rfl⟩ | h | h | h
    · exact .inl (by simp)
    · obtain ⟨r, rfl⟩ := hvt
      exact .inr ⟨rfl, o, y, op, ho, rfl, hy⟩
    all_goals simp_all
  unfold operator at h
  split at h
  · next op hop =>
    split at h
    · next longer hlonger =>
      obtain ⟨rfl, rfl⟩ := unit.inj h
      obtain ⟨y, r, rfl, hy⟩ : ∃ y r, t = y :: r ∧ op.extend? y = some longer := by
        cases t with
        | nil => simp at hlonger
        | cons y r => exact ⟨y, r, rfl, by simpa using hlonger⟩
      refine ⟨by simp, ?_, fun k' u hu hp => ?_⟩
      · have hspell : Utf8.encode longer.spelling = [b, y] := by
          rw [Operator.encode_spelling_of_extend? hy, Operator.encode_spelling_of_ofByte? hop]
          rfl
        have hlex := Lexical.operator longer
        rwa [hspell] at hlex
      · rcases hbound k' u hu hp with h1 | ⟨h2, -⟩ <;> omega
    · next hnone =>
      obtain ⟨rfl, rfl⟩ := unit.inj h
      refine ⟨by simp, ?_, fun k' u hu hp => ?_⟩
      · have hlex := Lexical.operator op
        rwa [Operator.encode_spelling_of_ofByte? hop] at hlex
      · rcases hbound k' u hu hp with h1 | ⟨-, o, y, op', ho, hy, hext⟩
        · exact h1
        · rw [hop] at ho
          cases ho
          simp [hy, hext] at hnone
  · cases h

end Branches

/-! ## Reading one unit -/

/-- Every unit the scanner reads is a unit of the grammar, of the kind it reports, and no unit of
any kind at the front of the input is longer. -/
theorem next_eq_unit {b : UInt8} {t : List UInt8} {k : TokenKind} {n : Nat}
    (h : next b t = unit k n) : LongestUnit (b :: t) k n := by
  unfold next at h
  split at h
  · next h47 =>
    subst h47
    split at h
    · next r =>
      obtain ⟨rfl, rfl⟩ := unit.inj h
      exact longest_lineComment r
    · next body =>
      split at h
      · cases h
      · obtain ⟨m, hm, rfl⟩ := shift_eq_unit.mp h
        exact longest_blockComment hm
    · next hline hblock =>
      obtain ⟨rfl, rfl⟩ := unit.inj h
      refine longest_slash ?_ ?_ <;> cases t <;> simp_all
  split at h
  · next h46 =>
    subst h46
    split at h
    · next hd =>
      obtain ⟨m, hm, rfl⟩ := shift_eq_unit.mp h
      obtain ⟨a, r, rfl, ha⟩ : ∃ a r, t = a :: r ∧ isDecDigit a := by
        cases t with
        | nil => simp at hd
        | cons a r => exact ⟨a, r, rfl, by simpa using hd⟩
      exact longest_pointFloat ha hm
    · next hd =>
      obtain ⟨rfl, rfl⟩ := unit.inj h
      exact longest_dot hd
  split at h
  · next h37 =>
    subst h37
    split at h
    · next ha =>
      obtain ⟨rfl, rfl⟩ := unit.inj h
      exact longest_percentIdent ha
    · next ha =>
      obtain ⟨rfl, rfl⟩ := unit.inj h
      exact longest_percent ha
  split at h
  · next h48 =>
    subst h48
    split at h
    · next x digits =>
      split at h
      · next hx =>
        have hx : x = 120 ∨ x = 88 := by simpa using hx
        split at h
        · next hr =>
          obtain ⟨rfl, rfl⟩ := unit.inj h
          exact longest_hex hx hr
        · cases h
      · next hx =>
        obtain ⟨m, hm, rfl⟩ := shift_eq_unit.mp h
        refine longest_number (by decide) ?_ hm
        rintro x' r - ⟨rfl, rfl⟩ hx'
        simp_all
    · obtain ⟨rfl, rfl⟩ := unit.inj h
      have hnum : number [] = unit .integer 0 := rfl
      exact longest_number (by decide) (fun _ _ _ ht => by cases ht) hnum
  split at h
  · next h34 =>
    subst h34
    obtain ⟨m, hm, rfl⟩ := shift_eq_unit.mp h
    exact longest_string hm
  split at h
  · next h10 =>
    subst h10
    obtain ⟨rfl, rfl⟩ := unit.inj h
    exact longest_eol t
  split at h
  · cases h
  split at h
  · next h48 h34 h10 hblank hd =>
    obtain ⟨m, hm, rfl⟩ := shift_eq_unit.mp h
    exact longest_number hd (fun _ _ h48' => absurd h48' h48) hm
  split at h
  · next h47 h46 h37 h48 h34 h10 hblank hd hs =>
    obtain ⟨rfl, rfl⟩ := unit.inj h
    exact longest_ident ((isIdentStart_iff.mp hs).resolve_right h46)
  · next h47 h46 h37 h48 h34 h10 hblank hd hs =>
    exact longest_operator (fun hl => hs (isIdentStart_iff.mpr (.inl hl))) hd h47 h46 h37 h34
      h10 h

/-- The scanner reads an end of line only as a line feed on its own. -/
theorem next_eq_eol {b : UInt8} {t : List UInt8} {n : Nat} (h : next b t = unit .eol n) :
    b = 10 ∧ n = 1 := by
  have hl := next_eq_unit h
  have hlex : Lexical .eol ((b :: t).take n) := hl.lexical
  generalize hu : (b :: t).take n = u at hlex
  cases hlex
  obtain ⟨m, rfl⟩ : ∃ m, n = m + 1 := ⟨n - 1, by have := pos_of_next_eq_unit h; omega⟩
  rw [List.take_succ_cons, List.cons.injEq, List.take_eq_nil_iff] at hu
  obtain ⟨rfl, rfl | rfl⟩ := hu
  · exact ⟨rfl, rfl⟩
  · have := hl.le_length
    simp only [List.length_singleton] at this
    exact ⟨rfl, by omega⟩

/-- The scanner never reads an end of input: that is only ever signalled after the text. -/
theorem next_ne_eof {b : UInt8} {t : List UInt8} {k : TokenKind} {n : Nat}
    (h : next b t = unit k n) : k ≠ .eof := by
  rintro rfl
  have hlex : Lexical .eof ((b :: t).take n) := (next_eq_unit h).lexical
  generalize (b :: t).take n = u at hlex
  cases hlex

/-! ## Skipping blanks

Only the dispatch itself skips a byte: every scanner behind it ends in a unit or a fault. -/

theorem shift_ne_blank {j : Nat} {s : Scan} (h : s ≠ blank) : s.shift j ≠ blank := by
  cases s <;> simp_all [shift]

theorem exponent_ne_blank (r : List UInt8) : exponent r ≠ blank := by
  unfold exponent
  repeat' split
  all_goals simp

theorem fraction_ne_blank (r : List UInt8) : fraction r ≠ blank :=
  shift_ne_blank (exponent_ne_blank _)

theorem number_ne_blank (r : List UInt8) : number r ≠ blank := by
  unfold number
  split
  · exact shift_ne_blank (fraction_ne_blank _)
  · simp

theorem stringBody_ne_blank (escaped : Bool) (r : List UInt8) : stringBody escaped r ≠ blank := by
  induction r generalizing escaped with
  | nil => simp [stringBody]
  | cons b rest ih =>
    unfold stringBody
    repeat' split
    all_goals first | exact shift_ne_blank (ih _) | simp

theorem blockBody_ne_blank (r : List UInt8) : blockBody r ≠ blank := by
  induction r with
  | nil => simp [blockBody]
  | cons b rest ih =>
    unfold blockBody
    repeat' split
    all_goals first | exact shift_ne_blank ih | simp

theorem operator_ne_blank (b : UInt8) (r : List UInt8) : operator b r ≠ blank := by
  unfold operator
  repeat' split
  all_goals simp

/-- The scanner skips a byte exactly when it is a space, a tab or a carriage return. -/
theorem next_eq_blank_iff {b : UInt8} {t : List UInt8} : next b t = blank ↔ isBlank b := by
  constructor
  · intro h
    unfold next at h
    repeat' split at h
    all_goals first
      | assumption
      | cases h
      | exact absurd h (shift_ne_blank (blockBody_ne_blank _))
      | exact absurd h (shift_ne_blank (fraction_ne_blank _))
      | exact absurd h (shift_ne_blank (number_ne_blank _))
      | exact absurd h (shift_ne_blank (stringBody_ne_blank _ _))
      | exact absurd h (operator_ne_blank _ _)
  · intro hb
    have hs := isBlank_iff.mp hb
    have h47 : b ≠ 47 := by rintro rfl; simp at hs
    have h46 : b ≠ 46 := by rintro rfl; simp at hs
    have h37 : b ≠ 37 := by rintro rfl; simp at hs
    have h48 : b ≠ 48 := by rintro rfl; simp at hs
    have h34 : b ≠ 34 := by rintro rfl; simp at hs
    have h10 : b ≠ 10 := by rintro rfl; simp at hs
    simp [next, h47, h46, h37, h48, h34, h10, hb]

end Scan

end ConfLex
