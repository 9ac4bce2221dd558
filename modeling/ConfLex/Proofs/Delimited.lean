import Mathlib.Data.List.Induction
import ConfLex.Proofs.Driver
import ConfLex.Proofs.LineIndex

/-!
# Strings and block comments, read to their closing delimiter

The bodies of strings and block comments are read by loops that carry one piece of state from
byte to byte.

The string loop carries whether the byte before was an escaping backslash. Each backslash that
is not escaped itself escapes the byte after it, so after any part of the body the flag is set
exactly when that part ends in a run of backslashes of odd length (`Escaping`,
`stringBody_append_of_passes`). The loop reads on until the first line feed, escaped or not, or
the first quote after a run of even length, which closes the string; or it runs off the end of
the input, where it fails with `unexpectedEof` when a backslash still waits for the byte it
escapes and with `eofInString` otherwise. The main statement is
`string_closes_after_even_backslash_run`.

The block comment loop stands on one byte at a time, from the byte after the opening `/*` on,
and stops on the first `*/`; the star of the opener does not count. It goes on from each byte as
it would from a cursor standing there (`blockBody_walk`), so it closes just after the first
`*/` and fails at the end of the input when there is none:
`block_comment_closes_at_first_close`.

Either loop fails where it stops: the lexer reports the error at the cursor moved to that byte.
-/

namespace ConfLex

open Scan

/-- Moving a cursor over all of its rest brings it to the end of its text. -/
theorem Cursor.pos_advanceBy_length_rest {c : Cursor} {b : UInt8} {t : List UInt8}
    (h : c.rest = b :: t) : (c.advanceBy c.rest.length).pos = c.source.length := by
  have hlt := Cursor.pos_lt_of_rest_cons h
  rw [Cursor.pos_advanceBy, Nat.min_self, c.rest_eq, List.length_drop]
  omega

/-! ## Runs of backslashes -/

/-- The length of the run of backslashes at the end of some bytes. -/
def backslashRun (p : List UInt8) : Nat := (p.reverse.takeWhile (· == 92)).length

/-- Whether the bytes read end in a backslash that escapes the next byte: a run of backslashes of
odd length. -/
def Escaping (p : List UInt8) : Bool := backslashRun p % 2 == 1

@[simp] theorem escaping_nil : Escaping [] = false := rfl

/-- A backslash escapes the next byte unless it is escaped itself; any other byte escapes
nothing. -/
theorem escaping_concat (p : List UInt8) (b : UInt8) :
    Escaping (p ++ [b]) = (!Escaping p && b == 92) := by
  by_cases hb : b = 92
  · subst hb
    have hrun : backslashRun (p ++ [92]) = backslashRun p + 1 := by
      simp [backslashRun]
    rw [Escaping, Escaping, hrun]
    rcases Nat.mod_two_eq_zero_or_one (backslashRun p) with h | h <;> simp [Nat.add_mod, h]
  · have hrun : backslashRun (p ++ [b]) = 0 := by
      simp [backslashRun, hb]
    simp [Escaping, hrun, hb]

/-! ## The string loop -/

/-- The string loop reads over the bytes `p` at the front of a body without stopping: none of
them is a line feed, and every quote among them is escaped. -/
def Passes (p : List UInt8) : Prop :=
  ∀ i (h : i < p.length), p[i] ≠ 10 ∧ (p[i] = 34 → Escaping (p.take i) = true)

instance : DecidablePred Passes := fun p =>
  inferInstanceAs (Decidable
    (∀ i (h : i < p.length), p[i] ≠ 10 ∧ (p[i] = 34 → Escaping (p.take i) = true)))

theorem passes_nil : Passes [] := fun i h => absurd h (Nat.not_lt_zero i)

/-- The loop reads over one more byte when it is no line feed and, if a quote, escaped. -/
theorem passes_concat {p : List UInt8} {b : UInt8} :
    Passes (p ++ [b]) ↔ Passes p ∧ b ≠ 10 ∧ (b = 34 → Escaping p = true) := by
  constructor
  · intro h
    refine ⟨fun i hi => ?_, ?_⟩
    · have hi' : i < (p ++ [b]).length := by simp; omega
      have := h i hi'
      rwa [List.getElem_append_left hi, List.take_append_of_le_length (Nat.le_of_lt hi)] at this
    · have := h p.length (by simp)
      simpa using this
  · rintro ⟨hp, h10, h34⟩ i hi
    rw [List.length_append, List.length_singleton] at hi
    rcases Nat.lt_or_eq_of_le (Nat.le_of_lt_succ hi) with hi | rfl
    · rw [List.getElem_append_left hi, List.take_append_of_le_length (Nat.le_of_lt hi)]
      exact hp i hi
    · simpa using ⟨h10, h34⟩

/-- One step of the string loop, over a byte that does not stop it. After an unescaped
backslash a byte must follow. -/
theorem stringBody_cons_step {escaped : Bool} {b : UInt8} {r : List UInt8} (h10 : b ≠ 10)
    (h34 : b = 34 → escaped = true) (hr : (!escaped && b == 92) = true → r ≠ []) :
    stringBody escaped (b :: r) = (stringBody (!escaped && b == 92) r).shift 1 := by
  cases escaped with
  | true => simp [stringBody, h10]
  | false =>
    by_cases h92 : b = 92
    · subst h92
      cases r with
      | nil => exact absurd rfl (hr rfl)
      | cons y r => simp [stringBody]
    · have h34' : b ≠ 34 := fun h => by simpa using h34 h
      have h92' : (b == 92) = false := beq_false_of_ne h92
      simp [stringBody, h10, h34', h92, h92']

/-- The loop invariant: once the string loop has read over `p`, it goes on from the rest with
the escape flag set exactly when `p` ends in a run of backslashes of odd length. -/
theorem stringBody_append_of_passes {p r : List UInt8} (hp : Passes p)
    (hr : Escaping p = true → r ≠ []) :
    stringBody false (p ++ r) = (stringBody (Escaping p) r).shift p.length := by
  induction p using List.reverseRecOn generalizing r with
  | nil => simp
  | append_singleton p b ih =>
    obtain ⟨hp, h10, h34⟩ := passes_concat.mp hp
    rw [escaping_concat] at hr ⊢
    rw [List.append_assoc, List.singleton_append, ih hp (fun _ => List.cons_ne_nil b r),
      stringBody_cons_step h10 h34 hr, shift_shift, List.length_append, List.length_singleton]

/-- A quote after a run of backslashes of even length closes the string. -/
theorem stringBody_closing {p r : List UInt8} (hp : Passes p) (he : Escaping p = false) :
    stringBody false (p ++ 34 :: r) = unit .string (p.length + 1) := by
  rw [stringBody_append_of_passes hp (by simp [he]), he]
  simp [stringBody, shift]

/-- A line feed fails the string where it stands, escaped or not. -/
theorem stringBody_lineBreak {p r : List UInt8} (hp : Passes p) :
    stringBody false (p ++ 10 :: r) = fault .lineBreakInString p.length := by
  rw [stringBody_append_of_passes hp (fun _ => List.cons_ne_nil _ _)]
  cases Escaping p <;> simp [stringBody, shift]

/-- A body the loop reads over in full fails at the end of the input: with `unexpectedEof` when
it ends in a backslash that escapes nothing, with `eofInString` otherwise. -/
theorem stringBody_of_passes {t : List UInt8} (ht : Passes t) :
    stringBody false t = fault (if Escaping t then .unexpectedEof else .eofInString) t.length := by
  cases he : Escaping t with
  | false =>
    have h := stringBody_append_of_passes (r := []) ht (by simp [he])
    rw [List.append_nil, he] at h
    simp [h, stringBody, shift]
  | true =>
    obtain rfl | ⟨p, b, rfl⟩ := List.eq_nil_or_concat t
    · simp at he
    simp only [List.concat_eq_append] at ht he ⊢
    rw [escaping_concat] at he
    obtain ⟨hpe, rfl⟩ : Escaping p = false ∧ b = 92 := by simpa using he
    rw [stringBody_append_of_passes (passes_concat.mp ht).1 (by simp [hpe]), hpe]
    simp [stringBody, shift]

/-- The string loop reads over a whole body, or stops at its first line feed or at its first
quote after a run of backslashes of even length. -/
theorem passes_or_stops (t : List UInt8) :
    Passes t ∨
      ∃ p b r, t = p ++ b :: r ∧ Passes p ∧ (b = 10 ∨ (b = 34 ∧ Escaping p = false)) := by
  induction t using List.reverseRecOn with
  | nil => exact .inl passes_nil
  | append_singleton p b ih =>
    rcases ih with hp | ⟨q, c, r, rfl, hq, hc⟩
    · by_cases h10 : b = 10
      · exact .inr ⟨p, b, [], rfl, hp, .inl h10⟩
      by_cases hstop : b = 34 ∧ Escaping p = false
      · exact .inr ⟨p, b, [], rfl, hp, .inr hstop⟩
      · refine .inl (passes_concat.mpr ⟨hp, h10, fun h34 => ?_⟩)
        simpa [h34] using hstop
    · exact .inr ⟨q, c, r ++ [b], by simp, hq, hc⟩

/-- A string literal ends just after the first quote that follows a run of backslashes of even
length, if no line feed and no end of input comes first. The loop's escape flag is the parity
of the run of backslashes read so far; the loop reads over the whole body or stops at its first
line feed or closing quote. A line feed fails the literal there, and the end of input fails it
at the end of the text, with `unexpectedEof` after a run of odd length and `eofInString`
otherwise; the lexer reports either error at the cursor moved to where the loop stopped. -/
theorem string_closes_after_even_backslash_run (d : Cursor) (t : List UInt8)
    (hd : d.rest = 34 :: t) :
    (∀ p r, t = p ++ r → Passes p → (Escaping p = true → r ≠ []) →
      stringBody false t = (stringBody (Escaping p) r).shift p.length) ∧
    (Passes t ∨
      ∃ p b r, t = p ++ b :: r ∧ Passes p ∧ (b = 10 ∨ (b = 34 ∧ Escaping p = false))) ∧
    (∀ p r, t = p ++ 34 :: r → Passes p → Escaping p = false →
      Scan.next 34 t = .unit .string (p.length + 2)) ∧
    (∀ p r, t = p ++ 10 :: r → Passes p →
      (d.advanceBy (p.length + 1)).current? = some 10 ∧
      ∀ (σ : Type) (l : Listener σ) (s : σ), Lexer.run l d s =
        ⟨((d.advanceBy (p.length + 1)).fail .lineBreakInString).1, s,
          .error ((d.advanceBy (p.length + 1)).fail .lineBreakInString).2⟩) ∧
    (Passes t →
      (d.advanceBy (t.length + 1)).pos = d.source.length ∧
      ∀ (σ : Type) (l : Listener σ) (s : σ), Lexer.run l d s =
        ⟨((d.advanceBy (t.length + 1)).fail
            (if Escaping t then .unexpectedEof else .eofInString)).1, s,
          .error ((d.advanceBy (t.length + 1)).fail
            (if Escaping t then .unexpectedEof else .eofInString)).2⟩) := by
  refine ⟨fun p r ht hp hr => ht ▸ stringBody_append_of_passes hp hr, passes_or_stops t,
    ?_, ?_, ?_⟩
  · rintro p r rfl hp he
    rw [next_quote, stringBody_closing hp he]
    simp only [shift, unit.injEq, true_and]
    omega
  · rintro p r rfl hp
    have hnext : Scan.next 34 (p ++ 10 :: r) = fault .lineBreakInString (p.length + 1) := by
      rw [next_quote, stringBody_lineBreak hp]
      simp [shift, Nat.add_comm]
    refine ⟨?_, fun σ l s => Lexer.run_fault hd hnext⟩
    simp [Cursor.current?, hd]
  · intro ht
    have hnext : Scan.next 34 t =
        fault (if Escaping t then .unexpectedEof else .eofInString) (t.length + 1) := by
      rw [next_quote, stringBody_of_passes ht]
      simp [shift, Nat.add_comm]
    refine ⟨?_, fun σ l s => Lexer.run_fault hd hnext⟩
    have := Cursor.pos_advanceBy_length_rest hd
    rwa [hd, List.length_cons] at this

/-- The literal `"\\"`: the second backslash is escaped by the first, so the quote after them
closes the string. -/
theorem string_after_escaped_backslash_closes :
    Passes [92, 92] ∧ Escaping [92, 92] = false ∧
      Scan.next 34 [92, 92, 34] = .unit .string 4 :=
  ⟨by decide, rfl, (string_closes_after_even_backslash_run (Cursor.new [34, 92, 92, 34] "s")
    [92, 92, 34] rfl).2.2.1 [92, 92] [] rfl (by decide) rfl⟩

/-! ## The block comment loop -/

/-- The scanner reads a block comment from its opener on as the loop reads the body. -/
theorem next_blockComment (body : List UInt8) :
    Scan.next 47 (42 :: body) = (blockBody body).shift 2 := by
  cases body <;> simp [next, blockBody, shift]

/-- The block comment loop goes on from each byte it reaches as it would start there: it passes
a byte unless a `*/` starts on it. -/
theorem blockBody_walk {w r : List UInt8} (hw : ¬ [42, 47] <:+: w ++ r.take 1) (hr : r ≠ []) :
    blockBody (w ++ r) = (blockBody r).shift w.length := by
  induction w with
  | nil => simp
  | cons b w ih =>
    have hw' : ¬ [42, 47] <:+: w ++ r.take 1 := fun hi => hw (List.infix_cons hi)
    obtain ⟨y, rest, hyr⟩ :=
      List.exists_cons_of_ne_nil (List.append_ne_nil_of_right_ne_nil w hr)
    have hhead : (w ++ r.take 1).head? = some y := by
      obtain ⟨z, r', rfl⟩ := List.exists_cons_of_ne_nil hr
      cases w with
      | nil => simpa using congrArg List.head? hyr
      | cons x w => simpa using congrArg List.head? hyr
    obtain ⟨s, hs⟩ := List.head?_eq_some_iff.mp hhead
    have hopen : ¬ (b = 42 ∧ y = 47) := by
      rintro ⟨rfl, rfl⟩
      exact hw ⟨[], s, by rw [List.cons_append, hs]; rfl⟩
    rw [List.cons_append, hyr, blockBody, if_neg (by simpa using hopen), ← hyr, ih hw',
      shift_shift, List.length_cons, Nat.add_comm]

/-- Where `*/` occurs, it has a first occurrence. -/
theorem exists_first_close {body : List UInt8} (h : [42, 47] <:+: body) :
    ∃ w r, body = w ++ 42 :: 47 :: r ∧ ¬ [42, 47] <:+: w := by
  induction body with
  | nil => simp at h
  | cons b body ih =>
    by_cases hpre : [42, 47] <+: b :: body
    · obtain ⟨r, hr⟩ := hpre
      exact ⟨[], r, by simp [← hr], fun hi => by simpa using hi.length_le⟩
    · have hin : [42, 47] <:+: body := by
        rcases List.infix_cons_iff.mp h with h' | h'
        · exact absurd h' hpre
        · exact h'
      obtain ⟨w, r, rfl, hfree⟩ := ih hin
      refine ⟨b :: w, r, rfl, fun hi => ?_⟩
      rcases List.infix_cons_iff.mp hi with hopen | hinner
      · obtain ⟨u, hu⟩ := hopen
        exact hpre ⟨u ++ 42 :: 47 :: r, by rw [← List.append_assoc, hu, List.cons_append]⟩
      · exact hfree hinner

/-- A block comment read from a cursor on its opening `/*` closes just after the first `*/`
that starts after the opener, exactly when there is one; otherwise the lexer fails with
`unexpectedEof` at the end of the text. At each byte it reaches, the loop goes on as from the
cursor standing on that byte. -/
theorem block_comment_closes_at_first_close (d : Cursor) (body : List UInt8)
    (hd : d.rest = 47 :: 42 :: body) :
    (∀ w r, body = w ++ r → r ≠ [] → ¬ [42, 47] <:+: w ++ r.take 1 →
      Scan.next 47 (42 :: body) =
        (blockBody (d.advanceBy (w.length + 2)).rest).shift (w.length + 2)) ∧
    ((∃ n, Scan.next 47 (42 :: body) = .unit .comment n) ↔ [42, 47] <:+: body) ∧
    (∀ w r, body = w ++ 42 :: 47 :: r → ¬ [42, 47] <:+: w →
      Scan.next 47 (42 :: body) = .unit .comment (w.length + 4)) ∧
    (¬ [42, 47] <:+: body →
      (d.advanceBy (body.length + 2)).pos = d.source.length ∧
      ∀ (σ : Type) (l : Listener σ) (s : σ), Lexer.run l d s =
        ⟨((d.advanceBy (body.length + 2)).fail .unexpectedEof).1, s,
          .error ((d.advanceBy (body.length + 2)).fail .unexpectedEof).2⟩) := by
  have hclose : ∀ w r, body = w ++ 42 :: 47 :: r → ¬ [42, 47] <:+: w →
      Scan.next 47 (42 :: body) = .unit .comment (w.length + 4) := by
    rintro w r rfl hfree
    rw [next_blockComment, blockBody_append hfree]
    simp only [shift, unit.injEq, true_and]
    omega
  refine ⟨?_, ⟨?_, fun h => ?_⟩, hclose, fun hfree => ?_⟩
  · rintro w r rfl hr hw
    rw [next_blockComment, blockBody_walk hw hr, shift_shift, Cursor.rest_advanceBy, hd]
    simp [Nat.add_comm]
  · rintro ⟨n, hn⟩
    rw [next_blockComment] at hn
    obtain ⟨m, hm, -⟩ := shift_eq_unit.mp hn
    obtain ⟨-, w, hw, -⟩ := blockBody_eq_unit hm
    have hpre : w ++ [42, 47] <+: body := hw ▸ List.take_prefix m body
    exact (List.suffix_append w [42, 47]).isInfix.trans hpre.isInfix
  · obtain ⟨w, r, hbody, hfree⟩ := exists_first_close h
    exact ⟨_, hclose w r hbody hfree⟩
  · have hnext : Scan.next 47 (42 :: body) = fault .unexpectedEof (body.length + 2) := by
      rw [next_blockComment, blockBody_of_free hfree]
      simp only [shift, fault.injEq, true_and]
      omega
    refine ⟨?_, fun σ l s => Lexer.run_fault hd hnext⟩
    have := Cursor.pos_advanceBy_length_rest hd
    rwa [hd, List.length_cons, List.length_cons] at this

/-- In `/*/` the star of the opener does not close the comment: the lexer runs to the end of the
text. -/
theorem block_comment_opener_star_does_not_close :
    ¬ [42, 47] <:+: [47] ∧ ((Cursor.new [47, 42, 47] "s").advanceBy 3).pos = 3 :=
  ⟨by decide,
    ((block_comment_closes_at_first_close (Cursor.new [47, 42, 47] "s") [47] rfl).2.2.2
      (by decide)).1⟩

end ConfLex
