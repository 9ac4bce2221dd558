import ConfLex.Proofs.Positions

/-!
# Lexing never cuts a character

A unit's text is taken from the source as the bytes from its start to the cursor, which is safe
only when both offsets are character boundaries; the collector takes the line feed before the
cursor, or nothing at the cursor, under the same condition. This module shows that on a
well-formed text every such piece lies on character boundaries, whatever cursor the lexer starts
from and whatever the listener does.

From a character boundary every unit ends on one, since the bytes after a unit are valid again
(`LongestUnit.valid_drop`); so each signal a run hands is heard at a boundary, and a unit's start
is one too (`Lexer.Hands.valid`). From inside a character the lexer hands nothing: the byte there
is a continuation byte, which begins no unit, so the run fails at once with that byte read as a
character of its own, without moving (`Lexer.run_of_continuation`).
-/

namespace ConfLex

open ByteClass

/-! ## Character boundaries of valid text -/

namespace Utf8

theorem startsChar_of_valid {r : List UInt8} (h : Valid r) : startsChar r := by
  cases h with
  | nil => rfl
  | cons c _ => exact startsChar_encodeChar_append c _

/-- The bytes of a valid text after an offset at which a character starts are valid. -/
theorem Valid.drop {bytes : List UInt8} (h : Valid bytes) {o : Nat} (ho : startsChar (bytes.drop o)) :
    Valid (bytes.drop o) :=
  Valid.of_append (u := bytes.take o) (by rw [List.take_append_drop]; exact h) ho

theorem isBoundary_of_valid {bytes : List UInt8} {o : Nat} (ho : o ≤ bytes.length)
    (h : Valid (bytes.drop o)) : isBoundary bytes o := by
  simp [isBoundary, ho, startsChar_of_valid h]

/-- The piece of a text between two character boundaries in order. -/
theorem slice?_of_isBoundary {bytes : List UInt8} {start stop : Nat} (hle : start ≤ stop)
    (hstop : stop ≤ bytes.length) (hs : isBoundary bytes start) (ht : isBoundary bytes stop) :
    slice? bytes start stop = some ((bytes.drop start).take (stop - start)) := by
  simp [slice?, hle, hstop, hs, ht]

/-- A line feed is a character of its own: both its offset and the next are boundaries. -/
theorem slice?_newline {bytes : List UInt8} {p : Nat} (hp : 0 < p) (hnl : bytes[p - 1]? = some 10)
    (hstop : p ≤ bytes.length) (ht : isBoundary bytes p) :
    slice? bytes (p - 1) p = some [10] := by
  have hdrop : bytes.drop (p - 1) = 10 :: bytes.drop p := by
    rw [List.drop_eq_getElem?_toList_append, hnl, Option.toList_some, List.singleton_append,
      Nat.sub_add_cancel hp]
  have hs : isBoundary bytes (p - 1) := by
    simp only [isBoundary, hdrop, startsChar]
    have : isContinuation 10 = false := by decide
    simp [this]
    omega
  rw [slice?_of_isBoundary (Nat.sub_le p 1) hstop hs ht, hdrop, Nat.sub_sub_self hp]
  rfl

end Utf8

/-! ## A byte inside a character -/

theorem ascii_of_opener {b : UInt8} (h : Opener b) : b.toNat < 128 := by
  rcases h with h | h | rfl | rfl | rfl | rfl | rfl | rfl | rfl | rfl | ⟨op, v, hop⟩ | h
  · exact ascii_of_isIdentLead (by simp [isIdentLead, h])
  · exact ascii_of_isDecDigit h
  all_goals first
    | decide
    | exact Operator.ascii op b (by rw [hop]; exact List.mem_cons_self)
    | exact ascii_of_isBlank h

/-- A continuation byte begins no unit: the scanner stops at once, reading the byte as the
character whose code point is its value. -/
theorem Scan.next_of_continuation {b : UInt8} {t : List UInt8} (hb : Utf8.isContinuation b) :
    Scan.next b t = .fault (.invalidCharacter (Char.ofNat b.toNat)) 0 := by
  have hopen : ¬ Opener b := fun h => by
    have := (Utf8.isContinuation_iff.mp hb).1
    have := ascii_of_opener h
    omega
  have hlead : Utf8.leadingChar? (b :: t) = none := by
    simp [Utf8.leadingChar?, Utf8.startsChar, hb]
  rw [next_of_not_opener hopen, hlead, Option.getD_none]

/-- The rest of a well-formed text is well-formed, unless the cursor stands inside a character. -/
theorem Cursor.valid_rest_of_not_continuation {c : Cursor} (hv : Utf8.Valid c.source)
    (h : ∀ b t, c.rest = b :: t → ¬ Utf8.isContinuation b) : Utf8.Valid c.rest := by
  cases hr : c.rest with
  | nil => exact .nil
  | cons b t =>
    rw [← hr, c.rest_eq]
    exact hv.drop (by rw [← c.rest_eq, hr]; simp [Utf8.startsChar, h b t hr])

namespace Lexer

variable {σ : Type}

/-- A run from inside a character fails at once with the byte there read as a character, having
moved nothing and told the listener nothing. -/
theorem run_of_continuation (l : Listener σ) {c : Cursor} (s : σ) {b : UInt8} {t : List UInt8}
    (h : c.rest = b :: t) (hb : Utf8.isContinuation b) :
    run l c s = ⟨(c.fail (.invalidCharacter (Char.ofNat b.toNat))).1, s,
      .error (c.fail (.invalidCharacter (Char.ofNat b.toNat))).2⟩ := by
  rw [run_fault h (Scan.next_of_continuation hb)]
  rfl

namespace Hands

variable {c d : Cursor} {sig : Signal}

/-- A run from inside a character hands nothing. -/
theorem not_of_continuation {b : UInt8} {t : List UInt8} (h : c.rest = b :: t)
    (hb : Utf8.isContinuation b) (hd : Hands c d sig) : False := by
  have hs := Scan.next_of_continuation (t := t) hb
  cases hd with
  | unit h' hs' => rw [h, List.cons.injEq] at h'; obtain ⟨rfl, rfl⟩ := h'; rw [hs] at hs'; cases hs'
  | blank h' hs' => rw [h, List.cons.injEq] at h'; obtain ⟨rfl, rfl⟩ := h'; rw [hs] at hs'; cases hs'
  | past h' hs' => rw [h, List.cons.injEq] at h'; obtain ⟨rfl, rfl⟩ := h'; rw [hs] at hs'; cases hs'
  | eol h' => rw [h] at h'; cases h'
  | eof h' => rw [h] at h'; cases h'

/-- A run that hands anything starts at a character boundary, where the rest of a valid text is
valid. -/
theorem valid_rest (hv : Utf8.Valid c.source) (hd : Hands c d sig) : Utf8.Valid c.rest :=
  c.valid_rest_of_not_continuation hv fun _ _ hr hb => not_of_continuation hr hb hd

/-- From a character boundary of valid text, every signal is heard where the rest is valid
again, and every unit starts where the text is valid. -/
theorem valid (hv : Utf8.Valid c.rest) (hd : Hands c d sig) :
    Utf8.Valid d.rest ∧ ∀ k tok, sig = .unit k tok → Utf8.Valid (d.source.drop tok.span.start) := by
  induction hd with
  | @unit c b t k n hrest hs =>
    refine ⟨?_, fun k' tok hsig => ?_⟩
    · rw [Cursor.rest_advanceBy, hrest]
      exact (Scan.next_eq_unit hs).valid_drop (hrest ▸ hv)
    · have hk : Signal.ofUnit k ⟨(b :: t).take n, ⟨c.pos, c.pos + n⟩⟩ =
          .unit k ⟨(b :: t).take n, ⟨c.pos, c.pos + n⟩⟩ := by
        cases k <;> first | rfl | cases hsig
      rw [hk, Signal.unit.injEq] at hsig
      obtain ⟨-, rfl⟩ := hsig
      rw [Cursor.source_advanceBy, ← c.rest_eq]
      exact hv
  | @blank c d sig b t hrest hs _ ih =>
    apply ih
    rw [Cursor.rest_advance_cons hrest]
    exact (hrest ▸ hv).of_cons_ascii (ascii_of_isBlank (Scan.next_eq_blank_iff.mp hs))
  | @past c d sig b t k n hrest hs notes _ ih =>
    apply ih
    rw [Cursor.rest_reportAll, Cursor.rest_advanceBy, hrest]
    exact (Scan.next_eq_unit hs).valid_drop (hrest ▸ hv)
  | eol hrest => exact ⟨hrest ▸ .nil, fun _ _ h => by cases h⟩
  | eof hrest notes => exact ⟨by rw [Cursor.rest_reportAll, hrest]; exact .nil, fun _ _ h => by cases h⟩

/-- Every signal of a run over valid text is heard at a character boundary within the text, and
the text of every unit is the piece of the source from its start, a boundary too, up to the
cursor, ending within the source. -/
theorem boundaries (hv : Utf8.Valid c.source) (hc : c.Indexed) (hd : Hands c d sig) :
    Utf8.isBoundary d.source d.pos ∧ d.pos ≤ d.source.length ∧
      ∀ k tok, sig = .unit k tok →
        tok.span.start ≤ d.pos ∧ d.sliceFrom? tok.span.start = some tok.bytes ∧
          tok.span.start + tok.bytes.length ≤ d.source.length := by
  have hdi := hd.moves.indexed hc
  obtain ⟨hrest, htok⟩ := hd.valid (hd.valid_rest hv)
  have hpos : Utf8.isBoundary d.source d.pos :=
    Utf8.isBoundary_of_valid hdi.pos_le (d.rest_eq ▸ hrest)
  refine ⟨hpos, hdi.pos_le, fun k tok hsig => ?_⟩
  obtain ⟨hstop, hle, hbytes⟩ := hd.token_of_unit k tok hsig
  have hstart : Utf8.isBoundary d.source tok.span.start :=
    Utf8.isBoundary_of_valid (by have := hdi.pos_le; omega) (htok k tok hsig)
  have hslice : d.sliceFrom? tok.span.start = some tok.bytes := by
    rw [Cursor.sliceFrom?, ← hstop, Utf8.slice?_of_isBoundary hle (hstop ▸ hdi.pos_le) hstart
      (hstop ▸ hpos), hbytes]
  have hlen : tok.bytes.length = tok.span.stop - tok.span.start := by
    rw [hbytes, List.length_take, List.length_drop]
    have := hdi.pos_le
    omega
  refine ⟨by omega, hslice, ?_⟩
  have := hdi.pos_le
  omega

end Hands

end Lexer

/-- Lexing well-formed text never cuts a character, from any cursor reached from the start of the
text by any operations, with any listener. Every signal is heard at a character boundary. The
text of every unit is the piece of the source from its start, at or before the cursor, to the
cursor, between character boundaries, and its end lies within the source; an end of line heard
just past a line feed finds that line feed as a piece of its own. Every lexeme a collector
records, with any options, is the piece of the source its span covers, between character
boundaries. And a run that starts inside a character fails at once, before the listener hears
anything, with the continuation byte there read as the character whose code point is its
value, reported at the cursor, which does not move. -/
theorem lexing_keeps_character_boundaries (text name : String) (ops : List Cursor.Op)
    {σ : Type} (l : Listener σ) (s : σ) (col : Collector) :
    let bytes := Utf8.encode text
    let c := (Cursor.new bytes name).perform ops
    (∀ x ∈ (Lexer.run l.watch c (s, [])).state.2,
      Utf8.isBoundary bytes x.cursor.pos ∧
      (∀ k tok, x.signal = .unit k tok →
        tok.span.start ≤ x.cursor.pos ∧ x.cursor.sliceFrom? tok.span.start = some tok.bytes ∧
          tok.span.start + tok.bytes.length ≤ bytes.length) ∧
      (x.signal = .eol → 0 < x.cursor.pos → bytes[x.cursor.pos - 1]? = some 10 →
        x.cursor.sliceFrom? (x.cursor.pos - 1) = some [10])) ∧
    ((∀ x ∈ col.lexemes.toList, Utf8.slice? bytes x.span.start x.span.stop = some x.bytes) →
      ∀ x ∈ (Lexer.run Collector.listener c col).state.lexemes.toList,
        Utf8.slice? bytes x.span.start x.span.stop = some x.bytes) ∧
    (∀ b t, c.rest = b :: t → Utf8.isContinuation b →
      Lexer.run l c s = ⟨(c.fail (.invalidCharacter (Char.ofNat b.toNat))).1, s,
        .error (c.fail (.invalidCharacter (Char.ofNat b.toNat))).2⟩) := by
  intro bytes c
  have hm := Cursor.moves_perform (Cursor.new bytes name) ops
  have hc : c.Indexed := hm.indexed (Cursor.indexed_new _ _)
  have hsrc : c.source = bytes := hm.source_eq
  have hv : Utf8.Valid c.source := hsrc ▸ Utf8.valid_encode text
  have hat : ∀ d sig, Lexer.Hands c d sig →
      Utf8.isBoundary bytes d.pos ∧ d.pos ≤ bytes.length ∧
      (∀ k tok, sig = .unit k tok →
        tok.span.start ≤ d.pos ∧ d.sliceFrom? tok.span.start = some tok.bytes ∧
          tok.span.start + tok.bytes.length ≤ bytes.length) ∧
      (0 < d.pos → bytes[d.pos - 1]? = some 10 → d.sliceFrom? (d.pos - 1) = some [10]) := by
    intro d sig hd
    have hds : d.source = bytes := hd.moves.source_eq.trans hsrc
    obtain ⟨hpos, hle, hunit⟩ := hd.boundaries hv hc
    rw [hds] at hpos hle hunit
    exact ⟨hpos, hle, hunit, fun hp hnl => by
      rw [Cursor.sliceFrom?, hds]
      exact Utf8.slice?_newline hp hnl hle hpos⟩
  refine ⟨fun x hx => ?_, fun hcol => ?_, fun b t hr hb => Lexer.run_of_continuation l s hr hb⟩
  · obtain ⟨hpos, -, hunit, hnl⟩ := hat _ _ (Lexer.watch_hands l c s x hx)
    exact ⟨hpos, hunit, fun _ => hnl⟩
  · refine Lexer.run_invariant_hands
      (fun col : Collector => ∀ x ∈ col.lexemes.toList,
        Utf8.slice? bytes x.span.start x.span.stop = some x.bytes)
      c col (fun d sig col hd hcol x hx => ?_) hcol
    obtain ⟨hpos, hle, hunit, hnl⟩ := hat d sig hd
    have hds : d.source = bytes := hd.moves.source_eq.trans hsrc
    rcases Collector.mem_hear hx with hx | ⟨-, hwhat⟩
    · exact hcol x hx
    rcases hwhat with ⟨k, tok, hsig, hb, hspan⟩ | ⟨-, hp, hnl', hb, hspan⟩ | ⟨hb, hspan⟩
    · obtain ⟨hstart, hslice, -⟩ := hunit k tok hsig
      have hstop := (hd.token_of_unit k tok hsig).1
      rw [hb, hspan, hstop, ← hds]
      exact hslice
    · rw [hb, hspan]
      rw [Cursor.sliceFrom?, hds] at hnl
      rw [hds] at hnl'
      exact hnl hp hnl'
    · rw [hb, hspan, Utf8.slice?_of_isBoundary (Nat.le_refl _) hle hpos hpos, Nat.sub_self,
        List.take_zero]

end ConfLex
