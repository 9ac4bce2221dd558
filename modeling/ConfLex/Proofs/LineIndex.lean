import ConfLex.Lex.Lexer
import ConfLex.Source.File

/-!
# The line index of a cursor

A cursor records the offsets at which the lines it has passed start, one more each time it
passes a line feed, and reads its line and column off that record. This module shows that the
record never drifts from the text. Whatever is done to a cursor that started at the beginning of
a text (looking, reading, moving, reporting, failing, or running the lexer from it with any
listener) it holds exactly the line starts of the text before its position,
`lineStartsOf (source.take pos)`; its position never moves back and never passes the end.

Every operation moves a cursor forward over some bytes and appends diagnostics (`Cursor.Moves`),
and one step over a byte keeps the index (`Cursor.Indexed.advance`): everything else follows
from these two facts. The main statement is `Cursor.line_index_reachable`.
-/

namespace ConfLex

/-! ## Line starts of a text -/

namespace lineStartsOf

theorem after_append (u v : List UInt8) (i : Nat) :
    after (u ++ v) i = after u i ++ after v (i + u.length) := by
  induction u generalizing i with
  | nil => simp [after]
  | cons b u ih =>
    have hi : i + 1 + u.length = i + (u.length + 1) := by omega
    by_cases hb : b = 10 <;> simp [after, hb, ih, hi]

/-- The line starts after a line feed move with the offset of the first byte. -/
theorem after_eq_map (v : List UInt8) (i : Nat) : after v i = (after v 0).map (· + i) := by
  induction v generalizing i with
  | nil => rfl
  | cons b v ih =>
    simp only [after]
    rw [ih (i + 1), ih 1]
    by_cases hb : b = 10 <;> simp [hb, Function.comp_def, Nat.add_assoc, Nat.add_comm 1]

theorem length_after (v : List UInt8) (i : Nat) : (after v i).length = v.count 10 := by
  induction v generalizing i with
  | nil => rfl
  | cons b v ih => by_cases hb : b = 10 <;> simp [after, hb, ih]

/-- Every line start after a line feed lies past the first byte and within the bytes. -/
theorem bounds_after (v : List UInt8) (i : Nat) :
    ∀ x ∈ after v i, i < x ∧ x ≤ i + v.length := by
  induction v generalizing i with
  | nil => simp [after]
  | cons b v ih =>
    intro x hx
    have hrest : ∀ y ∈ after v (i + 1), i < y ∧ y ≤ i + (v.length + 1) := fun y hy => by
      have := ih (i + 1) y hy
      omega
    by_cases hb : b = 10
    · simp only [after, hb, if_true, List.mem_cons] at hx
      rcases hx with rfl | hx
      · simp
      · exact hrest x hx
    · simp only [after, hb, if_false] at hx
      exact hrest x hx

theorem pairwise_after (v : List UInt8) (i : Nat) : (after v i).Pairwise (· < ·) := by
  induction v generalizing i with
  | nil => exact List.Pairwise.nil
  | cons b v ih =>
    by_cases hb : b = 10
    · simp only [after, hb, if_true, List.pairwise_cons]
      exact ⟨fun x hx => (bounds_after v (i + 1) x hx).1, ih (i + 1)⟩
    · simp only [after, hb, if_false]
      exact ih (i + 1)

end lineStartsOf

/-- The line starts of two texts one after the other: those of the first, then those after line
feeds of the second, moved past the first. -/
theorem lineStartsOf_append (u v : List UInt8) :
    lineStartsOf (u ++ v) = lineStartsOf u ++ (lineStartsOf v).tail.map (· + u.length) := by
  simp only [lineStartsOf, lineStartsOf.after_append, List.tail_cons, List.cons_append,
    Nat.zero_add]
  rw [lineStartsOf.after_eq_map v u.length]

/-- One more byte adds a line start exactly when it is a line feed. -/
theorem lineStartsOf_concat (u : List UInt8) (b : UInt8) :
    lineStartsOf (u ++ [b]) = lineStartsOf u ++ if b = 10 then [u.length + 1] else [] := by
  rw [lineStartsOf_append]
  by_cases hb : b = 10 <;> simp [lineStartsOf, lineStartsOf.after, hb, Nat.add_comm]

/-- A text has one line more than it has line feeds. -/
theorem length_lineStartsOf (bytes : List UInt8) :
    (lineStartsOf bytes).length = bytes.count 10 + 1 := by
  simp [lineStartsOf, lineStartsOf.length_after]

theorem le_length_of_mem_lineStartsOf {bytes : List UInt8} {x : Nat}
    (h : x ∈ lineStartsOf bytes) : x ≤ bytes.length := by
  rcases List.mem_cons.mp h with rfl | h
  · exact Nat.zero_le _
  · have := (lineStartsOf.bounds_after bytes 0 x h).2
    omega

/-- Line starts come in increasing order. -/
theorem pairwise_lineStartsOf (bytes : List UInt8) : (lineStartsOf bytes).Pairwise (· < ·) := by
  refine List.pairwise_cons.mpr ⟨fun x hx => ?_, lineStartsOf.pairwise_after bytes 0⟩
  exact (lineStartsOf.bounds_after bytes 0 x hx).1

/-- The line starts of the first `n` bytes of a text: 0, then one past the offset of every line
feed among them, in order. -/
theorem lineStartsOf_take_eq_range (bytes : List UInt8) {n : Nat} (hn : n ≤ bytes.length) :
    lineStartsOf (bytes.take n) =
      0 :: ((List.range n).filter (fun i => bytes[i]? == some 10)).map (· + 1) := by
  induction n with
  | zero => rfl
  | succ n ih =>
    have hlt : n < bytes.length := hn
    rw [List.take_add_one, List.getElem?_eq_getElem hlt, Option.toList_some, lineStartsOf_concat,
      ih (Nat.le_of_lt hlt), List.length_take, Nat.min_eq_left (Nat.le_of_lt hlt), List.range_succ,
      List.filter_append, List.map_append, List.cons_append]
    by_cases hb : bytes[n] = 10 <;> simp [List.getElem?_eq_getElem hlt, hb]

/-! ## Cursors that keep their index -/

namespace Cursor

theorem lineStarts_advance_cons {c : Cursor} {b : UInt8} {t : List UInt8} (h : c.rest = b :: t) :
    c.advance.lineStarts = if b = 10 then c.lineStarts.push (c.pos + 1) else c.lineStarts := by
  unfold advance; split <;> simp_all

theorem pos_lt_of_rest_cons {c : Cursor} {b : UInt8} {t : List UInt8} (h : c.rest = b :: t) :
    c.pos < c.source.length :=
  (List.getElem?_eq_some_iff.mp (source_getElem?_pos h)).1

/-- A cursor whose position lies within its text and whose record of line starts is that of the
text before the position. -/
structure Indexed (c : Cursor) : Prop where
  pos_le : c.pos ≤ c.source.length
  lineStarts_eq : c.lineStarts.toList = lineStartsOf (c.source.take c.pos)

theorem indexed_new (source : List UInt8) (name : String) : Indexed (new source name) :=
  ⟨Nat.zero_le _, rfl⟩

/-- Reporting does not touch the index. -/
theorem Indexed.withReports {c : Cursor} (h : Indexed c) (r : List Diagnostic) :
    Indexed { c with reports := r } :=
  ⟨h.pos_le, h.lineStarts_eq⟩

/-- One step over a byte keeps the index: a line feed passed adds the start of the next line. -/
theorem Indexed.advance {c : Cursor} (h : Indexed c) : Indexed c.advance := by
  cases hr : c.rest with
  | nil => rwa [advance_of_rest_nil hr]
  | cons b t =>
    have hlt := pos_lt_of_rest_cons hr
    constructor
    · rw [source_advance, pos_advance_cons hr]
      omega
    · rw [source_advance, pos_advance_cons hr, lineStarts_advance_cons hr, List.take_add_one,
        source_getElem?_pos hr, Option.toList_some, lineStartsOf_concat, ← h.lineStarts_eq,
        List.length_take, Nat.min_eq_left (Nat.le_of_lt hlt)]
      by_cases hb : b = 10 <;> simp [hb]

theorem Indexed.advanceBy {c : Cursor} (h : Indexed c) (n : Nat) : Indexed (c.advanceBy n) := by
  induction n generalizing c with
  | zero => exact h
  | succ n ih => exact ih h.advance

/-! ## What an operation can do to a cursor -/

/-- `d` is `c` moved forward over some bytes, with some diagnostics reported after those of `c`. -/
def Moves (c d : Cursor) : Prop := ∃ n ds, d = { c.advanceBy n with reports := c.reports ++ ds }

namespace Moves

variable {c d e : Cursor}

theorem refl (c : Cursor) : Moves c c := ⟨0, [], by rw [List.append_nil]; rfl⟩

theorem trans (h : Moves c d) (h' : Moves d e) : Moves c e := by
  obtain ⟨n, ds, rfl⟩ := h
  obtain ⟨m, es, rfl⟩ := h'
  refine ⟨n + m, ds ++ es, ?_⟩
  rw [advanceBy_withReports, advanceBy_add]
  dsimp only
  rw [List.append_assoc]

theorem advanceBy (c : Cursor) (n : Nat) : Moves c (c.advanceBy n) :=
  ⟨n, [], by rw [List.append_nil, ← reports_advanceBy n c]⟩

theorem advance (c : Cursor) : Moves c c.advance := advanceBy c 1

theorem reportAll (c : Cursor) (notes : List (Level × String)) : Moves c (c.reportAll notes) :=
  ⟨0, notes.map c.diagnostic, by rw [reportAll_eq]; rfl⟩

theorem report (c : Cursor) (level : Level) (message : String) :
    Moves c (c.report level message) :=
  reportAll c [(level, message)]

theorem fail (c : Cursor) (kind : LexErrorKind) : Moves c (c.fail kind).1 :=
  ⟨0, [c.diagnostic (.error, kind.message)], by rw [fail_eq]; rfl⟩

theorem next (c : Cursor) : Moves c c.next.1 := by
  cases h : c.advance.current? with
  | some b =>
    have hn : c.next.1 = c.advance := by simp [Cursor.next, h]
    rw [hn]
    exact advance c
  | none =>
    have hn : c.next.1 = (c.advance.fail .unexpectedEof).1 := by simp [Cursor.next, h]
    rw [hn]
    exact (advance c).trans (fail _ _)

/-- A whole run of the lexer moves its cursor. -/
theorem run {σ : Type} (l : Listener σ) (c : Cursor) (s : σ) : Moves c (Lexer.run l c s).cursor := by
  fun_induction Lexer.run l c s with
  | case1 c s hrest =>
    exact (reportAll _ _).trans (reportAll _ _)
  | case2 c s b t hrest hs ih => exact (advance c).trans ih
  | case3 c s b t hrest k n hs c1 r c2 hgo ih => exact ((advanceBy c n).trans (reportAll _ _)).trans ih
  | case4 c s b t hrest k n hs c1 r c2 hgo => exact (advanceBy c n).trans (reportAll _ _)
  | case5 c s b t hrest k o hs failed => exact (advanceBy c o).trans (fail _ _)

theorem source_eq (h : Moves c d) : d.source = c.source := by
  obtain ⟨n, ds, rfl⟩ := h
  exact source_advanceBy n c

theorem name_eq (h : Moves c d) : d.name = c.name := by
  obtain ⟨n, ds, rfl⟩ := h
  exact name_advanceBy n c

theorem pos_le (h : Moves c d) : c.pos ≤ d.pos := by
  obtain ⟨n, ds, rfl⟩ := h
  show c.pos ≤ (c.advanceBy n).pos
  rw [pos_advanceBy]
  omega

theorem reports_prefix (h : Moves c d) : c.reports <+: d.reports := by
  obtain ⟨n, ds, rfl⟩ := h
  exact List.prefix_append _ _

theorem indexed (h : Moves c d) (hc : Indexed c) : Indexed d := by
  obtain ⟨n, ds, rfl⟩ := h
  exact (hc.advanceBy n).withReports _

end Moves

/-! ## Operations on a cursor -/

/-- What can be done to a cursor: look at the byte at the position or at the one after it, take
the byte at the position, advance and take the byte then there, read over a class of bytes,
report a message at some level, fail with an error, or run the lexer from the cursor with any
listener. -/
inductive Op : Type 1 where
  | current
  | peek
  | get
  | next
  | readWhile (p : UInt8 → Bool)
  | report (level : Level) (message : String)
  | fail (kind : LexErrorKind)
  | lex {σ : Type} (l : Listener σ) (s : σ)

/-- The cursor after an operation. -/
def Op.apply : Op → Cursor → Cursor
  | .current, c => c
  | .peek, c => c
  | .get, c => c.get.2
  | .next, c => c.next.1
  | .readWhile p, c => c.readWhile p
  | .report level message, c => c.report level message
  | .fail kind, c => (c.fail kind).1
  | .lex l s, c => (Lexer.run l c s).cursor

/-- The cursor after a sequence of operations, applied in order. -/
def perform (c : Cursor) (ops : List Op) : Cursor := ops.foldl (fun c op => op.apply c) c

@[simp] theorem perform_nil (c : Cursor) : c.perform [] = c := rfl

@[simp] theorem perform_cons (c : Cursor) (op : Op) (ops : List Op) :
    c.perform (op :: ops) = (op.apply c).perform ops := rfl

/-- Every operation moves the cursor. -/
theorem Op.moves (op : Op) (c : Cursor) : Moves c (op.apply c) := by
  cases op with
  | current => exact Moves.refl c
  | peek => exact Moves.refl c
  | get => exact Moves.advance c
  | next => exact Moves.next c
  | readWhile p => exact Moves.advanceBy c _
  | report level message => exact Moves.report c level message
  | fail kind => exact Moves.fail c kind
  | lex l s => exact Moves.run l c s

theorem moves_perform (c : Cursor) (ops : List Op) : Moves c (c.perform ops) := by
  induction ops generalizing c with
  | nil => exact Moves.refl c
  | cons op ops ih => exact (op.moves c).trans (ih _)

/-! ## Reading the index -/

namespace Indexed

variable {c : Cursor}

/-- The line starts passed: 0, then one past the offset of every line feed before the
position. -/
theorem lineStarts_eq_range (h : Indexed c) :
    c.lineStarts.toList =
      0 :: ((List.range c.pos).filter (fun i => c.source[i]? == some 10)).map (· + 1) := by
  rw [h.lineStarts_eq, lineStartsOf_take_eq_range _ h.pos_le]

theorem lineStarts_pairwise (h : Indexed c) : c.lineStarts.toList.Pairwise (· < ·) := by
  rw [h.lineStarts_eq]
  exact pairwise_lineStartsOf _

/-- The line is one more than the number of line feeds before the position. -/
theorem line_eq (h : Indexed c) : c.line = (c.source.take c.pos).count 10 + 1 := by
  rw [line, ← Array.length_toList, h.lineStarts_eq, length_lineStartsOf]

/-- The column is the distance from the last line start passed, which lies at or before the
position. -/
theorem column_eq (h : Indexed c) :
    ∃ last, c.lineStarts.back? = some last ∧ last ≤ c.pos ∧ c.column = c.pos - last := by
  have hne : (lineStartsOf (c.source.take c.pos)).getLast? ≠ none := by simp [lineStartsOf]
  obtain ⟨last, hlast⟩ := Option.ne_none_iff_exists'.mp hne
  have hmem : last ∈ lineStartsOf (c.source.take c.pos) := List.mem_of_getLast? hlast
  have hle := le_length_of_mem_lineStartsOf hmem
  rw [List.length_take, Nat.min_eq_left h.pos_le] at hle
  have hback : c.lineStarts.back? = some last := by
    rw [← Array.getLast?_toList, h.lineStarts_eq, hlast]
  exact ⟨last, hback, hle, by rw [column, hback, Option.getD_some]⟩

/-- The end of the input is reached exactly when the position is the text's length. -/
theorem atEnd_iff (h : Indexed c) : c.atEnd ↔ c.pos = c.source.length := by
  rw [atEnd, c.rest_eq, List.isEmpty_iff, List.drop_eq_nil_iff]
  have := h.pos_le
  omega

end Indexed

/-- The start of line `k` is looked up in the record for every line passed, and for no other
number. -/
theorem lineStart?_cases (c : Cursor) (k : Nat) :
    (1 ≤ k → k ≤ c.line → ∃ start, c.lineStarts[k - 1]? = some start ∧ c.lineStart? k = some start) ∧
      (k = 0 ∨ c.line < k → c.lineStart? k = none) := by
  constructor
  · intro h1 hk
    have hlt : k - 1 < c.lineStarts.size := by rw [line] at hk; omega
    refine ⟨c.lineStarts[k - 1], Array.getElem?_eq_getElem hlt, ?_⟩
    rw [lineStart?, if_neg (by omega), Array.getElem?_eq_getElem hlt]
  · rintro (rfl | hk)
    · rfl
    · rw [lineStart?, if_neg (by omega), Array.getElem?_eq_none]
      rw [line] at hk
      omega

/-- At the end of the input, taking a byte takes none and leaves the cursor as it is, and
advancing to the next byte reports an unexpected end of file at the cursor and fails with it,
leaving the cursor as it is otherwise. -/
theorem get_next_of_atEnd {c : Cursor} (h : c.atEnd) :
    c.get = (none, c) ∧
      c.next = (c.report .error LexErrorKind.unexpectedEof.message,
        .error ⟨.unexpectedEof, c.line, c.column⟩) := by
  have hr : c.rest = [] := List.isEmpty_iff.mp h
  have hadv := advance_of_rest_nil hr
  refine ⟨by simp [get, current?, hr, hadv], ?_⟩
  simp only [next, hadv, current?, hr, List.head?_nil]
  rfl

/-- Whatever sequence of operations is applied to a cursor at the start of a text, the cursor
keeps a faithful line index. Its position lies within the text, and no operation moves it back.
Its line starts are 0 and one past the offset of every line feed before the position, in
increasing order; its line is their number, one more than the number of those line feeds; its
column is its distance from the last of them; the start of line `k` is found for every line
passed and for no other number. It is at the end exactly when its position is the text's
length, and there taking a byte leaves it as it is, while advancing to the next byte only
reports and returns an unexpected end of file. -/
theorem line_index_reachable (source : List UInt8) (name : String) (ops : List Op) :
    let c := (new source name).perform ops
    c.source = source ∧ c.pos ≤ source.length ∧ (∀ op : Op, c.pos ≤ (op.apply c).pos) ∧
      c.lineStarts.toList =
        0 :: ((List.range c.pos).filter (fun i => source[i]? == some 10)).map (· + 1) ∧
      c.lineStarts.toList.Pairwise (· < ·) ∧
      c.line = c.lineStarts.size ∧ c.line = (source.take c.pos).count 10 + 1 ∧
      (∃ last, c.lineStarts.back? = some last ∧ last ≤ c.pos ∧ c.column = c.pos - last) ∧
      (∀ k, (1 ≤ k → k ≤ c.line →
          ∃ start, c.lineStarts[k - 1]? = some start ∧ c.lineStart? k = some start) ∧
        (k = 0 ∨ c.line < k → c.lineStart? k = none)) ∧
      (c.atEnd ↔ c.pos = source.length) ∧
      (c.atEnd → c.get = (none, c) ∧
        c.next = (c.report .error LexErrorKind.unexpectedEof.message,
          .error ⟨.unexpectedEof, c.line, c.column⟩)) := by
  intro c
  have hm := moves_perform (new source name) ops
  have hi : Indexed c := hm.indexed (indexed_new source name)
  have hs : c.source = source := hm.source_eq
  rw [← hs]
  exact ⟨rfl, hi.pos_le, fun op => (op.moves c).pos_le, hi.lineStarts_eq_range,
    hi.lineStarts_pairwise, rfl, hi.line_eq, hi.column_eq, lineStart?_cases c, hi.atEnd_iff,
    get_next_of_atEnd⟩

end Cursor

end ConfLex
