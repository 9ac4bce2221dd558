import ConfLex.Proofs.Signals
import ConfLex.Lex.Collector

/-!
# Three ways to find a line

The line of an offset is computed in three places. A source file builds the index of its line
starts up front and searches it for the offset (`SourceFile.positionOf`), which comes to counting
the starts at or before the offset (`SourceFile.lineIndex_eq_countP`); a cursor
builds the same index as it goes (`Cursor.line`, `Cursor.column`); and the collector looks the
line of a lexeme up in the part of the index the cursor has built so far (`Collector.lineOf`).
All three agree, and agree with counting: the line of an offset is one more than the number of
line feeds before it (`line_computations_agree`).

The index splits at every offset into the starts at or before it, which are the starts of the
text before it, and starts past it (`lineStartsOf_eq_take_append`); each computation reads the
first part.
-/

namespace ConfLex

/-! ## The starts at or before an offset -/

theorem le_of_mem_lineStartsOf_take {bytes : List UInt8} {p x : Nat}
    (h : x ∈ lineStartsOf (bytes.take p)) : x ≤ p := by
  have := le_length_of_mem_lineStartsOf h
  rw [List.length_take] at this
  omega

/-- The line starts of a text are those of the text before an offset, then starts past the
offset. -/
theorem lineStartsOf_eq_take_append (bytes : List UInt8) (p : Nat) :
    ∃ r, lineStartsOf bytes = lineStartsOf (bytes.take p) ++ r ∧ ∀ x ∈ r, p < x := by
  refine ⟨(lineStartsOf (bytes.drop p)).tail.map (· + (bytes.take p).length), ?_, ?_⟩
  · rw [← lineStartsOf_append, List.take_append_drop]
  · intro x hx
    obtain ⟨y, hy, rfl⟩ := List.mem_map.mp hx
    have hb := lineStartsOf.bounds_after (bytes.drop p) 0 y hy
    simp only [List.length_take, List.length_drop] at hb ⊢
    omega

/-- The starts at or before an offset are the line starts of the text before it. -/
theorem takeWhile_le_lineStartsOf (bytes : List UInt8) (p : Nat) :
    (lineStartsOf bytes).takeWhile (· ≤ p) = lineStartsOf (bytes.take p) := by
  obtain ⟨r, hr, hpast⟩ := lineStartsOf_eq_take_append bytes p
  rw [hr, List.takeWhile_append_of_pos (fun x hx => decide_eq_true (le_of_mem_lineStartsOf_take hx))]
  cases r with
  | nil => rw [List.takeWhile_nil, List.append_nil]
  | cons y r =>
    have hy := hpast y List.mem_cons_self
    rw [List.takeWhile_cons_of_neg (by simpa using hy), List.append_nil]

theorem countP_le_lineStartsOf (bytes : List UInt8) (p : Nat) :
    (lineStartsOf bytes).countP (· ≤ p) = (bytes.take p).count 10 + 1 := by
  obtain ⟨r, hr, hpast⟩ := lineStartsOf_eq_take_append bytes p
  have hfirst : (lineStartsOf (bytes.take p)).countP (· ≤ p) = (lineStartsOf (bytes.take p)).length :=
    List.countP_eq_length.mpr fun x hx => decide_eq_true (le_of_mem_lineStartsOf_take hx)
  have hrest : r.countP (· ≤ p) = 0 :=
    List.countP_eq_zero.mpr fun x hx => by simpa using hpast x hx
  rw [hr, List.countP_append, hfirst, hrest, length_lineStartsOf]

/-- The start of the line on which an offset lies: the last line start at or before it. -/
def lineStartAt (bytes : List UInt8) (p : Nat) : Nat := (lineStartsOf (bytes.take p)).getLast?.getD 0

theorem lineStartAt_le (bytes : List UInt8) (p : Nat) : lineStartAt bytes p ≤ p := by
  obtain ⟨x, hx⟩ : ∃ x, (lineStartsOf (bytes.take p)).getLast? = some x :=
    Option.ne_none_iff_exists'.mp (by simp [lineStartsOf])
  rw [lineStartAt, hx, Option.getD_some]
  exact le_of_mem_lineStartsOf_take (List.mem_of_getLast? hx)

/-- The line start that the `i`-th line of the text before an offset begins at, for `i` below the
number of those lines, is a line start of the whole text at the same place. -/
theorem getElem?_lineStartsOf_of_lt (bytes : List UInt8) (p : Nat) {i : Nat}
    (hi : i < (lineStartsOf (bytes.take p)).length) :
    (lineStartsOf bytes)[i]? = (lineStartsOf (bytes.take p))[i]? := by
  obtain ⟨r, hr, -⟩ := lineStartsOf_eq_take_append bytes p
  rw [hr, List.getElem?_append_left hi]

/-- The line on which an offset lies starts where the text before the offset has its last line
start. -/
theorem getElem?_lineStartsOf_line (bytes : List UInt8) (p : Nat) :
    (lineStartsOf bytes)[(bytes.take p).count 10]? = some (lineStartAt bytes p) := by
  have hlen := length_lineStartsOf (bytes.take p)
  rw [getElem?_lineStartsOf_of_lt bytes p (by omega)]
  obtain ⟨x, hx⟩ : ∃ x, (lineStartsOf (bytes.take p)).getLast? = some x :=
    Option.ne_none_iff_exists'.mp (by simp [lineStartsOf])
  rw [lineStartAt, hx, Option.getD_some, ← hx, List.getLast?_eq_getElem?, hlen, Nat.add_sub_cancel]

/-! ## Positions in a source file

The search of the line starts for an offset lands on the last start at or before it: the starts
split at the offset into those at or before it, increasing, and starts past it. Its index is
therefore one less than the number of starts at or before the offset, the counting form of the
line. -/

namespace Search

/-- Searching a sorted list that splits at `x` into entries at or before it, the last of them
`a`, and entries past it, finds the entry `a`: at `x` itself, or just before the place where `x`
would be inserted. -/
theorem atOrBefore_sorted_split {B r : List Nat} {a x : Nat} (hB : ∀ y ∈ B, y < a) (ha : a ≤ x)
    (hr : ∀ y ∈ r, x < y) : (sorted (B ++ a :: r) x).atOrBefore = B.length := by
  rcases Nat.eq_or_lt_of_le ha with rfl | hlt
  · have hfind : (B ++ a :: r).findIdx (a ≤ ·) = B.length := by
      rw [List.findIdx_eq (by simp)]
      refine ⟨by simp, fun j hj => ?_⟩
      rw [List.getElem_append_left hj]
      simpa using hB _ (List.getElem_mem hj)
    simp [sorted, hfind, atOrBefore]
  · have hbelow : (B ++ [a]).findIdx (x ≤ ·) = (B ++ [a]).length := by
      refine List.findIdx_eq_length.mpr fun y hy => ?_
      rcases List.mem_append.mp hy with hy | hy
      · simpa using Nat.lt_trans (hB y hy) hlt
      · simpa [List.mem_singleton.mp hy] using hlt
    have hpast : r.findIdx (x ≤ ·) = 0 := by
      cases r with
      | nil => rfl
      | cons y r => simp [List.findIdx_cons, Nat.le_of_lt (hr y List.mem_cons_self)]
    have hfind : (B ++ a :: r).findIdx (x ≤ ·) = B.length + 1 := by
      rw [show B ++ a :: r = (B ++ [a]) ++ r by simp, List.findIdx_append, hbelow, hpast]
      simp
    have hnext : (B ++ a :: r)[B.length + 1]? ≠ some x := by
      rw [List.getElem?_append_right (by simp)]
      cases r with
      | nil => simp
      | cons y r => simpa using Nat.ne_of_gt (hr y List.mem_cons_self)
    simp [sorted, hfind, hnext, atOrBefore]

end Search

namespace SourceFile

/-- The line an offset lies on is found at the index one less than the number of line starts at
or before the offset. -/
theorem lineIndex_eq_countP (f : SourceFile) (p : Nat) :
    f.lineIndex p = f.lineStarts.countP (· ≤ p) - 1 := by
  obtain ⟨r, hr, hpast⟩ := lineStartsOf_eq_take_append f.bytes p
  obtain ⟨B, a, hA⟩ := (List.eq_nil_or_concat (lineStartsOf (f.bytes.take p))).resolve_left
    (by simp [lineStartsOf])
  rw [List.concat_eq_append] at hA
  have hpw := pairwise_lineStartsOf (f.bytes.take p)
  rw [hA, List.pairwise_append] at hpw
  have hB : ∀ y ∈ B, y < a := fun y hy => hpw.2.2 y hy a List.mem_cons_self
  have ha : a ≤ p := le_of_mem_lineStartsOf_take (hA ▸ List.mem_append_right B List.mem_cons_self)
  have hcount := countP_le_lineStartsOf f.bytes p
  have hlen := length_lineStartsOf (f.bytes.take p)
  rw [hA, List.length_append, List.length_singleton] at hlen
  rw [lineIndex, f.lineStarts_eq, hcount, hr, hA, List.append_assoc, List.singleton_append,
    Search.atOrBefore_sorted_split hB ha hpast]
  omega

/-- The position of an offset in a source file: one more than the number of line feeds before
it, and its distance from the line start at or before it. The line is always one of the file's
lines, whose start is found in the index. -/
theorem positionOf_eq (f : SourceFile) (p : Nat) :
    f.positionOf p = ⟨(f.bytes.take p).count 10 + 1, p - lineStartAt f.bytes p⟩ ∧
      f.lineStart? ((f.bytes.take p).count 10 + 1) = some (lineStartAt f.bytes p) := by
  have hline := getElem?_lineStartsOf_line f.bytes p
  rw [← f.lineStarts_eq] at hline
  have hidx : f.lineIndex p = (f.bytes.take p).count 10 := by
    rw [lineIndex_eq_countP, f.lineStarts_eq, countP_le_lineStartsOf, Nat.add_sub_cancel]
  have hsome :
      f.positionOf? p = some ⟨(f.bytes.take p).count 10 + 1, p - lineStartAt f.bytes p⟩ := by
    simp [positionOf?, hidx, hline]
  refine ⟨?_, by simp [lineStart?, hline]⟩
  simp [positionOf, hsome]

end SourceFile

/-! ## Positions of a cursor -/

namespace Cursor

theorem Indexed.column_eq_lineStartAt {c : Cursor} (h : Indexed c) :
    c.column = c.pos - lineStartAt c.source c.pos := by
  rw [column, lineStartAt, ← Array.getLast?_toList, h.lineStarts_eq]

/-- Taking `p` bytes one at a time moves the cursor `p` bytes. -/
theorem perform_replicate_get (c : Cursor) (p : Nat) :
    c.perform (List.replicate p .get) = c.advanceBy p := by
  induction p generalizing c with
  | zero => rfl
  | succ p ih => rw [List.replicate_succ, perform_cons, ih, advanceBy_succ]; rfl

end Cursor

/-! ## The lines the collector records -/

namespace Collector

variable {c : Cursor} {col : Collector} {x : Lexeme}

theorem mem_record {kind : TokenKind} {bytes : List UInt8} {span : Span} :
    x ∈ (col.record c kind bytes span).lexemes.toList ↔
      x ∈ col.lexemes.toList ∨ x = ⟨kind, bytes, span, lineOf c span.start⟩ := by
  simp [record]

/-- A lexeme held after a content unit was held before or is the unit's: stopping at the limit
changes nothing but the flag, and only a recording adds a lexeme. -/
theorem mem_content {k : TokenKind} {tok : Token} (hx : x ∈ (content c k tok col).state.lexemes.toList) :
    x ∈ col.lexemes.toList ∨ x = ⟨k, tok.bytes, tok.span, lineOf c tok.span.start⟩ := by
  have hsame : (content c k tok col).state.lexemes =
      (if col.limitReached then col else
        { col.record c k tok.bytes tok.span with count := col.count + 1 }).lexemes := by
    simp only [content, apply_ite Reply.state, apply_ite Collector.lexemes, ite_self]
  rw [hsame] at hx
  split at hx
  · exact .inl hx
  · exact mem_record.mp hx

theorem mem_event {kind : TokenKind} (hx : x ∈ (event c kind col).lexemes.toList) :
    x ∈ col.lexemes.toList ∨
      (kind = .eol ∧ 0 < c.pos ∧ c.source[c.pos - 1]? = some 10 ∧
        x = ⟨kind, [10], ⟨c.pos - 1, c.pos⟩, lineOf c (c.pos - 1)⟩) ∨
      x = ⟨kind, [], ⟨c.pos, c.pos⟩, lineOf c c.pos⟩ := by
  unfold event at hx
  dsimp only at hx
  split at hx
  · next hcond =>
    simp only [Bool.and_eq_true, decide_eq_true_eq] at hcond
    rcases mem_record.mp hx with hx | rfl
    · exact .inl hx
    · exact .inr (.inl ⟨hcond.1.1, hcond.1.2.1, hcond.1.2.2, rfl⟩)
  · rcases mem_record.mp hx with hx | rfl
    · exact .inl hx
    · exact .inr (.inr rfl)

/-- What the collector can record when it hears a signal: a unit's token, the line feed just
passed, or an empty text at the cursor; each with the line the cursor finds for its start. -/
theorem mem_hear {sig : Signal} (hx : x ∈ (listener.hear c sig col).state.lexemes.toList) :
    x ∈ col.lexemes.toList ∨ x.line = lineOf c x.span.start ∧
      ((∃ k tok, sig = .unit k tok ∧ x.bytes = tok.bytes ∧ x.span = tok.span) ∨
        (sig = .eol ∧ 0 < c.pos ∧ c.source[c.pos - 1]? = some 10 ∧ x.bytes = [10] ∧
          x.span = ⟨c.pos - 1, c.pos⟩) ∨
        (x.bytes = [] ∧ x.span = ⟨c.pos, c.pos⟩)) := by
  have hunit : ∀ k tok, x ∈ (content c k tok col).state.lexemes.toList →
      x ∈ col.lexemes.toList ∨ x.line = lineOf c x.span.start ∧
        ∃ k' tok', Signal.unit k tok = .unit k' tok' ∧ x.bytes = tok'.bytes ∧ x.span = tok'.span :=
    fun k tok h => (mem_content h).imp_right fun hx => by subst hx; exact ⟨rfl, k, tok, rfl, rfl, rfl⟩
  have hend : ∀ kind, x ∈ (event c kind col).lexemes.toList →
      x ∈ col.lexemes.toList ∨ x.line = lineOf c x.span.start ∧
        ((kind = .eol ∧ 0 < c.pos ∧ c.source[c.pos - 1]? = some 10 ∧ x.bytes = [10] ∧
          x.span = ⟨c.pos - 1, c.pos⟩) ∨ (x.bytes = [] ∧ x.span = ⟨c.pos, c.pos⟩)) := by
    intro kind h
    rcases mem_event h with h | ⟨hk, hp, hnl, rfl⟩ | rfl
    · exact .inl h
    · exact .inr ⟨rfl, .inl ⟨hk, hp, hnl, rfl, rfl⟩⟩
    · exact .inr ⟨rfl, .inr ⟨rfl, rfl⟩⟩
  cases sig with
  | unit k tok =>
    by_cases hk : k = .comment
    · subst hk
      by_cases hskip : col.skipComments
      · have hs : (listener.hear c (.unit .comment tok) col).state.lexemes = col.lexemes := by
          simp [listener, hskip]
        rw [hs] at hx
        exact .inl hx
      · have hs : listener.hear c (.unit .comment tok) col = content c .comment tok col := by
          simp [listener, hskip]
        rw [hs] at hx
        exact (hunit _ _ hx).imp_right fun h => ⟨h.1, .inl h.2⟩
    · have hs : listener.hear c (.unit k tok) col = content c k tok col := by
        cases k <;> simp_all [listener]
      rw [hs] at hx
      exact (hunit _ _ hx).imp_right fun h => ⟨h.1, .inl h.2⟩
  | eol =>
    exact (hend .eol hx).imp_right fun h => ⟨h.1, .inr (h.2.imp_left fun h' => ⟨rfl, h'.2⟩)⟩
  | eof =>
    refine (hend .eof hx).imp_right fun h => ⟨h.1, .inr (.inr ?_)⟩
    rcases h.2 with ⟨hk, -⟩ | h
    · cases hk
    · exact h

/-- The line the collector finds for an offset at or before the cursor of an indexed cursor is
one more than the number of line feeds before the offset. -/
theorem lineOf_eq {c : Cursor} (h : c.Indexed) {o : Nat} (ho : o ≤ c.pos) :
    lineOf c o = (c.source.take o).count 10 + 1 := by
  rw [lineOf, h.lineStarts_eq, takeWhile_le_lineStartsOf, List.take_take, Nat.min_eq_left ho,
    length_lineStartsOf]

end Collector

/-- A lexeme on the line one more than the number of line feeds of a text before its start. -/
def Lexeme.OnLine (bytes : List UInt8) (x : Lexeme) : Prop :=
  x.line = (bytes.take x.span.start).count 10 + 1

/-- In every run from a cursor that keeps its index, every lexeme the collector records lies on
the line of its start, which is at or before the cursor. -/
theorem Collector.run_onLine {c : Cursor} (hc : c.Indexed) (col : Collector)
    (hcol : ∀ x ∈ col.lexemes.toList, x.OnLine c.source) :
    ∀ x ∈ (Lexer.run listener c col).state.lexemes.toList, x.OnLine c.source := by
  refine Lexer.run_invariant_hands (fun col : Collector => ∀ x ∈ col.lexemes.toList, x.OnLine c.source)
    c col (fun d sig col hd hcol x hx => ?_) hcol
  have hm := hd.moves
  have hdi := hm.indexed hc
  rcases mem_hear hx with hx | ⟨hline, hwhat⟩
  · exact hcol x hx
  have hstart : x.span.start ≤ d.pos := by
    rcases hwhat with ⟨k, tok, hsig, -, hspan⟩ | ⟨-, -, -, -, hspan⟩ | ⟨-, hspan⟩
    · rw [hspan]
      obtain ⟨hstop, hle, -⟩ := hd.token_of_unit k tok hsig
      omega
    · rw [hspan]
      exact Nat.sub_le _ _
    · exact Nat.le_of_eq (congrArg Span.start hspan)
  rw [Lexeme.OnLine, hline, lineOf_eq hdi hstart, hm.source_eq]

/-- The three computations of lines agree on every text. A cursor driven to the end of the text
holds the source file's index of line starts, so the two count the same lines and find the same
line starts. The position the source file gives an offset within the text is the line and
column of a cursor that took that many bytes one by one. For every offset, reading the start of
its line from the index succeeds, and the line it gives is one of the file's lines, with its
start at or before the offset. And every lexeme the
collector records, in any run from any cursor reached from the start of the text, with any
limit and with comments kept or skipped, lies on the line the source file gives its start, one
more than the number of line feeds before it: the line a dump of the lexemes prints. -/
theorem line_computations_agree (name text : String) :
    let f := SourceFile.ofString name text
    (∀ ops : List Cursor.Op, ((Cursor.new f.bytes name).perform ops).atEnd →
      f.lineStarts = ((Cursor.new f.bytes name).perform ops).lineStarts.toList ∧
      f.lineCount = ((Cursor.new f.bytes name).perform ops).line ∧
      ∀ k, f.lineStart? k = ((Cursor.new f.bytes name).perform ops).lineStart? k) ∧
    (∀ p, p ≤ f.bytes.length →
      ((Cursor.new f.bytes name).perform (List.replicate p .get)).pos = p ∧
      f.positionOf p = ⟨((Cursor.new f.bytes name).perform (List.replicate p .get)).line,
        ((Cursor.new f.bytes name).perform (List.replicate p .get)).column⟩) ∧
    (∀ p, f.positionOf? p = some (f.positionOf p) ∧
      ∃ start, f.lineStart? (f.positionOf p).line = some start ∧ start ≤ p ∧
        (f.positionOf p).column = p - start) ∧
    (∀ (ops : List Cursor.Op) (col : Collector),
      (∀ x ∈ col.lexemes.toList, x.line = (f.positionOf x.span.start).line) →
      ∀ x ∈ (Lexer.run Collector.listener ((Cursor.new f.bytes name).perform ops) col).state.lexemes.toList,
        x.line = (f.positionOf x.span.start).line ∧
          x.line = (f.bytes.take x.span.start).count 10 + 1) := by
  intro f
  have hreach : ∀ ops : List Cursor.Op, ((Cursor.new f.bytes name).perform ops).Indexed ∧
      ((Cursor.new f.bytes name).perform ops).source = f.bytes := fun ops =>
    let hm := Cursor.moves_perform (Cursor.new f.bytes name) ops
    ⟨hm.indexed (Cursor.indexed_new _ _), hm.source_eq⟩
  have hline : ∀ p, (f.positionOf p).line = (f.bytes.take p).count 10 + 1 := fun p => by
    rw [(SourceFile.positionOf_eq f p).1]
  refine ⟨fun ops hend => ?_, fun p hp => ?_, fun p => ?_, fun ops col hcol => ?_⟩
  · obtain ⟨hi, hs⟩ := hreach ops
    have hstarts : f.lineStarts = ((Cursor.new f.bytes name).perform ops).lineStarts.toList := by
      rw [hi.lineStarts_eq, (hi.atEnd_iff).mp hend, List.take_length, hs]
      rfl
    refine ⟨hstarts, by rw [SourceFile.lineCount, hstarts, Array.length_toList]; rfl, fun k => ?_⟩
    simp only [SourceFile.lineStart?, Cursor.lineStart?, hstarts, Array.getElem?_toList]
  · rw [Cursor.perform_replicate_get]
    have hi := (Cursor.indexed_new f.bytes name).advanceBy p
    have hpos : ((Cursor.new f.bytes name).advanceBy p).pos = p := by
      simp [Nat.min_eq_left hp]
    refine ⟨hpos, ?_⟩
    rw [(SourceFile.positionOf_eq f p).1, hi.line_eq, hi.column_eq_lineStartAt, hpos,
      Cursor.source_advanceBy]
    rfl
  · obtain ⟨hpos, hstart⟩ := SourceFile.positionOf_eq f p
    refine ⟨(Option.some_get (f.positionOf?_isSome p)).symm, lineStartAt f.bytes p, ?_,
      lineStartAt_le _ _, by rw [hpos]⟩
    rw [hpos]
    exact hstart
  · obtain ⟨hi, hs⟩ := hreach ops
    have hon := Collector.run_onLine hi col (fun x hx => by
      rw [Lexeme.OnLine, hs, ← hline]
      exact hcol x hx)
    intro x hx
    have hx' := hon x hx
    rw [Lexeme.OnLine, hs] at hx'
    exact ⟨by rw [hline]; exact hx', hx'⟩

end ConfLex
