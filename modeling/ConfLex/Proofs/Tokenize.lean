import ConfLex.Proofs.Driver
import ConfLex.Lex.Collector

/-!
# The lexemes of a text

`tokenize` runs the lexer with a collector that records everything. On well-formed UTF-8 its
lexemes are the maximal-munch decomposition of the text, followed by an empty end of line and an
empty end of input at the end of the text when the text could be read to its end. When it could
not, the run fails at the first broken unit with the error that the shape of the input there
calls for, and the lexemes are the units before it.

The collector is proved to follow the reading step by step (`run_collect`), under an invariant
on what it has recorded (`Collector.Tracking`): that is what makes an end of line after a line
feed carry that line feed, and the closing end of line carry none.
-/

namespace ConfLex

/-- A lexeme without its line: its kind and token. -/
def Lexeme.token (x : Lexeme) : TokenKind × Token := (x.kind, ⟨x.bytes, x.span⟩)

/-- The lexemes a collector records after the units of a text of `length` bytes: an empty end
of line and an empty end of input at the end of the text when it was read to its end, none
after a fault. -/
def Ending.trailer (length : Nat) : Ending → List (TokenKind × Token)
  | .done => [(.eol, ⟨[], ⟨length, length⟩⟩), (.eof, ⟨[], ⟨length, length⟩⟩)]
  | .fault _ _ => []

namespace Collector

/-- What a collector that records everything knows of the cursor it listens to: the last
recorded end lies at or before the cursor, and right at it when the cursor has just passed a
line feed. -/
structure Tracking (c : Cursor) (col : Collector) : Prop where
  limit : col.limit = none
  keepsComments : col.skipComments = false
  lastEnd_le : ∀ e, col.lastEnd = some e → e ≤ c.pos
  lastEnd_of_newline : 0 < c.pos → c.source[c.pos - 1]? = some 10 → col.lastEnd = some c.pos

variable {c : Cursor} {col : Collector} {k : TokenKind} {tok : Token}

theorem tracking_new (source : List UInt8) (name : String) :
    Tracking (Cursor.new source name) {} :=
  ⟨rfl, rfl, by simp, by simp [Cursor.new]⟩

@[simp] theorem token_record (bytes : List UInt8) (span : Span) :
    (col.record c k bytes span).lexemes.toList.map Lexeme.token =
      col.lexemes.toList.map Lexeme.token ++ [(k, ⟨bytes, span⟩)] := by
  simp [record, Lexeme.token]

/-- A collector without a limit records every content unit and lets the lexer go on. -/
theorem content_of_limit (hl : col.limit = none) :
    content c k tok col =
      { go := true, state := { col.record c k tok.bytes tok.span with count := col.count + 1 } } := by
  simp [content, limitReached, hl, record]

/-- The end of input, and an end of line that does not follow a line feed not yet recorded,
are recorded empty at the cursor. -/
theorem event_empty (h : k = .eol → 0 < c.pos → c.source[c.pos - 1]? = some 10 →
    col.lastEnd = some c.pos) : event c k col = col.record c k [] ⟨c.pos, c.pos⟩ := by
  unfold event
  dsimp only
  rw [if_neg]
  simp only [Bool.and_eq_true, decide_eq_true_eq, not_and]
  intro ⟨hk, hpos, hnl⟩
  exact absurd (h hk hpos hnl)

/-- An end of line right after a line feed that was not recorded yet is recorded with that line
feed as its text. -/
theorem event_newline (hpos : 0 < c.pos) (hnl : c.source[c.pos - 1]? = some 10)
    (hlast : col.lastEnd ≠ some c.pos) :
    event c .eol col = col.record c .eol [10] ⟨c.pos - 1, c.pos⟩ := by
  simp [event, hpos, hnl, hlast]

variable {b : UInt8} {t : List UInt8} {n : Nat}

/-- Skipping a blank keeps what the collector knows, since the byte passed is no line feed. -/
theorem Tracking.advance (ht : Tracking c col) (h : c.rest = b :: t) (hb : ByteClass.isBlank b) :
    Tracking c.advance col where
  limit := ht.limit
  keepsComments := ht.keepsComments
  lastEnd_le e he := by
    have := ht.lastEnd_le e he
    rw [Cursor.pos_advance_cons h]
    omega
  lastEnd_of_newline _ hnl := by
    rw [Cursor.pos_advance_cons h, Nat.add_sub_cancel, Cursor.source_advance,
      Cursor.source_getElem?_pos h] at hnl
    rw [Option.some.inj hnl] at hb
    exact absurd hb (by decide)

/-- A collector without a limit that keeps comments and has just recorded a unit ending at the
cursor knows the cursor. -/
theorem tracking_of_lastEnd (hl : col.limit = none) (hk : col.skipComments = false)
    (he : col.lastEnd = some c.pos) : Tracking c col where
  limit := hl
  keepsComments := hk
  lastEnd_le e h := by
    rw [he, Option.some.injEq] at h
    omega
  lastEnd_of_newline _ _ := he

/-- Every unit but an end of line or of input is content: the collector records it. -/
theorem hear_content (hk : k ≠ .eol) (hk' : k ≠ .eof) (hl : col.limit = none)
    (hc : col.skipComments = false) :
    listener.hear c (Signal.ofUnit k tok) col =
      { go := true, state := { col.record c k tok.bytes tok.span with count := col.count + 1 } } := by
  cases k <;> simp_all [Signal.ofUnit, listener, content_of_limit]

/-- The collector records every unit it is handed, lets the lexer go on and reports nothing;
past the unit, it keeps knowing the cursor. A line feed is recorded as an end of line with its
byte, since nothing recorded ends past it. -/
theorem hear_unit (ht : Tracking c col) (h : c.rest = b :: t) (hs : Scan.next b t = .unit k n) :
    let r := listener.hear (c.advanceBy n) (Signal.ofUnit k ⟨(b :: t).take n, ⟨c.pos, c.pos + n⟩⟩) col
    r.go = true ∧ r.notes = [] ∧
      r.state.lexemes.toList.map Lexeme.token =
        col.lexemes.toList.map Lexeme.token ++ [(k, ⟨(b :: t).take n, ⟨c.pos, c.pos + n⟩⟩)] ∧
      Tracking (c.advanceBy n) r.state := by
  have hpos : (c.advanceBy n).pos = c.pos + n := by
    rw [Cursor.pos_advanceBy, h, Nat.min_eq_left (Scan.next_eq_unit hs).le_length]
  dsimp only
  by_cases hk : k = .eol
  · subst hk
    obtain ⟨rfl, rfl⟩ := Scan.next_eq_eol hs
    have hlast : col.lastEnd ≠ some (c.advanceBy 1).pos := fun he => by
      have := ht.lastEnd_le _ he
      omega
    have hev := event_newline (by omega)
      (by rw [hpos, Nat.add_sub_cancel, Cursor.source_advanceBy, Cursor.source_getElem?_pos h])
      hlast
    have hr : listener.hear (c.advanceBy 1)
        (Signal.ofUnit .eol ⟨(10 :: t).take 1, ⟨c.pos, c.pos + 1⟩⟩) col =
        { go := true, state := col.record (c.advanceBy 1) .eol [10] ⟨c.pos, c.pos + 1⟩ } := by
      simp only [Signal.ofUnit, listener, hev, hpos, Nat.add_sub_cancel]
    rw [hr]
    exact ⟨rfl, rfl, token_record _ _,
      tracking_of_lastEnd ht.limit ht.keepsComments (by rw [hpos]; rfl)⟩
  · rw [hear_content hk (Scan.next_ne_eof hs) ht.limit ht.keepsComments]
    exact ⟨rfl, rfl, by simp [record, Lexeme.token],
      tracking_of_lastEnd ht.limit ht.keepsComments (by rw [hpos]; rfl)⟩

/-! ## The collector follows the reading -/

/-- A collector that knows the cursor records the units of the reading of the rest of a valid
text, then the trailer; the run ends as the reading does, at the fault if there is one. -/
theorem run_collect (c : Cursor) (col : Collector) (ht : Tracking c col)
    (hv : Utf8.Valid c.rest) :
    (Lexer.run listener c col).state.lexemes.toList.map Lexeme.token =
        col.lexemes.toList.map Lexeme.token ++ (Scan.read c.rest c.pos).1 ++
          (Scan.read c.rest c.pos).2.trailer (c.pos + c.rest.length) ∧
      (Lexer.run listener c col).result = (Scan.read c.rest c.pos).2.result c ∧
      ∀ k o, (Scan.read c.rest c.pos).2 = .fault k o → (Lexer.run listener c col).cursor.pos = o := by
  fun_induction Lexer.run listener c col with
  | case1 c col hrest =>
    have h1 : event c .eol col = col.record c .eol [] ⟨c.pos, c.pos⟩ :=
      event_empty (fun _ => ht.lastEnd_of_newline)
    have h2 : ∀ col' : Collector, event c .eof col' = col'.record c .eof [] ⟨c.pos, c.pos⟩ :=
      fun _ => event_empty (by simp)
    rw [hrest, Scan.read_nil]
    refine ⟨?_, rfl, fun _ _ h => by cases h⟩
    simp [Lexer.finish, Lexer.tell, listener, h1, h2, Ending.trailer]
  | case2 c col b t hrest hs ih =>
    have hb := Scan.next_eq_blank_iff.mp hs
    obtain ⟨hlex, hres, hpos⟩ := ih (ht.advance hrest hb)
      (by rw [Cursor.rest_advance_cons hrest]; exact (hrest ▸ hv).of_cons_ascii (ascii_of_isBlank hb))
    have hr := Lexer.read_result_advanceBy c 1 (by simp [hrest])
    simp only [hrest, List.drop_succ_cons, List.drop_zero, Cursor.advanceBy_one] at hr
    rw [Cursor.rest_advance_cons hrest, Cursor.pos_advance_cons hrest] at hlex hres hpos
    rw [hrest, Scan.read_blank hs]
    refine ⟨?_, hres.trans hr, hpos⟩
    rw [hlex, List.length_cons, Nat.add_assoc, Nat.add_comm 1]
  | case3 c col b t hrest k n hs c1 r c2 hgo ih =>
    have hu : r.go = true ∧ r.notes = [] ∧
        r.state.lexemes.toList.map Lexeme.token =
          col.lexemes.toList.map Lexeme.token ++ [(k, ⟨(b :: t).take n, ⟨c.pos, c.pos + n⟩⟩)] ∧
        Tracking c1 r.state :=
      hear_unit ht hrest hs
    have hl := Scan.next_eq_unit hs
    have hn : n ≤ (b :: t).length := hl.le_length
    have hc2 : c2 = c1 := by simp only [c2, hu.2.1, Cursor.reportAll_nil]
    have hrest2 : c2.rest = (b :: t).drop n := by
      rw [hc2, Cursor.rest_advanceBy, hrest]
    have hpos2 : c2.pos = c.pos + n := by
      rw [hc2, Cursor.pos_advanceBy, hrest, Nat.min_eq_left hn]
    have hlen : c.pos + n + ((b :: t).drop n).length = c.pos + (b :: t).length := by
      rw [List.length_drop]
      omega
    obtain ⟨hlex, hres, hpos⟩ := ih (hc2 ▸ hu.2.2.2)
      (by rw [hrest2]; exact hl.valid_drop (hrest ▸ hv))
    rw [hrest2, hpos2] at hlex hres hpos
    rw [hlen, hu.2.2.1] at hlex
    have hr := Lexer.read_result_advanceBy c n (by rw [hrest]; exact hn)
    rw [hrest] at hr
    rw [hrest, Scan.read_unit hs]
    refine ⟨?_, hres.trans ((Ending.result_reportAll _ _ _).trans hr), hpos⟩
    rw [hlex]
    simp
  | case4 c col b t hrest k n hs c1 r c2 hgo =>
    exact absurd (hear_unit ht hrest hs).1 hgo
  | case5 c col b t hrest k o hs failed =>
    have hle := (Scan.next_eq_fault (hrest ▸ hv) hs).le_length
    rw [hrest, Scan.read_fault hs]
    refine ⟨by simp [Ending.trailer], by simp [Ending.result, failed], ?_⟩
    rintro k' o' ⟨⟩
    simp only [List.length_cons] at hle
    simp [failed, Cursor.fail_eq, hrest, Nat.min_eq_left hle]

end Collector

/-! ## Lexing a text -/

section Tokenize

variable (text name : String)

/-- Lexing a well-formed text succeeds with the lexemes `units`, then an empty end of line and
an empty end of input at the end of the text, exactly when `units` is the maximal-munch
decomposition of the whole text. -/
theorem tokenize_ok_iff (units : List (TokenKind × Token)) :
    ((tokenize (Utf8.encode text) name).result = .ok () ∧
      (tokenize (Utf8.encode text) name).state.lexemes.toList.map Lexeme.token =
        units ++ Ending.done.trailer (Utf8.encode text).length) ↔
      Munch (Utf8.encode text) 0 units .done := by
  have hv := Utf8.valid_encode text
  generalize Utf8.encode text = s at hv ⊢
  obtain ⟨hlex, hres, -⟩ := Collector.run_collect (Cursor.new s name) {}
    (Collector.tracking_new s name) hv
  simp only [Cursor.rest_new, Cursor.pos_new, Nat.zero_add, List.map_nil,
    List.nil_append] at hlex hres
  rw [tokenize, hres, hlex, ← Scan.read_eq_iff hv]
  constructor
  · rintro ⟨hok, hunits⟩
    have hdone : (Scan.read s 0).2 = .done := by
      cases hread : (Scan.read s 0).2 with
      | done => rfl
      | fault k o => simp [hread, Ending.result] at hok
    rw [hdone] at hunits
    rw [← List.append_cancel_right hunits, ← hdone]
  · intro hread
    rw [hread]
    exact ⟨rfl, rfl⟩

/-- Lexing a well-formed text fails exactly when its maximal-munch decomposition runs into a
broken unit. The error then has the kind that the shape of the input there calls for, and the
line and column of the offset where it is found; the lexer stops at that offset, and the lexemes
recorded are the units before it. -/
theorem tokenize_error_iff (e : LexError) :
    (tokenize (Utf8.encode text) name).result = .error e ↔
      ∃ units o, Munch (Utf8.encode text) 0 units (.fault e.kind o) ∧
        e = (((Cursor.new (Utf8.encode text) name).advanceBy o).fail e.kind).2 ∧
        (tokenize (Utf8.encode text) name).cursor.pos = o ∧
        (tokenize (Utf8.encode text) name).state.lexemes.toList.map Lexeme.token = units := by
  have hv := Utf8.valid_encode text
  generalize Utf8.encode text = s at hv ⊢
  obtain ⟨hlex, hres, hpos⟩ := Collector.run_collect (Cursor.new s name) {}
    (Collector.tracking_new s name) hv
  simp only [Cursor.rest_new, Cursor.pos_new, Nat.zero_add] at hlex hres hpos
  rw [tokenize]
  constructor
  · intro he
    cases hread : (Scan.read s 0).2 with
    | done => simp [hres, hread, Ending.result] at he
    | fault k o =>
      rw [hres, hread, Ending.result, Cursor.pos_new, Nat.sub_zero, Except.error.injEq] at he
      subst he
      refine ⟨(Scan.read s 0).1, o, hread ▸ Scan.munch_read hv, rfl, hpos k o hread, ?_⟩
      rw [hlex, hread, Ending.trailer]
      simp
  · rintro ⟨units, o, hm, he, -, -⟩
    have hread := (Scan.read_eq_iff hv).mpr hm
    rw [hres, hread, Ending.result, Cursor.pos_new, Nat.sub_zero, ← he]

end Tokenize

end ConfLex
