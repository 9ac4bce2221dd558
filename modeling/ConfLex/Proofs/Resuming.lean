import ConfLex.Proofs.Relocation
import ConfLex.Proofs.Signals
import ConfLex.Proofs.Tokenize

/-!
# Resuming a scan

A stream can be lexed in several scans: each time a lexer is made from the cursor the last scan
left, and runs on. Everything the lexer knows is in the cursor, so resuming from a cursor reached
from the start of a text is lexing the rest of the text afresh, seen from further on
(`Lexer.run_from_cursor`).

For a collector this splits `tokenize` at a limit. A collector limited to `k ≥ 1` content units
records what the unlimited one records up to the `k`-th content unit, and stops the lexer right
after it (`Collector.run_limited`); the unlimited run goes on from that cursor. A fresh collector
from there records the rest alike (`Collector.run_extends`): it starts with no last end, which
matters only for an end of line right after a line feed, and the cursor stands just past a content
unit, which never ends in a line feed (`Lexical.getLast?_ne_newline`).

Two things break the split, both by design: a limit of `0` lets the lexer read one unit before
it stops, unrecorded; and a scan that is not stopped records the closing end of line and end of
input, which a further scan of the used-up stream records again.
-/

namespace ConfLex

open ByteClass

/-! ## The last byte of a unit -/

/-- No unit but a line feed ends in a line feed: a block comment ends in `*/`, a string in its
quote, and no other unit holds a line feed at all. -/
theorem Lexical.getLast?_ne_newline {k : TokenKind} {u : List UInt8} (h : Lexical k u)
    (hk : k ≠ .eol) : u.getLast? ≠ some 10 := by
  have hlast : ∀ {v : List UInt8}, (∀ x ∈ v, x ≠ 10) → v.getLast? ≠ some 10 :=
    fun hv hl => hv _ (List.mem_of_getLast? hl) rfl
  have hclass : ∀ {p : UInt8 → Bool} {x : UInt8}, p x = true → p 10 = false → x ≠ 10 :=
    fun hx hp hx10 => by rw [hx10, hp] at hx; cases hx
  have hdigits : ∀ {d : List UInt8}, (∀ x ∈ d, isDecDigit x) → ∀ x ∈ d, x ≠ 10 :=
    fun hd x hx => hclass (hd x hx) rfl
  have hexp : ∀ {e : List UInt8}, Exponent e → ∀ x ∈ e, x ≠ 10 := by
    intro e he x hx
    cases he with
    | none => cases hx
    | unsigned hm ha hd =>
      simp only [List.mem_cons] at hx
      rcases hx with rfl | rfl | hx
      · rcases hm with rfl | rfl <;> decide
      · exact hclass ha rfl
      · exact hdigits hd x hx
    | signed hm hs ha hd =>
      simp only [List.mem_cons] at hx
      rcases hx with rfl | rfl | rfl | hx
      · rcases hm with rfl | rfl <;> decide
      · rcases hs with rfl | rfl <;> decide
      · exact hclass ha rfl
      · exact hdigits hd x hx
  cases h with
  | ident hb hw =>
    refine hlast ?_
    simp only [List.mem_cons, forall_eq_or_imp]
    exact ⟨hclass hb rfl, fun x hx => hclass (hw x hx) rfl⟩
  | percentIdent ha hw =>
    refine hlast ?_
    simp only [List.mem_cons, forall_eq_or_imp]
    exact ⟨by decide, hclass ha rfl, fun x hx => hclass (hw x hx) rfl⟩
  | decimal ha hw =>
    refine hlast ?_
    simp only [List.mem_cons, forall_eq_or_imp]
    exact ⟨hclass ha rfl, hdigits hw⟩
  | hex hx ha hw =>
    refine hlast ?_
    simp only [List.mem_cons, forall_eq_or_imp]
    refine ⟨by decide, by rcases hx with rfl | rfl <;> decide, hclass ha rfl,
      fun y hy => hclass (hw y hy) rfl⟩
  | wholeFloat ha hd hf he =>
    refine hlast ?_
    simp only [List.mem_cons, List.mem_append, forall_eq_or_imp]
    refine ⟨hclass ha rfl, fun x hx => ?_⟩
    rcases hx with hx | rfl | hx | hx
    · exact hdigits hd x hx
    · decide
    · exact hdigits hf x hx
    · exact hexp he x hx
  | pointFloat ha hf he =>
    refine hlast ?_
    simp only [List.mem_cons, List.mem_append, forall_eq_or_imp]
    refine ⟨by decide, hclass ha rfl, fun x hx => ?_⟩
    rcases hx with hx | hx
    · exact hdigits hf x hx
    · exact hexp he x hx
  | @string body _ =>
    rw [← List.cons_append, List.getLast?_concat]
    decide
  | lineComment hw =>
    refine hlast ?_
    simp only [List.mem_cons, forall_eq_or_imp]
    exact ⟨by decide, by decide, hw⟩
  | @blockComment w _ =>
    rw [show 47 :: 42 :: (w ++ [42, 47]) = (47 :: 42 :: (w ++ [42])) ++ [47] by simp,
      List.getLast?_concat]
    decide
  | operator op =>
    refine hlast ?_
    cases op <;> simp [Operator.spelling, Utf8.encode, String.utf8EncodeChar]
  | eol => exact absurd rfl hk

/-- The byte just before a cursor moved over `n ≥ 1` bytes of its rest is the last of them. -/
theorem Cursor.getElem?_before_advanceBy {c : Cursor} {n : Nat} (hn : n ≤ c.rest.length)
    (h0 : 0 < n) : (c.advanceBy n).source[(c.advanceBy n).pos - 1]? = (c.rest.take n).getLast? := by
  rw [Cursor.source_advanceBy, Cursor.pos_advanceBy, Nat.min_eq_left hn, List.getLast?_eq_getElem?,
    List.length_take, Nat.min_eq_left hn, List.getElem?_take_of_lt (by omega), c.rest_eq,
    List.getElem?_drop]
  congr 1
  omega

/-! ## Collectors without a limit -/

namespace Collector

variable {c d : Cursor} {col col' : Collector} {k : Nat}

/-- A collector that records every unit it is handed and never stops the lexer. -/
structure Unlimited (col : Collector) : Prop where
  limit : col.limit = none
  keepsComments : col.skipComments = false
  not_stopped : col.stopped = false

theorem Unlimited.record (h : Unlimited col) (c : Cursor) (kind : TokenKind) (bytes : List UInt8)
    (span : Span) (count : Nat) : Unlimited { col.record c kind bytes span with count := count } :=
  ⟨h.limit, h.keepsComments, h.not_stopped⟩

/-- An end of line or of input is recorded as the last end says; two collectors that agree on
whether the last unit ended at the cursor, where that matters, record the same lexeme. -/
theorem event_agree (h : 0 < c.pos → c.source[c.pos - 1]? = some 10 →
      (col.lastEnd = some c.pos ↔ col'.lastEnd = some c.pos)) (kind : TokenKind) :
    ∃ bytes span, event c kind col = col.record c kind bytes span ∧
      event c kind col' = col'.record c kind bytes span := by
  unfold event
  dsimp only
  by_cases hc : kind = .eol ∧ 0 < c.pos ∧ c.source[c.pos - 1]? = some 10
  · have hiff := h hc.2.1 hc.2.2
    by_cases hl : col.lastEnd = some c.pos
    · rw [if_neg (by simp [hl]), if_neg (by simp [hiff.mp hl])]
      exact ⟨_, _, rfl, rfl⟩
    · have hl' : col'.lastEnd ≠ some c.pos := fun h' => hl (hiff.mpr h')
      rw [if_pos (by simp [hc, hl]), if_pos (by simp [hc, hl'])]
      exact ⟨_, _, rfl, rfl⟩
  · have hne : ∀ e : Option Nat, ¬ ((kind = .eol && (0 < c.pos && c.source[c.pos - 1]? = some 10)) &&
        e ≠ some c.pos) = true := by
      intro e
      simp only [Bool.and_eq_true, decide_eq_true_eq, not_and]
      exact fun h3 => absurd h3 hc
    rw [if_neg (hne col.lastEnd), if_neg (hne col'.lastEnd)]
    exact ⟨_, _, rfl, rfl⟩

/-- An end of line or of input is recorded as one lexeme. -/
theorem event_eq_record (c : Cursor) (kind : TokenKind) (col : Collector) :
    ∃ bytes span, event c kind col = col.record c kind bytes span := by
  obtain ⟨bytes, span, he, -⟩ := @event_agree c col col (fun _ _ => Iff.rfl) kind
  exact ⟨bytes, span, he⟩

/-- A collector without a limit that keeps comments records every unit it is handed and lets the
lexer go on. -/
theorem hear_unit_of_unlimited (h : Unlimited col) (kind : TokenKind) (tok : Token) :
    listener.hear c (.unit kind tok) col =
      { go := true, state := { col.record c kind tok.bytes tok.span with count := col.count + 1 } } := by
  cases kind <;> simp [listener, h.keepsComments, content_of_limit h.limit]

/-- A collector without a limit lets the lexer go on and reports nothing, and stays without a
limit. -/
theorem Unlimited.hear (h : Unlimited col) (c : Cursor) (sig : Signal) :
    (listener.hear c sig col).go = true ∧ (listener.hear c sig col).notes = [] ∧
      Unlimited (listener.hear c sig col).state := by
  cases sig with
  | unit kind tok =>
    rw [hear_unit_of_unlimited h]
    exact ⟨rfl, rfl, h.record _ _ _ _ _⟩
  | eol =>
    obtain ⟨bytes, span, he⟩ := event_eq_record c .eol col
    simp only [listener, he, true_and]
    exact h.record _ _ _ _ col.count
  | eof =>
    obtain ⟨bytes, span, he⟩ := event_eq_record c .eof col
    simp only [listener, he, true_and]
    exact h.record _ _ _ _ col.count

/-! ## Collectors with a limit -/

theorem count_event (c : Cursor) (kind : TokenKind) (col : Collector) :
    (event c kind col).count = col.count := by
  obtain ⟨bytes, span, he⟩ := event_eq_record c kind col
  rw [he]
  rfl

/-- The limit plays no part in recording an end of line or of input. -/
theorem event_withLimit (c : Cursor) (kind : TokenKind) (col : Collector) (k : Nat) :
    event c kind { col with limit := some k } = { event c kind col with limit := some k } := by
  obtain ⟨bytes, span, hL, hU⟩ :=
    @event_agree c { col with limit := some k } col (fun _ _ => Iff.rfl) kind
  rw [hL, hU]
  rfl

/-- A collector limited to `k` that has recorded fewer than `k` content units hears as the same
collector without a limit, and stops the lexer once that one has recorded `k`. -/
theorem hear_limited (h : Unlimited col) (hc : col.count < k) (c : Cursor) (sig : Signal) :
    listener.hear c sig { col with limit := some k } =
      if (listener.hear c sig col).state.count < k then
        { go := true, state := { (listener.hear c sig col).state with limit := some k } }
      else
        { go := false,
          state := { (listener.hear c sig col).state with limit := some k, stopped := true } } := by
  cases sig with
  | unit kind tok =>
    have hcontent : listener.hear c (.unit kind tok) { col with limit := some k } =
        content c kind tok { col with limit := some k } := by
      cases kind <;> simp [listener, h.keepsComments]
    have hnot : ¬ k ≤ col.count := by omega
    rw [hcontent, hear_unit_of_unlimited h]
    by_cases hlt : col.count + 1 < k
    · have hnot' : ¬ k ≤ col.count + 1 := by omega
      simp only [content, limitReached, record, hnot, hnot', hlt, decide_false, Bool.false_eq_true,
        if_false, if_true]
    · have hle : k ≤ col.count + 1 := by omega
      simp only [content, limitReached, record, hnot, hle, hlt, decide_false, decide_true,
        Bool.false_eq_true, if_false, if_true]
  | eol =>
    simp only [listener, event_withLimit, count_event, if_pos hc]
  | eof =>
    simp only [listener, event_withLimit, count_event, if_pos hc]

/-- A unit heard as content is handed as itself. -/
theorem ofUnit_of_content {kind : TokenKind} {tok : Token} (hk : kind ≠ .eol) (hk' : kind ≠ .eof) :
    Signal.ofUnit kind tok = .unit kind tok := by
  cases kind <;> first | rfl | exact absurd rfl hk | exact absurd rfl hk'

/-- A run with a collector limited to `k` follows the run with the same collector without a
limit, while that one has recorded fewer than `k` content units. Either the limited one never
stops and the two end alike; or it stops just past a content unit, which does not end in a line
feed, having recorded what the unlimited one has recorded there, and the unlimited run goes on
from that cursor. -/
theorem run_limited (c : Cursor) (colL col : Collector) (hL : colL = { col with limit := some k })
    (h : Unlimited col) (hc : col.count < k) :
    let rL := Lexer.run listener c colL
    let rU := Lexer.run listener c col
    (rL.state = { rU.state with limit := some k } ∧ rL.cursor = rU.cursor ∧ rL.result = rU.result) ∨
      ∃ colM, Unlimited colM ∧ rL.state = { colM with limit := some k, stopped := true } ∧
        colM.lastEnd = some rL.cursor.pos ∧ rL.cursor.source[rL.cursor.pos - 1]? ≠ some 10 ∧
        rL.result = .ok () ∧ rU = Lexer.run listener rL.cursor colM := by
  fun_induction Lexer.run listener c colL generalizing col with
  | case1 c colL hrest =>
    subst hL
    dsimp only
    rw [Lexer.run_nil hrest]
    left
    simp only [Lexer.finish, Lexer.tell, listener, event_withLimit, Cursor.reportAll_nil, and_true]
  | case2 c colL b t hrest hs ih =>
    dsimp only
    rw [Lexer.run_blank hrest hs]
    exact ih col hL h hc
  | case3 c colL b t hrest kind n hs c1 r c2 hgo ih =>
    subst hL
    dsimp only
    obtain ⟨hgoU, hnU, hU⟩ := h.hear c1 (Signal.ofUnit kind ⟨(b :: t).take n, ⟨c.pos, c.pos + n⟩⟩)
    have hr := hear_limited h hc c1 (Signal.ofUnit kind ⟨(b :: t).take n, ⟨c.pos, c.pos + n⟩⟩)
    have hgo' : r.go = true := hgo
    by_cases hlt : (listener.hear c1 (Signal.ofUnit kind ⟨(b :: t).take n, ⟨c.pos, c.pos + n⟩⟩)
      col).state.count < k
    · rw [if_pos hlt] at hr
      have hnotes : (listener.hear c1 (Signal.ofUnit kind ⟨(b :: t).take n, ⟨c.pos, c.pos + n⟩⟩)
          col).notes = r.notes := hnU.trans (by simp only [r, hr])
      rw [Lexer.run_unit_go hrest hs rfl hgoU, hnotes]
      exact ih _ (by simp only [r, hr]; rfl) hU hlt
    · rw [if_neg hlt] at hr
      simp only [r, hr] at hgo'
      cases hgo'
  | case4 c colL b t hrest kind n hs c1 r c2 hgo =>
    subst hL
    dsimp only
    obtain ⟨hgoU, hnU, hU⟩ := h.hear c1 (Signal.ofUnit kind ⟨(b :: t).take n, ⟨c.pos, c.pos + n⟩⟩)
    have hr := hear_limited h hc c1 (Signal.ofUnit kind ⟨(b :: t).take n, ⟨c.pos, c.pos + n⟩⟩)
    have hgo' : r.go = false := Bool.of_not_eq_true hgo
    by_cases hlt : (listener.hear c1 (Signal.ofUnit kind ⟨(b :: t).take n, ⟨c.pos, c.pos + n⟩⟩)
      col).state.count < k
    · rw [if_pos hlt] at hr
      simp only [r, hr] at hgo'
      cases hgo'
    · rw [if_neg hlt] at hr
      have hk : kind ≠ .eol := by
        rintro rfl
        simp only [Signal.ofUnit, listener, count_event] at hlt
        exact hlt hc
      have hl := Scan.next_eq_unit hs
      have hn : n ≤ c.rest.length := hrest ▸ hl.le_length
      have hc2 : c2 = c1 := by simp only [c2, r, hr, Cursor.reportAll_nil]
      have hpos : c1.pos = c.pos + n := by rw [Cursor.pos_advanceBy, Nat.min_eq_left hn]
      right
      refine ⟨_, hU, by simp only [r, hr], ?_, ?_, rfl, ?_⟩
      · rw [ofUnit_of_content hk (Scan.next_ne_eof hs), hear_unit_of_unlimited h, hc2, hpos]
        rfl
      · rw [hc2, Cursor.getElem?_before_advanceBy hn (Scan.pos_of_next_eq_unit hs), hrest]
        exact hl.lexical.getLast?_ne_newline hk
      · have hnotes : (listener.hear c1 (Signal.ofUnit kind ⟨(b :: t).take n, ⟨c.pos, c.pos + n⟩⟩)
            col).notes = r.notes := hnU.trans (by simp only [r, hr])
        rw [Lexer.run_unit_go hrest hs rfl hgoU, hnotes]
  | case5 c colL b t hrest kind o hs failed =>
    subst hL
    dsimp only
    rw [Lexer.run_fault hrest hs]
    left
    exact ⟨rfl, rfl, rfl⟩

/-- A collector without a limit stays without one to the end of a run. -/
theorem Unlimited.run (h : Unlimited col) (c : Cursor) : Unlimited (Lexer.run listener c col).state :=
  Lexer.run_invariant_hands Unlimited c col (fun d sig _ _ hs => (hs.hear d sig).2.2) h

/-! ## Collectors that record alike -/

/-- `col` has recorded the lexemes `pre` and then those `col'` has recorded, neither has a limit,
and from the cursor `c` on they agree on whether the last unit ended at a place just past a line
feed: so from `c` on they record alike. -/
structure Extends (c : Cursor) (pre : Array Lexeme) (col col' : Collector) : Prop where
  lexemes_eq : col.lexemes = pre ++ col'.lexemes
  unlimited : Unlimited col
  unlimited' : Unlimited col'
  lastEnd_iff : ∀ p, c.pos ≤ p → 0 < p → c.source[p - 1]? = some 10 →
    (col.lastEnd = some p ↔ col'.lastEnd = some p)

variable {pre : Array Lexeme}

theorem Extends.record (h : Extends c pre col col') (d : Cursor) (kind : TokenKind)
    (bytes : List UInt8) (span : Span) (n n' : Nat) :
    Extends c pre { col.record d kind bytes span with count := n }
      { col'.record d kind bytes span with count := n' } where
  lexemes_eq := by simp only [Collector.record, h.lexemes_eq, Array.append_push]
  unlimited := h.unlimited.record _ _ _ _ _
  unlimited' := h.unlimited'.record _ _ _ _ _
  lastEnd_iff _ _ _ _ := Iff.rfl

/-- Two collectors that record alike from `c` on hear alike every signal that a run from `c`
hands: it is heard at or after `c`, where the two agree on the last end. -/
theorem Extends.hear {sig : Signal} (h : Extends c pre col col') (hd : Lexer.Hands c d sig) :
    (listener.hear d sig col).go = (listener.hear d sig col').go ∧
      (listener.hear d sig col).notes = (listener.hear d sig col').notes ∧
      Extends c pre (listener.hear d sig col).state (listener.hear d sig col').state := by
  obtain ⟨hgo, hn, -⟩ := h.unlimited.hear d sig
  obtain ⟨hgo', hn', -⟩ := h.unlimited'.hear d sig
  refine ⟨hgo.trans hgo'.symm, hn.trans hn'.symm, ?_⟩
  have hm := hd.moves
  have hagree : 0 < d.pos → d.source[d.pos - 1]? = some 10 →
      (col.lastEnd = some d.pos ↔ col'.lastEnd = some d.pos) := fun hpos hnl =>
    h.lastEnd_iff d.pos hm.pos_le hpos (hm.source_eq ▸ hnl)
  cases sig with
  | unit kind tok =>
    rw [hear_unit_of_unlimited h.unlimited, hear_unit_of_unlimited h.unlimited']
    exact h.record d kind tok.bytes tok.span _ _
  | eol =>
    obtain ⟨bytes, span, he, he'⟩ := event_agree hagree .eol
    simp only [listener, he, he']
    exact h.record d .eol bytes span col.count col'.count
  | eof =>
    obtain ⟨bytes, span, he, he'⟩ := event_agree hagree .eof
    simp only [listener, he, he']
    exact h.record d .eof bytes span col.count col'.count

/-- Two collectors that record alike from `c` on end their runs from `c` alike, the first having
recorded `pre` and then what the second recorded. -/
theorem run_extends (h : Extends c pre col col') :
    (Lexer.run listener c col).cursor = (Lexer.run listener c col').cursor ∧
      (Lexer.run listener c col).result = (Lexer.run listener c col').result ∧
      (Lexer.run listener c col).state.lexemes = pre ++ (Lexer.run listener c col').state.lexemes := by
  obtain ⟨hcur, hst, hres⟩ :=
    Lexer.run_related listener (Extends c pre) c col col' (fun _ _ _ _ hd hsu => hsu.hear hd) h
  exact ⟨hcur, hres, hst.lexemes_eq⟩

/-- Where the cursor does not stand just past a line feed, a collector without a limit whose last
unit ended at the cursor records the rest of the input as a fresh collector does, after what it
has recorded. -/
theorem run_fresh (h : Unlimited col) (hlast : col.lastEnd = some c.pos)
    (hnl : c.source[c.pos - 1]? ≠ some 10) :
    (Lexer.run listener c col).cursor = (Lexer.run listener c {}).cursor ∧
      (Lexer.run listener c col).result = (Lexer.run listener c {}).result ∧
      (Lexer.run listener c col).state.lexemes =
        col.lexemes ++ (Lexer.run listener c {}).state.lexemes := by
  refine run_extends ⟨Array.append_empty.symm, h, ⟨rfl, rfl, rfl⟩, fun p hp _ hp10 => ?_⟩
  constructor
  · intro he
    rw [hlast, Option.some.injEq] at he
    subst he
    exact absurd hp10 hnl
  · intro he
    cases he

end Collector

/-! ## Resuming a scan -/

/-- Lexing resumed from any cursor reached from the start of a text is lexing the rest of the text
afresh, with spans moved by the cursor's position and places relocated by its line and column.
In particular a scan with a collector limited to `k + 1` content units either stops, and a scan
of the stream it leaves with a fresh collector records the rest of what `tokenize` records and
ends as `tokenize` does; or it does not stop, and it alone records and ends as `tokenize`. -/
theorem resuming_lexes_the_rest (source : List UInt8) (name : String) (ops : List Cursor.Op)
    (answer : Nat → Bool) (notes : Nat → List (Level × String)) (k : Nat) :
    (let c := (Cursor.new source name).perform ops
     let whole := Lexer.run (Listener.scripted answer notes) c []
     let rest := Lexer.run (Listener.scripted answer notes) (Cursor.new (source.drop c.pos) name) []
     whole.state = rest.state.map (TraceEvent.relocate c.pos ⟨c.line, c.column⟩) ∧
       whole.result = rest.result.mapError (LexError.relocate ⟨c.line, c.column⟩) ∧
       whole.cursor.pos = rest.cursor.pos + c.pos ∧
       whole.cursor.reports =
         c.reports ++ rest.cursor.reports.map (Diagnostic.relocate ⟨c.line, c.column⟩)) ∧
    (let first := Lexer.run Collector.listener (Cursor.new source name) { limit := some (k + 1) }
     let second := Lexer.run Collector.listener first.cursor {}
     let whole := tokenize source name
     (first.state.stopped = true ∧ first.state.lexemes ++ second.state.lexemes = whole.state.lexemes ∧
         second.result = whole.result ∧ second.cursor = whole.cursor) ∨
       (first.state.stopped = false ∧ first.state.lexemes = whole.state.lexemes ∧
         first.result = whole.result ∧ first.cursor = whole.cursor)) := by
  refine ⟨Lexer.run_from_cursor source name ops answer notes, ?_⟩
  intro first second whole
  have hU : Collector.Unlimited {} := ⟨rfl, rfl, rfl⟩
  rcases Collector.run_limited (Cursor.new source name) _ {} rfl hU (Nat.succ_pos k) with
    ⟨hst, hcur, hres⟩ | ⟨colM, hM, hst, hlast, hnl, -, hrun⟩
  · right
    have hstop := (hU.run (Cursor.new source name)).not_stopped
    refine ⟨?_, (congrArg Collector.lexemes hst :), hres, hcur⟩
    rw [hst]
    exact hstop
  · left
    obtain ⟨hcur, hres, hlex⟩ := Collector.run_fresh hM hlast hnl
    have hwhole : whole = Lexer.run Collector.listener first.cursor colM := hrun
    refine ⟨by rw [hst], ?_, ?_, ?_⟩
    · rw [hwhole, hlex, hst]
    · rw [hwhole, hres]
    · rw [hwhole, hcur]

/-- The split needs a limit of at least one and a first scan that stops: a limit of `0` lets the
lexer read the unit `a` before it stops, unrecorded, and a scan of the empty text that is not
stopped leaves a used-up stream, whose scan records the closing end of line and end of input
again. -/
theorem scan_split_fails_at_limit_zero_and_after_end :
    (let first := Lexer.run Collector.listener (Cursor.new [97] "test") { limit := some 0 }
     first.state.lexemes ++ (Lexer.run Collector.listener first.cursor {}).state.lexemes ≠
       (tokenize [97] "test").state.lexemes) ∧
    (let first := Lexer.run Collector.listener (Cursor.new [] "test") { limit := some 1 }
     first.state.lexemes ++ (Lexer.run Collector.listener first.cursor {}).state.lexemes ≠
       (tokenize [] "test").state.lexemes) := by
  decide +kernel

end ConfLex
