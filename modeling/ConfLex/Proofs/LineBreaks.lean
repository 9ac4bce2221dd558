import ConfLex.Proofs.Limits
import ConfLex.Proofs.Boundaries

/-!
# Real and synthetic line breaks

The lexer tells a collector of an end of line and nothing more, so the collector guesses which
kind it is: it records the end of line with the line feed just before the cursor, unless the last
unit it recorded or skipped already ended there, and empty otherwise.

From the start of a text the guess is right (`Collector.run_collect`): an end of line recorded
with a line feed is a line feed the scan read, and the end of line issued when the input runs out
is empty. From a cursor reached by stream operations it is right but in one case. A fresh
collector does not know where the last unit before the cursor ended; the first signal of a scan
with input left lies past the cursor, where that does not matter (`Collector.hear_fresh_of_lt`).
A scan that starts at the end of the text hears the closing end of line at the cursor itself,
and if a line feed stands right before it, read by a raw step of the stream or by an earlier
scan, the collector records the end of line with that line feed (`scan_records_line_breaks`).
-/

namespace ConfLex

namespace Collector

variable {c d : Cursor} {b : UInt8} {t : List UInt8}

/-- Past the cursor `c`, a fresh collector hears every signal as one whose last unit ended at `c`
does: hearing records or skips a unit, which sets the last end, and the only use of the last end
is to ask whether it lies where the signal is heard, which neither does. -/
theorem hear_fresh_of_lt (hlt : c.pos < d.pos) (sig : Signal) :
    listener.hear d sig {} = listener.hear d sig { lastEnd := some c.pos } := by
  have hagree : 0 < d.pos → d.source[d.pos - 1]? = some 10 →
      (({} : Collector).lastEnd = some d.pos ↔
        ({ lastEnd := some c.pos } : Collector).lastEnd = some d.pos) := fun _ _ => by
    simp only [reduceCtorEq, Option.some.injEq, false_iff]
    omega
  cases sig with
  | unit kind tok =>
    rw [hear_unit_of_unlimited ⟨rfl, rfl, rfl⟩, hear_unit_of_unlimited ⟨rfl, rfl, rfl⟩]
    rfl
  | eol =>
    obtain ⟨bytes, span, he, he'⟩ := event_agree hagree .eol
    simp only [listener, he, he']
    rfl
  | eof =>
    obtain ⟨bytes, span, he, he'⟩ := event_agree hagree .eof
    simp only [listener, he, he']
    rfl

/-- From a cursor with input left, a fresh collector records what one whose last unit ended at
the cursor records: past a blank neither collector's last end lies where a signal can be heard,
and a unit is heard past the cursor, where the two hear alike. -/
theorem lexemes_run_fresh (h : c.rest = b :: t) :
    (Lexer.run listener c {}).state.lexemes =
      (Lexer.run listener c { lastEnd := some c.pos }).state.lexemes := by
  have hu : Unlimited ({} : Collector) := ⟨rfl, rfl, rfl⟩
  have hu' : Unlimited ({ lastEnd := some c.pos } : Collector) := ⟨rfl, rfl, rfl⟩
  cases hs : Scan.next b t with
  | blank =>
    have hext : Extends c.advance #[] {} { lastEnd := some c.pos } :=
      ⟨by simp, hu, hu', fun p hp _ _ => by
        rw [Cursor.pos_advance_cons h] at hp
        simp only [reduceCtorEq, Option.some.injEq, false_iff]
        omega⟩
    rw [Lexer.run_blank h hs, Lexer.run_blank h hs, (run_extends hext).2.2, Array.empty_append]
  | unit kind n =>
    have hpos : c.pos < (c.advanceBy n).pos := by
      rw [Cursor.pos_advanceBy, h, Nat.min_eq_left (Scan.next_eq_unit hs).le_length]
      have := Scan.pos_of_next_eq_unit hs
      omega
    have hr :=
      hear_fresh_of_lt hpos (Signal.ofUnit kind ⟨(b :: t).take n, ⟨c.pos, c.pos + n⟩⟩)
    rw [Lexer.run_unit_go h hs rfl (hu.hear _ _).1, Lexer.run_unit_go h hs rfl (hu'.hear _ _).1, hr]
  | fault kind o =>
    rw [Lexer.run_fault h hs, Lexer.run_fault h hs]

/-- From any cursor of a well-formed text, a collector that knows the cursor records the units of
the reading of the rest, then the trailer. From inside a character it records nothing, as the
reading stops at once. -/
theorem run_collect_of_valid (c : Cursor) (col : Collector) (ht : Tracking c col)
    (hv : Utf8.Valid c.source) :
    (Lexer.run listener c col).state.lexemes.toList.map Lexeme.token =
      col.lexemes.toList.map Lexeme.token ++ (Scan.read c.rest c.pos).1 ++
        (Scan.read c.rest c.pos).2.trailer (c.pos + c.rest.length) := by
  by_cases hin : ∃ b t, c.rest = b :: t ∧ Utf8.isContinuation b
  · obtain ⟨b, t, hr, hb⟩ := hin
    rw [Lexer.run_of_continuation listener col hr hb, hr,
      Scan.read_fault (Scan.next_of_continuation hb)]
    simp [Ending.trailer]
  · exact (run_collect c col ht
      (c.valid_rest_of_not_continuation hv fun b t hr hb => hin ⟨b, t, hr, hb⟩)).1

/-- From any cursor of a well-formed text, a fresh collector records the units of the reading of
the rest and then, if the reading gets to the end, an empty end of line and end of input at the
end of the text. The one exception is a scan that starts at the end of the text right after a
line feed: the closing end of line is recorded with that line feed, which the scan did not
read. -/
theorem tokens_run_fresh (c : Cursor) (hv : Utf8.Valid c.source) :
    (Lexer.run listener c {}).state.lexemes.toList.map Lexeme.token =
      (Scan.read c.rest c.pos).1 ++
        if c.rest = [] ∧ 0 < c.pos ∧ c.source[c.pos - 1]? = some 10 then
          [(.eol, ⟨[10], ⟨c.pos - 1, c.pos⟩⟩), (.eof, ⟨[], ⟨c.pos, c.pos⟩⟩)]
        else (Scan.read c.rest c.pos).2.trailer (c.pos + c.rest.length) := by
  cases hr : c.rest with
  | cons b t =>
    have ht : Tracking c { lastEnd := some c.pos } := tracking_of_lastEnd rfl rfl rfl
    rw [lexemes_run_fresh hr, run_collect_of_valid c _ ht hv, hr, if_neg (by simp)]
    simp
  | nil =>
    by_cases hnl : 0 < c.pos ∧ c.source[c.pos - 1]? = some 10
    · have h1 : event c .eol {} = ({} : Collector).record c .eol [10] ⟨c.pos - 1, c.pos⟩ :=
        event_newline hnl.1 hnl.2 (by simp)
      have h2 : ∀ col : Collector, event c .eof col = col.record c .eof [] ⟨c.pos, c.pos⟩ :=
        fun _ => event_empty (by simp)
      rw [Lexer.run_nil hr, if_pos ⟨rfl, hnl⟩, Scan.read_nil]
      simp [Lexer.finish, Lexer.tell, listener, h1, h2]
    · have ht : Tracking c {} := ⟨rfl, rfl, by simp, fun hp hnl' => absurd ⟨hp, hnl'⟩ hnl⟩
      rw [run_collect_of_valid c _ ht hv, hr, if_neg (fun h => hnl h.2)]
      simp

end Collector

/-- A scan of a stream over a well-formed text, from wherever stream operations have left it,
with a fresh collector that may leave comments out and may have a limit, records the lexemes the
plain fresh collector records, without the comments if they are left out, cut at the limit. The
plain collector records the units the scan reads, each end of line among them with the line feed
it read, and then, if the scan gets to the end, a closing end of line and the end of input. The
closing end of line is empty at the end of the text, except when the scan starts at the end of the
text right after a line feed: it is then recorded with that line feed, which the scan did not
read. -/
theorem scan_records_line_breaks (text name : String) (ops : List Cursor.Op)
    (limit : Option Nat) (skip : Bool) :
    let bytes := Utf8.encode text
    let c := (Cursor.new bytes name).perform ops
    let plain := Lexer.run Collector.listener c {}
    (Lexer.run Collector.listener c { limit, skipComments := skip }).state.lexemes.toList =
        Lexeme.cut limit (Lexeme.dropComments skip plain.state.lexemes.toList) ∧
      plain.state.lexemes.toList.map Lexeme.token =
        (Scan.read c.rest c.pos).1 ++
          if c.rest = [] ∧ 0 < c.pos ∧ bytes[c.pos - 1]? = some 10 then
            [(.eol, ⟨[10], ⟨c.pos - 1, c.pos⟩⟩), (.eof, ⟨[], ⟨c.pos, c.pos⟩⟩)]
          else (Scan.read c.rest c.pos).2.trailer bytes.length := by
  intro bytes c plain
  have hm := Cursor.moves_perform (Cursor.new bytes name) ops
  have hsrc : c.source = bytes := hm.source_eq
  have hle : c.pos ≤ c.source.length := (hm.indexed (Cursor.indexed_new _ _)).pos_le
  have hlen : bytes.length = c.pos + c.rest.length := by
    rw [c.rest_eq, List.length_drop, ← hsrc]
    omega
  refine ⟨(Collector.run_configured c limit skip).1, ?_⟩
  rw [hlen, ← hsrc]
  exact Collector.tokens_run_fresh c (hsrc ▸ Utf8.valid_encode text)

/-- After a raw read of the only byte, a line feed, a scan with a fresh collector records its
closing end of line with that line feed, which the scan did not read. -/
theorem closing_end_of_line_takes_line_feed_read_before :
    let c := (Cursor.new (Utf8.encode "\n") "test").perform [.get]
    (Lexer.run Collector.listener c {}).state.lexemes.toList.map Lexeme.token =
      [(.eol, ⟨[10], ⟨0, 1⟩⟩), (.eof, ⟨[], ⟨1, 1⟩⟩)] :=
  (scan_records_line_breaks "\n" "test" [.get] none false).2.trans (by decide +kernel)

end ConfLex
