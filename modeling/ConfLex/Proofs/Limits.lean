import ConfLex.Proofs.Resuming
import ConfLex.Proofs.Listening

/-!
# What a limited collector records

A collector can leave comments out, and it can stop the lexer once it has recorded a number of
content lexemes, that is of lexemes other than ends of line and of input. Both only filter what
the plain collector of `tokenize` records. Leaving comments out drops the comments from its list;
a limit of `k ≥ 1` cuts the list right after the `k`-th content lexeme, and a limit of `0` right
before the first. The lexer stops exactly when the limit cuts the list, and it then succeeds,
whatever error the rest of the text holds; otherwise the scan ends as `tokenize` does
(`collector_records_cut_tokenize`).

A skipped comment still moves the collector's last end, and a limit not reached yet changes
nothing in what is recorded. So the configured collector follows the plain one signal by signal
(`Collector.Follows`) until the signal at which it stops the lexer (`Collector.Stops`), and the
plain run goes on from there, only adding to its list (`Collector.run_follows`).
-/

namespace ConfLex

/-! ## Content and cuts -/

namespace Lexeme

/-- Whether a lexeme is content: neither an end of line nor the end of input. -/
def isContent (x : Lexeme) : Bool := x.kind != .eol && x.kind != .eof

/-- The lexemes kept by a limit of `k` content lexemes: those before the first content lexeme
when `k = 0`, those through the `k`-th content lexeme when `k ≥ 1`, and all of them when there are
not that many. -/
def cutAt : Nat → List Lexeme → List Lexeme
  | _, [] => []
  | k, x :: xs =>
    if x.isContent then
      match k with
      | 0 => []
      | 1 => [x]
      | k + 2 => x :: cutAt (k + 1) xs
    else x :: cutAt k xs

/-- The lexemes kept under a limit, if there is one. -/
def cut : Option Nat → List Lexeme → List Lexeme
  | none, xs => xs
  | some k, xs => cutAt k xs

/-- Whether a limit cuts a list short: there is a limit `k`, and the list holds at least `k`
content lexemes, and at least one. -/
def cuts : Option Nat → List Lexeme → Bool
  | none, _ => false
  | some k, xs => decide (max k 1 ≤ xs.countP isContent)

/-- The lexemes kept when comments are left out, if they are. -/
def dropComments (skip : Bool) (xs : List Lexeme) : List Lexeme :=
  if skip then xs.filter (·.kind != .comment) else xs

@[simp] theorem cutAt_nil (k : Nat) : cutAt k [] = [] := by
  cases k <;> rfl

theorem cutAt_cons_of_not_content {x : Lexeme} (hx : x.isContent = false) (k : Nat)
    (xs : List Lexeme) : cutAt k (x :: xs) = x :: cutAt k xs := by
  simp [cutAt, hx]

theorem cutAt_cons_of_content {x : Lexeme} (hx : x.isContent = true) (k : Nat)
    (xs : List Lexeme) : cutAt (k + 2) (x :: xs) = x :: cutAt (k + 1) xs := by
  simp [cutAt, hx]

/-- Before the cut, a list is kept whole and the limit moves on by the content it holds. -/
theorem cutAt_append_of_lt {k : Nat} {xs : List Lexeme} (h : xs.countP isContent < max k 1)
    (ys : List Lexeme) : cutAt k (xs ++ ys) = xs ++ cutAt (k - xs.countP isContent) ys := by
  induction xs generalizing k with
  | nil => simp
  | cons x xs ih =>
    cases hx : x.isContent with
    | false =>
      rw [List.countP_cons_of_neg (by simp [hx])] at h ⊢
      rw [List.cons_append, cutAt_cons_of_not_content hx, ih h, List.cons_append]
    | true =>
      rw [List.countP_cons_of_pos hx] at h ⊢
      obtain ⟨j, rfl⟩ : ∃ j, k = j + 2 := ⟨k - 2, by omega⟩
      have hj : xs.countP isContent < max (j + 1) 1 := by omega
      rw [List.cons_append, cutAt_cons_of_content hx, ih hj, List.cons_append,
        show j + 1 - xs.countP isContent = j + 2 - (xs.countP isContent + 1) by omega]

/-- A list the limit does not cut is kept whole. -/
theorem cutAt_eq_self {k : Nat} {xs : List Lexeme} (h : xs.countP isContent < max k 1) :
    cutAt k xs = xs := by
  simpa using cutAt_append_of_lt h []

/-- Once a list is cut, what follows it is not kept. -/
theorem cutAt_append_of_le {k : Nat} {xs : List Lexeme} (h : max k 1 ≤ xs.countP isContent)
    (ys : List Lexeme) : cutAt k (xs ++ ys) = cutAt k xs := by
  induction xs generalizing k with
  | nil => simp at h
  | cons x xs ih =>
    cases hx : x.isContent with
    | false =>
      rw [List.countP_cons_of_neg (by simp [hx])] at h
      rw [List.cons_append, cutAt_cons_of_not_content hx, cutAt_cons_of_not_content hx, ih h]
    | true =>
      rw [List.countP_cons_of_pos hx] at h
      rcases k with _ | _ | j
      · simp [cutAt, hx]
      · simp [cutAt, hx]
      · have hj : max (j + 1) 1 ≤ xs.countP isContent := by omega
        rw [List.cons_append, cutAt_cons_of_content hx, cutAt_cons_of_content hx, ih hj]

/-- A content lexeme that comes while the list is not cut is kept, unless the limit is reached
before it, which only a limit of `0` is. -/
theorem cutAt_concat_content {k : Nat} {xs : List Lexeme} {x : Lexeme}
    (h : xs.countP isContent < max k 1) (hx : x.isContent = true) :
    cutAt k (xs ++ [x]) = if k ≤ xs.countP isContent then xs else xs ++ [x] := by
  rw [cutAt_append_of_lt h]
  split
  · next hk => rw [Nat.sub_eq_zero_of_le hk]; simp [cutAt, hx]
  · next hk =>
    obtain ⟨j, hj⟩ : ∃ j, k - xs.countP isContent = j + 1 := ⟨k - xs.countP isContent - 1, by omega⟩
    rw [hj]
    cases j <;> simp [cutAt, hx]

theorem countP_concat (xs : List Lexeme) (x : Lexeme) :
    (xs ++ [x]).countP isContent = xs.countP isContent + if x.isContent then 1 else 0 := by
  cases hx : x.isContent <;> simp [hx]

@[simp] theorem dropComments_append (skip : Bool) (xs ys : List Lexeme) :
    dropComments skip (xs ++ ys) = dropComments skip xs ++ dropComments skip ys := by
  cases skip <;> simp [dropComments]

theorem dropComments_singleton_of_keep {skip : Bool} {x : Lexeme}
    (h : x.kind = .comment → skip = false) : dropComments skip [x] = [x] := by
  cases skip with
  | false => rfl
  | true =>
    have hx : x.kind ≠ .comment := fun hc => Bool.noConfusion (h hc)
    simp [dropComments, hx]

theorem dropComments_singleton_comment {x : Lexeme} (h : x.kind = .comment) :
    dropComments true [x] = [] := by
  simp [dropComments, h]

/-- Cutting more content onto a list that a limit already cuts keeps it cut. -/
theorem cuts_append {limit : Option Nat} {xs : List Lexeme} (h : cuts limit xs = true)
    (ys : List Lexeme) : cuts limit (xs ++ ys) = true := by
  cases limit with
  | none => cases h
  | some k =>
    simp only [cuts, decide_eq_true_eq, List.countP_append] at h ⊢
    omega

theorem cut_append_of_cuts {limit : Option Nat} {xs : List Lexeme} (h : cuts limit xs = true)
    (ys : List Lexeme) : cut limit (xs ++ ys) = cut limit xs := by
  cases limit with
  | none => cases h
  | some k =>
    simp only [cuts, decide_eq_true_eq] at h
    exact cutAt_append_of_le h ys

theorem cut_of_not_cuts {limit : Option Nat} {xs : List Lexeme} (h : cuts limit xs = false) :
    cut limit xs = xs := by
  cases limit with
  | none => rfl
  | some k =>
    simp only [cuts, decide_eq_false_iff_not, Nat.not_le] at h
    exact cutAt_eq_self h

end Lexeme

/-! ## A collector that follows the plain one -/

namespace Collector

open Lexeme

variable {limit : Option Nat} {skip : Bool} {col u : Collector}

/-- The lexeme that recording a unit adds. -/
theorem toList_record (d : Cursor) (kind : TokenKind) (bytes : List UInt8) (span : Span)
    (col : Collector) :
    (col.record d kind bytes span).lexemes.toList =
      col.lexemes.toList ++ [⟨kind, bytes, span, lineOf d span.start⟩] := by
  simp [record]

/-- A unit reaches the content path unless it is a comment that the collector leaves out. -/
theorem hear_unit_eq (d : Cursor) (kind : TokenKind) (tok : Token) (col : Collector) :
    listener.hear d (.unit kind tok) col =
      if kind = .comment ∧ col.skipComments = true then
        { go := true, state := { col with lastEnd := some tok.span.stop } }
      else content d kind tok col := by
  cases kind <;> by_cases hs : col.skipComments = true <;> simp [listener, hs]

/-- A collector with a limit and a comment switch that follows a plain one: it has recorded what
the plain one has recorded, less the comments it leaves out; it has the same last end and counts
the content it has recorded; and its limit does not cut what it has recorded yet. -/
structure Follows (limit : Option Nat) (skip : Bool) (col u : Collector) : Prop where
  plain : Unlimited u
  limit_eq : col.limit = limit
  skip_eq : col.skipComments = skip
  not_stopped : col.stopped = false
  lexemes_eq : col.lexemes.toList = dropComments skip u.lexemes.toList
  lastEnd_eq : col.lastEnd = u.lastEnd
  count_eq : col.count = (dropComments skip u.lexemes.toList).countP isContent
  uncut : cuts limit (dropComments skip u.lexemes.toList) = false

/-- A collector that has stopped the lexer, with the list of the plain one `m` that it cuts: it
has recorded that list cut at its limit. -/
structure Stops (limit : Option Nat) (skip : Bool) (col m : Collector) : Prop where
  plain : Unlimited m
  stopped : col.stopped = true
  lexemes_eq : col.lexemes.toList = cut limit (dropComments skip m.lexemes.toList)
  cut_short : cuts limit (dropComments skip m.lexemes.toList) = true

theorem follows_new (limit : Option Nat) (skip : Bool) :
    Follows limit skip { limit, skipComments := skip } {} where
  plain := ⟨rfl, rfl, rfl⟩
  limit_eq := rfl
  skip_eq := rfl
  not_stopped := rfl
  lexemes_eq := by simp [dropComments]
  lastEnd_eq := rfl
  count_eq := by simp [dropComments]
  uncut := by cases limit <;> simp [cuts, dropComments]

/-- Both record an end of line or of input alike, and it is no content and no comment. -/
theorem Follows.event (h : Follows limit skip col u) (d : Cursor) {kind : TokenKind}
    (hk : kind = .eol ∨ kind = .eof) : Follows limit skip (event d kind col) (event d kind u) := by
  obtain ⟨bytes, span, he, he'⟩ := @event_agree d col u (fun _ _ => by rw [h.lastEnd_eq]) kind
  have hkeep : dropComments skip [⟨kind, bytes, span, lineOf d span.start⟩] =
      [⟨kind, bytes, span, lineOf d span.start⟩] :=
    dropComments_singleton_of_keep (fun hc => by rcases hk with rfl | rfl <;> cases hc)
  have hcontent : (⟨kind, bytes, span, lineOf d span.start⟩ : Lexeme).isContent = false := by
    rcases hk with rfl | rfl <;> rfl
  rw [he, he']
  exact
    { plain := h.plain.record d kind bytes span u.count
      limit_eq := h.limit_eq
      skip_eq := h.skip_eq
      not_stopped := h.not_stopped
      lexemes_eq := by rw [toList_record, toList_record, dropComments_append, hkeep, h.lexemes_eq]
      lastEnd_eq := rfl
      count_eq := by
        rw [toList_record, dropComments_append, hkeep, countP_concat, hcontent]
        exact h.count_eq
      uncut := by
        rw [toList_record, dropComments_append, hkeep]
        have hu := h.uncut
        cases limit with
        | none => rfl
        | some k =>
          simp only [cuts, decide_eq_false_iff_not, countP_concat, hcontent] at hu ⊢
          simpa using hu }

/-- A comment left out moves the last end as the plain collector's recording of it does, and
adds nothing. -/
theorem Follows.skipComment (h : Follows limit skip col u) (d : Cursor) (tok : Token)
    (hs : skip = true) :
    Follows limit skip { col with lastEnd := some tok.span.stop }
      { u.record d .comment tok.bytes tok.span with count := u.count + 1 } := by
  subst hs
  have hdrop : dropComments true [⟨.comment, tok.bytes, tok.span, lineOf d tok.span.start⟩] = [] :=
    dropComments_singleton_comment rfl
  exact
    { plain := h.plain.record d .comment tok.bytes tok.span _
      limit_eq := h.limit_eq
      skip_eq := h.skip_eq
      not_stopped := h.not_stopped
      lexemes_eq := by
        rw [toList_record, dropComments_append, hdrop, List.append_nil]
        exact h.lexemes_eq
      lastEnd_eq := rfl
      count_eq := by
        rw [toList_record, dropComments_append, hdrop, List.append_nil]
        exact h.count_eq
      uncut := by
        rw [toList_record, dropComments_append, hdrop, List.append_nil]
        exact h.uncut }

/-- A content unit that the collector does not leave out: the plain collector records it; the
other records it too and goes on while its limit does not cut, and otherwise stops the lexer with
the plain list cut. -/
theorem Follows.content (h : Follows limit skip col u) (d : Cursor) {kind : TokenKind}
    (tok : Token) (hk : kind ≠ .eol) (hk' : kind ≠ .eof) (hkeep : kind = .comment → skip = false) :
    ((content d kind tok col).go = true ∧ Follows limit skip (content d kind tok col).state
        { u.record d kind tok.bytes tok.span with count := u.count + 1 }) ∨
      ((content d kind tok col).go = false ∧ Stops limit skip (content d kind tok col).state
        { u.record d kind tok.bytes tok.span with count := u.count + 1 }) := by
  have hxc : (⟨kind, tok.bytes, tok.span, lineOf d tok.span.start⟩ : Lexeme).isContent = true := by
    simp [isContent, hk, hk']
  have hlist : dropComments skip
      ({ u.record d kind tok.bytes tok.span with count := u.count + 1 } : Collector).lexemes.toList =
      dropComments skip u.lexemes.toList ++ [⟨kind, tok.bytes, tok.span, lineOf d tok.span.start⟩] := by
    rw [toList_record, dropComments_append, dropComments_singleton_of_keep hkeep]
  have hplain : Unlimited { u.record d kind tok.bytes tok.span with count := u.count + 1 } :=
    h.plain.record d kind tok.bytes tok.span _
  have hrec : Follows limit skip { col.record d kind tok.bytes tok.span with count := col.count + 1 }
      { u.record d kind tok.bytes tok.span with count := u.count + 1 } ↔
      cuts limit (dropComments skip u.lexemes.toList ++
        [⟨kind, tok.bytes, tok.span, lineOf d tok.span.start⟩]) = false := by
    refine ⟨fun hf => hlist ▸ hf.uncut, fun hc => ?_⟩
    exact
      { plain := hplain
        limit_eq := h.limit_eq
        skip_eq := h.skip_eq
        not_stopped := h.not_stopped
        lexemes_eq := by rw [hlist, toList_record, h.lexemes_eq]
        lastEnd_eq := rfl
        count_eq := by rw [hlist, countP_concat, hxc, h.count_eq]; rfl
        uncut := hlist ▸ hc }
  cases hl : limit with
  | none =>
    subst hl
    left
    rw [content_of_limit h.limit_eq]
    exact ⟨rfl, hrec.mpr rfl⟩
  | some k =>
    subst hl
    have hu := h.uncut
    simp only [cuts, decide_eq_false_iff_not, Nat.not_le] at hu
    have hcount := h.count_eq
    have hcut := cutAt_concat_content hu hxc
    by_cases hk0 : k ≤ col.count
    · right
      have hr : content d kind tok col = { go := false, state := { col with stopped := true } } := by
        simp [content, limitReached, h.limit_eq, hk0]
      rw [hr]
      refine ⟨rfl, hplain, rfl, ?_, ?_⟩
      · rw [hlist, cut, hcut, if_pos (hcount ▸ hk0)]
        exact h.lexemes_eq
      · simp only [hlist, cuts, countP_concat, hxc, if_true, decide_eq_true_eq]
        omega
    · have hr : content d kind tok col =
          if k ≤ col.count + 1 then
            { go := false, state := { col.record d kind tok.bytes tok.span with
                count := col.count + 1, stopped := true } }
          else { go := true, state := { col.record d kind tok.bytes tok.span with
                count := col.count + 1 } } := by
        simp only [content, limitReached, h.limit_eq, hk0, decide_false, Bool.false_eq_true,
          if_false, record]
        split <;> simp_all
      by_cases hlast : k ≤ col.count + 1
      · right
        rw [hr, if_pos hlast]
        refine ⟨rfl, hplain, rfl, ?_, ?_⟩
        · rw [hlist, cut, hcut, if_neg (hcount ▸ hk0), toList_record, h.lexemes_eq]
        · simp only [hlist, cuts, countP_concat, hxc, if_true, decide_eq_true_eq]
          omega
      · left
        rw [hr, if_neg hlast]
        refine ⟨rfl, hrec.mpr ?_⟩
        simp only [cuts, countP_concat, hxc, if_true, decide_eq_false_iff_not]
        omega

/-- Every unit or end of line that a run hands, heard by a collector that follows a plain one:
the plain one lets the lexer go on, and the other either lets it go on and keeps following, or
stops it. -/
theorem Follows.hear (h : Follows limit skip col u) (d : Cursor) {kind : TokenKind} (tok : Token)
    (hk : kind ≠ .eof) :
    (listener.hear d (Signal.ofUnit kind tok) u).go = true ∧
      (((listener.hear d (Signal.ofUnit kind tok) col).go = true ∧
          Follows limit skip (listener.hear d (Signal.ofUnit kind tok) col).state
            (listener.hear d (Signal.ofUnit kind tok) u).state) ∨
        ((listener.hear d (Signal.ofUnit kind tok) col).go = false ∧
          Stops limit skip (listener.hear d (Signal.ofUnit kind tok) col).state
            (listener.hear d (Signal.ofUnit kind tok) u).state)) := by
  refine ⟨(h.plain.hear d _).1, ?_⟩
  by_cases hkeol : kind = .eol
  · subst hkeol
    exact .inl ⟨rfl, h.event d (.inl rfl)⟩
  rw [ofUnit_of_content hkeol hk, hear_unit_eq, hear_unit_of_unlimited h.plain]
  by_cases hc : kind = .comment ∧ col.skipComments = true
  · obtain ⟨rfl, hs⟩ := hc
    rw [if_pos ⟨rfl, hs⟩]
    exact .inl ⟨rfl, h.skipComment d tok (h.skip_eq ▸ hs)⟩
  · rw [if_neg hc]
    refine h.content d tok hkeol hk fun hcm => ?_
    rw [← h.skip_eq]
    simpa [hcm] using hc

/-- What recording adds comes after what was recorded. -/
theorem lexemes_prefix_hear (d : Cursor) (sig : Signal) (col : Collector) :
    col.lexemes.toList <+: (listener.hear d sig col).state.lexemes.toList := by
  have hevent : ∀ kind, col.lexemes.toList <+: (event d kind col).lexemes.toList := by
    intro kind
    obtain ⟨bytes, span, he⟩ := event_eq_record d kind col
    rw [he, toList_record]
    exact List.prefix_append _ _
  cases sig with
  | unit kind tok =>
    rw [hear_unit_eq]
    split
    · exact List.prefix_refl _
    · have hsame : (content d kind tok col).state.lexemes =
          (if col.limitReached then col else
            { col.record d kind tok.bytes tok.span with count := col.count + 1 }).lexemes := by
        simp only [content, apply_ite Reply.state, apply_ite Collector.lexemes, ite_self]
      rw [hsame]
      split
      · exact List.prefix_refl _
      · rw [toList_record]
        exact List.prefix_append _ _
  | eol => exact hevent .eol
  | eof => exact hevent .eof

/-- A run with a collector only adds to what it has recorded. -/
theorem lexemes_prefix_run (d : Cursor) (m : Collector) :
    m.lexemes.toList <+: (Lexer.run listener d m).state.lexemes.toList :=
  Lexer.run_invariant (fun s => m.lexemes.toList <+: s.lexemes.toList)
    (fun c sig s hs => hs.trans (lexemes_prefix_hear c sig s)) d (List.prefix_refl _)

/-- A collector reports nothing, so a run with it reports only the error that ends it. -/
theorem reports_run (c : Cursor) (col : Collector) :
    (Lexer.run listener c col).cursor.reports =
      c.reports ++ LexError.reportsOf c.name (Lexer.run listener c col).result := by
  obtain ⟨heard, hh, -, hr⟩ := Lexer.run_observed listener c col []
  have hsilent : ∀ x ∈ (Lexer.run listener.observe c (col, [])).state.2, x.reports = [] := by
    refine Lexer.run_invariant (fun p : Collector × List Hearing => ∀ x ∈ p.2, x.reports = [])
      (fun d sig p hp => ?_) c (by simp)
    intro x hx
    rcases List.mem_append.mp hx with hx | hx
    · exact hp x hx
    · rw [List.mem_singleton] at hx
      subst hx
      simp
  have hnone : heard.flatMap Hearing.reports = [] :=
    List.flatMap_eq_nil_iff.mpr fun x hx => hsilent x (by rw [hh]; exact List.mem_append_right _ hx)
  rw [hr, hnone, List.append_nil]

/-- A run with a collector that follows a plain one either ends as the plain run does, still
following it; or it stops the lexer and succeeds, and the plain run goes on from where it
stopped, with a collector whose list the limit cuts. -/
theorem run_follows (c : Cursor) (col u : Collector) (h : Follows limit skip col u) :
    (Follows limit skip (Lexer.run listener c col).state (Lexer.run listener c u).state ∧
        (Lexer.run listener c col).result = (Lexer.run listener c u).result) ∨
      ((Lexer.run listener c col).result = .ok () ∧
        ∃ m, Stops limit skip (Lexer.run listener c col).state m ∧
          Lexer.run listener c u = Lexer.run listener (Lexer.run listener c col).cursor m) := by
  fun_induction Lexer.run listener c col generalizing u with
  | case1 c col hrest =>
    rw [Lexer.run_nil hrest]
    exact .inl ⟨(h.event c (.inl rfl)).event c (.inr rfl), rfl⟩
  | case2 c col b t hrest hs ih =>
    rw [Lexer.run_blank hrest hs]
    exact ih u h
  | case3 c col b t hrest kind n hs c1 r c2 hgo ih =>
    obtain ⟨hgoU, hstep⟩ := h.hear c1 ⟨(b :: t).take n, ⟨c.pos, c.pos + n⟩⟩ (Scan.next_ne_eof hs)
    rcases hstep with ⟨-, hf⟩ | ⟨hstop, -⟩
    · have hU : Lexer.run listener c u = Lexer.run listener c2 (listener.hear c1
          (Signal.ofUnit kind ⟨(b :: t).take n, ⟨c.pos, c.pos + n⟩⟩) u).state := by
        rw [Lexer.run_unit_go hrest hs rfl hgoU]
        simp only [c2, r, c1, notes_hear, Cursor.reportAll_nil]
      rw [hU]
      exact ih _ hf
    · exact absurd hgo (by simp [r, hstop])
  | case4 c col b t hrest kind n hs c1 r c2 hgo =>
    obtain ⟨hgoU, hstep⟩ := h.hear c1 ⟨(b :: t).take n, ⟨c.pos, c.pos + n⟩⟩ (Scan.next_ne_eof hs)
    rcases hstep with ⟨hgo', -⟩ | ⟨-, hst⟩
    · exact absurd hgo' hgo
    · refine .inr ⟨rfl, _, hst, ?_⟩
      rw [Lexer.run_unit_go hrest hs rfl hgoU]
      simp only [c2, r, c1, notes_hear, Cursor.reportAll_nil]
  | case5 c col b t hrest kind o hs failed =>
    rw [Lexer.run_fault hrest hs]
    exact .inl ⟨h, rfl⟩

end Collector

/-! ## Limits and comments cut the list of `tokenize` -/

open Lexeme in
/-- From any cursor, a scan with a collector that may leave comments out and may have a limit
records what the plain collector records from there, without the comments if they are left out,
cut at the limit; it stops the lexer exactly when the limit cuts, and then succeeds; otherwise it
ends as the plain scan does. It reports only the error that ends it. -/
theorem Collector.run_configured (c : Cursor) (limit : Option Nat) (skip : Bool) :
    let scan := Lexer.run Collector.listener c { limit, skipComments := skip }
    let plain := Lexer.run Collector.listener c {}
    let kept := dropComments skip plain.state.lexemes.toList
    scan.state.lexemes.toList = cut limit kept ∧
      scan.state.stopped = cuts limit kept ∧
      scan.result = (if cuts limit kept then .ok () else plain.result) ∧
      scan.cursor.reports = c.reports ++ LexError.reportsOf c.name scan.result := by
  intro scan plain kept
  have hreports := Collector.reports_run c { limit, skipComments := skip }
  rcases Collector.run_follows c _ _ (Collector.follows_new limit skip) with
    ⟨hf, hres⟩ | ⟨hok, m, hst, hrun⟩
  · have huncut : cuts limit kept = false := hf.uncut
    refine ⟨?_, ?_, ?_, hreports⟩
    · rw [cut_of_not_cuts huncut]
      exact hf.lexemes_eq
    · rw [huncut]
      exact hf.not_stopped
    · rw [huncut, if_neg Bool.false_ne_true]
      exact hres
  · obtain ⟨more, hmore⟩ := Collector.lexemes_prefix_run scan.cursor m
    have hplain : plain.state.lexemes.toList = m.lexemes.toList ++ more := by
      rw [show plain = Lexer.run Collector.listener scan.cursor m from hrun, hmore]
    have hcuts : cuts limit kept = true := by
      simp only [kept, hplain, dropComments_append]
      exact cuts_append hst.cut_short _
    refine ⟨?_, ?_, ?_, hreports⟩
    · simp only [kept, hplain, dropComments_append, cut_append_of_cuts hst.cut_short]
      exact hst.lexemes_eq
    · rw [hcuts]
      exact hst.stopped
    · rw [hcuts, if_pos rfl]
      exact hok

open Lexeme in
/-- A scan of a text with a collector that may leave comments out and may have a limit records
the lexemes of `tokenize`, without the comments if they are left out, cut at the limit. The
collector stops the lexer exactly when the limit cuts that list: right before its first content
lexeme for a limit of `0`, right after its `k`-th for a limit of `k ≥ 1`. The scan then succeeds
and reports nothing, even where `tokenize` fails further on; otherwise it ends with the result of
`tokenize`. Either way its only diagnostic is the one of its error. -/
theorem collector_records_cut_tokenize (source : List UInt8) (name : String)
    (limit : Option Nat) (skip : Bool) :
    let scan := Lexer.run Collector.listener (Cursor.new source name)
      { limit, skipComments := skip }
    let whole := tokenize source name
    let kept := dropComments skip whole.state.lexemes.toList
    scan.state.lexemes.toList = cut limit kept ∧
      scan.state.stopped = cuts limit kept ∧
      scan.result = (if cuts limit kept then .ok () else whole.result) ∧
      scan.cursor.reports = LexError.reportsOf name scan.result := by
  exact Collector.run_configured (Cursor.new source name) limit skip

end ConfLex
