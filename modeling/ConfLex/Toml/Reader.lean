/-!
# TOML: readers

A reader works on the characters of a TOML text still to be read, and gives a value and what it
leaves of them, or fails with a short description of what it expected.

Every reader here reads forward: what it leaves is a suffix of what it is given
(`Reader.Forward`). Some read at least one character whenever they succeed (`Reader.Strict`).
A loop runs rounds, each of which ends the loop with a result or asks for another round; a round
that asks for another must have read a character (`Reader.Advances`), so `Reader.loop` recurses
on fewer characters every time and ends without a bound on its rounds.
-/

namespace ConfLex.Toml

/-- A reader of the characters of a TOML text that may fail with a description. -/
abbrev Reader := StateT (List Char) (Except String)

/-- The next character, if any, left unread. -/
def peek : Reader (Option Char) := fun s => .ok (s.head?, s)

/-- Skips one character. -/
def bump : Reader Unit := fun s => .ok ((), s.tail)

/-- Reads the next character; fails with `message` at the end of the text. -/
def take (message : String) : Reader Char
  | [] => .error message
  | c :: rest => .ok (c, rest)

/-- Fails with a description. -/
def fail {α : Type} (message : String) : Reader α := fun _ => .error message

/-- Skips `c` if it comes next, and says whether it did. -/
def eat (c : Char) : Reader Bool
  | [] => .ok (false, [])
  | d :: rest => if d = c then .ok (true, rest) else .ok (false, d :: rest)

/-- Skips `c`, which must come next. -/
def expect (c : Char) : Reader Unit := do
  unless ← eat c do fail ("expected " ++ c.toString)

/-- Whether the text goes on with `s`. -/
def lookingAt (s : String) : Reader Bool := fun cs => .ok (s.toList.isPrefixOf cs, cs)

/-- Skips `n` characters. -/
def skip (n : Nat) : Reader Unit := fun s => .ok ((), s.drop n)

/-- Reads the longest run of characters of a class. -/
def readWhile (p : Char → Bool) : Reader (List Char) := fun s => .ok (s.takeWhile p, s.dropWhile p)

namespace Reader

variable {α β : Type} {x : Reader α} {f : α → Reader β} {cs rest : List Char} {a : α}

theorem run_eat_of_eq {c d : Char} {t : List Char} (h : d = c) :
    (eat c).run (d :: t) = .ok (true, t) := by
  simp [StateT.run, eat, h]

theorem run_eat_of_ne {c d : Char} {t : List Char} (h : ¬d = c) :
    (eat c).run (d :: t) = .ok (false, d :: t) := by
  simp [StateT.run, eat, h]

/-- A bind whose first reader succeeds goes on with the rest of the characters. -/
theorem run_bind_of_ok (hx : x.run cs = .ok (a, rest)) : (x >>= f).run cs = (f a).run rest := by
  rw [StateT.run_bind, hx]
  rfl

/-- A bind succeeds only when its first reader does, and the second then succeeds on what the
first left. -/
theorem run_bind_eq_ok {b : β} (h : (x >>= f).run cs = .ok (b, rest)) :
    ∃ a mid, x.run cs = .ok (a, mid) ∧ (f a).run mid = .ok (b, rest) := by
  cases hx : x.run cs with
  | error e => rw [StateT.run_bind, hx] at h; cases h
  | ok p => exact ⟨p.1, p.2, rfl, (run_bind_of_ok hx).symm.trans h⟩

/-! ## Reading forward -/

/-- A reader that leaves a suffix of the characters it is given. -/
def Forward (r : Reader α) : Prop := ∀ cs a rest, r.run cs = .ok (a, rest) → rest <:+ cs

namespace Forward

theorem pure (a : α) : Forward (Pure.pure a : Reader α) := by
  intro cs b rest h
  cases h
  exact List.suffix_refl cs

theorem bind (hx : Forward x) (hf : ∀ a, Forward (f a)) : Forward (x >>= f) := by
  intro cs b rest h
  obtain ⟨a, mid, hfirst, hsecond⟩ := run_bind_eq_ok h
  exact (hf a mid b rest hsecond).trans (hx cs a mid hfirst)

theorem fail (m : String) : Forward (Toml.fail m : Reader α) := fun _ _ _ h => nomatch h

theorem peek : Forward Toml.peek := fun cs _ _ h => by
  cases h
  exact List.suffix_refl cs

theorem bump : Forward Toml.bump := fun cs _ _ h => by
  cases h
  exact List.tail_suffix cs

theorem eat (c : Char) : Forward (Toml.eat c) := by
  intro cs b rest h
  cases cs with
  | nil => cases h; exact List.suffix_refl _
  | cons d t =>
    by_cases hd : d = c
    · rw [run_eat_of_eq hd] at h
      cases h
      exact List.suffix_cons d rest
    · rw [run_eat_of_ne hd] at h
      cases h
      exact List.suffix_refl _

theorem expect (c : Char) : Forward (Toml.expect c) := by
  refine (eat c).bind fun b => ?_
  split
  · exact pure _
  · exact fail _

theorem lookingAt (s : String) : Forward (Toml.lookingAt s) := fun cs _ _ h => by
  cases h
  exact List.suffix_refl cs

theorem skip (n : Nat) : Forward (Toml.skip n) := fun cs _ _ h => by
  cases h
  exact List.drop_suffix n cs

theorem readWhile (p : Char → Bool) : Forward (Toml.readWhile p) := fun cs _ _ h => by
  cases h
  exact List.dropWhile_suffix p

theorem foldlM {γ : Type} {g : β → γ → Reader β} (hg : ∀ b x, Forward (g b x)) (xs : List γ)
    (init : β) : Forward (xs.foldlM g init) := by
  induction xs generalizing init with
  | nil => exact pure init
  | cons x xs ih => exact (hg init x).bind ih

/-- A reader that reads forward leaves no more characters than it is given. -/
theorem length_le {r : Reader α} (hr : Forward r) (h : r.run cs = .ok (a, rest)) :
    rest.length ≤ cs.length :=
  (hr cs a rest h).length_le

end Forward

/-- A reader that leaves a suffix of the characters it is given, and fewer of them. -/
def Strict (r : Reader α) : Prop :=
  ∀ cs a rest, r.run cs = .ok (a, rest) → rest <:+ cs ∧ rest.length < cs.length

namespace Strict

theorem forward {r : Reader α} (hr : Strict r) : Forward r := fun cs a rest h => (hr cs a rest h).1

/-- A reader whose first step reads a character, and whose other steps read forward, reads a
character. -/
theorem bind (hx : Strict x) (hf : ∀ a, Forward (f a)) : Strict (x >>= f) := by
  intro cs b rest h
  obtain ⟨a, mid, hfirst, hsecond⟩ := run_bind_eq_ok h
  obtain ⟨hsuffix, hlt⟩ := hx cs a mid hfirst
  have hrest := hf a mid b rest hsecond
  exact ⟨hrest.trans hsuffix, Nat.lt_of_le_of_lt hrest.length_le hlt⟩

/-- A reader whose first step reads forward, and whose second step reads a character, reads a
character. -/
theorem after (hx : Forward x) (hf : ∀ a, Strict (f a)) : Strict (x >>= f) := by
  intro cs b rest h
  obtain ⟨a, mid, hfirst, hsecond⟩ := run_bind_eq_ok h
  have hsuffix := hx cs a mid hfirst
  obtain ⟨hrest, hlt⟩ := hf a mid b rest hsecond
  exact ⟨hrest.trans hsuffix, Nat.lt_of_lt_of_le hlt hsuffix.length_le⟩

theorem take (m : String) : Strict (Toml.take m) := by
  intro cs c rest h
  cases cs with
  | nil => cases h
  | cons d t =>
    cases h
    exact ⟨List.suffix_cons _ _, Nat.lt_succ_self _⟩

theorem expect (c : Char) : Strict (Toml.expect c) := by
  intro cs u rest h
  cases cs with
  | nil => cases h
  | cons d t =>
    by_cases hd : d = c
    · rw [Toml.expect, run_bind_of_ok (run_eat_of_eq hd)] at h
      cases h
      exact ⟨List.suffix_cons d rest, Nat.lt_succ_self _⟩
    · rw [Toml.expect, run_bind_of_ok (run_eat_of_ne hd)] at h
      cases h

end Strict

end Reader

/-! ## Loops -/

/-- What a round of a loop gives: the loop's result, or the state of the next round. -/
inductive Round (σ α : Type) where
  | done (a : α)
  | next (s : σ)

namespace Reader

variable {σ α β : Type}

/-- A round that reads forward, and reads a character whenever it asks for another round. -/
def Advances (r : Reader (Round σ α)) : Prop :=
  Forward r ∧ ∀ cs s rest, r.run cs = .ok (.next s, rest) → rest.length < cs.length

namespace Advances

theorem done (a : α) : Advances (Pure.pure (.done a) : Reader (Round σ α)) :=
  ⟨Forward.pure _, fun _ _ _ h => nomatch h⟩

theorem bind {x : Reader β} {f : β → Reader (Round σ α)} (hx : Forward x)
    (hf : ∀ b, Advances (f b)) : Advances (x >>= f) := by
  refine ⟨hx.bind fun b => (hf b).1, ?_⟩
  intro cs s rest h
  obtain ⟨b, mid, hfirst, hsecond⟩ := run_bind_eq_ok h
  exact Nat.lt_of_lt_of_le ((hf b).2 mid s rest hsecond) (hx cs b mid hfirst).length_le

/-- A round that skips `c` and goes on as `yes` when `c` comes next, and goes on as `no`
otherwise, advances when `yes` reads forward and `no` advances. -/
theorem ite_eat {yes no : Reader (Round σ α)} (c : Char) (hyes : Forward yes) (hno : Advances no) :
    Advances (Toml.eat c >>= fun b => if b = true then yes else no) := by
  refine ⟨(Forward.eat c).bind fun b => ?_, ?_⟩
  · split
    · exact hyes
    · exact hno.1
  · intro cs s rest h
    cases cs with
    | nil => exact hno.2 [] s rest h
    | cons d t =>
      by_cases hd : d = c
      · rw [run_bind_of_ok (run_eat_of_eq hd)] at h
        exact Nat.lt_succ_of_le (hyes.length_le h)
      · rw [run_bind_of_ok (run_eat_of_ne hd)] at h
        exact hno.2 _ s rest h

end Advances

theorem Strict.advances {r : Reader (Round σ α)} (hr : Strict r) : Advances r :=
  ⟨hr.forward, fun cs s rest h => (hr cs (.next s) rest h).2⟩

/-- Runs rounds from the state `s` until one gives a result. -/
def loop (round : σ → Reader (Round σ α)) (h : ∀ s, Advances (round s)) (s : σ)
    (cs : List Char) : Except String (α × List Char) :=
  match hr : (round s).run cs with
  | .ok (.done a, rest) => .ok (a, rest)
  | .ok (.next s', rest) => loop round h s' rest
  | .error m => .error m
termination_by cs.length
decreasing_by exact (h s).2 cs s' rest hr

section loop

variable {round : σ → Reader (Round σ α)} {h : ∀ s, Advances (round s)} {s s' : σ}
  {cs rest : List Char} {a : α}

theorem loop_of_done (hr : (round s).run cs = .ok (.done a, rest)) :
    loop round h s cs = .ok (a, rest) := by
  rw [loop]
  split <;> simp_all

theorem loop_of_next (hr : (round s).run cs = .ok (.next s', rest)) :
    loop round h s cs = loop round h s' rest := by
  rw [loop]
  split <;> simp_all

theorem loop_of_error {m : String} (hr : (round s).run cs = .error m) :
    loop round h s cs = .error m := by
  rw [loop]
  split <;> simp_all

/-- A loop reads forward, since every round does. -/
theorem Forward.loop (s : σ) : Forward (Reader.loop round h s : Reader α) := by
  intro cs
  fun_induction Reader.loop round h s cs with
  | case1 s cs a rest hr =>
    intro b r hrun
    rw [StateT.run, loop_of_done hr] at hrun
    cases hrun
    exact (h s).1 cs (.done a) rest hr
  | case2 s cs s' rest hr ih =>
    intro b r hrun
    rw [StateT.run, loop_of_next hr] at hrun
    exact (ih b r hrun).trans ((h s).1 cs (.next s') rest hr)
  | case3 s cs m hr =>
    intro b r hrun
    rw [StateT.run, loop_of_error hr] at hrun
    cases hrun

end loop

end Reader

end ConfLex.Toml
