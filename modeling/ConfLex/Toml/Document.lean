import ConfLex.Toml.Lexical
import ConfLex.Config.Datum

/-!
# TOML: documents

A TOML document is read line by line into a tree of tables. Key/value lines fill the current
table; a `[a.b]` header starts a new table and a `[[a.b]]` header a new element of an array of
tables. The tree keeps how each table came to be, because the format forbids defining a table
twice:

* a header may open a table only if no table of that name exists, or if one exists that was made
  implicitly as the parent of an earlier header;
* a dotted key may extend only tables made implicitly by dotted keys;
* values given after `=`, inline tables included, can never be extended;
* a key may not be given twice in a table.

A header's table is filled on its own and joined to the tree when the next header comes, or at
the end of the text. The finished tree is read as a `Datum`: tables and inline tables are maps,
arrays and arrays of tables are sequences.

Reading ends on every text without a bound on its steps. The lines of the document and the space
between the elements of an array are read by loops whose rounds read a character each time they
ask for another (`Reader.loop`). The value readers give what they leave of the characters
together with the proof that it is a suffix of them (`Unread`), so an array or an inline table
goes on to its next element from fewer characters than it was given.
-/

namespace ConfLex.Toml

/-- A node of a document under construction. -/
inductive Node where
  /-- A value given after `=`: a scalar, an array or an inline table. -/
  | value (d : Datum)
  /-- A table with its members in order; `implicit` if it was made as the parent of a header or
  of a dotted key, and `dotted` if by a dotted key. -/
  | table (members : List (String × Node)) (implicit dotted : Bool)
  /-- An array of tables, one member list per element. -/
  | tables (items : List (List (String × Node)))
  deriving Inhabited

/-- The members of a table. -/
abbrev Members := List (String × Node)

/-- The members with the node at `key` replaced. -/
def replaceAt (key : String) (node : Node) (members : Members) : Members :=
  members.map fun m => if m.1 = key then (key, node) else m

mutual

/-- A node as a datum. -/
def Node.toDatum : Node → Datum
  | .value d => d
  | .table members _ _ => .map (membersToDatum members)
  | .tables items => .seq (itemsToDatum items)

/-- Members as the members of a map. -/
def membersToDatum : Members → List (String × Datum)
  | [] => []
  | (k, n) :: rest => (k, n.toDatum) :: membersToDatum rest

/-- The elements of an array of tables, as maps. -/
def itemsToDatum : List Members → List Datum
  | [] => []
  | m :: rest => .map (membersToDatum m) :: itemsToDatum rest

end

/-- Runs `k` on the table at `path` below a table, and puts back the members it returns. Missing
tables along the path are made implicitly (`dotted` says whether by a dotted key); an array of
tables stands for its last element. A value cannot be extended, and a dotted key cannot enter a
table that was defined explicitly. `k` also gets whether the table was made implicitly and
whether by a dotted key. -/
def descend {α : Type} (dotted : Bool) (k : Members → Bool → Bool → Except String (Members × α)) :
    List String → Members → Bool → Bool → Except String (Members × α)
  | [], members, implicit, isDotted => k members implicit isDotted
  | key :: rest, members, _, _ =>
    match members.lookup key with
    | none => do
      let (inner, a) ← descend dotted k rest [] true dotted
      pure (members ++ [(key, .table inner true dotted)], a)
    | some (.value _) => .error ("cannot extend the value of key " ++ key)
    | some (.tables items) =>
      match items.getLast? with
      | none => .error ("empty array of tables " ++ key)
      | some last => do
        let (inner, a) ← descend dotted k rest last false false
        pure (replaceAt key (.tables (items.dropLast ++ [inner])) members, a)
    | some (.table inner implicit isDotted) =>
      if dotted && !implicit then .error ("duplicate key " ++ key)
      else do
        let (inner, a) ← descend dotted k rest inner implicit isDotted
        pure (replaceAt key (.table inner implicit isDotted) members, a)

/-- Adds `key = value` under the dotted path `pathPrefix` of a table that was defined
explicitly. A value may be added directly to a table made by a dotted key only through a dotted
key, and directly to any other table only through a plain key. -/
def insertValue (pathPrefix : List String) (key : String) (value : Datum) (members : Members) :
    Except String Members := do
  let (members, ()) ← descend true (fun t _ isDotted =>
      if isDotted == pathPrefix.isEmpty then .error ("duplicate key " ++ key)
      else if (t.lookup key).isSome then .error ("duplicate key " ++ key)
      else .ok (t ++ [(key, .value value)], ())) pathPrefix members false false
  pure members

/-- A document being read: the tree so far, the table being filled, its path and whether it is
an element of an array of tables. -/
structure Builder where
  /-- The tree so far. -/
  root : Members := []
  /-- The members of the table being filled. -/
  current : Members := []
  /-- The path of the table being filled; empty for the top-level table. -/
  path : List String := []
  /-- Whether the table being filled is an element of an array of tables. -/
  isArray : Bool := false

namespace Builder

/-- The tree with the table being filled joined to it. -/
def finish (b : Builder) : Except String Members :=
  match b.path.getLast? with
  | none => pure b.current
  | some key => do
    let (root, ()) ← descend false (fun parent _ _ =>
        if b.isArray then
          match parent.lookup key with
          | none => .ok (parent ++ [(key, .tables [b.current])], ())
          | some (.tables items) => .ok (replaceAt key (.tables (items ++ [b.current])) parent, ())
          | some _ => .error ("duplicate key " ++ key)
        else
          match parent.lookup key with
          | none => .ok (parent ++ [(key, .table b.current false false)], ())
          | some (.table _ true _) => .ok (replaceAt key (.table b.current false false) parent, ())
          | some _ => .error ("duplicate key " ++ key)) b.path.dropLast b.root false false
    pure root

/-- Starts the table of a `[path]` header. A table made implicitly under that name is taken
over, members and all. -/
def openTable (path : List String) (b : Builder) : Except String Builder := do
  let root ← b.finish
  let key := path.getLast?.getD ""
  let (root, current) ← descend false (fun parent _ _ =>
      match parent.lookup key with
      | none => .ok (parent, [])
      | some (.table members true false) => .ok (parent.filter (·.1 ≠ key), members)
      | some _ => .error ("duplicate key " ++ key)) path.dropLast root false false
  pure { root, current, path, isArray := false }

/-- Starts a new element of the array of tables of a `[[path]]` header. -/
def openArrayTable (path : List String) (b : Builder) : Except String Builder := do
  let root ← b.finish
  let key := path.getLast?.getD ""
  let (root, ()) ← descend false (fun parent _ _ =>
      match parent.lookup key with
      | none => .ok (parent ++ [(key, .tables [])], ())
      | some (.tables _) => .ok (parent, ())
      | some _ => .error ("duplicate key " ++ key)) path.dropLast root false false
  pure { root, current := [], path, isArray := true }

/-- Adds a key/value line to the table being filled. -/
def addValue (path : List String) (value : Datum) (b : Builder) : Except String Builder := do
  pure { b with current := ← insertValue path.dropLast (path.getLast?.getD "") value b.current }

end Builder

/-! ## Space and leaf values -/

/-- A result lifted into the reader. -/
def liftResult {α : Type} : Except String α → Reader α
  | .ok a => pure a
  | .error e => fail e

open Reader

theorem Reader.Forward.liftResult {α : Type} (e : Except String α) : Forward (liftResult e) := by
  cases e with
  | error m => exact fail m
  | ok a => exact pure a

/-- A round of the blanks, comments and line ends between the elements of an array. -/
def spaceRound (_ : Unit) : Reader (Round Unit Unit) := do
  skipBlanks
  if ← eat '#' then
    commentBody
    return .next ()
  else if ← eat '\n' then return .next ()
  else if ← eat '\r' then
    expect '\n'
    return .next ()
  else return .done ()

theorem Reader.Advances.spaceRound (u : Unit) : Advances (spaceRound u) :=
  Advances.bind Forward.skipBlanks fun _ =>
    Advances.ite_eat '#' (Forward.commentBody.bind fun _ => Forward.pure _) <|
    Advances.ite_eat '\n' (Forward.pure _) <|
    Advances.ite_eat '\r' ((Forward.expect _).bind fun _ => Forward.pure _) (Advances.done _)

/-- Skips blanks, comments and line ends, as between the elements of an array. -/
def skipSpace : Reader Unit := loop spaceRound Advances.spaceRound ()

/-- A character of the text of a number or a date-time. -/
def isScalarChar (c : Char) : Bool :=
  (c.isAlphanum && c.toNat < 128) || c = '+' || c = '-' || c = '.' || c = '_' || c = ':'

/-- The text of a number or date-time, and what follows it: one run of scalar characters, where
a date followed by a space and a time is one date-time. -/
def scalarText (cs : List Char) : List Char × List Char :=
  let text := cs.takeWhile isScalarChar
  match cs.dropWhile isScalarChar with
  | ' ' :: a :: b :: ':' :: rest =>
    let time := a :: b :: ':' :: rest
    if text.length = 10 && isDate text && a.isDigit && b.isDigit then
      (text ++ ' ' :: time.takeWhile isScalarChar, time.dropWhile isScalarChar)
    else (text, ' ' :: time)
  | rest => (text, rest)

theorem scalarText_suffix (cs : List Char) : (scalarText cs).2 <:+ cs := by
  have hrest : cs.dropWhile isScalarChar <:+ cs := List.dropWhile_suffix _
  unfold scalarText
  split
  · next heq =>
    rw [heq] at hrest
    dsimp only
    split
    · exact (List.dropWhile_suffix _).trans ((List.suffix_cons _ _).trans hrest)
    · exact hrest
  · exact hrest

/-- The value of the text of a number or date-time. -/
def scalarValue (text : List Char) : Except String Datum :=
  if isDateTime text then .ok (.datetime (String.ofList text))
  else match integerValue text with
    | some i => .ok (.int i)
    | none =>
      if isFloat text then
        if floatOverflows text then .error "float too large"
        else .ok (.float (String.ofList text))
      else .error ("invalid value " ++ String.ofList text)

/-- A number or date-time. -/
def readScalar : Reader Datum := do
  let text ← fun cs => .ok (scalarText cs)
  liftResult (scalarValue text)

theorem Reader.Forward.readScalar : Forward readScalar :=
  Forward.bind (fun cs _ rest h => by
    injection h with h
    rw [show rest = (scalarText cs).2 by rw [h]]
    exact scalarText_suffix cs) fun _ => liftResult _

/-- A value that holds no other values: a string, a boolean, a number or a date-time. -/
def readLeaf : Reader Datum := do
  match ← peek with
  | some '"' | some '\x27' => return .str (← readString)
  | some 't' => if ← lookingAt "true" then skip 4; return .bool true else fail "invalid value"
  | some 'f' => if ← lookingAt "false" then skip 5; return .bool false else fail "invalid value"
  | some _ => readScalar
  | none => fail "expected a value"

theorem Reader.Forward.readLeaf : Forward readLeaf := by
  refine peek.bind fun o => ?_
  split
  · exact readString.bind fun _ => pure _
  · exact readString.bind fun _ => pure _
  · refine (lookingAt _).bind fun b => ?_
    split
    · exact (skip 4).bind fun _ => pure _
    · exact fail _
  · refine (lookingAt _).bind fun b => ?_
    split
    · exact (skip 5).bind fun _ => pure _
    · exact fail _
  · exact readScalar
  · exact fail _

/-! ## Values -/

/-- What a reader leaves of the characters `cs`: a suffix of them. -/
abbrev Unread (cs : List Char) := {rest : List Char // rest <:+ cs}

/-- A result read from a suffix of `cs`, as one read from `cs`. -/
def Unread.widen {α : Type} {cs cs' : List Char} (h : cs' <:+ cs) :
    Except String (α × Unread cs') → Except String (α × Unread cs) :=
  Except.map fun p => (p.1, ⟨p.2.1, p.2.2.trans h⟩)

/-- A key, then `=` with blanks around it. -/
def readKeyEquals : Reader (List String) := do
  let path ← readKey
  skipBlanks
  expect '='
  skipBlanks
  return path

theorem Reader.Strict.readKeyEquals : Strict readKeyEquals :=
  Strict.after Forward.readKey fun _ => Strict.after Forward.skipBlanks fun _ =>
    (Strict.expect _).bind fun _ => Forward.skipBlanks.bind fun _ => Forward.pure _

theorem Reader.Forward.readKeyEquals : Forward readKeyEquals := Strict.readKeyEquals.forward

theorem Reader.Forward.skipSpace : Forward skipSpace := Forward.loop ()

/-- What is left after skipping a class of characters is a suffix. -/
theorem suffix_of_dropWhile_eq {p : Char → Bool} {cs rest : List Char}
    (h : cs.dropWhile p = rest) : rest <:+ cs := by
  rw [← h]
  exact List.dropWhile_suffix p

/-- The value readers recurse on the characters left and a rank, the value reader below the
array and inline-table readers: going on from a suffix of the characters at a lower rank lowers
the pair. -/
theorem lex_lt_of_suffix {cs cs' : List Char} (h : cs' <:+ cs) :
    Prod.Lex (· < ·) (· < ·) (cs'.length, 0) (cs.length, 1) := by
  rcases Nat.lt_or_eq_of_le h.length_le with hlt | heq
  · exact Prod.Lex.left _ _ hlt
  · rw [heq]
    exact Prod.Lex.right _ Nat.zero_lt_one

mutual

/-- A value after `=` or inside an array, which lies inside `depth` arrays and inline tables. An
array or inline table that would lie `maxDepth` deep is refused. -/
def readValue (depth : Nat) : (cs : List Char) → Except String (Datum × Unread cs)
  | '[' :: rest =>
    if maxDepth ≤ depth + 1 then .error "value too deep"
    else Unread.widen (List.suffix_cons _ _) (readArray (depth + 1) [] rest)
  | '\x7b' :: rest =>
    if maxDepth ≤ depth + 1 then .error "value too deep"
    else
      match h : rest.dropWhile isBlankChar with
      | '\x7d' :: after =>
        .ok (.map [], ⟨after, (List.suffix_cons _ _).trans
          ((suffix_of_dropWhile_eq h).trans (List.suffix_cons _ _))⟩)
      | after =>
        Unread.widen ((suffix_of_dropWhile_eq h).trans (List.suffix_cons _ _))
          (readInline (depth + 1) [] after)
  | cs =>
    match h : readLeaf.run cs with
    | .ok (d, rest) => .ok (d, ⟨rest, Forward.readLeaf cs d rest h⟩)
    | .error m => .error m
termination_by cs => (cs.length, 0)
decreasing_by
  · exact Prod.Lex.left _ _ (Nat.lt_succ_self _)
  · exact Prod.Lex.left _ _ (Nat.lt_succ_of_le (suffix_of_dropWhile_eq h).length_le)

/-- The rest of an array after `[`, its elements so far given in reverse; the array lies
`depth` deep. -/
def readArray (depth : Nat) (acc : List Datum) (cs : List Char) :
    Except String (Datum × Unread cs) :=
  match hs : skipSpace.run cs with
  | .error m => .error m
  | .ok ((), cs1) =>
    have h1 : cs1 <:+ cs := Forward.skipSpace cs () cs1 hs
    if cs1.head? = some ']' then
      .ok (.seq acc.reverse, ⟨cs1.tail, (List.tail_suffix cs1).trans h1⟩)
    else
      match readValue depth cs1 with
      | .error m => .error m
      | .ok (v, ⟨cs2, h2⟩) =>
        match hs' : skipSpace.run cs2 with
        | .error m => .error m
        | .ok ((), cs3) =>
          have h3 : cs3 <:+ cs := (Forward.skipSpace cs2 () cs3 hs').trans (h2.trans h1)
          match hc : cs3.head? with
          | some ',' =>
            Unread.widen ((List.tail_suffix cs3).trans h3) (readArray depth (v :: acc) cs3.tail)
          | some ']' => .ok (.seq (v :: acc).reverse, ⟨cs3.tail, (List.tail_suffix cs3).trans h3⟩)
          | _ => .error "expected , or ]"
termination_by (cs.length, 1)
decreasing_by
  · exact lex_lt_of_suffix h1
  · have hne : cs3 ≠ [] := fun hnil => by simp [hnil] at hc
    have hpos : 0 < cs3.length := List.length_pos_iff.mpr hne
    have hle := h3.length_le
    rw [List.length_tail]
    exact Prod.Lex.left _ _ (by omega)

/-- The rest of an inline table after `{` and any blanks, with its members so far; the table
lies `depth` deep. -/
def readInline (depth : Nat) (members : Members) (cs : List Char) :
    Except String (Datum × Unread cs) :=
  match hk : readKeyEquals.run cs with
  | .error m => .error m
  | .ok (path, cs1) =>
    have h1 : cs1 <:+ cs := Forward.readKeyEquals cs path cs1 hk
    match readValue depth cs1 with
    | .error m => .error m
    | .ok (v, ⟨cs2, h2⟩) =>
      match insertValue path.dropLast (path.getLast?.getD "") v members with
      | .error m => .error m
      | .ok members =>
        match hsep : cs2.dropWhile isBlankChar with
        | ',' :: rest =>
          have h3 : ',' :: rest <:+ cs := (suffix_of_dropWhile_eq hsep).trans (h2.trans h1)
          Unread.widen ((List.dropWhile_suffix _).trans ((List.suffix_cons _ _).trans h3))
            (readInline depth members (rest.dropWhile isBlankChar))
        | '\x7d' :: rest =>
          .ok ((Node.table members false false).toDatum,
            ⟨rest, (List.suffix_cons _ _).trans ((suffix_of_dropWhile_eq hsep).trans (h2.trans h1))⟩)
        | _ => .error "expected , or \x7d"
termination_by (cs.length, 1)
decreasing_by
  · exact lex_lt_of_suffix h1
  · have hdrop : (rest.dropWhile isBlankChar).length ≤ rest.length :=
      (List.dropWhile_suffix _).length_le
    exact Prod.Lex.left _ _ (Nat.lt_of_le_of_lt hdrop
      (Nat.lt_of_lt_of_le (Nat.lt_succ_self _) h3.length_le))

end

/-- A value at the top of the nesting, as a reader. -/
def valueReader : Reader Datum := fun cs => (readValue 0 cs).map fun p => (p.1, p.2.1)

theorem Reader.Forward.valueReader : Forward valueReader := by
  intro cs v rest h
  cases hv : readValue 0 cs with
  | error m => simp [StateT.run, Toml.valueReader, hv, Except.map] at h
  | ok p =>
    simp only [StateT.run, Toml.valueReader, hv, Except.map, Except.ok.injEq, Prod.mk.injEq] at h
    rw [← h.2]
    exact p.2.2

/-! ## Lines -/

/-- The closing brackets of a header: `]]` after `[[`, `]` after `[`. -/
def closeHeader (isArray : Bool) : Reader Unit := do
  expect ']'
  if isArray then expect ']'

/-- What may end a line after a header or a key/value pair: blanks, a comment and the line
end. -/
def lineTail : Reader Unit := do
  skipBlanks
  skipComment
  lineEnd

theorem Reader.Forward.closeHeader (isArray : Bool) : Forward (closeHeader isArray) := by
  refine (expect _).bind fun _ => ?_
  split
  · exact expect _
  · exact pure _

theorem Reader.Forward.lineTail : Forward lineTail :=
  skipBlanks.bind fun _ => skipComment.bind fun _ => lineEnd

/-- A round of the lines of a document, added to the builder `b`. -/
def lineRound (b : Builder) : Reader (Round Builder Builder) := do
  skipBlanks
  if (← peek).isNone then return .done b
  else if ← eat '#' then
    commentBody
    lineEnd
    return .next b
  else if ← eat '\n' then return .next b
  else if ← eat '\r' then
    expect '\n'
    return .next b
  else if ← eat '[' then
    let isArray ← eat '['
    skipBlanks
    let path ← readKey
    skipBlanks
    closeHeader isArray
    let b ← liftResult (if isArray then b.openArrayTable path else b.openTable path)
    lineTail
    return .next b
  else
    let path ← readKeyEquals
    let v ← valueReader
    let b ← liftResult (b.addValue path v)
    lineTail
    return .next b

theorem Reader.Advances.lineRound (b : Builder) : Advances (lineRound b) := by
  refine Advances.bind Forward.skipBlanks fun _ => Advances.bind Forward.peek fun o => ?_
  split
  · exact Advances.done _
  · refine Advances.ite_eat '#' (Forward.commentBody.bind fun _ =>
      Forward.lineEnd.bind fun _ => Forward.pure _) ?_
    refine Advances.ite_eat '\n' (Forward.pure _) ?_
    refine Advances.ite_eat '\r' ((Forward.expect _).bind fun _ => Forward.pure _) ?_
    refine Advances.ite_eat '[' ((Forward.eat _).bind fun isArray => Forward.skipBlanks.bind
      fun _ => Forward.readKey.bind fun _ => Forward.skipBlanks.bind fun _ =>
      (Forward.closeHeader isArray).bind fun _ => (Forward.liftResult _).bind fun _ =>
      Forward.lineTail.bind fun _ => Forward.pure _) ?_
    exact (Strict.readKeyEquals.bind fun _ => Forward.valueReader.bind fun _ =>
      (Forward.liftResult _).bind fun _ => Forward.lineTail.bind fun _ => Forward.pure _).advances

/-- The lines of a document, added to an empty builder. -/
def readLines : Reader Builder := loop lineRound Advances.lineRound {}

/-- The document of a TOML text, as a map; or a description of the first fault. A byte order
mark before the text is skipped. -/
def parse (text : String) : Except String Datum := do
  let chars := match text.toList with
    | '\uFEFF' :: rest => rest
    | cs => cs
  let (b, _) ← readLines.run chars
  let root ← b.finish
  pure (Node.table root false false).toDatum

end ConfLex.Toml
