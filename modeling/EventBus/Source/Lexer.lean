import EventBus.Source.Token
import EventBus.Text.Quoted

/-!
# Reading source text into token trees

The text is first cut into lexemes and then nested. Comments are left out, save that one that
documents stands for an attribute. A text whose brackets do not match, or whose quotes do not
close, has no trees.
-/

namespace EventBus.Source

inductive Lexeme where
  | tree (t : Tree)
  | opening (d : Delimiter)
  | closing (d : Delimiter)

def isGap (c : Char) : Bool := isBlank c || c.toNat == 0x200E || c.toNat == 0x200F

/-- The characters a word may start with; beyond ASCII any is taken that is no gap. -/
def isWordStart (c : Char) : Bool := c.isAlpha || c == '_' || (128 ≤ c.toNat && !isGap c)

def isWordPart (c : Char) : Bool := isWordStart c || c.isDigit

def isMarkChar (c : Char) : Bool := "~!@#$%^&*-=+|;:,<.>/?'".toList.contains c

def delimiterOf : Char → Option Lexeme
  | '(' => some (.opening .parenthesis)
  | '[' => some (.opening .bracket)
  | '\x7b' => some (.opening .brace)
  | ')' => some (.closing .parenthesis)
  | ']' => some (.closing .bracket)
  | '\x7d' => some (.closing .brace)
  | _ => none

/-! ## Literals -/

/-- The text up to the next `quote` that no backslash precedes, that quote included, and what
follows. -/
def untilQuote (quote : Char) : List Char → Option (List Char × List Char)
  | [] => none
  | '\\' :: c :: cs => (untilQuote quote cs).map fun (l, r) => ('\\' :: c :: l, r)
  | c :: cs =>
    if c = quote then some ([c], cs) else (untilQuote quote cs).map fun (l, r) => (c :: l, r)

def untilRawQuote (hashes : Nat) : List Char → Option (List Char × List Char)
  | [] => none
  | c :: cs =>
    let tail := List.replicate hashes '#'
    if c = '"' ∧ cs.take hashes = tail then some (c :: tail, cs.drop hashes)
    else (untilRawQuote hashes cs).map fun (l, r) => (c :: l, r)

def rawString? (cs : List Char) : Option (List Char × List Char) :=
  let hashes := (cs.takeWhile (· = '#')).length
  match cs.drop hashes with
  | '"' :: rest =>
    (untilRawQuote hashes rest).map fun (l, r) => (List.replicate hashes '#' ++ '"' :: l, r)
  | _ => none

def character? : List Char → Option (List Char × List Char)
  | '\\' :: cs => untilQuote '\'' ('\\' :: cs)
  | c :: '\'' :: cs => some ([c, '\''], cs)
  | _ => none

def splitWord : List Char → List Char × List Char
  | c :: cs =>
    if isWordStart c then (c :: cs.takeWhile isWordPart, cs.dropWhile isWordPart) else ([], c :: cs)
  | [] => ([], [])

def quotedLiteral? : List Char → Option (List Char × List Char)
  | '"' :: cs => (untilQuote '"' cs).map fun (l, r) => ('"' :: l, r)
  | '\'' :: cs => (character? cs).map fun (l, r) => ('\'' :: l, r)
  | 'b' :: '\'' :: cs => (character? cs).map fun (l, r) => ('b' :: '\'' :: l, r)
  | 'b' :: '"' :: cs => (untilQuote '"' cs).map fun (l, r) => ('b' :: '"' :: l, r)
  | 'c' :: '"' :: cs => (untilQuote '"' cs).map fun (l, r) => ('c' :: '"' :: l, r)
  | 'b' :: 'r' :: cs => (rawString? cs).map fun (l, r) => ('b' :: 'r' :: l, r)
  | 'c' :: 'r' :: cs => (rawString? cs).map fun (l, r) => ('c' :: 'r' :: l, r)
  | 'r' :: cs => (rawString? cs).map fun (l, r) => ('r' :: l, r)
  | _ => none

def isDecimal (c : Char) : Bool := c.isDigit || c == '_'

/-- A decimal exponent after its letter: a sign, which underscores may precede, and digits of which
there must be one. -/
def exponent? (cs : List Char) : Option (List Char × List Char) :=
  let gap := cs.takeWhile (· = '_')
  let (sign, rest) := match cs.drop gap.length with
    | '+' :: r => (['+'], r)
    | '-' :: r => (['-'], r)
    | r => ([], r)
  let digits := rest.takeWhile isDecimal
  if digits.any Char.isDigit then some (gap ++ sign ++ digits, rest.dropWhile isDecimal) else none

/-- The digits of a number and its fraction, and what follows them. A point belongs to the number
unless a second point or a word follows it. -/
def mantissa (cs : List Char) : List Char × List Char :=
  let whole := cs.takeWhile isDecimal
  match cs.dropWhile isDecimal with
  | '.' :: rest =>
    if rest.head?.elim false fun c => c == '.' || isWordStart c then (whole, '.' :: rest)
    else (whole ++ '.' :: rest.takeWhile isDecimal, rest.dropWhile isDecimal)
  | rest => (whole, rest)

/-- A number with its suffix. A sign belongs to it only in a decimal exponent. -/
def number (cs : List Char) : List Char × List Char :=
  let (digits, rest) := mantissa cs
  let (digits, rest) := match rest with
    | e :: r =>
      if e = 'e' ∨ e = 'E' then
        match exponent? r with
        | some (x, r) => (digits ++ e :: x, r)
        | none => (digits, e :: r)
      else (digits, e :: r)
    | [] => (digits, [])
  (digits ++ rest.takeWhile isWordPart, rest.dropWhile isWordPart)

/-! ## Leaves -/

def word (cs : List Char) : List Char × List Char :=
  match cs with
  | 'r' :: '#' :: c :: rest =>
    if isWordStart c then
      let (w, r) := splitWord (c :: rest)
      ('r' :: '#' :: w, r)
    else (['r'], '#' :: c :: rest)
  | _ => splitWord cs

def startsJoint : List Char → Bool
  | '/' :: '/' :: _ => false
  | '/' :: '*' :: _ => false
  | c :: _ => isMarkChar c
  | [] => false

def leaf? (cs : List Char) : Option (Tree × List Char) :=
  match quotedLiteral? cs with
  | some (l, r) =>
    let (suffix, r) := splitWord r
    some (.literal (String.ofList (l ++ suffix)), r)
  | none =>
    match cs with
    | [] => none
    | c :: rest =>
      if c.isDigit then
        let (l, r) := number cs
        some (.literal (String.ofList l), r)
      else if isWordStart c then
        let (w, r) := word cs
        some (.word (String.ofList w), r)
      else if c = '\'' then
        let (w, r) := word rest
        if w.isEmpty then none else some (.lifetime (String.ofList ('\'' :: w)), r)
      else if isMarkChar c then some (.mark c (startsJoint rest), rest)
      else none

/-! ## Comments -/

/-- A string literal with the given text. A zero character is written so that no digit after it
is taken for part of it. -/
def textLiteral (cs : List Char) : String :=
  String.ofList ('"' :: go cs)
where
  go : List Char → List Char
    | [] => ['"']
    | '\x00' :: d :: cs =>
      if '0' ≤ d ∧ d ≤ '7' then "\\x00".toList ++ go (d :: cs) else "\\0".toList ++ go (d :: cs)
    | c :: cs => Text.escape '"' c ++ go cs

/-- The attribute that a documenting comment stands for; an inner one documents what it is in. -/
def documentation (inner : Bool) (comment : List Char) : List Lexeme :=
  [.tree (.mark '#' false)] ++ (if inner then [.tree (.mark '!' false)] else []) ++
    [.tree (.group .bracket
      [.word "doc", .mark '=' false, .literal (textLiteral comment)])]

/-- The text of a block comment whose start was read, `depth` comments inside it being open, and
what follows its end. -/
def blockComment (depth : Nat) : List Char → Option (List Char × List Char)
  | '*' :: '/' :: cs =>
    match depth with
    | 0 => some ([], cs)
    | depth + 1 => (blockComment depth cs).map fun (l, r) => ('*' :: '/' :: l, r)
  | '/' :: '*' :: cs => (blockComment (depth + 1) cs).map fun (l, r) => ('/' :: '*' :: l, r)
  | c :: cs => (blockComment depth cs).map fun (l, r) => (c :: l, r)
  | [] => none

def withoutReturn (line : List Char) : List Char :=
  if line.getLast? = some '\r' then line.dropLast else line

def comment? : List Char → Option (List Lexeme × List Char)
  | '/' :: '/' :: cs =>
    let line := withoutReturn (cs.takeWhile (· != '\n'))
    let rest := cs.dropWhile (· != '\n')
    match line with
    | '/' :: '/' :: _ => some ([], rest)
    | '/' :: l => some (documentation false l, rest)
    | '!' :: l => some (documentation true l, rest)
    | _ => some ([], rest)
  | '/' :: '*' :: cs =>
    (blockComment 0 cs).map fun (block, rest) =>
      match block, cs with
      | '*' :: _, '*' :: '*' :: _ => ([], rest)
      | '*' :: b, _ => (documentation false b, rest)
      | '!' :: b, _ => (documentation true b, rest)
      | _, _ => ([], rest)
  | _ => none

/-! ## Trees -/

def lexemes : Nat → List Char → Option (List Lexeme)
  | _, [] => some []
  | 0, _ => none
  | fuel + 1, c :: cs =>
    if isGap c then lexemes fuel cs
    else if let some (ls, rest) := comment? (c :: cs) then (lexemes fuel rest).map (ls ++ ·)
    else
      match delimiterOf c with
      | some l => (lexemes fuel cs).map (l :: ·)
      | none =>
        match leaf? (c :: cs) with
        | some (t, rest) => (lexemes fuel rest).map (.tree t :: ·)
        | none => none

/-- Nests lexemes. `done` holds the finished trees of the innermost open group, last first, and
`outer` the open groups around it. -/
def nest : List Lexeme → List (Delimiter × List Tree) → List Tree → Option (List Tree)
  | [], [], done => some done.reverse
  | [], _ :: _, _ => none
  | .tree t :: ls, outer, done => nest ls outer (t :: done)
  | .opening d :: ls, outer, done => nest ls ((d, done) :: outer) []
  | .closing d :: ls, (d', before) :: outer, done =>
    if d = d' then nest ls outer (.group d done.reverse :: before) else none
  | .closing _ :: _, [], _ => none

def trees? (s : String) : Option (List Tree) :=
  (lexemes s.length s.toList).bind (nest · [] [])

end EventBus.Source
