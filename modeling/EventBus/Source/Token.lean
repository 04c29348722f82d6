/-!
# Token trees

Source text as token trees: words, marks and literals, and groups in parentheses, brackets or
braces. Between trees spacing means nothing, and the text of trees has none.
-/

namespace EventBus.Source

inductive Delimiter where
  | parenthesis
  | bracket
  | brace
deriving DecidableEq, Repr

namespace Delimiter

def opening : Delimiter → String
  | parenthesis => "("
  | bracket => "["
  | brace => "\x7b"

def closing : Delimiter → String
  | parenthesis => ")"
  | bracket => "]"
  | brace => "\x7d"

def name : Delimiter → String
  | parenthesis => "parentheses"
  | bracket => "square brackets"
  | brace => "curly braces"

end Delimiter

inductive Tree where
  | word (text : String)
  | lifetime (text : String)
  | literal (text : String)
  /-- A mark of one character; it is joint if another mark follows it without a gap. -/
  | mark (char : Char) (joint : Bool)
  | group (delimiter : Delimiter) (trees : List Tree)

def isBlank (c : Char) : Bool :=
  let n := c.toNat
  (9 ≤ n && n ≤ 13) || n == 32 || n == 0x85 || n == 0xA0 || n == 0x1680 ||
    (0x2000 ≤ n && n ≤ 0x200A) || n == 0x2028 || n == 0x2029 || n == 0x202F || n == 0x205F ||
    n == 0x3000

theorem isBlank_of_isWhitespace {c : Char} (h : c.isWhitespace = true) : isBlank c = true := by
  simp only [Char.isWhitespace, Bool.or_eq_true, decide_eq_true_eq] at h
  rcases h with ((h | h) | h) | h <;> subst h <;> decide

def unspaced (s : String) : String := String.ofList (s.toList.filter (!isBlank ·))

mutual

def Tree.text : Tree → String
  | .word s | .lifetime s | .literal s => unspaced s
  | .mark c _ => unspaced (String.singleton c)
  | .group d ts => d.opening ++ text ts ++ d.closing

def text : List Tree → String
  | [] => ""
  | t :: ts => t.text ++ text ts

end

theorem text_append (ts us : List Tree) : text (ts ++ us) = text ts ++ text us := by
  induction ts with
  | nil => simp [text]
  | cons t ts ih => rw [List.cons_append, text, text, ih, String.append_assoc]

def marks (s : String) : List Tree := s.toList.map (.mark · true)

mutual

def Tree.weight : Tree → Nat
  | .group _ ts => weight ts + 1
  | _ => 1

def weight : List Tree → Nat
  | [] => 0
  | t :: ts => t.weight + weight ts

end

end EventBus.Source
