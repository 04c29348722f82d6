import EventBus.Source.Number
import EventBus.Source.Separated

/-!
# Readers

A reader takes trees from the start of what is left and gives its result, or an error. Trees that
it leaves in a group are no error at once: they are noted, and reported only if nothing else is
wrong. Most readers give the trees they took, in the form in which they are written out again.
-/

namespace EventBus.Source

/-! ## Looking ahead -/

def keywords : List String :=
  ["_", "abstract", "as", "async", "await", "become", "box", "break", "const", "continue",
    "crate", "do", "dyn", "else", "enum", "extern", "false", "final", "fn", "for", "if", "impl",
    "in", "let", "loop", "macro", "match", "mod", "move", "mut", "override", "priv", "pub", "ref",
    "return", "Self", "self", "static", "struct", "super", "trait", "true", "try", "type",
    "typeof", "unsafe", "unsized", "use", "virtual", "where", "while", "yield"]

def isIdentifier (w : String) : Bool := !keywords.contains w

def startsMarks : List Char → List Tree → Bool
  | [], _ => true
  | [c], .mark d _ :: _ => c == d
  | c :: cs, .mark d joint :: ts => c == d && joint && startsMarks cs ts
  | _, _ => false

def startsMark (s : String) (ts : List Tree) : Bool := startsMarks s.toList ts

def startsAnyWord : List Tree → Bool
  | .word _ :: _ => true
  | _ => false

def startsWord (s : String) : List Tree → Bool
  | .word w :: _ => w == s
  | _ => false

def startsOneOf (ss : List String) (ts : List Tree) : Bool := ss.any (startsWord · ts)

def startsIdentifier : List Tree → Bool
  | .word w :: _ => isIdentifier w
  | _ => false

def startsLifetime : List Tree → Bool
  | .lifetime _ :: _ => true
  | _ => false

def startsGroup (d : Delimiter) : List Tree → Bool
  | .group d' _ :: _ => d == d'
  | _ => false

def startsLiteral : List Tree → Bool
  | .literal _ :: _ => true
  | .word w :: _ => w == "true" || w == "false"
  | .mark '-' _ :: .literal s :: _ => isNumber s
  | _ => false

def startsInteger : List Tree → Bool
  | .literal s :: _ | .mark '-' _ :: .literal s :: _ => isNumber s && !isFloat s
  | _ => false

def startsFloat : List Tree → Bool
  | .literal s :: _ | .mark '-' _ :: .literal s :: _ => isFloat s
  | _ => false

def startsString : List Tree → Bool
  | .literal s :: _ => s.toList.head?.elim false fun c => c == '"' || c == 'r'
  | _ => false

def startsAlternative (alternative : String) (ts : List Tree) : Bool :=
  let quoted := String.ofList (alternative.toList.drop 1).dropLast
  alternative == ticked quoted && (startsWord quoted ts || startsMark quoted ts)

/-! ## Reading -/

structure Remainder where
  trees : List Tree
  left? : Option Delimiter

abbrev Reader := StateT Remainder (Except SyntaxError)

namespace Reader

variable {α : Type}

def ahead : Reader (List Tree) := return (← get).trees

def sees (p : List Tree → Bool) : Reader Bool := return p (← ahead)

def atEnd : Reader Bool := sees List.isEmpty

def advance (n : Nat) : Reader (List Tree) :=
  modifyGet fun r => (r.trees.take n, { r with trees := r.trees.drop n })

/-- One of the alternatives was expected in front of the given trees. An alternative that is there
was ruled out by what follows it, and is not named. -/
def wantedBefore (ts : List Tree) (alternatives : List String) : Reader α :=
  throw (.expected (alternatives.filter (!startsAlternative · ts)) ts.isEmpty)

def wanted (alternatives : List String) : Reader α := do wantedBefore (← ahead) alternatives

def since (start : List Tree) : Reader (List Tree) :=
  return start.take (start.length - (← ahead).length)

def raw (r : Reader α) : Reader (List Tree) := do
  let start ← ahead
  let _ ← r
  since start

def attempt (r : Reader α) : Reader (Option α) := fun s =>
  match r s with
  | .ok (a, s) => .ok (some a, s)
  | .error _ => .ok (none, s)

def past (r : Reader α) : Reader (List Tree) := fun s =>
  match r s with
  | .ok (_, after) => .ok (after.trees, s)
  | .error e => .error e

def note (d : Delimiter) (left : Bool) : Reader Unit :=
  modify fun r => if left && r.left?.isNone then { r with left? := some d } else r

def enter (d : Delimiter) (r : Reader α) : Reader (α × Bool) := do
  let s ← get
  match s.trees with
  | .group d' ts :: rest =>
    if d = d' then
      let (a, inner) ← (r.run ⟨ts, s.left?⟩ : Except SyntaxError (α × Remainder))
      set (⟨rest, inner.left?⟩ : Remainder)
      return (a, !inner.trees.isEmpty)
    else wanted [d.name]
  | _ => wanted [d.name]

def within (d : Delimiter) (r : Reader α) : Reader α := do
  let (a, left) ← enter d r
  note d left
  return a

def group (d : Delimiter) (r : Reader (List Tree)) : Reader (List Tree) :=
  return [.group d (← within d r)]

def readAll (r : Reader α) (ts : List Tree) : Except SyntaxError α := do
  let (a, s) ← r.run ⟨ts, none⟩
  match s.left? with
  | some d => throw (.leftover (some d))
  | none => if s.trees.isEmpty then return a else throw (.leftover none)

/-! ### Single trees -/

def mark (s : String) : Reader (List Tree) := do
  if startsMark s (← ahead) then advance s.length else throw (.mark s)

def mark? (s : String) : Reader (List Tree) := do
  if startsMark s (← ahead) then advance s.length else return []

def keyword (s : String) : Reader (List Tree) := do
  if startsWord s (← ahead) then advance 1 else wanted [ticked s]

def keyword? (s : String) : Reader (List Tree) := do
  if startsWord s (← ahead) then advance 1 else return []

def anyWord : Reader String := do
  match ← ahead with
  | .word w :: _ =>
    let _ ← advance 1
    return w
  | _ => wanted ["ident"]

def identifier : Reader String := do
  match ← ahead with
  | .word w :: _ =>
    if isIdentifier w then
      let _ ← advance 1
      return w
    else throw (.keyword w)
  | _ => wanted ["identifier"]

def lifetime : Reader (List Tree) := do
  if startsLifetime (← ahead) then advance 1 else wanted ["lifetime"]

def lifetime? : Reader (List Tree) := do
  if startsLifetime (← ahead) then advance 1 else return []

def literal : Reader (List Tree) := do
  let ts ← ahead
  if startsLiteral ts then advance (if startsMark "-" ts then 2 else 1) else wanted ["literal"]

def signedNumber : Reader (Bool × String) := do
  let negative := !(← mark? "-").isEmpty
  return (negative, text (← advance 1))

def positionTree (n : Nat) : List Tree := [.literal (toString n)]

def position : Reader (List Tree) := do
  let (negative, number) ← signedNumber
  return positionTree (← positionOf negative number)

def anyGroup : Reader (List Tree) := do
  match ← ahead with
  | .group .. :: _ => advance 1
  | _ => wanted ["delimiter"]

def rest : Reader (List Tree) := do advance (← ahead).length

/-! ### Repetition -/

/-- Runs `step` at most `fuel` times, until it says that nothing follows. It is told whether it runs
for the first time. -/
def gatherUpTo (step : Bool → Reader (List Tree × Bool)) : Nat → Bool → Reader (List Tree)
  | 0, _ => return []
  | fuel + 1, first => do
    let (ts, more) ← step first
    if more then return ts ++ (← gatherUpTo step fuel false) else return ts

def gather (step : Bool → Reader (List Tree × Bool)) : Reader (List Tree) := do
  gatherUpTo step ((← ahead).length + 1) true

def manyUpTo (p : List Tree → Bool) (r : Reader α) : Nat → Reader (List α)
  | 0 => return []
  | fuel + 1 => do
    if p (← ahead) then
      let a ← r
      return a :: (← manyUpTo p r fuel)
    else return []

def many (p : List Tree → Bool) (r : Reader α) : Reader (List α) := do
  manyUpTo p r (← ahead).length

def toEnd (r : Reader α) : Reader (List α) := many (!·.isEmpty) r

def separatedUpTo (strict : Bool) (s : String) (stop : List Tree → Bool) (r : Reader α) :
    Nat → List α → Reader (Separated α)
  | 0, done => return ⟨done.reverse, true⟩
  | fuel + 1, done => do
    if stop (← ahead) then return ⟨done.reverse, !done.isEmpty⟩
    let a ← r
    let ts ← ahead
    if (if strict then stop ts else !startsMark s ts) then return ⟨(a :: done).reverse, false⟩
    let _ ← mark s
    separatedUpTo strict s stop r fuel (a :: done)

def separated (s : String) (stop : List Tree → Bool) (r : Reader α) : Reader (Separated α) := do
  separatedUpTo true s stop r ((← ahead).length + 1) []

/-- Items for as long as a mark follows; after a mark the list may stop as well. -/
def chained (s : String) (stop : List Tree → Bool) (r : Reader α) : Reader (Separated α) := do
  separatedUpTo false s stop r ((← ahead).length + 1) []

def commaList (r : Reader (List Tree)) : Reader (List Tree) :=
  return (← separated "," List.isEmpty r).trees "," id

end Reader
end EventBus.Source
