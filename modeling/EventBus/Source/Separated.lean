import EventBus.Source.Token

/-!
# Separated lists

Items with a mark between them, and whether the mark follows the last one as well.
-/

namespace EventBus.Source

structure Separated (α : Type) where
  items : List α
  closed : Bool

namespace Separated

variable {α β : Type}

def empty : Separated α := ⟨[], false⟩

def map (f : α → β) (s : Separated α) : Separated β := ⟨s.items.map f, s.closed⟩

def withMarks (s : Separated α) : List (α × Bool) :=
  s.items.zipIdx.map fun (a, i) => (a, s.closed || i + 1 < s.items.length)

def trees (mark : String) (f : α → List Tree) (s : Separated α) : List Tree :=
  s.withMarks.flatMap fun (a, marked) => f a ++ if marked then marks mark else []

end Separated
end EventBus.Source
