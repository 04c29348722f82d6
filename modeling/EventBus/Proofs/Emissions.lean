import EventBus.Expansion.Event
import EventBus.Expansion.Subscriber

/-!
# What is emitted

Both expansions emit an implementation of a trait with a list in one of its methods. Their texts are
those of the trees that are spelled out here, where each path is written from its root.
-/

namespace EventBus

open Source

namespace Source

/-! ## Trees of items -/

/-- A path of words alone, from the root. -/
def rooted (ws : List String) : List Tree := ws.flatMap fun w => marks "::" ++ [.word w]

def angle (ts : List Tree) : List Tree := marks "<" ++ ts ++ marks ">"

def byRef (ts : List Tree) : List Tree := marks "&" ++ ts

def call (path arguments : List Tree) : List Tree := path ++ [.group .parenthesis arguments]

def commaList (tss : List (List Tree)) : List Tree := (marks ",").intercalate tss

/-- A vector of what is given, in its order. -/
def vector (tss : List (List Tree)) : List Tree :=
  rooted ["std", "vec"] ++ marks "!" ++ [.group .bracket (commaList tss)]

def vectorOf (ts : List Tree) : List Tree := rooted ["std", "vec", "Vec"] ++ angle ts

/-- The event type of a type. -/
def eventTypeOf (ts : List Tree) : List Tree :=
  call (rooted ["eventide", "EventType", "of"] ++ marks "::" ++ angle ts) []

def anyObject : List Tree := byRef (.word "dyn" :: rooted ["std", "any", "Any"])

/-- What a method of that name takes and gives. -/
def header (name : String) (inputs result : List Tree) : List Tree :=
  call [.word "fn", .word name] inputs ++ marks "->" ++ result

def method (name : String) (inputs result body : List Tree) : List Tree :=
  header name inputs result ++ [.group .brace body]

/-- An implementation of one of the traits of the crate for a type with these parameters. -/
def implementing (trait : String) (g : Generics) (self body : List Tree) : List Tree :=
  .word "impl" :: g.forImpl ++ (rooted ["eventide", trait] ++ [.word "for"]) ++ self ++
    g.whereClause ++ [.group .brace body]

theorem text_group (d : Delimiter) (ts : List Tree) :
    text [.group d ts] = d.opening ++ text ts ++ d.closing := by
  rw [text, Tree.text, text, String.append_empty]

theorem text_word (w : String) : text [.word w] = unspaced w := by
  rw [text, Tree.text, text, String.append_empty]

theorem text_comma : text (marks ",") = "," := by rfl

theorem text_cons_word (w : String) (ts : List Tree) :
    text (.word w :: ts) = unspaced w ++ text ts := by
  rw [text, Tree.text]

theorem text_flatMap {β : Type} (f : β → List Tree) (bs : List β) :
    text (bs.flatMap f) = String.join (bs.map (text <| f ·)) := by
  induction bs with
  | nil => rfl
  | cons b bs ih => rw [List.flatMap_cons, text_append, ih, List.map_cons, String.join_cons]

theorem text_commaList (tss : List (List Tree)) :
    text (commaList tss) = ",".intercalate (tss.map text) := by
  unfold commaList
  induction tss with
  | nil => rfl
  | cons ts tss ih =>
    cases tss with
    | nil => simp
    | cons us tss =>
      rw [List.intercalate_cons_cons, text_append, text_append, ih, text_comma]
      exact String.intercalate_cons_cons.symm

theorem text_angle (ts : List Tree) : text (angle ts) = "<" ++ text ts ++ ">" := by
  rw [angle, text_append, text_append]
  rfl

theorem text_call (path arguments : List Tree) :
    text (call path arguments) = text path ++ "(" ++ text arguments ++ ")" := by
  rw [call, text_append, text_group]
  simp only [String.append_assoc]
  rfl

theorem text_eventTypeOf (ts : List Tree) :
    text (eventTypeOf ts) = "::eventide::EventType::of::<" ++ text ts ++ ">()" := by
  have hpath : text (rooted ["eventide", "EventType", "of"] ++ marks "::") =
      "::eventide::EventType::of::" := by rfl
  rw [eventTypeOf, text_call, text_append, hpath, text_angle]
  simp [← String.toList_inj, text]

theorem text_vector (tss : List (List Tree)) :
    text (vector tss) = "::std::vec![" ++ ",".intercalate (tss.map text) ++ "]" := by
  have hhead : text (rooted ["std", "vec"] ++ marks "!") = "::std::vec!" := by rfl
  rw [vector, text_append, hhead, text_group, text_commaList]
  simp [← String.toList_inj, Delimiter.opening, Delimiter.closing]

theorem text_method (name : String) (inputs result body : List Tree) :
    text (method name inputs result body) =
      text (header name inputs result) ++ "\x7b" ++ text body ++ "\x7d" := by
  rw [method, text_append, text_group]
  simp only [String.append_assoc]
  rfl

theorem text_implementing (trait : String) (g : Generics) (self body : List Tree) :
    text (implementing trait g self body) =
      "impl" ++ text g.forImpl ++ text (rooted ["eventide", trait] ++ [.word "for"]) ++ text self ++
        text g.whereClause ++ "\x7b" ++ text body ++ "\x7d" := by
  have himpl : unspaced "impl" = "impl" := by rfl
  rw [implementing, text_append, text_append, text_append, text_append,
    text_cons_word, himpl, text_group]
  simp only [String.append_assoc]
  rfl

end Source
end EventBus
