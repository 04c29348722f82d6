import EventBus.Proofs.Emissions
import EventBus.Proofs.Pairings
import EventBus.Proofs.Readings

/-!
# Listings

However the paths of a listing are spread over attributes and over sections in them, the listing that
is read is the same, and so is the derivation. What it gives lists supertypes before markers, and
projects through the marked fields in their order. What it refuses has an error for each mismatch.
-/

namespace EventBus

open Source Expansion

namespace Source

open Reader

variable {g : Grammar} {ts rest : List Tree}

/-! ## Paths of words alone -/

def isSegment (w : String) : Bool :=
  startsOneOf ["super", "self", "crate", "try"] [.word w] || startsWord "Self" [.word w] ||
    isIdentifier w

def colons (joint : Bool) : List Tree := [.mark ':' true, .mark ':' joint]

/-- Words with double colons between them, and the path that they are. -/
inductive Path.Plain : List Tree → Path → Prop
  | word {w : String} (hw : isSegment w = true) : Plain [.word w] (.single [] (w, []))
  | rooted {w : String} {joint : Bool} (hw : isSegment w = true) :
    Plain (colons joint ++ [.word w]) (.single (colons joint) (w, []))
  | push {ts : List Tree} {p : Path} {w : String} {joint : Bool} (h : Plain ts p)
    (hw : isSegment w = true) :
    Plain (ts ++ (colons joint ++ [.word w])) (p.push (colons joint) (w, []))

theorem segment_eq {w : String} (hw : isSegment w = true)
    (hrest : startsArguments false rest = false) :
    g.segment false ⟨.word w :: rest, none⟩ = .ok ((w, []), ⟨rest, none⟩) := by
  have hplain : (if startsArguments false rest = true then (do return (w, ← g.arguments))
      else return (w, []) : Reader (String × List Tree)) ⟨rest, none⟩ =
        .ok ((w, []), ⟨rest, none⟩) := by
    rw [if_neg (by rw [hrest]; exact Bool.false_ne_true)]
    rfl
  unfold Grammar.segment
  rw [sees_bind]
  by_cases hfixed : startsOneOf ["super", "self", "crate", "try"] (.word w :: rest) = true
  · rw [if_pos hfixed]
    rfl
  · rw [if_neg hfixed, sees_bind]
    by_cases hself : startsWord "Self" (.word w :: rest) = true
    · rw [if_pos hself]
      exact hplain
    · rw [if_neg hself]
      have hid : isIdentifier w = true := by
        rcases Bool.or_eq_true_iff.mp hw with hw | hid
        · exact absurd (Bool.or_eq_true_iff.mp hw) (not_or.mpr ⟨hfixed, hself⟩)
        · exact hid
      rw [bind_of_ok (identifier_eq hid)]
      exact hplain

theorem segmentsUpTo_push {w : String} {joint : Bool} {p : Path} {fuel : Nat}
    (hw : isSegment w = true) (hrest : startsArguments false rest = false) :
    g.segmentsUpTo false (fuel + 1) p ⟨colons joint ++ .word w :: rest, none⟩ =
      g.segmentsUpTo false fuel (p.push (colons joint) (w, [])) ⟨rest, none⟩ := by
  have hcolons : mark "::" ⟨colons joint ++ .word w :: rest, none⟩ =
      .ok (colons joint, ⟨.word w :: rest, none⟩) := rfl
  rw [Grammar.segmentsUpTo, ahead_bind]
  show (if true = true then _ else _ : Reader Path) _ = _
  rw [if_pos rfl, bind_of_ok hcolons, bind_of_ok (segment_eq hw hrest)]

theorem segmentsUpTo_stop {p : Path} {fuel : Nat} (h : startsMark "::" rest = false) :
    g.segmentsUpTo false fuel p ⟨rest, none⟩ = .ok (p, ⟨rest, none⟩) := by
  cases fuel with
  | zero => rfl
  | succ fuel =>
    unfold Grammar.segmentsUpTo
    rw [ahead_bind]
    simp only [h, Bool.false_and, Bool.false_eq_true, if_false]
    rfl

/-- All segments are read, one after the other, and there is fuel for what comes next. The induction
is on a path that grows at its end, so what follows it is left open. -/
theorem Path.Plain.read_segments {p : Path} (h : Path.Plain ts p)
    (hrest : startsArguments false rest = false) :
    ∃ fuel, rest.length ≤ fuel ∧
      g.readPath false ⟨ts ++ rest, none⟩ = g.segmentsUpTo false fuel p ⟨rest, none⟩ := by
  induction h generalizing rest with
  | word hw =>
    refine ⟨rest.length, Nat.le_refl _, ?_⟩
    unfold Grammar.readPath
    rw [bind_of_ok (mark?_eq_nil rfl)]
    exact bind_of_ok (segment_eq hw hrest)
  | @rooted w joint hw =>
    have hcolons : mark? "::" ⟨colons joint ++ .word w :: rest, none⟩ =
        .ok (colons joint, ⟨.word w :: rest, none⟩) := rfl
    refine ⟨rest.length, Nat.le_refl _, ?_⟩
    unfold Grammar.readPath
    show (mark? "::" >>= _) ⟨colons joint ++ .word w :: rest, none⟩ = _
    rw [bind_of_ok hcolons]
    exact bind_of_ok (segment_eq hw hrest)
  | @push ts p w joint h hw ih =>
    have hnext : startsArguments false (colons joint ++ .word w :: rest) = false := rfl
    obtain ⟨fuel, hfuel, hread⟩ := ih hnext
    have hlen : (colons joint ++ .word w :: rest).length = rest.length + 3 := rfl
    obtain ⟨fuel, rfl⟩ : ∃ n, fuel = n + 1 := ⟨fuel - 1, by omega⟩
    refine ⟨fuel, by omega, ?_⟩
    rw [segmentsUpTo_push hw hrest] at hread
    rw [List.append_assoc, List.append_assoc]
    exact hread

/-- A path of words alone is read as such in any place where no further segment follows. -/
theorem Path.Plain.read {p : Path} (h : Path.Plain ts p) (hcolons : startsMark "::" rest = false)
    (hangle : startsMark "<" rest = false) (left : List Tree) :
    (Grammar.of left).path false ⟨ts ++ rest, none⟩ = .ok (p, ⟨rest, none⟩) := by
  have hrest : startsArguments false rest = false := by simp [startsArguments, hcolons, hangle]
  obtain ⟨fuel, -, hread⟩ := h.read_segments (g := .upTo (8 * weight left + 7)) hrest
  exact hread.trans (segmentsUpTo_stop hcolons)

/-! ## Lists of paths -/

/-- The trees are the paths, each read where it stands, with commas between them. -/
inductive Lists (g : Grammar) : List Tree → List Path → Prop
  | nil : Lists g [] []
  | last {ts : List Tree} {p : Path} (hne : ts ≠ [])
    (hp : g.path false ⟨ts, none⟩ = .ok (p, ⟨[], none⟩)) : Lists g ts [p]
  | cons {ts rest : List Tree} {joint : Bool} {p : Path} {ps : List Path}
    (hp : g.path false ⟨ts ++ .mark ',' joint :: rest, none⟩ =
      .ok (p, ⟨.mark ',' joint :: rest, none⟩))
    (h : Lists g rest ps) : Lists g (ts ++ .mark ',' joint :: rest) (p :: ps)

theorem Lists.last_plain {left : List Tree} {p : Path} (h : Path.Plain ts p) :
    Lists (.of left) ts [p] := by
  have hne : ts ≠ [] := by cases h <;> simp [colons]
  have hread : (Grammar.of left).path false ⟨ts ++ [], none⟩ = .ok (p, ⟨[], none⟩) :=
    h.read rfl rfl left
  rw [List.append_nil] at hread
  exact .last hne hread

theorem Lists.cons_plain {left : List Tree} {p : Path} {ps : List Path} (h : Path.Plain ts p)
    (joint : Bool) (hps : Lists (.of left) rest ps) :
    Lists (.of left) (ts ++ .mark ',' joint :: rest) (p :: ps) :=
  .cons (h.read rfl rfl left) hps

theorem Lists.separatedUpTo {ps : List Path} {fuel : Nat} (h : Lists g ts ps) (done : List Path)
    (hfuel : ts.length < fuel) :
    ∃ closed, Reader.separatedUpTo true "," List.isEmpty (g.path false) fuel done ⟨ts, none⟩ =
      .ok (⟨done.reverse ++ ps, closed⟩, ⟨[], none⟩) := by
  induction h generalizing done fuel with
  | nil =>
    obtain ⟨fuel, rfl⟩ := Nat.exists_eq_succ_of_ne_zero (Nat.ne_of_gt hfuel)
    refine ⟨!done.isEmpty, ?_⟩
    rw [List.append_nil]
    rfl
  | @last ts p hne hp =>
    obtain ⟨fuel, rfl⟩ := Nat.exists_eq_succ_of_ne_zero (Nat.ne_of_gt (Nat.zero_lt_of_lt hfuel))
    refine ⟨false, ?_⟩
    rw [Reader.separatedUpTo, ahead_bind]
    show (if ts.isEmpty = true then _ else _ : Reader (Separated Path)) _ = _
    rw [if_neg (by simpa using hne), bind_of_ok hp]
    simp
    rfl
  | @cons ts rest joint p ps hp h ih =>
    obtain ⟨fuel, rfl⟩ := Nat.exists_eq_succ_of_ne_zero (Nat.ne_of_gt (Nat.zero_lt_of_lt hfuel))
    have hlen : (ts ++ .mark ',' joint :: rest).length = ts.length + rest.length + 1 := by
      rw [List.length_append, List.length_cons, Nat.add_assoc]
    have hcomma : mark "," ⟨.mark ',' joint :: rest, none⟩ = .ok ([.mark ',' joint], ⟨rest, none⟩) :=
      rfl
    have hless : rest.length < fuel := by omega
    obtain ⟨closed, hread⟩ := ih (p :: done) hless
    refine ⟨closed, ?_⟩
    rw [Reader.separatedUpTo, ahead_bind]
    show (if (ts ++ _).isEmpty = true then _ else _ : Reader (Separated Path)) _ = _
    rw [if_neg (by simp), bind_of_ok hp, ahead_bind]
    show (if false = true then _ else _ : Reader (Separated Path)) _ = _
    rw [if_neg Bool.false_ne_true, bind_of_ok hcomma, hread]
    simp

end Source

namespace Expansion
namespace Listing

open Source.Reader

variable {g : Grammar} {ts rest : List Tree}

theorem paths_of_lists {ps : List Path} (h : Lists g ts ps) :
    paths g ⟨ts, none⟩ = .ok (ps, ⟨[], none⟩) := by
  obtain ⟨closed, hread⟩ := h.separatedUpTo [] (Nat.lt_succ_self ts.length)
  have hseparated : separated "," List.isEmpty (g.path false) ⟨ts, none⟩ =
      .ok (⟨ps, closed⟩, ⟨[], none⟩) := hread
  unfold paths
  exact bind_of_ok hseparated

/-! ## Sections -/

/-- What a section of the given name lists. -/
inductive Section : String → List Path → Listing → Prop
  | supertypes (ps : List Path) : Section "supertypes" ps ⟨ps, []⟩
  | markers (ps : List Path) : Section "markers" ps ⟨[], ps⟩

/-- The trees are sections, each with a comma after it or none, and list all that these do. -/
inductive Sections (g : Grammar) : List Tree → Listing → Prop
  | nil : Sections g [] empty
  | cons {name : String} {ts comma rest : List Tree} {ps : List Path} {part l : Listing}
    (hname : Section name ps part) (hps : Lists g ts ps)
    (hcomma : comma = [] ∨ ∃ joint, comma = [.mark ',' joint]) (h : Sections g rest l) :
    Sections g (.word name :: .group .parenthesis ts :: (comma ++ rest)) (part.append l)

theorem Sections.no_comma {l : Listing} (h : Sections g ts l) : startsMark "," ts = false := by
  cases h <;> rfl

theorem part_of_section {name : String} {ps : List Path} {l : Listing} {comma : List Tree}
    (hname : Section name ps l) (hps : Lists g ts ps)
    (hcomma : comma = [] ∨ ∃ joint, comma = [.mark ',' joint]) (hrest : startsMark "," rest = false) :
    part g ⟨.word name :: .group .parenthesis ts :: (comma ++ rest), none⟩ =
      .ok (l, ⟨rest, none⟩) := by
  have hwithin : within .parenthesis (paths g) ⟨.group .parenthesis ts :: (comma ++ rest), none⟩ =
      .ok (ps, ⟨comma ++ rest, none⟩) := within_eq (paths_of_lists hps)
  have hmark : ∃ colons, mark? "," ⟨comma ++ rest, none⟩ = .ok (colons, ⟨rest, none⟩) := by
    rcases hcomma with rfl | ⟨joint, rfl⟩
    · exact ⟨[], mark?_eq_nil hrest⟩
    · exact ⟨[.mark ',' joint], rfl⟩
  obtain ⟨colons, hmark⟩ := hmark
  unfold part
  cases hname with
  | supertypes =>
    rw [bind_of_ok (identifier_eq (by decide))]
    show (within .parenthesis (paths g) >>= _) _ = _
    rw [bind_of_ok hwithin, bind_of_ok hmark]
    rfl
  | markers =>
    rw [bind_of_ok (identifier_eq (by decide))]
    show (within .parenthesis (paths g) >>= _) _ = _
    rw [bind_of_ok hwithin, bind_of_ok hmark]
    rfl

/-! ## Putting listings together -/

theorem empty_append (l : Listing) : empty.append l = l := rfl

theorem append_empty (l : Listing) : l.append empty = l := by
  simp [append, empty]

theorem append_assoc (a b c : Listing) : (a.append b).append c = a.append (b.append c) := by
  simp [append]

instance : Std.Associative append := ⟨append_assoc⟩

theorem foldl_cons_append (l : Listing) (ls : List Listing) :
    (l :: ls).foldl append empty = l.append (ls.foldl append empty) :=
  calc
    ls.foldl append (empty.append l) = ls.foldl append (l.append empty) := by
      rw [empty_append, append_empty]
    _ = l.append (ls.foldl append empty) := List.foldl_assoc

/-- Section after section is read, down to the end. -/
theorem Sections.manyUpTo {l : Listing} {fuel : Nat} (h : Sections g ts l)
    (hfuel : ts.length ≤ fuel) :
    ∃ ls, Reader.manyUpTo (!·.isEmpty) (part g) fuel ⟨ts, none⟩ = .ok (ls, ⟨[], none⟩) ∧
      ls.foldl append empty = l := by
  induction h generalizing fuel with
  | nil =>
    refine ⟨[], ?_, rfl⟩
    cases fuel <;> rfl
  | @cons name ts comma rest ps first l hname hps hcomma h ih =>
    have hlen : (Tree.word name :: .group .parenthesis ts :: (comma ++ rest)).length =
        comma.length + rest.length + 2 := by
      rw [List.length_cons, List.length_cons, List.length_append]
    obtain ⟨fuel, rfl⟩ : ∃ n, fuel = n + 1 := ⟨fuel - 1, by omega⟩
    have hless : rest.length ≤ fuel := by omega
    obtain ⟨ls, hread, hls⟩ := ih hless
    -- no section starts with a comma, so one in front of `rest` is that of this section
    refine ⟨first :: ls, ?_, ?_⟩
    · rw [Reader.manyUpTo, ahead_bind]
      show (if true = true then _ else _ : Reader (List Listing)) _ = _
      rw [if_pos rfl, bind_of_ok (part_of_section hname hps hcomma h.no_comma), bind_of_ok hread]
      rfl
    · rw [foldl_cons_append, hls]

theorem parts_of_sections {l : Listing} (h : Sections g ts l) :
    parts g ⟨ts, none⟩ = .ok (l, ⟨[], none⟩) := by
  obtain ⟨ls, hread, rfl⟩ := h.manyUpTo (Nat.le_refl ts.length)
  have hall : toEnd (part g) ⟨ts, none⟩ = .ok (ls, ⟨[], none⟩) := hread
  unfold parts
  exact bind_of_ok hall

/-! ## Attributes -/

/-- The attributes list the paths: those that are named `event` in their sections, while all others
say nothing. -/
inductive Written : List Attribute → Listing → Prop
  | nil : Written [] empty
  | foreign {a : Attribute} {as : List Attribute} {l : Listing} (ha : a.isNamed "event" = false)
    (h : Written as l) : Written (a :: as) l
  | event {a : Attribute} {as : List Attribute} {d : Delimiter} {ts : List Tree}
    {first l : Listing} (ha : a.isNamed "event" = true) (hbody : a.body = .arguments d ts)
    (hts : Sections (.of ts) ts first) (h : Written as l) : Written (a :: as) (first.append l)

theorem readArguments_of_sections {a : Attribute} {d : Delimiter} {l : Listing}
    (hbody : a.body = .arguments d ts) (hts : Sections (.of ts) ts l) :
    a.readArguments "event" parts = .ok l := by
  unfold Attribute.readArguments
  rw [hbody]
  exact readAll_eq_ok_iff.mpr (parts_of_sections hts)

theorem Written.ofAttributes {as : List Attribute} {l : Listing} (h : Written as l) :
    Listing.ofAttributes as = .ok l := by
  have hread : ∃ ls, ((as.filter (·.isNamed "event")).mapM fun a => a.readArguments "event" parts) =
      Except.ok ls ∧ ls.foldl append empty = l := by
    induction h with
    | nil => exact ⟨[], rfl, rfl⟩
    | foreign ha h ih => rwa [List.filter_cons_of_neg (by simp [ha])]
    | @event a as d ts first l ha hbody hts h ih =>
      obtain ⟨ls, hls, hl⟩ := ih
      refine ⟨first :: ls, ?_, ?_⟩
      · rw [List.filter_cons_of_pos (p := fun a : Attribute => a.isNamed "event") ha,
          List.mapM_cons, readArguments_of_sections hbody hts]
        show (_ >>= _ : Except SyntaxError (List Listing)) = _
        rw [hls]
        rfl
      · rw [foldl_cons_append, hl]
  obtain ⟨ls, hls, rfl⟩ := hread
  unfold Listing.ofAttributes
  rw [hls]
  rfl

end Listing

/-! ## What is emitted -/

theorem unspaced_toString (n : Nat) : unspaced (toString n) = toString n := by
  apply unspaced_eq
  intro c hc
  rw [Nat.toString_eq_repr, Nat.toList_repr] at hc
  have hdigit : c.isDigit = true := Nat.isDigit_of_mem_toDigits (by decide) (by decide) hc
  apply isBlank_of_isWordPart
  rw [isWordPart, hdigit, Bool.or_true]

def Selector.tree : Selector → Tree
  | named name => .word name
  | position i => .literal (toString i)

theorem Selector.text_eq (s : Selector) : s.text = Source.text [s.tree] := by
  cases s with
  | named name => exact (text_word name).symm
  | position i =>
    rw [Source.text, Source.text, String.append_empty]
    exact (unspaced_toString i).symm

/-- The place of what is looked for. -/
def found (ts : List Tree) : List Tree := call (rooted ["core", "option", "Option", "Some"]) ts

def returnFound (ts : List Tree) : List Tree :=
  [.group .brace (.word "return" :: found ts ++ marks ";")]

/-- The item itself is what is looked for if it is of the type. -/
def selfTest : List Tree :=
  [.word "if", .word "target"] ++ marks "==" ++
    call (rooted ["std", "any", "TypeId", "of"] ++ marks "::" ++ angle [.word "Self"]) [] ++
    returnFound [.word "self"]

/-- What is looked for is what the parent projects to, if it does. -/
def parentTest (s : Selector) : List Tree :=
  [.word "if", .word "let"] ++ found [.word "found"] ++ marks "=" ++
    call (rooted ["eventide", "Hierarchy", "project"])
      (byRef (.word "self" :: marks ".") ++ [s.tree] ++ (marks "," ++ [.word "target"])) ++
    returnFound [.word "found"]

def listedTypes (ps : List Path) : List (List Tree) := ps.map fun p => eventTypeOf p.trees

def supertypesMethod (ps : List Path) : List Tree :=
  method "supertypes" [] (vectorOf (rooted ["eventide", "EventType"])) (vector (listedTypes ps))

/-- The method that projects to the item itself and then through its parents, of which there are
some. -/
def projectMethod (ss : List Selector) : List Tree :=
  if ss = [] then []
  else
    method "project"
      (byRef (.word "self" :: marks ",") ++ .word "target" :: marks ":" ++
        rooted ["std", "any", "TypeId"] ++ marks ",")
      (rooted ["core", "option", "Option"] ++ angle anyObject)
      (selfTest ++ ss.flatMap parentTest ++ rooted ["core", "option", "Option", "None"])

namespace Implementation

theorem supertypesText_eq (i : Implementation) :
    i.supertypesText = Source.text (commaList (listedTypes i.listed)) := by
  have htexts : (listedTypes i.listed).map Source.text =
      i.listed.map fun p => "::eventide::EventType::of::<" ++ pathText p ++ ">()" := by
    rw [listedTypes, List.map_map]
    exact List.map_congr_left fun p _ => text_eventTypeOf p.trees
  rw [text_commaList, htexts]
  rfl

theorem selectionText_eq (s : Selector) : selectionText s = Source.text (parentTest s) := by
  have hlet : Source.text ([.word "if", .word "let"] ++ found [.word "found"] ++ marks "=") =
      "iflet::core::option::Option::Some(found)=" := by decide +kernel
  have hpath : Source.text (rooted ["eventide", "Hierarchy", "project"]) =
      "::eventide::Hierarchy::project" := by decide +kernel
  have hself : Source.text (byRef (.word "self" :: marks ".")) = "&self." := by decide +kernel
  have htarget : Source.text (marks "," ++ [.word "target"]) = ",target" := by decide +kernel
  have hreturn : Source.text (returnFound [.word "found"]) =
      "\x7breturn::core::option::Option::Some(found);\x7d" := by decide +kernel
  rw [parentTest, text_append, text_append, hlet, text_call, hpath, text_append, text_append, hself,
    ← Selector.text_eq, htarget, hreturn]
  unfold selectionText
  simp [← String.toList_inj]

theorem projectionText_eq (i : Implementation) :
    i.projectionText = Source.text (projectMethod i.parents) := by
  unfold projectionText projectMethod
  by_cases hnil : i.parents = []
  · rw [if_pos hnil, hnil]
    rfl
  · have hheader : Source.text (header "project"
        (byRef (.word "self" :: marks ",") ++ .word "target" :: marks ":" ++
          rooted ["std", "any", "TypeId"] ++ marks ",")
        (rooted ["core", "option", "Option"] ++ angle anyObject)) =
          "fnproject(&self,target:::std::any::TypeId,)->::core::option::Option<&dyn::std::any::Any>" := by
      decide +kernel
    have hself : Source.text selfTest = "iftarget==::std::any::TypeId::of::<Self>()" ++
        "\x7breturn::core::option::Option::Some(self);\x7d" := by decide +kernel
    have hnone : Source.text (rooted ["core", "option", "Option", "None"]) =
        "::core::option::Option::None" := by decide +kernel
    have htests : i.parents.map selectionText = i.parents.map (Source.text <| parentTest ·) :=
      List.map_congr_left fun s _ => selectionText_eq s
    have hopen : "\x7biftarget==::std::any::TypeId::of::<Self>()" =
        "\x7b" ++ "iftarget==::std::any::TypeId::of::<Self>()" := by decide +kernel
    have hclose : "::core::option::Option::None\x7d" = "::core::option::Option::None" ++ "\x7d" := by
      decide +kernel
    rw [if_neg hnil, if_neg (by simpa using hnil), text_method, hheader, text_append, text_append,
      hself, hnone, text_flatMap, htests, hopen, hclose]
    simp only [String.append_assoc]

theorem projectionText_eq_empty_iff (i : Implementation) :
    i.projectionText = "" ↔ i.parents = [] := by
  unfold projectionText
  rw [← List.isEmpty_iff]
  cases i.parents.isEmpty with
  | true => exact iff_of_true rfl rfl
  | false =>
    refine iff_of_false ?_ Bool.false_ne_true
    rw [if_neg Bool.false_ne_true]
    simp only [String.append_eq_empty_iff]
    rintro ⟨⟨⟨⟨hheader, -⟩, -⟩, -⟩, -⟩
    exact absurd hheader (by decide)

/-- What is emitted is one implementation that lists the types and projects through the parents. -/
theorem text_eq (i : Implementation) :
    i.text = Source.text (implementing "Hierarchy" i.generics (.word i.name :: i.generics.asArguments)
      (supertypesMethod i.listed ++ projectMethod i.parents)) := by
  have htrait : Source.text (rooted ["eventide", "Hierarchy"] ++ [.word "for"]) =
      "::eventide::Hierarchyfor" := by decide +kernel
  have hheader : Source.text (header "supertypes" [] (vectorOf (rooted ["eventide", "EventType"]))) =
      "fnsupertypes()->::std::vec::Vec<::eventide::EventType>" := by decide +kernel
  rw [text_implementing, htrait, text_cons_word, text_append, supertypesMethod, text_method, hheader,
    text_vector, ← text_commaList, ← supertypesText_eq, ← projectionText_eq]
  unfold text
  simp [← String.toList_inj]

end Implementation

/-! ## The derivation -/

theorem derive_eq {item : Item} {l : Listing} (hl : Listing.ofAttributes item.attributes = .ok l) :
    derive item = (parentsOf item.data >>= fun parents =>
      match mismatches l.supertypes parents with
      | [] => .ok ⟨item.name, item.generics, l.supertypes ++ l.markers, parents.map (·.selector)⟩
      | es => .error es) := by
  unfold derive
  rw [hl]
  rfl

theorem filter_absent {β γ : Type} (f : β → String) (h : γ → String) (bs : List β) (cs : List γ) :
    (bs.map f).filter (!(cs.map h).contains ·) = (bs.filter fun b => ∀ c ∈ cs, h c ≠ f b).map f := by
  rw [List.filter_map]
  apply congrArg (List.map f)
  apply List.filter_congr
  intro b _
  rw [Bool.eq_iff_iff]
  simp

/-- There is one error for each listed type of a text that no parent has, and then one for each parent
of a text that is not listed. -/
theorem mismatches_eq (supertypes : List Path) (parents : List Parent) :
    mismatches supertypes parents =
      (supertypes.filter fun s => ∀ p ∈ parents, parentText p ≠ pathText s).map
          (fun s => .noField (pathText s)) ++
        (parents.filter fun p => ∀ s ∈ supertypes, pathText s ≠ parentText p).map
          fun p => .notListed (parentText p) := by
  show ((supertypes.map pathText).filter (!(parents.map parentText).contains ·)).map
        DeriveError.noField ++
      ((parents.map parentText).filter (!(supertypes.map pathText).contains ·)).map
        DeriveError.notListed = _
  rw [filter_absent, filter_absent, List.map_map, List.map_map]
  rfl

theorem derive_eq_error_iff {item : Item} {l : Listing} {ps : List Parent} {es : List DeriveError}
    (hl : Listing.ofAttributes item.attributes = .ok l) (hps : parentsOf item.data = .ok ps) :
    derive item = .error es ↔ es ≠ [] ∧ es = mismatches l.supertypes ps := by
  rw [derive_eq hl, hps]
  show (match mismatches l.supertypes ps with | [] => _ | es => _ : Except _ _) = _ ↔ _
  cases mismatches l.supertypes ps with
  | nil =>
    constructor
    · intro h
      cases h
    · rintro ⟨hne, rfl⟩
      exact absurd rfl hne
  | cons e more =>
    constructor
    · intro h
      cases h
      exact ⟨List.cons_ne_nil e more, rfl⟩
    · rintro ⟨-, rfl⟩
      rfl

/-- A derivation depends on what is listed alone, however that is spread over attributes and sections.
What it emits is one implementation. It lists supertypes and then markers, and projects just if there
are marked fields: to the item itself, and then through each of them in order, which goes by its name
or by its place among all fields. What does not pair is an error each, the listed types before the
fields. -/
theorem derive_depends_on_listing {item : Item} {l : Listing}
    (hl : Listing.ofAttributes item.attributes = .ok l) :
    (∀ as, Listing.Written as l → derive { item with attributes := as } = derive item) ∧
    (∀ i, derive item = .ok i →
      i.text = Source.text (implementing "Hierarchy" item.generics
        (.word item.name :: item.generics.asArguments)
        (supertypesMethod (l.supertypes ++ l.markers) ++
          projectMethod (item.parents.map (·.selector)))) ∧
      i.supertypesText = Source.text (commaList (listedTypes (l.supertypes ++ l.markers))) ∧
      i.projectionText = Source.text (projectMethod (item.parents.map (·.selector))) ∧
      (i.projectionText = "" ↔ item.parents = [])) ∧
    (item.parents = match item.data with
      | .product fields => (fields.toList.zipIdx.filter fun (f, _) => isMarked f).map fun (f, k) =>
        ⟨f.name?.elim (.position k) .named, f.type⟩
      | .sum _ | .union _ => []) ∧
    ∀ ps, parentsOf item.data = .ok ps → ps = item.parents ∧ ∀ es, derive item = .error es ↔
      es ≠ [] ∧ es =
        (l.supertypes.filter fun s => ∀ p ∈ item.parents, parentText p ≠ pathText s).map
            (fun s => .noField (pathText s)) ++
          (item.parents.filter fun p => ∀ s ∈ l.supertypes, pathText s ≠ parentText p).map
            fun p => .notListed (parentText p) := by
  refine ⟨?_, ?_, ?_, ?_⟩
  · intro as has
    have hl' : Listing.ofAttributes { item with attributes := as }.attributes = .ok l :=
      has.ofAttributes
    rw [derive_eq hl, derive_eq hl']
  · intro i hi
    obtain ⟨-, rfl⟩ := derive_eq_ok hi
    have hlisting : item.listing = l := by rw [Item.listing, hl]
    rw [hlisting]
    refine ⟨Implementation.text_eq _, Implementation.supertypesText_eq _,
      Implementation.projectionText_eq _, ?_⟩
    rw [Implementation.projectionText_eq_empty_iff]
    exact List.map_eq_nil_iff
  · unfold Item.parents
    cases item.data <;> rfl
  · intro ps hps
    have hparents : ps = item.parents := parentsOf_eq_ok hps
    refine ⟨hparents, ?_⟩
    intro es
    rw [derive_eq_error_iff hl hps, hparents, mismatches_eq]

/-! A listing in one attribute, and spread over two with another one between them. -/

namespace Parcel

def order : Path := .single [] ("Order", [])

def stock : Path := (Path.single [] ("shop", [])).push (colons false) ("Stock", [])

def audited : Path := .single [] ("Audited", [])

def listing : Listing := ⟨[order, stock], [audited]⟩

def comma : Tree := .mark ',' false

def stockTrees : List Tree := [.word "shop"] ++ (colons false ++ [.word "Stock"])

def listed (name : String) (ts : List Tree) : List Tree := [.word name, .group .parenthesis ts]

def together : List Attribute :=
  [Crate.eventMark (listed "markers" [.word "Audited"] ++
    (comma :: listed "supertypes" (.word "Order" :: comma :: stockTrees)))]

def apart : List Attribute :=
  [Crate.eventMark (listed "supertypes" [.word "Order", comma]),
    ⟨false, [.word "derive"], .arguments .parenthesis [.word "Clone"]⟩,
    Crate.eventMark (listed "supertypes" stockTrees ++ listed "markers" [.word "Audited"])]

def field (isMarked : Bool) (p : Path) : Field :=
  ⟨if isMarked then [Crate.eventMark [.word "parent"]] else [], [], none, .path p⟩

/-- A tuple with an unmarked field between the two that hold supertypes. -/
def parcel (held : Path) : Item where
  attributes := apart
  visibility := []
  name := "Parcel"
  generics := .empty
  data := .product (.tuple ⟨[field true order, field false audited, field true held], false⟩)

theorem plain_order : Path.Plain [.word "Order"] order := .word (by decide)

theorem plain_stock : Path.Plain stockTrees stock := .push (.word (by decide)) (by decide)

theorem plain_audited : Path.Plain [.word "Audited"] audited := .word (by decide)

theorem written_together : Listing.Written together listing :=
  .event rfl rfl (.cons (.markers _) (.last_plain plain_audited) (.inr ⟨false, rfl⟩)
    (.cons (.supertypes _) (.cons_plain plain_order false (.last_plain plain_stock))
      (.inl rfl) .nil)) .nil

theorem written_apart : Listing.Written apart listing :=
  .event rfl rfl (.cons (.supertypes _) (.cons_plain plain_order false .nil) (.inl rfl) .nil)
    (.foreign (by decide)
      (.event rfl rfl (.cons (.supertypes _) (.last_plain plain_stock) (.inl rfl)
        (.cons (.markers _) (.last_plain plain_audited) (.inl rfl) .nil)) .nil))

theorem isParent_field (marked : Bool) (p : Path) : isParent (field marked p) = .ok marked := by
  cases marked
  · rfl
  · cbv

theorem parentsOf_parcel (held : Path) : parentsOf (parcel held).data =
    .ok [⟨.position 0, .path order⟩, ⟨.position 2, .path held⟩] := by
  have hread : parentsFrom 0 [field true order, field false audited, field true held] =
      .ok [⟨.position 0, .path order⟩, ⟨.position 2, .path held⟩] := by
    simp only [parentsFrom, isParent_field]
    rfl
  exact ofSyntax_eq_ok_iff.mpr hread

theorem parents_parcel (held : Path) : (parcel held).parents =
    [⟨.position 0, .path order⟩, ⟨.position 2, .path held⟩] :=
  (parentsOf_eq_ok (parentsOf_parcel held)).symm

theorem derive_parcel_apart_as_together :
    Listing.ofAttributes apart = .ok listing ∧ Listing.Written together listing ∧
    derive { parcel stock with attributes := together } = derive (parcel stock) ∧
    (∃ i, derive (parcel stock) = .ok i ∧
      i.text = "impl::eventide::HierarchyforParcel\x7b" ++
        "fnsupertypes()->::std::vec::Vec<::eventide::EventType>\x7b::std::vec![" ++
        "::eventide::EventType::of::<Order>(),::eventide::EventType::of::<shop::Stock>()," ++
        "::eventide::EventType::of::<Audited>()]\x7d" ++
        "fnproject(&self,target:::std::any::TypeId,)" ++
        "->::core::option::Option<&dyn::std::any::Any>\x7b" ++
        "iftarget==::std::any::TypeId::of::<Self>()" ++
        "\x7breturn::core::option::Option::Some(self);\x7d" ++
        "iflet::core::option::Option::Some(found)=::eventide::Hierarchy::project(&self.0,target)" ++
        "\x7breturn::core::option::Option::Some(found);\x7d" ++
        "iflet::core::option::Option::Some(found)=::eventide::Hierarchy::project(&self.2,target)" ++
        "\x7breturn::core::option::Option::Some(found);\x7d" ++
        "::core::option::Option::None\x7d\x7d") ∧
    derive (parcel audited) = .error [.noField "shop::Stock", .notListed "Audited"] := by
  have hl (held : Path) : Listing.ofAttributes (parcel held).attributes = .ok listing :=
    written_apart.ofAttributes
  obtain ⟨hsame, hok, -, -⟩ := derive_depends_on_listing (hl stock)
  obtain ⟨-, -, -, herror⟩ := derive_depends_on_listing (hl audited)
  refine ⟨hl stock, written_together, hsame together written_together, ?_, ?_⟩
  · have hnone : mismatches listing.supertypes
        [⟨.position 0, .path order⟩, ⟨.position 2, .path stock⟩] = [] := by decide
    have hi : ∃ i, derive (parcel stock) = .ok i := by
      rw [derive_eq (hl stock), parentsOf_parcel]
      simp only [bind, Except.bind, hnone]
      exact ⟨_, rfl⟩
    obtain ⟨i, hi⟩ := hi
    obtain ⟨htext, -⟩ := hok i hi
    rw [parents_parcel] at htext
    refine ⟨i, hi, htext.trans ?_⟩
    decide +kernel
  · obtain ⟨-, herror⟩ := herror _ (parentsOf_parcel audited)
    rw [herror, parents_parcel]
    decide

end Parcel
end Expansion
end EventBus
