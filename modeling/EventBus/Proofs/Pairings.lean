import EventBus.Proofs.Derivations
import EventBus.Proofs.Spellings

/-!
# Supertypes and their fields

A derivation pairs supertypes and fields by their text. It accepts an item just if each listed type
has a marked field of the same text and each marked field is listed. Where the texts are legible that
is to say of the same tokens. Where words stand side by side it is not: `dyn Ping` reads `dynPing`.
-/

namespace EventBus

open Source Expansion

namespace Source

def Data.isUnion : Data → Bool
  | .union _ => true
  | _ => false

def Data.variantFields : Data → List Field
  | .sum variants => variants.items.flatMap (·.fields.toList)
  | _ => []

def Data.fields : Data → List Field
  | .product fields | .union fields => fields.toList
  | .sum variants => variants.items.flatMap (·.fields.toList)

/-- The attributes that mark the field, if there are any, are well-formed. -/
def Field.WellMarked (f : Field) : Prop := ∃ marked, isParent f = .ok marked

/-- What is asked of an item that lists the supertypes, if supertypes and fields go by the trees that
are alike. -/
structure Item.Pairs (item : Item) (supertypes : List Path) (alike : List Tree → List Tree → Prop) :
    Prop where
  notUnion : item.data.isUnion = false
  unmarked : ∀ f ∈ item.data.variantFields, isMarked f = false
  held : ∀ s ∈ supertypes, ∃ p ∈ item.parents, alike p.type.trees s.trees
  listed : ∀ p ∈ item.parents, ∃ s ∈ supertypes, alike p.type.trees s.trees

end Source

namespace Expansion

theorem isMarked_eq {f : Field} {marked : Bool} (h : isParent f = .ok marked) :
    isMarked f = marked := by
  rw [isMarked, h]

theorem parentsFrom_of_ok {fields : List Field} (h : ∀ f ∈ fields, f.WellMarked) (i : Nat) :
    parentsFrom i fields = .ok (markedFrom i fields) := by
  induction fields generalizing i with
  | nil => rfl
  | cons f fields ih =>
    obtain ⟨marked, hm⟩ := h f (List.mem_cons_self ..)
    rw [parentsFrom, hm, ih (fun g hg => h g (List.mem_cons_of_mem f hg)) (i + 1), markedFrom_cons,
      isMarked_eq hm]
    cases marked <;> rfl

theorem noParents_eq_ok_iff {fields : List Field} (h : ∀ f ∈ fields, f.WellMarked) :
    noParents fields = .ok () ↔ ∀ f ∈ fields, isMarked f = false := by
  induction fields with
  | nil => simp [noParents]
  | cons f fields ih =>
    obtain ⟨marked, hm⟩ := h f (List.mem_cons_self ..)
    rw [List.forall_mem_cons, isMarked_eq hm, ← ih fun g hg => h g (List.mem_cons_of_mem f hg),
      noParents, hm]
    cases marked with
    | false => simp [ofSyntax, bind, Except.bind]
    | true => simp [ofSyntax, bind, Except.bind, throw, throwThe, MonadExceptOf.throw]

theorem parentsOf_eq_ok_iff {data : Data} (h : ∀ f ∈ data.fields, f.WellMarked) :
    (∃ ps, parentsOf data = .ok ps) ↔
      data.isUnion = false ∧ ∀ f ∈ data.variantFields, isMarked f = false := by
  cases data with
  | product fields =>
    refine iff_of_true ⟨markedFrom 0 fields.toList, ?_⟩ ⟨rfl, fun f hf => nomatch hf⟩
    exact ofSyntax_eq_ok_iff.mpr (parentsFrom_of_ok h 0)
  | sum variants =>
    constructor
    · rintro ⟨ps, hps⟩
      obtain ⟨⟨⟩, hno, -⟩ := bind_eq_ok_iff.mp hps
      exact ⟨rfl, (noParents_eq_ok_iff h).mp hno⟩
    · rintro ⟨-, hno⟩
      exact ⟨[], bind_eq_ok_iff.mpr ⟨(), (noParents_eq_ok_iff h).mpr hno, rfl⟩⟩
  | union fields => exact iff_of_false (fun ⟨_, h⟩ => nomatch h) fun ⟨h, _⟩ => nomatch h

theorem mismatches_eq_nil_iff_pairs {item : Item} {supertypes : List Path}
    (hu : item.data.isUnion = false) (hm : ∀ f ∈ item.data.variantFields, isMarked f = false) :
    mismatches supertypes item.parents = [] ↔
      item.Pairs supertypes fun ts us => Source.text ts = Source.text us := by
  rw [mismatches_eq_nil_iff]
  constructor
  · rintro ⟨hheld, hlisted⟩
    exact ⟨hu, hm, hheld, fun p hp => (hlisted p hp).imp fun s hs => ⟨hs.1, hs.2.symm⟩⟩
  · rintro ⟨-, -, hheld, hlisted⟩
    exact ⟨hheld, fun p hp => (hlisted p hp).imp fun s hs => ⟨hs.1, hs.2.symm⟩⟩

theorem derive_ok_iff {item : Item} {listing : Listing}
    (hl : Listing.ofAttributes item.attributes = .ok listing)
    (hf : ∀ f ∈ item.data.fields, f.WellMarked) :
    (∃ i, derive item = .ok i) ↔
      item.Pairs listing.supertypes fun ts us => Source.text ts = Source.text us := by
  have hlisting : item.listing = listing := by rw [Item.listing, hl]
  constructor
  · rintro ⟨i, hi⟩
    obtain ⟨hnone, -⟩ := derive_eq_ok hi
    obtain ⟨_, -, hi⟩ := bind_eq_ok_iff.mp hi
    obtain ⟨ps, hps, -⟩ := bind_eq_ok_iff.mp hi
    obtain ⟨hu, hm⟩ := (parentsOf_eq_ok_iff hf).mp ⟨ps, hps⟩
    rw [hlisting] at hnone
    exact (mismatches_eq_nil_iff_pairs hu hm).mp hnone
  · intro h
    obtain ⟨ps, hps⟩ := (parentsOf_eq_ok_iff hf).mpr ⟨h.notUnion, h.unmarked⟩
    have hparents : ps = item.parents := parentsOf_eq_ok hps
    have hnone := (mismatches_eq_nil_iff_pairs h.notUnion h.unmarked).mpr h
    refine ⟨⟨item.name, item.generics, listing.supertypes ++ listing.markers,
      ps.map (·.selector)⟩, bind_eq_ok_iff.mpr ⟨listing, ofSyntax_eq_ok_iff.mpr hl, ?_⟩⟩
    refine bind_eq_ok_iff.mpr ⟨ps, hps, ?_⟩
    rw [hparents, hnone]
    rfl

/-- An item whose attributes are well-formed is accepted just if it is no union, no field of a variant
is marked, each listed type has a marked field of the same text and each marked field is listed. If the
texts are legible, that is to say: of the same tokens, irrespective of spacing. -/
theorem derive_pairs_spellings {item : Item} {listing : Listing}
    (hl : Listing.ofAttributes item.attributes = .ok listing)
    (hf : ∀ f ∈ item.data.fields, f.WellMarked) :
    ((∃ i, derive item = .ok i) ↔
      item.Pairs listing.supertypes fun ts us => Source.text ts = Source.text us) ∧
    ((∀ s ∈ listing.supertypes, Legible (tokens s.trees)) →
      (∀ p ∈ item.parents, Legible (tokens p.type.trees)) →
        ((∃ i, derive item = .ok i) ↔ item.Pairs listing.supertypes SameTokens)) := by
  have hiff := derive_ok_iff hl hf
  refine ⟨hiff, fun hs hp => hiff.trans ⟨fun h => ?_, fun h => ?_⟩⟩
  · refine ⟨h.notUnion, h.unmarked, fun s hs' => ?_, fun p hp' => ?_⟩
    · obtain ⟨p, hp', heq⟩ := h.held s hs'
      exact ⟨p, hp', (text_eq_iff (hp p hp') (hs s hs')).mp heq⟩
    · obtain ⟨s, hs', heq⟩ := h.listed p hp'
      exact ⟨s, hs', (text_eq_iff (hp p hp') (hs s hs')).mp heq⟩
  · refine ⟨h.notUnion, h.unmarked, fun s hs' => ?_, fun p hp' => ?_⟩
    · obtain ⟨p, hp', heq⟩ := h.held s hs'
      exact ⟨p, hp', heq.text_eq⟩
    · obtain ⟨s, hs', heq⟩ := h.listed p hp'
      exact ⟨s, hs', heq.text_eq⟩

/-! A structure that holds its supertype, and one that holds another type of the same text. -/

namespace Crate

def eventMark (arguments : List Tree) : Attribute :=
  ⟨false, [.word "event"], .arguments .parenthesis arguments⟩

def boxed (trees : List Tree) : Path :=
  ⟨.word "Box" :: marks "<" ++ trees ++ marks ">", "Box", true, true, true⟩

def crate (listed held : List Tree) : Item where
  attributes := [eventMark [.word "supertypes", .group .parenthesis
    (.word "Box" :: .mark '<' false :: listed ++ [.mark '>' false])]]
  visibility := []
  name := "Crate"
  generics := .empty
  data := .product (.named ⟨[⟨[eventMark [.word "parent"]], [], some "inner",
    .path (boxed held)⟩], false⟩)

def ping : List Tree := [.word "Ping"]
def dynPing : List Tree := [.word "dyn", .word "Ping"]
def joined : List Tree := [.word "dynPing"]

theorem crate_marked (listed held : List Tree) :
    (∀ f ∈ (crate listed held).data.fields, f.WellMarked) ∧
      (crate listed held).parents = [⟨.named "inner", .path (boxed held)⟩] := by
  have hmark : isParent ⟨[eventMark [.word "parent"]], [], some "inner", .path (boxed held)⟩ =
      .ok true := by cbv
  refine ⟨fun f hf => ?_, ?_⟩
  · rw [List.mem_singleton.mp hf]
    exact ⟨true, hmark⟩
  · show markedFrom 0 [_] = _
    rw [markedFrom_cons, isMarked_eq hmark]
    rfl

theorem pairs_crate {listed held : List Tree} {alike : List Tree → List Tree → Prop}
    (h : alike (boxed held).trees (boxed listed).trees) :
    (crate listed held).Pairs [boxed listed] alike := by
  obtain ⟨-, hparents⟩ := crate_marked listed held
  refine ⟨rfl, fun f hf => (nomatch hf), fun s hs => ?_, fun p hp => ?_⟩
  · rw [List.mem_singleton.mp hs, hparents]
    exact ⟨_, List.mem_singleton_self _, h⟩
  · rw [hparents] at hp
    rw [List.mem_singleton.mp hp]
    exact ⟨_, List.mem_singleton_self _, h⟩

theorem legible_boxed : Legible (tokens (boxed ping).trees) := ⟨by decide, by decide⟩

theorem derive_pairs_boxed_ping :
    Listing.ofAttributes (crate ping ping).attributes = .ok ⟨[boxed ping], []⟩ ∧
      (∀ f ∈ (crate ping ping).data.fields, f.WellMarked) ∧
      Legible (tokens (boxed ping).trees) ∧ (crate ping ping).Pairs [boxed ping] SameTokens ∧
      ∃ i, derive (crate ping ping) = .ok i := by
  have hl : Listing.ofAttributes (crate ping ping).attributes = .ok ⟨[boxed ping], []⟩ := by cbv
  obtain ⟨hf, hparents⟩ := crate_marked ping ping
  have hpairs : (crate ping ping).Pairs [boxed ping] SameTokens := pairs_crate rfl
  refine ⟨hl, hf, legible_boxed, hpairs, ?_⟩
  refine ((derive_pairs_spellings hl hf).2 (fun s hs => ?_) fun p hp => ?_).mpr hpairs
  · rw [List.mem_singleton.mp hs]
    exact legible_boxed
  · rw [hparents] at hp
    rw [List.mem_singleton.mp hp]
    exact legible_boxed

/-- The text of `dyn Ping` is that of one word. -/
theorem derive_accepts_dyn_ping_as_dynPing :
    Listing.ofAttributes (crate joined dynPing).attributes = .ok ⟨[boxed joined], []⟩ ∧
      (∀ f ∈ (crate joined dynPing).data.fields, f.WellMarked) ∧
      (∃ i, derive (crate joined dynPing) = .ok i) ∧
      ∀ p ∈ (crate joined dynPing).parents, ¬SameTokens p.type.trees (boxed joined).trees := by
  have hl : Listing.ofAttributes (crate joined dynPing).attributes = .ok ⟨[boxed joined], []⟩ := by
    cbv
  obtain ⟨hf, hparents⟩ := crate_marked joined dynPing
  have htext : Source.text (boxed dynPing).trees = Source.text (boxed joined).trees := by decide
  refine ⟨hl, hf, (derive_ok_iff hl hf).mpr (pairs_crate htext), fun p hp h => ?_⟩
  rw [hparents] at hp
  rw [List.mem_singleton.mp hp] at h
  have hlen := congrArg List.length h
  simp [Ty.trees, boxed, marks, dynPing, joined, loose] at hlen

end Crate
end Expansion
end EventBus
