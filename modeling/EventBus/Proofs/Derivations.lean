import EventBus.Expansion.Event

/-!
# What a derivation reads off an item

A listing is read off the attributes of an item, and its parents are the marked fields of a structure
in the order of their declaration. A derivation that is accepted holds just these, and the two agree.
-/

namespace EventBus
namespace Expansion

open Source

/-! ## Marked fields -/

def isMarked (f : Field) : Bool :=
  match isParent f with
  | .ok marked => marked
  | .error _ => false

/-- The marked fields from place `i` on, each as code selects it: by its name, or by its place. -/
def markedFrom (i : Nat) (fields : List Field) : List Parent :=
  ((fields.zipIdx i).filter fun (f, _) => isMarked f).map fun (f, i) =>
    ⟨f.name?.elim (.position i) .named, f.type⟩

theorem markedFrom_cons (i : Nat) (f : Field) (fields : List Field) :
    markedFrom i (f :: fields) =
      if isMarked f then ⟨f.name?.elim (.position i) .named, f.type⟩ :: markedFrom (i + 1) fields
      else markedFrom (i + 1) fields := by
  cases hf : isMarked f <;> simp [markedFrom, List.zipIdx_cons, hf]

theorem bind_eq_ok_iff {ε β γ : Type} {x : Except ε β} {f : β → Except ε γ} {c : γ} :
    x >>= f = .ok c ↔ ∃ b, x = .ok b ∧ f b = .ok c := by
  cases x with
  | error e => simp [bind, Except.bind]
  | ok b => simp [bind, Except.bind]

theorem ofSyntax_eq_ok_iff {β : Type} {x : Except SyntaxError β} {b : β} :
    ofSyntax x = .ok b ↔ x = .ok b := by
  cases x <;> simp [ofSyntax]

theorem parentsFrom_eq_ok {fields : List Field} {i : Nat} {ps : List Parent}
    (h : parentsFrom i fields = .ok ps) : ps = markedFrom i fields := by
  induction fields generalizing i ps with
  | nil =>
    cases h
    rfl
  | cons f fields ih =>
    obtain ⟨marked, hm, h⟩ := bind_eq_ok_iff.mp h
    obtain ⟨rest, hrest, h⟩ := bind_eq_ok_iff.mp h
    have hf : isMarked f = marked := by rw [isMarked, hm]
    rw [markedFrom_cons, hf, ← ih hrest]
    cases h
    rfl

end Expansion

namespace Source

open Expansion

/-- The marked fields of a structure, in the order of their declaration. -/
def Data.parents : Data → List Parent
  | .product fields => markedFrom 0 fields.toList
  | .sum _ | .union _ => []

namespace Item

def parents (item : Item) : List Parent := item.data.parents

def listing (item : Item) : Listing :=
  match Listing.ofAttributes item.attributes with
  | .ok listing => listing
  | .error _ => .empty

end Item
end Source

namespace Expansion

open Source

theorem parentsOf_eq_ok {data : Data} {ps : List Parent} (h : parentsOf data = .ok ps) :
    ps = data.parents := by
  cases data with
  | product fields => exact parentsFrom_eq_ok (ofSyntax_eq_ok_iff.mp h)
  | sum variants =>
    obtain ⟨-, -, h⟩ := bind_eq_ok_iff.mp h
    cases h
    rfl
  | union fields => cases h

theorem derive_eq_ok {item : Item} {i : Implementation} (h : derive item = .ok i) :
    mismatches item.listing.supertypes item.parents = [] ∧
      i = ⟨item.name, item.generics, item.listing.supertypes ++ item.listing.markers,
        item.parents.map (·.selector)⟩ := by
  obtain ⟨listing, hl, h⟩ := bind_eq_ok_iff.mp h
  obtain ⟨parents, hp, h⟩ := bind_eq_ok_iff.mp h
  have hlisting : item.listing = listing := by rw [Item.listing, ofSyntax_eq_ok_iff.mp hl]
  have hparents : item.parents = parents := (parentsOf_eq_ok hp).symm
  rw [hlisting, hparents]
  split at h
  · rename_i hnone
    cases h
    exact ⟨hnone, rfl⟩
  · cases h

end Expansion
end EventBus
